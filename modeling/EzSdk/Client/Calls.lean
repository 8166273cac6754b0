import EzSdk.Client.Model
import EzSdk.Foundation.HeapLists
import Mathlib.Algebra.Group.Nat.Defs

/-! Completion of unary calls: when the callback runs, what it is told, and what
happens to the caller's response string. -/

namespace EzSdk.Client

open HeapLists

/-- The answer is good for a call that sent this id. -/
def Completion.Delivers (completion : Completion) (ipcMessageId : UInt64) : Prop :=
  completion.status.ok = true ∧ completion.response.metadata.ipcMessageId = ipcMessageId ∧
    (∀ index < completion.response.metadata.sharedMemoryHandles.length,
      (completion.os index).isMapped = true) ∧
    completion.response.datagrams ≠ []

/-- What holds of every call: before its completion neither the callback nor the
response string has been touched, and after it the callback has run once. It was told
OK exactly for a good answer, and only then has the response string changed, to the
first datagram. The blocking call returns what the callback was told. -/
def Call.Settled (call : Call) : Prop :=
  match call.completion with
  | none => call.callbacks = [] ∧ call.isolateRpcCall = none ∧ call.responseBytes = call.untouched
  | some completion =>
    ∃ status, call.callbacks = [status] ∧ call.isolateRpcCall = some status ∧
      (status.ok = true ↔ completion.Delivers call.request.metadata.ipcMessageId) ∧
      (status.ok = true → completion.response.datagrams.head? = some call.responseBytes) ∧
      (status.ok = false → call.responseBytes = call.untouched)

theorem process_ok_iff (handle : String) (outcome : MapOutcome) (regions : List Region) :
    (processReceivedSharedMemoryHandle handle outcome regions).1 = .ok ↔ outcome.isMapped = true := by
  cases outcome <;> simp [processReceivedSharedMemoryHandle, errnoToStatus, MapOutcome.isMapped]

theorem processHandles_ok_iff (os : Nat → MapOutcome) (handles : List String) (regions : List Region) :
    (processHandles os handles regions).1 = .ok ↔
      ∀ index < handles.length, (os index).isMapped = true := by
  induction handles generalizing os regions with
  | nil => simp [processHandles]
  | cons handle handles ih =>
    have first := process_ok_iff handle (os 0) regions
    rw [processHandles, List.length_cons, Nat.forall_lt_succ_left']
    cases result : processReceivedSharedMemoryHandle handle (os 0) regions with
    | mk status stack =>
      cases status with
      | ok =>
        rw [result] at first
        simpa [first.mp rfl] using ih (fun index => os (index + 1)) stack
      | error codeName message =>
        rw [result] at first
        have unmapped : (os 0).isMapped = false :=
          Bool.eq_false_iff.mpr (fun mapped => absurd (first.mpr mapped) (by simp))
        simp [unmapped]

/-- The two ways in which a call completes. -/
theorem complete_cases (call : Call) (completion : Completion) (regions : List Region) :
    (∃ datagram, completion.response.datagrams.head? = some datagram ∧
      completion.Delivers call.ipcMessageId ∧
      (call.complete completion regions).1 =
        { call with
          completion := some completion
          responseBytes := datagram
          callbacks := call.callbacks ++ [.OK] }) ∨
      ∃ status : Status, status.ok = false ∧ ¬ completion.Delivers call.ipcMessageId ∧
        (call.complete completion regions).1 =
          { call with completion := some completion, callbacks := call.callbacks ++ [status] } := by
  have mapped := processHandles_ok_iff completion.os
    completion.response.metadata.sharedMemoryHandles regions
  by_cases failed : completion.status.ok = false
  · refine .inr ⟨completion.status, failed, fun delivers => ?_, by simp [Call.complete, failed, Call.callback]⟩
    exact absurd (failed.symm.trans delivers.1) (by decide)
  by_cases mismatch : completion.response.metadata.ipcMessageId ≠ call.ipcMessageId
  · exact .inr ⟨⟨.internal, "Mismatched IPC message id"⟩, rfl,
      fun delivers => mismatch delivers.2.1,
      by simp [Call.complete, failed, mismatch, Call.callback]⟩
  cases result : processHandles completion.os completion.response.metadata.sharedMemoryHandles regions with
  | mk status stack =>
    rw [result] at mapped
    cases status with
    | error codeName message =>
      refine .inr ⟨⟨.internal, (AbslStatus.error codeName message).toText⟩, rfl,
        fun delivers => ?_, by simp [Call.complete, failed, mismatch, result, Call.callback]⟩
      exact absurd (mapped.mpr delivers.2.2.1) (by simp)
    | ok =>
      cases datagrams : completion.response.datagrams with
      | nil =>
        exact .inr ⟨⟨.internal, "Missing response payload"⟩, rfl,
          fun delivers => delivers.2.2.2 datagrams,
          by simp [Call.complete, failed, mismatch, result, datagrams, Call.callback]⟩
      | cons datagram rest =>
        refine .inl ⟨datagram, rfl, ⟨?_, not_not.mp mismatch, mapped.mp rfl, ?_⟩,
          by simp [Call.complete, failed, mismatch, result, datagrams, Call.callback]⟩
        · simpa using failed
        · simp [datagrams]

theorem settled_complete (call : Call) (completion : Completion) (regions : List Region)
    (pending : call.completion = none) (settled : call.Settled)
    (sent : call.request.metadata.ipcMessageId = call.ipcMessageId) :
    (call.complete completion regions).1.Settled := by
  simp only [Call.Settled, pending] at settled
  obtain ⟨uncalled, _, unwritten⟩ := settled
  rcases complete_cases call completion regions with
    ⟨datagram, first, delivers, result⟩ | ⟨status, failed, undelivered, result⟩
  · rw [result]
    refine ⟨.OK, by simp [uncalled], by simp [Call.isolateRpcCall], ?_, fun _ => first, ?_⟩
    · rw [sent]
      exact ⟨fun _ => delivers, fun _ => rfl⟩
    · intro failed
      cases failed
  · rw [result]
    refine ⟨status, by simp [uncalled], by simp [Call.isolateRpcCall], ?_, ?_, fun _ => unwritten⟩
    · rw [sent]
      exact ⟨fun ok => absurd (failed.symm.trans ok) (by decide), fun delivers => absurd delivers undelivered⟩
    · intro ok
      exact absurd (failed.symm.trans ok) (by decide)

theorem complete_request (call : Call) (completion : Completion) (regions : List Region) :
    (call.complete completion regions).1.request = call.request ∧
      (call.complete completion regions).1.ipcMessageId = call.ipcMessageId := by
  rcases complete_cases call completion regions with ⟨_, _, _, result⟩ | ⟨_, _, _, result⟩ <;>
    simp [result]

/-- What holds of the calls of a client: each was sent with the number of its turn as
id, and is settled. -/
structure Booked (state : State) : Prop where
  next : state.ipcMessageId = UInt64.ofNat state.calls.length
  turn : ∀ (index : Nat) (call : Call), state.calls[index]? = some call →
    call.ipcMessageId = UInt64.ofNat (index + 1)
  sent : ∀ (index : Nat) (call : Call), state.calls[index]? = some call →
    ⟨.unary index, call.request⟩ ∈ state.wire ∧
      call.request.metadata.ipcMessageId = call.ipcMessageId
  settled : ∀ call ∈ state.calls, call.Settled

theorem booked_call (state : State) (target : Target) (requestBytes responseBytes : Bytes)
    (booked : Booked state) : Booked (asyncIsolateRpcCall target requestBytes responseBytes state) := by
  rw [asyncIsolateRpcCall_eq]
  constructor
  · simp [booked.next]
  · intro index call present
    rcases (getElem?_append_one _ _ _ _).mp present with old | ⟨rfl, rfl⟩
    · exact booked.turn index call old
    · simp [booked.next]
  · intro index call present
    rcases (getElem?_append_one _ _ _ _).mp present with old | ⟨rfl, rfl⟩
    · obtain ⟨listed, id⟩ := booked.sent index call old
      exact ⟨List.mem_append_left _ listed, id⟩
    · exact ⟨List.mem_append_right _ (List.mem_singleton.mpr rfl), rfl⟩
  · intro call member
    rcases List.mem_append.mp member with old | new
    · exact booked.settled call old
    · cases List.mem_singleton.mp new
      exact ⟨rfl, rfl, rfl⟩

theorem booked_complete (state : State) (index : Nat) (call : Call) (completion : Completion)
    (booked : Booked state) (present : state.calls[index]? = some call)
    (pending : call.completion = none) :
    Booked { state with
      calls := state.calls.set index (call.complete completion state.receivedMemshares).1
      receivedMemshares := (call.complete completion state.receivedMemshares).2 } := by
  obtain ⟨request, id⟩ := complete_request call completion state.receivedMemshares
  have settled := settled_complete call completion state.receivedMemshares pending
    (booked.settled call (List.mem_of_getElem? present)) (booked.sent index call present).2
  constructor
  · simp [booked.next]
  · intro other found otherAt
    rcases (getElem?_set_some _ _ _ _ _ _ present).mp otherAt with ⟨rfl, rfl⟩ | ⟨_, old⟩
    · rw [id]
      exact booked.turn other call present
    · exact booked.turn other found old
  · intro other found otherAt
    rcases (getElem?_set_some _ _ _ _ _ _ present).mp otherAt with ⟨rfl, rfl⟩ | ⟨_, old⟩
    · rw [request, id]
      exact booked.sent other call present
    · exact booked.sent other found old
  · intro other member
    rcases List.mem_or_eq_of_mem_set member with old | rfl
    · exact booked.settled other old
    · exact settled

theorem run_booked (events : List Event) (final : State) (reached : run events = some final) :
    Booked final := by
  apply Runs.run_preserves Booked ?_ newState final events ?_ reached
  · intro state event next booked taken
    cases event with
    | registerLocalHandler serviceName handler =>
      cases taken
      exact ⟨booked.next, booked.turn, booked.sent, booked.settled⟩
    | asyncIsolateRpcCall target requestBytes responseBytes =>
      cases taken
      exact booked_call state target requestBytes responseBytes booked
    | invokeEzDone index completion =>
      obtain ⟨call, present, pending, rfl⟩ := step_invokeEzDone taken
      exact booked_complete state index call completion booked present pending
    | isolateStreamRpcCall operatorDomain serviceName methodName =>
      cases taken
      exact ⟨booked.next, booked.turn, booked.sent, booked.settled⟩
    | write index payload =>
      obtain ⟨stream, _, rfl⟩ := step_write taken
      exact ⟨booked.next, booked.turn,
        fun other call otherAt => ⟨List.mem_append_left _ (booked.sent other call otherAt).1,
          (booked.sent other call otherAt).2⟩, booked.settled⟩
  · constructor <;> simp [newState]

/-- The callback of the call has been told OK. -/
def Call.Succeeded (call : Call) : Prop := ∃ status ∈ call.callbacks, status.ok = true

/-- A call that has succeeded was completed with a response that carries its id. -/
theorem succeeded_id (call : Call) (completion : Completion) (settled : call.Settled)
    (completed : call.completion = some completion) (succeeded : call.Succeeded) :
    completion.response.metadata.ipcMessageId = call.request.metadata.ipcMessageId := by
  simp only [Call.Settled, completed] at settled
  obtain ⟨status, called, _, delivers, _⟩ := settled
  obtain ⟨told, member, ok⟩ := succeeded
  rw [called, List.mem_singleton] at member
  subst member
  exact (delivers.mp ok).2.1

/-- In every run with fewer than 2^64 calls, every call was sent and is settled, and
two calls that succeeded were completed with different responses. -/
theorem unary_calls_settled (events : List Event) (final : State) (reached : run events = some final)
    (few : final.calls.length < 2 ^ 64) :
    (∀ (index : Nat) (call : Call), final.calls[index]? = some call →
      ⟨.unary index, call.request⟩ ∈ final.wire ∧ call.Settled) ∧
    ∀ (left right : Nat) (first second : Call) (firstDone secondDone : Completion), left ≠ right →
      final.calls[left]? = some first → final.calls[right]? = some second →
      first.completion = some firstDone → second.completion = some secondDone →
      firstDone.response = secondDone.response → ¬ (first.Succeeded ∧ second.Succeeded) := by
  have booked := run_booked events final reached
  constructor
  · intro index call present
    exact ⟨(booked.sent index call present).1, booked.settled call (List.mem_of_getElem? present)⟩
  · rintro left right first second firstDone secondDone different firstAt secondAt firstCompleted
      secondCompleted same ⟨firstOk, secondOk⟩
    have leftBound := (List.getElem?_eq_some_iff.mp firstAt).1
    have rightBound := (List.getElem?_eq_some_iff.mp secondAt).1
    have firstId := succeeded_id first firstDone
      (booked.settled first (List.mem_of_getElem? firstAt)) firstCompleted firstOk
    have secondId := succeeded_id second secondDone
      (booked.settled second (List.mem_of_getElem? secondAt)) secondCompleted secondOk
    have ids : UInt64.ofNat (left + 1) = UInt64.ofNat (right + 1) := by
      calc UInt64.ofNat (left + 1) = first.ipcMessageId := (booked.turn left first firstAt).symm
        _ = first.request.metadata.ipcMessageId := (booked.sent left first firstAt).2.symm
        _ = firstDone.response.metadata.ipcMessageId := firstId.symm
        _ = secondDone.response.metadata.ipcMessageId := by rw [same]
        _ = second.request.metadata.ipcMessageId := secondId
        _ = second.ipcMessageId := (booked.sent right second secondAt).2
        _ = UInt64.ofNat (right + 1) := booked.turn right second secondAt
    have values : (left + 1) % 2 ^ 64 = (right + 1) % 2 ^ 64 := by
      simpa using congrArg UInt64.toNat ids
    omega

/-- The bridge gives the answer to the first of two calls to both. -/
def mixedUpAnswers : List Event :=
  let answer : Completion :=
    { status := .OK
      response :=
        { controlPlaneMetadata := some { ipcMessageId := 1, sharedMemoryHandles := ["share"] }
          ezResponsePayload := some ⟨[[10, 2, 72, 105]]⟩ }
      os := fun _ => .mapped ⟨4096, 64⟩ }
  [greeting, greeting, .invokeEzDone 1 answer, .invokeEzDone 0 answer]

theorem unary_calls_settled_mixedUp :
    ∃ final, run mixedUpAnswers = some final ∧
      final.calls.map Call.callbacks = [[.OK], [⟨.internal, "Mismatched IPC message id"⟩]] ∧
      final.calls.map Call.responseBytes = [[10, 2, 72, 105], []] ∧
      ∀ (index : Nat) (call : Call), final.calls[index]? = some call →
        ⟨.unary index, call.request⟩ ∈ final.wire ∧ call.Settled :=
  ⟨_, rfl, rfl, rfl, (unary_calls_settled mixedUpAnswers _ rfl (by decide)).1⟩

end EzSdk.Client
