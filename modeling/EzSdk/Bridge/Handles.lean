import EzSdk.Bridge.Unary
import EzSdk.Foundation.Runs

/-! The handles of a unary response. `ForwardRequest` lends two vectors to the service's
`IsolateRpcMethodHandler`; they belong to the completion callback, which copies them into
the response when it is invoked. -/

namespace EzSdk.Bridge

variable {Msg : Type}

/-- A handle, by the vector to which it is appended. -/
inductive Handle where
  | sharedMemory (handle : String)
  | fileshare (handle : String)
  deriving DecidableEq

/-- Shared memory handles and fileshare handles, each in order. -/
structure Handles where
  sharedMemory : List String
  fileshare : List String
  deriving DecidableEq

def Handles.empty : Handles := ⟨[], []⟩

def Handles.add (handles : Handles) : Handle → Handles
  | .sharedMemory handle => { handles with sharedMemory := handles.sharedMemory ++ [handle] }
  | .fileshare handle => { handles with fileshare := handles.fileshare ++ [handle] }

def Handles.size (handles : Handles) : Nat := handles.sharedMemory.length + handles.fileshare.length

theorem size_add (handles : Handles) (handle : Handle) :
    (handles.add handle).size = handles.size + 1 := by
  cases handle <;> simp only [Handles.add, Handles.size, List.length_append, List.length_singleton] <;>
    omega

theorem add_inj (first second : Handles) (handle : Handle) :
    first.add handle = second.add handle ↔ first = second := by
  cases first
  cases second
  cases handle <;> simp [Handles.add]

/-- The handles that a response carries. -/
def responseHandles (response : InvokeIsolateResponse) : Handles :=
  let metadata := response.controlPlaneMetadata.getD {}
  ⟨metadata.sharedMemoryHandles, metadata.fileshareHandles⟩

/-- The response that the completion callback of `ForwardRequest` builds. -/
def forwardedResponse (ipcMsgId : UInt64) (status : Status) (bytes : Bytes) (handles : Handles) :
    InvokeIsolateResponse :=
  let metadata :=
    { ipcMessageId := ipcMsgId
      responderIsLocal := true
      sharedMemoryHandles := handles.sharedMemory
      fileshareHandles := handles.fileshare : ControlPlaneMetadata }
  if status.ok then
    { controlPlaneMetadata := some metadata
      isolateOutputIscope := some ⟨[{ scopeType := dataScopeTypeUnspecified }]⟩
      isolateOutput := some ⟨[bytes]⟩ }
  else
    { controlPlaneMetadata := some metadata }

theorem responseHandles_forwarded (ipcMsgId : UInt64) (status : Status) (bytes : Bytes)
    (handles : Handles) :
    responseHandles (forwardedResponse ipcMsgId status bytes handles) = handles := by
  unfold forwardedResponse
  split <;> rfl

/-- What a handler does with what `ForwardRequest` gave to it. `release` is the end of
the completion callback and of the vectors that it owns. -/
inductive Action where
  | append (handle : Handle)
  | setBytes (bytes : Bytes)
  | done (status : Status)
  | release
  | returns
  deriving DecidableEq

def Action.appends : Action → Bool
  | .append _ => true
  | _ => false

/-- One forwarded request. `answer` is what the completion callback made of the call, and
`attached` has the handles that were appended before the handler returned. -/
structure Forwarding where
  ipcMsgId : UInt64
  bytes : Bytes
  handles : Handles
  answer : Option (Status × InvokeIsolateResponse)
  released : Bool
  returned : Bool
  attached : Handles
  deriving DecidableEq

def newForwarding (ipcMsgId : UInt64) : Forwarding where
  ipcMsgId := ipcMsgId
  bytes := []
  handles := .empty
  answer := none
  released := false
  returned := false
  attached := .empty

/-- The callback is invoked at most once, and destroyed after that; one that is dropped
without having been invoked leaves the call without a response. -/
def forwardingStep (forwarding : Forwarding) : Action → Option Forwarding
  | .append handle =>
    some { forwarding with
      handles := if forwarding.released then forwarding.handles else forwarding.handles.add handle
      attached :=
        if forwarding.returned then forwarding.attached else forwarding.attached.add handle }
  | .setBytes bytes => some { forwarding with bytes := bytes }
  | .done status =>
    if forwarding.answer.isSome then none
    else
      let response := forwardedResponse forwarding.ipcMsgId status forwarding.bytes forwarding.handles
      some { forwarding with answer := some (status, response) }
  | .release =>
    if forwarding.answer.isSome && !forwarding.released then some { forwarding with released := true }
    else none
  | .returns => if forwarding.returned then none else some { forwarding with returned := true }

/-- The handles of the response, and before there is one those that it would get. -/
def Forwarding.carried (forwarding : Forwarding) : Handles :=
  match forwarding.answer with
  | some (_, response) => responseHandles response
  | none => forwarding.handles

/-- An append is in time if it comes before both the completion and the return, or after
both. -/
def InTime (forwarding : Forwarding) : Action → Prop
  | .append _ => forwarding.answer.isSome = forwarding.returned
  | _ => True

/-- What holds throughout: vectors live until the completion, handles are lost only after
it, and come too late only after the return. -/
structure Lent (forwarding : Forwarding) : Prop where
  alive : forwarding.answer = none → forwarding.released = false
  lost : forwarding.returned = false → forwarding.carried.size ≤ forwarding.attached.size
  late : forwarding.answer = none → forwarding.attached.size ≤ forwarding.carried.size

theorem lent_new (ipcMsgId : UInt64) : Lent (newForwarding ipcMsgId) :=
  ⟨fun _ => rfl, fun _ => Nat.le_refl 0, fun _ => Nat.le_refl 0⟩

/-- What an append does to the two sides, by what has happened before it. -/
theorem append_sides (forwarding next : Forwarding) (handle : Handle) (lent : Lent forwarding)
    (taken : forwardingStep forwarding (.append handle) = some next) :
    next.answer = forwarding.answer ∧ next.released = forwarding.released ∧
      next.returned = forwarding.returned ∧
      next.carried = (if forwarding.answer.isSome then forwarding.carried
        else forwarding.carried.add handle) ∧
      next.attached = (if forwarding.returned then forwarding.attached
        else forwarding.attached.add handle) := by
  cases taken
  refine ⟨rfl, rfl, rfl, ?_, rfl⟩
  cases answered : forwarding.answer with
  | none =>
    have alive := lent.alive answered
    simp [Forwarding.carried, answered, alive]
  | some answer => simp [Forwarding.carried, answered]

theorem other_sides (forwarding next : Forwarding) (action : Action) (lent : Lent forwarding)
    (other : action.appends = false)
    (taken : forwardingStep forwarding action = some next) :
    Lent next ∧ next.carried = forwarding.carried ∧ next.attached = forwarding.attached := by
  cases action with
  | append handle => cases other
  | setBytes bytes =>
    cases taken
    exact ⟨⟨lent.alive, lent.lost, lent.late⟩, rfl, rfl⟩
  | done status =>
    simp only [forwardingStep, Option.ite_none_left_eq_some, Option.some.injEq] at taken
    obtain ⟨unanswered, rfl⟩ := taken
    have none : forwarding.answer = none := by simpa using unanswered
    have same : forwarding.carried = forwarding.handles := by simp [Forwarding.carried, none]
    have built : responseHandles (forwardedResponse forwarding.ipcMsgId status forwarding.bytes
        forwarding.handles) = forwarding.carried := by
      rw [responseHandles_forwarded, same]
    refine ⟨⟨nofun, fun running => ?_, nofun⟩, built, rfl⟩
    have bound := lent.lost running
    rw [← built] at bound
    exact bound
  | release =>
    simp only [forwardingStep, Runs.guarded,
      Bool.and_eq_true] at taken
    obtain ⟨⟨answered, _⟩, rfl⟩ := taken
    refine ⟨⟨fun unanswered => ?_, lent.lost, lent.late⟩, rfl, rfl⟩
    rw [show forwarding.answer = none from unanswered] at answered
    cases answered
  | returns =>
    simp only [forwardingStep, Option.ite_none_left_eq_some, Option.some.injEq] at taken
    obtain ⟨_, rfl⟩ := taken
    exact ⟨⟨lent.alive, nofun, lent.late⟩, rfl, rfl⟩

theorem lent_step (forwarding : Forwarding) (action : Action) (next : Forwarding)
    (lent : Lent forwarding) (taken : forwardingStep forwarding action = some next) : Lent next := by
  cases action with
  | append handle =>
    obtain ⟨answer, released, returned, carried, attached⟩ :=
      append_sides forwarding next handle lent taken
    refine ⟨fun unanswered => released.trans (lent.alive (answer ▸ unanswered)), ?_, ?_⟩
    · intro running
      rw [returned] at running
      have before := lent.lost running
      rw [carried, attached, running]
      split <;> simp only [size_add, Bool.false_eq_true, if_false] <;> omega
    · intro unanswered
      rw [answer] at unanswered
      have before := lent.late unanswered
      rw [carried, attached, unanswered]
      split <;> simp only [size_add, Option.isSome_none, Bool.false_eq_true, if_false] <;> omega
  | setBytes _ => exact (other_sides _ _ _ lent rfl taken).1
  | done _ => exact (other_sides _ _ _ lent rfl taken).1
  | release => exact (other_sides _ _ _ lent rfl taken).1
  | returns => exact (other_sides _ _ _ lent rfl taken).1

/-- What is carried stays equal to what was attached exactly at the appends in time. -/
theorem carried_step (forwarding : Forwarding) (action : Action) (next : Forwarding)
    (lent : Lent forwarding) (taken : forwardingStep forwarding action = some next) :
    next.carried = next.attached ↔ forwarding.carried = forwarding.attached ∧ InTime forwarding action := by
  have quiet (other : action.appends = false) (inTime : InTime forwarding action) :
      next.carried = next.attached ↔
        forwarding.carried = forwarding.attached ∧ InTime forwarding action := by
    obtain ⟨_, carried, attached⟩ := other_sides forwarding next action lent other taken
    rw [carried, attached]
    exact (and_iff_left inTime).symm
  cases action with
  | append handle =>
    obtain ⟨_, _, _, carried, attached⟩ := append_sides forwarding next handle lent taken
    rw [carried, attached, InTime]
    cases answered : forwarding.answer with
    | none =>
      cases returned : forwarding.returned with
      | false => simpa using add_inj forwarding.carried forwarding.attached handle
      | true =>
        have ahead := lent.late answered
        simp only [Option.isSome_none, Bool.false_eq_true, if_false, if_true, and_false, iff_false]
        intro same
        have sizes := congrArg Handles.size same
        rw [size_add] at sizes
        omega
    | some answer =>
      cases returned : forwarding.returned with
      | false =>
        have behind := lent.lost returned
        simp only [Option.isSome_some, Bool.true_eq_false, Bool.false_eq_true, if_false, if_true,
          and_false, iff_false]
        intro same
        have sizes := congrArg Handles.size same
        rw [size_add] at sizes
        omega
      | true => simp
  | setBytes _ => exact quiet rfl trivial
  | done _ => exact quiet rfl trivial
  | release => exact quiet rfl trivial
  | returns => exact quiet rfl trivial

/-- The response carries exactly the handles that the handler appended before it
returned, in order, exactly when no handle was appended between the completion and the
return. -/
theorem response_carries_attached_iff (ipcMsgId : UInt64) (actions : List Action)
    (final : Forwarding) (status : Status) (response : InvokeIsolateResponse)
    (reached : Runs.run forwardingStep (newForwarding ipcMsgId) actions = some final)
    (answered : final.answer = some (status, response)) :
    responseHandles response = final.attached ↔
      Runs.EveryStep forwardingStep InTime (newForwarding ipcMsgId) actions := by
  have carried : final.carried = responseHandles response := by simp [Forwarding.carried, answered]
  have whole := Runs.run_keeps_iff_everyStep Lent
    (fun forwarding => forwarding.carried = forwarding.attached) InTime lent_step carried_step
    (newForwarding ipcMsgId) final actions (lent_new ipcMsgId) reached
  rw [carried] at whole
  have start : (newForwarding ipcMsgId).carried = (newForwarding ipcMsgId).attached := rfl
  exact whole.trans (and_iff_right start)

/-! ### Generated handlers -/

/-- What the generated `IsolateRpcMethodHandler` does, up to its return. The callback is a
parameter of it, so it ends with the call. -/
def generatedHandler (service : Service Msg) (implementation : Method Msg → Msg → Status × Bytes)
    (methodName : String) (requestBytes : List Bytes) : List Action :=
  match isolateRpcMethodHandler service methodName requestBytes with
  | .error status => [.done status, .release]
  | .ok (method, message) =>
    let answer := implementation method message
    [.setBytes answer.2, .done answer.1, .release]

/-- `IsolateRpcMethodHandler` of a service that does not override it. -/
def plainHandler (service : Service Msg) (implementation : Method Msg → Msg → Status × Bytes)
    (methodName : String) (requestBytes : List Bytes) : List Action :=
  generatedHandler service implementation methodName requestBytes ++ [.returns]

/-- `IsolateRpcMethodHandler` of `PrecomputedBackendImpl`. -/
def precomputedBackendHandler (service : Service Msg)
    (implementation : Method Msg → Msg → Status × Bytes) (sharedMemoryHandle : String)
    (methodName : String) (requestBytes : List Bytes) : List Action :=
  generatedHandler service implementation methodName requestBytes ++
    (if methodName = "FetchTable" then [.append (.sharedMemory sharedMemoryHandle)] else []) ++
    [.returns]

/-- What the generated handler answers. -/
def generatedAnswer (service : Service Msg) (implementation : Method Msg → Msg → Status × Bytes)
    (methodName : String) (requestBytes : List Bytes) : Status × Bytes :=
  match isolateRpcMethodHandler service methodName requestBytes with
  | .error status => (status, [])
  | .ok (method, message) => implementation method message

theorem run_generatedHandler (service : Service Msg)
    (implementation : Method Msg → Msg → Status × Bytes) (methodName : String)
    (requestBytes : List Bytes) (ipcMsgId : UInt64) (later : List Action) :
    let answer := generatedAnswer service implementation methodName requestBytes
    Runs.run forwardingStep (newForwarding ipcMsgId)
        (generatedHandler service implementation methodName requestBytes ++ later) =
      Runs.run forwardingStep
        { newForwarding ipcMsgId with
          bytes := answer.2
          answer := some (answer.1, forwardResponse ipcMsgId answer.1 answer.2)
          released := true } later := by
  intro answer
  cases handled : isolateRpcMethodHandler service methodName requestBytes with
  | error status => simp only [answer, generatedAnswer, generatedHandler, handled]; rfl
  | ok accepted => simp only [answer, generatedAnswer, generatedHandler, handled]; rfl

theorem plainHandler_answers (services : ServiceMap Msg) (currentState : Int)
    (service : Service Msg) (implementation : Method Msg → Msg → Status × Bytes)
    (request : InvokeIsolateRequest)
    (admitted : admitUnary services currentState request = .dispatch service) :
    ∃ final, Runs.run forwardingStep (newForwarding request.metadata.ipcMessageId)
        (plainHandler service implementation request.metadata.destinationMethodName
          request.datagrams) = some final ∧
      final.answer = some (invokeIsolate services currentState implementation request) := by
  refine ⟨_, run_generatedHandler _ _ _ _ _ [.returns], ?_⟩
  simp only [invokeIsolate, admitted]
  rfl

/-- No response of a `PrecomputedBackendImpl` carries a handle, though every FetchTable
call appends one before it returns. -/
theorem precomputedBackend_loses_handle (service : Service Msg)
    (implementation : Method Msg → Msg → Status × Bytes) (sharedMemoryHandle methodName : String)
    (requestBytes : List Bytes) (ipcMsgId : UInt64) :
    ∃ final status response,
      Runs.run forwardingStep (newForwarding ipcMsgId) (precomputedBackendHandler service
        implementation sharedMemoryHandle methodName requestBytes) = some final ∧
      final.answer = some (status, response) ∧ responseHandles response = .empty ∧
      final.attached.sharedMemory =
        if methodName = "FetchTable" then [sharedMemoryHandle] else [] := by
  have started := run_generatedHandler service implementation methodName requestBytes ipcMsgId
  have unhandled := responseHandles_forwarded ipcMsgId
    (generatedAnswer service implementation methodName requestBytes).1
    (generatedAnswer service implementation methodName requestBytes).2 .empty
  by_cases fetches : methodName = "FetchTable"
  · rw [precomputedBackendHandler, if_pos fetches, if_pos fetches, List.append_assoc, started]
    exact ⟨_, _, _, rfl, rfl, unhandled, rfl⟩
  · rw [precomputedBackendHandler, if_neg fetches, if_neg fetches, List.append_assoc, started]
    exact ⟨_, _, _, rfl, rfl, unhandled, rfl⟩

/-- A service with one unary rpc, whose requests are empty. -/
def fetchTableService : Service Unit where
  serviceName := "PrecomputedBackend"
  methods := [⟨"FetchTable", false, false, (), fun _ bytes => if bytes = [] then some () else none⟩]
  distinctNames := by decide

/-- A handler that appends its handle first. -/
theorem handle_appended_first_carried :
    responseHandles (forwardedResponse 1 .OK [5] ⟨["table"], []⟩) = ⟨["table"], []⟩ := by
  have reached : Runs.run forwardingStep (newForwarding 1)
      [.append (.sharedMemory "table"), .setBytes [5], .done .OK, .release, .returns] =
        some ⟨1, [5], ⟨["table"], []⟩, some (.OK, forwardedResponse 1 .OK [5] ⟨["table"], []⟩), true,
          true, ⟨["table"], []⟩⟩ := by rfl
  refine (response_carries_attached_iff 1 _ _ .OK _ reached rfl).mpr ?_
  simp [Runs.EveryStep, InTime, forwardingStep, newForwarding]

/-- A successful FetchTable of `PrecomputedBackendImpl`: its handle is appended before the
return and is not in the response. -/
theorem fetchTable_handle_lost :
    (Runs.run forwardingStep (newForwarding 1) (precomputedBackendHandler fetchTableService
        (fun _ _ => (.OK, [5])) "table" "FetchTable" [[]])).map
      (fun final => (final.answer.map (fun answer => (answer.1, responseHandles answer.2)),
        final.returned, final.attached)) =
      some (some (.OK, .empty), true, ⟨["table"], []⟩) := by
  decide

end EzSdk.Bridge
