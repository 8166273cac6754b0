import EzSdk.Local.StreamEnds

/-! The way of the caller's messages through the mock enforcer: in order, without a gap, and all of
them before the isolate learns that the caller has half-closed. -/

namespace EzSdk.Local

variable {routingTable : String → Option String}

/-- The message that a callback is writing to the isolate. -/
def Call.pending (call : Call) : List InvokeEzRequest :=
  match call.callback with
  | .writing _ request => [request]
  | .idle => []
  | .closing _ => []

/-- The message that the reactor reads. -/
def asked : Event → Option InvokeEzRequest
  | .onReadDone request _ => some request
  | _ => none

/-- What was written or is being written is the beginning of what was read, and all of it as long
as the bridge is open. Behind a half-close nothing is missing. -/
structure Relayed (call : Call) (requests : List InvokeEzRequest) : Prop where
  ahead : call.forwarded ++ call.pending.map forwardRequest <+: requests.map forwardRequest
  whole : call.isClosed = false →
    call.forwarded ++ call.pending.map forwardRequest = requests.map forwardRequest
  done : call.writesDone = true →
    call.readsEnded = true ∧ call.forwarded = requests.map forwardRequest

/-- A step by which no message moves. The bridge may be closed by it. -/
structure Still (call next : Call) : Prop where
  isClosed : next.isClosed = false → call.isClosed = false
  forwarded : next.forwarded = call.forwarded
  pending : next.pending = call.pending
  writesDone : next.writesDone = call.writesDone
  readsEnded : next.readsEnded = call.readsEnded

theorem relayed_still {call next : Call} {requests : List InvokeEzRequest}
    (relayed : Relayed call requests) (still : Still call next) : Relayed next requests where
  ahead := by
    rw [still.forwarded, still.pending]
    exact relayed.ahead
  whole isOpen := by
    rw [still.forwarded, still.pending]
    exact relayed.whole (still.isClosed isOpen)
  done := by
    rw [still.writesDone, still.readsEnded, still.forwarded]
    exact relayed.done

theorem beginClose_closed (call : Call) (status : Status) : (call.beginClose status).isClosed = true := by
  unfold Call.beginClose
  split
  · assumption
  · rfl

theorem beginClose_still (call : Call) (status : Status) : Still call (call.beginClose status) := by
  unfold Call.beginClose
  split
  · exact ⟨id, rfl, rfl, rfl, rfl⟩
  · exact ⟨(nomatch ·), rfl, rfl, rfl, rfl⟩

/-- The two things that happen to a message that was read: it goes to Write, or it is dropped and
the bridge is closed. -/
inductive Taken (call next : Call) (request : InvokeEzRequest) : Prop where
  | writes (isOpen : call.isClosed = false) (pending : next.pending = [request])
  | drops (isClosed : next.isClosed = true) (pending : next.pending = [])

structure ReadOnce (call next : Call) (request : InvokeEzRequest) : Prop where
  forwarded : next.forwarded = call.forwarded
  writesDone : next.writesDone = call.writesDone
  taken : Taken call next request

theorem pending_idle {call : Call} (idle : call.callback = .idle) : call.pending = [] := by
  rw [Call.pending, idle]

theorem forward_readOnce (call : Call) (first : Bool) (request : InvokeEzRequest) :
    ReadOnce call (call.forwardUpstreamToDownstream first request) request := by
  unfold Call.forwardUpstreamToDownstream
  cases closed : call.isClosed with
  | true => exact ⟨rfl, rfl, .drops closed rfl⟩
  | false => exact ⟨rfl, rfl, .writes closed rfl⟩

theorem onReadDone_readOnce (call : Call) (idle : call.callback = .idle) (request : InvokeEzRequest)
    (created : Bool) : ReadOnce call (call.onReadDone routingTable request created) request := by
  have refused (connected : Call) (status : Status) (still : Still call connected) :
      ReadOnce call (connected.beginClose status) request := by
    have after := beginClose_still connected status
    refine ⟨after.forwarded.trans still.forwarded, after.writesDone.trans still.writesDone,
      .drops (beginClose_closed connected status) ?_⟩
    rw [after.pending, still.pending, pending_idle idle]
  unfold Call.onReadDone
  split
  · exact forward_readOnce call false request
  · unfold Call.start
    split
    · exact refused _ _ ⟨id, rfl, rfl, rfl, rfl⟩
    · cases created with
      | true =>
        have once := forward_readOnce
          { call with isStarted := true, hasContext := true, downstream := .opened } true request
        refine ⟨once.forwarded, once.writesDone, ?_⟩
        cases once.taken with
        | writes isOpen pending => exact .writes isOpen pending
        | drops isClosed pending => exact .drops isClosed pending
      | false => exact refused _ _ ⟨id, rfl, rfl, rfl, rfl⟩

/-- A message that is read is the next one behind all those that were read before. -/
theorem relayed_read {call next : Call} {request : InvokeEzRequest} {requests : List InvokeEzRequest}
    (relayed : Relayed call requests) (idle : call.callback = .idle) (reading : call.readsEnded = false)
    (once : ReadOnce call next request) : Relayed next (requests ++ [request]) := by
  have ahead := relayed.ahead
  have whole := relayed.whole
  rw [pending_idle idle, List.map_nil, List.append_nil] at ahead whole
  have undone : next.writesDone ≠ true := by
    rw [once.writesDone]
    intro done
    have ended := (relayed.done done).1
    rw [reading] at ended
    cases ended
  refine ⟨?_, ?_, fun done => absurd done undone⟩
  · rw [once.forwarded, List.map_append]
    cases once.taken with
    | writes isOpen pending =>
      have same := whole isOpen
      exact (pending ▸ same ▸ List.prefix_refl _)
    | drops _ pending =>
      rw [pending, List.map_nil, List.append_nil]
      exact ahead.trans (List.prefix_append _ _)
  · intro isOpen
    rw [once.forwarded, List.map_append]
    cases once.taken with
    | writes isOpen pending => rw [pending, whole isOpen]
    | drops isClosed _ =>
      rw [isClosed] at isOpen
      cases isOpen

theorem relayed_written {call : Call} {first ok : Bool} {request : InvokeEzRequest}
    {requests : List InvokeEzRequest} (relayed : Relayed call requests) (consistent : Consistent call)
    (writing : call.callback = .writing first request) :
    Relayed (call.writeReturns first request ok) requests := by
  have pending : call.pending = [request] := by rw [Call.pending, writing]
  have ahead := relayed.ahead
  have whole := relayed.whole
  rw [pending, List.map_singleton] at ahead whole
  have undone : call.writesDone ≠ true := by
    intro done
    have idle := consistent.readsEnded (relayed.done done).1
    rw [writing] at idle
    cases idle
  have dropped : call.forwarded <+: requests.map forwardRequest :=
    (List.prefix_append _ _).trans ahead
  unfold Call.writeReturns
  split
  · refine ⟨?_, ?_, fun done => absurd done undone⟩
    · simpa [Call.pending, Call.afterForward] using ahead
    · intro isOpen
      simpa [Call.pending, Call.afterForward] using whole isOpen
  · split
    · rename_i closed
      refine ⟨by simpa [Call.pending, Call.afterForward] using dropped, ?_, fun done => absurd done undone⟩
      intro isOpen
      exact absurd (closed.symm.trans isOpen) (by decide)
    · have still := beginClose_still call ⟨.unavailable, "Downstream write failed"⟩
      have closed := beginClose_closed call ⟨.unavailable, "Downstream write failed"⟩
      refine ⟨?_, fun isOpen => absurd (closed.symm.trans isOpen) (by decide), ?_⟩
      · simpa [Call.pending, still.forwarded] using dropped
      · intro done
        exact absurd (still.writesDone.symm.trans done) undone

theorem relayed_endReads {call : Call} {requests : List InvokeEzRequest}
    (relayed : Relayed call requests) (idle : call.callback = .idle) : Relayed call.endReads requests := by
  refine ⟨relayed.ahead, relayed.whole, ?_⟩
  intro done
  have isOpen : call.isClosed = false := by
    unfold Call.endReads at done
    cases downstream : call.downstream with
    | unopened => simp [downstream] at done
    | opened => simpa [downstream] using done
    | ended status => simpa [downstream] using done
  have whole := relayed.whole isOpen
  rw [pending_idle idle, List.map_nil, List.append_nil] at whole
  exact ⟨rfl, whole⟩

theorem relayed_step {call next : Call} {event : Event} {requests : List InvokeEzRequest}
    (consistent : Consistent call) (relayed : Relayed call requests)
    (taken : step routingTable call event = some next) :
    Relayed next (requests ++ (asked event).toList) := by
  have quiet (still : Still call next) (silent : asked event = none) :
      Relayed next (requests ++ (asked event).toList) := by
    rw [silent, Option.toList_none, List.append_nil]
    exact relayed_still relayed still
  cases step_spec taken with
  | onReadDone request created idle reading =>
    exact relayed_read relayed idle reading (onReadDone_readOnce call idle request created)
  | onReadsEnd idle _ => simpa [asked] using relayed_endReads relayed idle
  | writeReturns ok writing => simpa [asked] using relayed_written relayed consistent writing
  | closeReturns closing _ =>
    have noneLeft : call.pending = [] := by rw [Call.pending, closing]
    exact quiet ⟨id, rfl, noneLeft.symm, rfl, rfl⟩ rfl
  | pumpChecks _ => exact quiet ⟨id, rfl, rfl, rfl, rfl⟩ rfl
  | pumpReads _ _ => exact quiet ⟨id, rfl, rfl, rfl, rfl⟩ rfl
  | pumpReadFails _ _ _ => exact quiet ⟨id, rfl, rfl, rfl, rfl⟩ rfl
  | pumpEndsBody _ => exact quiet ⟨id, rfl, rfl, rfl, rfl⟩ rfl
  | pumpNotifies _ => exact quiet ⟨id, rfl, rfl, rfl, rfl⟩ rfl
  | onWriteDone _ _ => exact quiet ⟨id, rfl, rfl, rfl, rfl⟩ rfl
  | onDone _ _ _ =>
    have still := beginClose_still call Status.OK
    exact quiet ⟨still.isClosed, still.forwarded, still.pending, still.writesDone, still.readsEnded⟩ rfl
  | isolateResponds _ _ => exact quiet ⟨id, rfl, rfl, rfl, rfl⟩ rfl
  | isolateEnds _ _ => exact quiet ⟨id, rfl, rfl, rfl, rfl⟩ rfl

/-- In every run, what the isolate was sent is the beginning of what the reactor has read, message
for message and with metadata and payload unchanged. Nothing is missing while the bridge is open and
no Write is under way, nor when the isolate has been told of the half-close. -/
theorem requests_relayed_in_order (routingTable : String → Option String) (events : List Event)
    (final : Call) (reached : run routingTable events = some final) :
    final.forwarded <+: (events.filterMap asked).map forwardRequest ∧
      (final.isClosed = false → final.callback = .idle →
        final.forwarded = (events.filterMap asked).map forwardRequest) ∧
      (final.writesDone = true → final.forwarded = (events.filterMap asked).map forwardRequest) := by
  have relayed : Consistent final ∧ Relayed final (events.filterMap asked) := by
    apply Runs.run_history (fun call requests => Consistent call ∧ Relayed call requests) asked ?_
      newCall final events ?_ reached
    · intro call event next requests held taken
      exact ⟨consistent_step held.1 taken, relayed_step held.1 held.2 taken⟩
    · exact ⟨consistent_new, ⟨List.prefix_refl _, fun _ => rfl, (nomatch ·)⟩⟩
  refine ⟨(List.prefix_append _ _).trans relayed.2.ahead, ?_, fun done => (relayed.2.done done).2⟩
  intro isOpen idle
  have whole := relayed.2.whole isOpen
  rwa [pending_idle idle, List.map_nil, List.append_nil] at whole

namespace GreeterCalls

/-- The second of three messages cannot be written, and the third is dropped. -/
def failingWrite : List Event :=
  [.onReadDone (request "Greeter") true, .writeReturns true, .onReadDone (request "Other") true,
    .writeReturns false, .isolateEnds ⟨.unavailable, "Socket closed"⟩, .pumpChecks, .pumpNotifies,
    .closeReturns, .onReadDone (request "Third") true, .onReadsEnd]

end GreeterCalls

theorem requests_relayed_up_to_failure : ∃ final, run GreeterCalls.table GreeterCalls.failingWrite =
    some final ∧ final.writesDone = false ∧ final.forwarded.length = 1 ∧
    final.forwarded <+: (GreeterCalls.failingWrite.filterMap asked).map forwardRequest :=
  ⟨_, rfl, rfl, rfl, (requests_relayed_in_order GreeterCalls.table GreeterCalls.failingWrite _ rfl).1⟩

end EzSdk.Local
