import EzSdk.Local.StreamEnds

/-! The writes of the mock enforcer to the caller of StreamInvokeEz. The reader thread starts one for
each response of the isolate, with a message that its loop body owns, and never waits for
OnWriteDone. -/

namespace EzSdk.Local

variable {routingTable : String → Option String}

/-- At most one write is outstanding, and the message of a write lives until the write is done. -/
structure Sequential (call : Call) : Prop where
  single : call.writes.length ≤ 1
  outstanding : ∀ write ∈ call.writes, write.alive = true
  completed : ∀ done ∈ call.completed, done.1.alive = true

/-- When the loop body ends, its write is done. -/
def BodyWaits (call : Call) : Event → Prop
  | .pumpEndsBody => call.writes = []
  | _ => True

instance (call : Call) : DecidablePred (BodyWaits call)
  | .pumpEndsBody => inferInstanceAs (Decidable (call.writes = []))
  | .onReadDone .. | .onReadsEnd | .writeReturns _ | .closeReturns | .pumpChecks | .pumpReads
  | .pumpReadFails | .pumpNotifies | .onWriteDone _ | .onDone | .isolateResponds _ | .isolateEnds _ =>
    isTrue trivial

/-- What has reached the caller. -/
def Call.received (call : Call) : List InvokeEzResponse :=
  (call.completed.filter (fun done => done.1.alive && done.2)).map (fun done => done.1.message)

def responded : Event → Option InvokeIsolateResponse
  | .isolateResponds response => some response
  | _ => none

/-! ### What a step does to the writes -/

structure SameWrites (call next : Call) : Prop where
  writes : next.writes = call.writes
  completed : next.completed = call.completed
  handled : next.handled = call.handled
  responses : next.responses = call.responses

theorem beginClose_sameWrites (call : Call) (status : Status) :
    SameWrites call (call.beginClose status) := by
  unfold Call.beginClose
  split
  · exact ⟨rfl, rfl, rfl, rfl⟩
  · exact ⟨rfl, rfl, rfl, rfl⟩

theorem forward_sameWrites (call : Call) (first : Bool) (request : InvokeEzRequest) :
    SameWrites call (call.forwardUpstreamToDownstream first request) := by
  unfold Call.forwardUpstreamToDownstream
  split
  · exact ⟨rfl, rfl, rfl, rfl⟩
  · exact ⟨rfl, rfl, rfl, rfl⟩

theorem SameWrites.trans {call middle next : Call} (first : SameWrites call middle)
    (second : SameWrites middle next) : SameWrites call next :=
  ⟨second.writes.trans first.writes, second.completed.trans first.completed,
    second.handled.trans first.handled, second.responses.trans first.responses⟩

theorem start_sameWrites (call : Call) (request : InvokeEzRequest) (created : Bool) :
    SameWrites call (call.start routingTable request created) := by
  unfold Call.start
  split
  · exact beginClose_sameWrites call _
  · cases created with
    | true =>
      apply SameWrites.trans _ (forward_sameWrites _ true request)
      exact ⟨rfl, rfl, rfl, rfl⟩
    | false =>
      apply SameWrites.trans _ (beginClose_sameWrites _ _)
      exact ⟨rfl, rfl, rfl, rfl⟩

theorem onReadDone_sameWrites (call : Call) (request : InvokeEzRequest) (created : Bool) :
    SameWrites call (call.onReadDone routingTable request created) := by
  unfold Call.onReadDone
  split
  · exact forward_sameWrites call false request
  · apply SameWrites.trans _ (start_sameWrites _ request created)
    exact ⟨rfl, rfl, rfl, rfl⟩

theorem writeReturns_sameWrites (call : Call) (first : Bool) (request : InvokeEzRequest) (ok : Bool) :
    SameWrites call (call.writeReturns first request ok) := by
  unfold Call.writeReturns
  split
  · exact ⟨rfl, rfl, rfl, rfl⟩
  · split
    · exact ⟨rfl, rfl, rfl, rfl⟩
    · apply (beginClose_sameWrites call _).trans
      exact ⟨rfl, rfl, rfl, rfl⟩

/-- The callback does not move a reader thread that is in its loop body. -/
theorem progress_handling {call next : Call} {first : Bool} (consistent : Consistent call)
    (progress : Progress call next first) (handling : call.pump = .handling) :
    next.pump = .handling := by
  rcases progress.goesOn with ⟨_, pump⟩ | ⟨_, pump⟩
  · rw [pump, handling]
  · cases first with
    | true =>
      have noThread := consistent.first ((first_of_busy progress).mpr rfl)
      rw [handling] at noThread
      cases noThread
    | false => exact pump.trans handling

/-- A step that starts and ends no write. -/
structure Untouched (call : Call) (event : Event) (next : Call) : Prop where
  writes : next.writes = call.writes
  completed : next.completed = call.completed
  handled : next.handled = call.handled
  responses : next.responses = call.responses ++ (responded event).toList
  handling : call.pump = .handling → next.pump = .handling

inductive WriteEffect (call : Call) : Event → Call → Prop where
  | starts {response : InvokeIsolateResponse} {responses : List InvokeIsolateResponse}
      (reading : call.pump = .reading) (unread : call.responses = response :: responses) :
      WriteEffect call .pumpReads
        ({ call with responses := responses }.handleDownstreamResponse response)
  | endsBody (handling : call.pump = .handling) : WriteEffect call .pumpEndsBody call.endBody
  | completes {write : Write} {writes : List Write} (ok : Bool) (oldest : call.writes = write :: writes) :
      WriteEffect call (.onWriteDone ok)
        { call with writes := writes, completed := call.completed ++ [(write, ok)] }
  | other {event : Event} {next : Call} (waits : BodyWaits call event)
      (untouched : Untouched call event next) : WriteEffect call event next

theorem Untouched.of_same {call next : Call} {event : Event} (same : SameWrites call next)
    (silent : responded event = none) (handling : call.pump = .handling → next.pump = .handling) :
    Untouched call event next := by
  refine ⟨same.writes, same.completed, same.handled, ?_, handling⟩
  rw [silent, same.responses, Option.toList_none, List.append_nil]

theorem step_writeEffect {call next : Call} {event : Event} (consistent : Consistent call)
    (taken : step routingTable call event = some next) : WriteEffect call event next := by
  have elsewhere {pump other : Pump} (here : call.pump = pump) (differs : pump ≠ .handling)
      (handling : call.pump = .handling) : other = .handling :=
    absurd (here.symm.trans handling) differs
  cases step_spec taken with
  | onReadDone request created idle _ =>
    have pump := (onReadDone_spec routingTable consistent idle request created).pump
    exact .other trivial (.of_same (onReadDone_sameWrites call request created) rfl (pump.trans ·))
  | onReadsEnd _ _ => exact .other trivial (.of_same ⟨rfl, rfl, rfl, rfl⟩ rfl id)
  | writeReturns ok writing =>
    exact .other trivial (.of_same (writeReturns_sameWrites call _ _ ok) rfl
      (progress_handling consistent (writeReturns_progress writing ok)))
  | closeReturns closing _ =>
    have progress : Progress call (call.afterForward _) _ :=
      ⟨.inr closing, rfl, rfl, rfl, rfl, .inr ⟨rfl, rfl⟩⟩
    exact .other trivial (.of_same ⟨rfl, rfl, rfl, rfl⟩ rfl (progress_handling consistent progress))
  | pumpChecks checking =>
    exact .other trivial (.of_same ⟨rfl, rfl, rfl, rfl⟩ rfl (elsewhere checking (by decide)))
  | pumpReads reading unread => exact .starts reading unread
  | pumpReadFails reading _ _ =>
    exact .other trivial (.of_same ⟨rfl, rfl, rfl, rfl⟩ rfl (elsewhere reading (by decide)))
  | pumpEndsBody handling => exact .endsBody handling
  | pumpNotifies leaving =>
    exact .other trivial (.of_same ⟨rfl, rfl, rfl, rfl⟩ rfl (elsewhere leaving (by decide)))
  | onWriteDone ok oldest => exact .completes ok oldest
  | onDone _ _ _ =>
    have same := beginClose_sameWrites call Status.OK
    exact .other trivial (.of_same (same.trans ⟨rfl, rfl, rfl, rfl⟩) rfl
      ((beginClose_same call Status.OK).1.pump.trans ·))
  | isolateResponds response _ => exact .other trivial ⟨rfl, rfl, rfl, rfl, id⟩
  | isolateEnds _ _ => exact .other trivial (.of_same ⟨rfl, rfl, rfl, rfl⟩ rfl id)

/-! ### Messages -/

/-- Only the message of the last write can be alive, and only as long as the reader thread is in the
body of its loop. The responses that were read have been written in their order. -/
structure Owned (call : Call) : Prop where
  consistent : Consistent call
  older : ∀ write ∈ call.writes.dropLast, write.alive = false
  outside : call.pump ≠ .handling → ∀ write ∈ call.writes, write.alive = false
  ordered : call.completed.map (fun done => done.1.message) ++ call.writes.map Write.message =
    call.handled.map forwardResponse

theorem owned_new : Owned newCall :=
  ⟨consistent_new, by simp [newCall], by simp [newCall], rfl⟩

theorem endBody_dead (call : Call) : ∀ write ∈ call.endBody.writes, write.alive = false := by
  intro write member
  obtain ⟨before, _, same⟩ := List.mem_map.mp member
  rw [← same]

theorem owned_step {call next : Call} {event : Event} (owned : Owned call)
    (taken : step routingTable call event = some next) : Owned next := by
  have consistent := consistent_step owned.consistent taken
  have ordered := owned.ordered
  cases step_writeEffect owned.consistent taken with
  | @starts response responses reading _ =>
    refine ⟨consistent, ?_, fun absent => absurd rfl absent, ?_⟩
    · simp only [Call.handleDownstreamResponse, List.dropLast_concat]
      exact owned.outside (by simp [reading])
    · simp only [Call.handleDownstreamResponse, List.map_append, ← List.append_assoc, ordered]
      rfl
  | endsBody _ =>
    refine ⟨consistent, ?_, fun _ => endBody_dead call, ?_⟩
    · exact fun write member => endBody_dead call write ((List.dropLast_sublist _).subset member)
    · simp only [Call.endBody, List.map_map]
      exact ordered
  | @completes write writes _ oldest =>
    refine ⟨consistent, ?_, ?_, ?_⟩
    · intro later member
      apply owned.older
      have nonempty : writes ≠ [] := by
        intro empty
        simp [empty] at member
      rw [oldest, List.dropLast_cons_of_ne_nil nonempty]
      exact List.mem_cons_of_mem write member
    · intro outside later member
      apply owned.outside outside
      rw [oldest]
      exact List.mem_cons_of_mem write member
    · rw [oldest] at ordered
      simpa using ordered
  | other _ untouched =>
    refine ⟨consistent, ?_, ?_, ?_⟩
    · rw [untouched.writes]
      exact owned.older
    · rw [untouched.writes]
      exact fun outside => owned.outside (fun handling => outside (untouched.handling handling))
    · rw [untouched.completed, untouched.writes, untouched.handled]
      exact ordered

theorem eq_nil_of_dead {writes : List Write} (alive : ∀ write ∈ writes, write.alive = true)
    (dead : ∀ write ∈ writes, write.alive = false) : writes = [] := by
  apply List.eq_nil_iff_forall_not_mem.mpr
  intro write member
  exact Bool.false_ne_true ((dead write member).symm.trans (alive write member))

/-- While no write is outstanding, only what has been completed counts. -/
theorem sequential_of_empty {call : Call} (empty : call.writes = [])
    (completed : ∀ done ∈ call.completed, done.1.alive = true) : Sequential call :=
  ⟨by simp [empty], by simp [empty], completed⟩

theorem sequential_starts {call : Call} (owned : Owned call) (reading : call.pump = .reading)
    (response : InvokeIsolateResponse) (responses : List InvokeIsolateResponse) :
    Sequential ({ call with responses := responses }.handleDownstreamResponse response) ↔
      Sequential call := by
  constructor
  · intro sequential
    have short := sequential.single
    simp only [Call.handleDownstreamResponse, List.length_append, List.length_singleton] at short
    have empty : call.writes = [] := List.eq_nil_of_length_eq_zero (by omega)
    exact sequential_of_empty empty sequential.completed
  · intro sequential
    have dead := owned.outside (by simp [reading])
    have empty := eq_nil_of_dead sequential.outstanding dead
    refine ⟨?_, ?_, sequential.completed⟩
    · simp [Call.handleDownstreamResponse, empty]
    · simp [Call.handleDownstreamResponse, empty]

theorem sequential_endBody (call : Call) :
    Sequential call.endBody ↔ Sequential call ∧ call.writes = [] := by
  constructor
  · intro sequential
    have noneLeft := eq_nil_of_dead sequential.outstanding (endBody_dead call)
    have empty : call.writes = [] := List.map_eq_nil_iff.mp noneLeft
    exact ⟨sequential_of_empty empty sequential.completed, empty⟩
  · intro ⟨sequential, empty⟩
    apply sequential_of_empty
    · rw [Call.endBody, empty, List.map_nil]
    · exact sequential.completed

theorem sequential_completes {call : Call} (owned : Owned call) {write : Write} {writes : List Write}
    (oldest : call.writes = write :: writes) (ok : Bool) :
    Sequential { call with writes := writes, completed := call.completed ++ [(write, ok)] } ↔
      Sequential call := by
  constructor
  · intro sequential
    have alive : write.alive = true :=
      sequential.completed (write, ok) (List.mem_append_right _ List.mem_cons_self)
    -- A write behind which there is another one has lost its message.
    have empty : writes = [] := by
      by_contra nonempty
      have dead := owned.older write (by
        rw [oldest, List.dropLast_cons_of_ne_nil nonempty]
        exact List.mem_cons_self)
      rw [alive] at dead
      cases dead
    rw [empty] at oldest
    refine ⟨?_, ?_, ?_⟩
    · rw [oldest]
      exact Nat.le_refl 1
    · rw [oldest]
      intro only member
      rw [List.mem_singleton.mp member, alive]
    · exact fun done member => sequential.completed done (List.mem_append_left _ member)
  · intro sequential
    have short := sequential.single
    have alive := sequential.outstanding
    rw [oldest] at short alive
    refine ⟨?_, ?_, ?_⟩
    · rw [List.length_cons] at short
      exact Nat.le_of_succ_le short
    · exact fun later member => alive later (List.mem_cons_of_mem write member)
    · intro done member
      rcases List.mem_append.mp member with before | now
      · exact sequential.completed done before
      · rw [List.mem_singleton.mp now]
        exact alive write List.mem_cons_self

theorem sequential_congr {call next : Call} (writes : next.writes = call.writes)
    (completed : next.completed = call.completed) : Sequential next ↔ Sequential call := by
  constructor
  · intro ⟨single, outstanding, done⟩
    rw [writes] at single outstanding
    rw [completed] at done
    exact ⟨single, outstanding, done⟩
  · intro ⟨single, outstanding, done⟩
    rw [← writes] at single outstanding
    rw [← completed] at done
    exact ⟨single, outstanding, done⟩

theorem sequential_step {call next : Call} {event : Event} (owned : Owned call)
    (taken : step routingTable call event = some next) :
    Sequential next ↔ Sequential call ∧ BodyWaits call event := by
  cases step_writeEffect owned.consistent taken with
  | starts reading _ => exact (sequential_starts owned reading _ _).trans (and_iff_left trivial).symm
  | endsBody _ => exact sequential_endBody call
  | completes ok oldest => exact (sequential_completes owned oldest ok).trans (and_iff_left trivial).symm
  | other waits untouched =>
    exact (sequential_congr untouched.writes untouched.completed).trans (and_iff_left waits).symm

theorem responses_kept {call next : Call} {event : Event} (owned : Owned call)
    (taken : step routingTable call event = some next) :
    next.handled ++ next.responses = call.handled ++ call.responses ++ (responded event).toList := by
  cases step_writeEffect owned.consistent taken with
  | starts _ unread => simp [Call.handleDownstreamResponse, unread, responded]
  | endsBody _ => simp [Call.endBody, responded]
  | completes _ _ => simp [responded]
  | other _ untouched => rw [untouched.handled, untouched.responses, List.append_assoc]

theorem received_eq {call : Call} (sequential : Sequential call)
    (succeeded : ∀ done ∈ call.completed, done.2 = true) :
    call.received = call.completed.map (fun done => done.1.message) := by
  have every : ∀ done ∈ call.completed, (done.1.alive && done.2) = true := by
    intro done member
    rw [sequential.completed done member, succeeded done member, Bool.true_and]
  rw [Call.received, List.filter_eq_self.mpr every]

/-- The writes to the caller are sequential exactly if each loop body of the reader thread ends after
its write is done. Then the responses of the isolate reach the caller in their order: what was
received, is being written or was not read yet is what the isolate has sent. -/
theorem upstream_writes_sequential_iff (routingTable : String → Option String) (events : List Event)
    (final : Call) (reached : run routingTable events = some final) :
    (Sequential final ↔ Runs.EveryStep (step routingTable) BodyWaits newCall events) ∧
      (Sequential final → (∀ done ∈ final.completed, done.2 = true) →
        final.received ++ final.writes.map Write.message ++ final.responses.map forwardResponse =
          (events.filterMap responded).map forwardResponse) := by
  have keeps (call : Call) (event : Event) (next : Call) (owned : Owned call)
      (taken : step routingTable call event = some next) : Owned next := owned_step owned taken
  have initially : Sequential newCall := sequential_of_empty rfl (by simp [newCall])
  constructor
  · rw [Runs.run_keeps_iff_everyStep Owned Sequential BodyWaits keeps
      (fun _ _ _ owned taken => sequential_step owned taken) newCall final events owned_new reached]
    exact and_iff_right initially
  · intro sequential succeeded
    have owned := Runs.run_preserves Owned keeps newCall final events owned_new reached
    have sent : final.handled ++ final.responses = events.filterMap responded :=
      Runs.run_log_invariant Owned (fun call => call.handled ++ call.responses) responded keeps
        (fun _ _ _ owned taken => responses_kept owned taken) newCall final events owned_new reached
    calc final.received ++ final.writes.map Write.message ++ final.responses.map forwardResponse
        = final.handled.map forwardResponse ++ final.responses.map forwardResponse := by
          rw [received_eq sequential succeeded, owned.ordered]
      _ = (events.filterMap responded).map forwardResponse := by rw [← List.map_append, sent]

namespace GreeterCalls

def response (greeting : Bytes) : InvokeIsolateResponse :=
  { isolateOutput := some { datagrams := [greeting] } }

/-- The isolate answers twice, and the reader thread reads the first answer. -/
def firstAnswer : List Event :=
  [.onReadDone (request "Greeter") true, .writeReturns true, .isolateResponds (response [104, 105]),
    .isolateResponds (response [98, 121, 101]), .pumpChecks, .pumpReads]

/-- The reader thread goes on to the second answer. -/
def secondAnswer : List Event := [.pumpEndsBody, .pumpChecks, .pumpReads]

def inTurn : List Event := firstAnswer ++ [.onWriteDone true] ++ secondAnswer ++ [.onWriteDone true]

end GreeterCalls

theorem answers_received_in_turn : ∃ final, run GreeterCalls.table GreeterCalls.inTurn = some final ∧
    Sequential final ∧ final.received =
      [forwardResponse (GreeterCalls.response [104, 105]),
        forwardResponse (GreeterCalls.response [98, 121, 101])] := by
  obtain ⟨exactly, delivered⟩ := upstream_writes_sequential_iff GreeterCalls.table GreeterCalls.inTurn _ rfl
  have sequential := exactly.mpr (by decide)
  refine ⟨_, rfl, sequential, ?_⟩
  have all := delivered sequential (by decide)
  exact (List.append_nil _).symm.trans all

/-- Nothing keeps the reader thread from going on before the first write is done: then two writes
are outstanding, and the message of the first one is gone. -/
theorem upstream_writes_overlap : ∃ final,
    run GreeterCalls.table (GreeterCalls.firstAnswer ++ GreeterCalls.secondAnswer) = some final ∧
      final.writes = [⟨forwardResponse (GreeterCalls.response [104, 105]), false⟩,
        ⟨forwardResponse (GreeterCalls.response [98, 121, 101]), true⟩] :=
  ⟨_, rfl, rfl⟩

end EzSdk.Local
