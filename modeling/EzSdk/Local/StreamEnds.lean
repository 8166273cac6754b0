import EzSdk.Local.StreamBridge

/-! How the mock enforcer ends a StreamInvokeEz call: the caller learns of it through one Finish,
which the reader thread of the bridge calls with OK when it leaves its loop. -/

namespace EzSdk.Local

variable {routingTable : String → Option String}

/-- No thread is in the bridge, and the stream to the isolate is over or was never opened. -/
def Settled (call : Call) : Prop :=
  call.callback = .idle ∧ call.pumpRunning = false ∧ call.downstreamOver = true

/-- The stream to the isolate has ended with an OK status. -/
def EndedOk : Downstream → Prop
  | .ended status => status.ok = true
  | _ => False

instance : DecidablePred EndedOk
  | .ended status => inferInstanceAs (Decidable (status.ok = true))
  | .unopened => isFalse id
  | .opened => isFalse id

/-- OK is for a stream to the isolate that ended with OK; another status is that of this stream or
the one that Close got. -/
def Honest (finish : FinishCall) : Prop :=
  if finish.status.ok then EndedOk finish.downstream
  else finish.downstream = .ended finish.status ∨ finish.closedWith = some finish.status

/-- The call was finished at most once, was finished if nothing else can happen after a half-close,
and with the status of what has happened. -/
structure WellEnded (call : Call) : Prop where
  once : call.finishes.length ≤ 1
  finished : call.readsEnded = true → Settled call → call.finishes ≠ []
  honest : ∀ finish ∈ call.finishes, Honest finish

/-- When the reads end, the bridge has been started and its reader thread with it. When the reader
thread finishes the call, the stream to the isolate has ended with OK. -/
def EndsInOrder (call : Call) : Event → Prop
  | .onReadsEnd => call.pump ≠ .notStarted
  | .pumpNotifies => EndedOk call.downstream
  | _ => True

instance (call : Call) : DecidablePred (EndsInOrder call)
  | .onReadsEnd => inferInstanceAs (Decidable (call.pump ≠ .notStarted))
  | .pumpNotifies => inferInstanceAs (Decidable (EndedOk call.downstream))
  | .onReadDone .. | .writeReturns _ | .closeReturns | .pumpChecks | .pumpReads | .pumpReadFails
  | .pumpEndsBody | .onWriteDone _ | .onDone | .isolateResponds _ | .isolateEnds _ => isTrue trivial

/-! ### Threads and flags -/

/-- The callback is that of the first message. -/
def First : Callback → Prop
  | .idle => False
  | .writing first _ => first = true
  | .closing first => first = true

theorem not_first_of_idle {call : Call} (idle : call.callback = .idle) : ¬ First call.callback := by
  rw [idle]
  exact id

structure Consistent (call : Call) : Prop where
  readsEnded : call.readsEnded = true → call.callback = .idle
  /-- The reader thread is started when the first message has been forwarded. -/
  first : First call.callback → call.pump = .notStarted
  unopened : ¬ First call.callback → call.pump = .notStarted → call.downstream = .unopened
  unstarted : call.isStarted = false →
    call.callback = .idle ∧ call.pump = .notStarted ∧ call.isClosed = false
  running : call.pump ≠ .exited → call.finishes = []
  exited : call.pump = .exited → call.finishes.length = 1

theorem consistent_new : Consistent newCall where
  readsEnded absent := by cases absent
  first absent := absurd absent id
  unopened _ _ := rfl
  unstarted _ := ⟨rfl, rfl, rfl⟩
  running _ := rfl
  exited absent := by cases absent

/-- What stays the same in most steps. -/
structure SameThreads (call next : Call) : Prop where
  isStarted : next.isStarted = call.isStarted
  callback : next.callback = call.callback
  readsEnded : next.readsEnded = call.readsEnded
  pump : next.pump = call.pump
  finishes : next.finishes = call.finishes

theorem beginClose_same (call : Call) (status : Status) :
    SameThreads call (call.beginClose status) ∧ (call.beginClose status).downstream = call.downstream := by
  unfold Call.beginClose
  split
  · exact ⟨⟨rfl, rfl, rfl, rfl, rfl⟩, rfl⟩
  · exact ⟨⟨rfl, rfl, rfl, rfl, rfl⟩, rfl⟩

/-- What the callback for a message does up to the Write: the first message opens the stream to the
isolate or closes the bridge, and later ones go to Write or are dropped. -/
inductive Received (call next : Call) : Prop where
  | dropped (callback : next.callback = .idle) (downstream : next.downstream = call.downstream)
  | opened (request : InvokeEzRequest) (isFirst : call.isStarted = false)
      (callback : next.callback = .writing true request)
  | forwarded (request : InvokeEzRequest) (callback : next.callback = .writing false request)
      (downstream : next.downstream = call.downstream)

structure ReadDone (call next : Call) : Prop where
  isStarted : next.isStarted = true
  readsEnded : next.readsEnded = call.readsEnded
  pump : next.pump = call.pump
  finishes : next.finishes = call.finishes
  received : Received call next

theorem onReadDone_spec (routingTable : String → Option String) {call : Call}
    (consistent : Consistent call) (idle : call.callback = .idle) (request : InvokeEzRequest)
    (created : Bool) : ReadDone call (call.onReadDone routingTable request created) := by
  unfold Call.onReadDone
  cases started : call.isStarted with
  | true =>
    simp only [if_true, Call.forwardUpstreamToDownstream]
    split
    · exact ⟨started, rfl, rfl, rfl, .dropped rfl rfl⟩
    · exact ⟨started, rfl, rfl, rfl, .forwarded request rfl rfl⟩
  | false =>
    have closed := (consistent.unstarted started).2.2
    have refused (connected : Call) (status : Status)
        (same : SameThreads { call with isStarted := true } connected)
        (downstream : connected.downstream = call.downstream) :
        ReadDone call (connected.beginClose status) := by
      obtain ⟨kept, untouched⟩ := beginClose_same connected status
      exact ⟨kept.isStarted.trans same.isStarted, kept.readsEnded.trans same.readsEnded,
        kept.pump.trans same.pump, kept.finishes.trans same.finishes,
        .dropped (kept.callback.trans (same.callback.trans idle)) (untouched.trans downstream)⟩
    simp only [Bool.false_eq_true, if_false, Call.start]
    split
    · exact refused _ _ ⟨rfl, rfl, rfl, rfl, rfl⟩ rfl
    · cases created with
      | true =>
        simp only [if_true, Call.forwardUpstreamToDownstream, closed, Bool.false_eq_true, if_false]
        exact ⟨rfl, rfl, rfl, rfl, .opened request started rfl⟩
      | false => exact refused _ _ ⟨rfl, rfl, rfl, rfl, rfl⟩ rfl

/-! ### What a step does to the threads -/

/-- The reader thread is between its start and its end. -/
def Running (pump : Pump) : Prop := pump ≠ .notStarted ∧ pump ≠ .exited

/-- A step by which no callback goes on and no thread starts or ends. -/
structure Quiet (call next : Call) : Prop where
  isStarted : next.isStarted = call.isStarted
  callback : next.callback = call.callback
  readsEnded : next.readsEnded = call.readsEnded
  finishes : next.finishes = call.finishes
  pump : next.pump = call.pump ∨ Running call.pump ∧ Running next.pump
  downstream : next.downstream = call.downstream ∨ call.downstream = .opened
  isClosed : next.isClosed = call.isClosed ∨ call.finishes ≠ []

/-- The callback comes back from Write or from Close: it waits in Close, or ends. -/
structure Progress (call next : Call) (first : Bool) : Prop where
  busy : (∃ request, call.callback = .writing first request) ∨ call.callback = .closing first
  isStarted : next.isStarted = call.isStarted
  readsEnded : next.readsEnded = call.readsEnded
  finishes : next.finishes = call.finishes
  downstream : next.downstream = call.downstream
  goesOn : next.callback = .closing first ∧ next.pump = call.pump ∨
    next.callback = .idle ∧ next.pump = if first then .checking else call.pump

inductive Effect (routingTable : String → Option String) (call : Call) : Event → Call → Prop where
  | quiet {event : Event} {next : Call} (ordered : EndsInOrder call event) (quiet : Quiet call next) :
      Effect routingTable call event next
  | received (request : InvokeEzRequest) (created : Bool) (idle : call.callback = .idle)
      (reading : call.readsEnded = false) :
      Effect routingTable call (.onReadDone request created)
        (call.onReadDone routingTable request created)
  | readsEnd (idle : call.callback = .idle) (reading : call.readsEnded = false) :
      Effect routingTable call .onReadsEnd call.endReads
  | progress {event : Event} {next : Call} (first : Bool) (ordered : EndsInOrder call event)
      (progress : Progress call next first) : Effect routingTable call event next
  | notified (leaving : call.pump = .leaving) :
      Effect routingTable call .pumpNotifies (call.notifyConnectionClosed Status.OK)

theorem running_checking : Running .checking := ⟨by simp, by simp⟩
theorem running_reading : Running .reading := ⟨by simp, by simp⟩
theorem running_handling : Running .handling := ⟨by simp, by simp⟩
theorem running_leaving : Running .leaving := ⟨by simp, by simp⟩

theorem writeReturns_progress {call : Call} {first : Bool} {request : InvokeEzRequest}
    (busy : call.callback = .writing first request) (ok : Bool) :
    Progress call (call.writeReturns first request ok) first := by
  unfold Call.writeReturns
  split
  · exact ⟨.inl ⟨request, busy⟩, rfl, rfl, rfl, rfl, .inr ⟨rfl, rfl⟩⟩
  · split
    · exact ⟨.inl ⟨request, busy⟩, rfl, rfl, rfl, rfl, .inr ⟨rfl, rfl⟩⟩
    · obtain ⟨same, downstream⟩ := beginClose_same call ⟨.unavailable, "Downstream write failed"⟩
      exact ⟨.inl ⟨request, busy⟩, same.isStarted, same.readsEnded, same.finishes, downstream,
        .inl ⟨rfl, same.pump⟩⟩

theorem step_effect {call next : Call} {event : Event}
    (taken : step routingTable call event = some next) : Effect routingTable call event next := by
  cases step_spec taken with
  | onReadDone request created idle reading => exact .received request created idle reading
  | onReadsEnd idle reading => exact .readsEnd idle reading
  | writeReturns ok writing => exact .progress _ trivial (writeReturns_progress writing ok)
  | closeReturns closing _ =>
    exact .progress _ trivial ⟨.inr closing, rfl, rfl, rfl, rfl, .inr ⟨rfl, rfl⟩⟩
  | pumpChecks checking =>
    have runs : Running (if call.isClosed then Pump.leaving else .reading) := by
      split
      · exact running_leaving
      · exact running_reading
    exact .quiet trivial
      ⟨rfl, rfl, rfl, rfl, .inr ⟨checking ▸ running_checking, runs⟩, .inl rfl, .inl rfl⟩
  | pumpReads reading _ =>
    exact .quiet trivial
      ⟨rfl, rfl, rfl, rfl, .inr ⟨reading ▸ running_reading, running_handling⟩, .inl rfl, .inl rfl⟩
  | pumpReadFails reading _ _ =>
    exact .quiet trivial
      ⟨rfl, rfl, rfl, rfl, .inr ⟨reading ▸ running_reading, running_leaving⟩, .inl rfl, .inl rfl⟩
  | pumpEndsBody handling =>
    exact .quiet trivial
      ⟨rfl, rfl, rfl, rfl, .inr ⟨handling ▸ running_handling, running_checking⟩, .inl rfl, .inl rfl⟩
  | pumpNotifies leaving => exact .notified leaving
  | onWriteDone _ _ => exact .quiet trivial ⟨rfl, rfl, rfl, rfl, .inl rfl, .inl rfl, .inl rfl⟩
  | onDone _ _ finished =>
    obtain ⟨same, downstream⟩ := beginClose_same call Status.OK
    exact .quiet trivial ⟨same.isStarted, same.callback, same.readsEnded, same.finishes,
      .inl same.pump, .inl downstream, .inr finished.1⟩
  | isolateResponds _ _ => exact .quiet trivial ⟨rfl, rfl, rfl, rfl, .inl rfl, .inl rfl, .inl rfl⟩
  | isolateEnds _ opened =>
    exact .quiet trivial ⟨rfl, rfl, rfl, rfl, .inl rfl, .inr opened, .inl rfl⟩

theorem first_of_busy {call next : Call} {first : Bool} (progress : Progress call next first) :
    First call.callback ↔ first = true := by
  rcases progress.busy with ⟨request, busy⟩ | busy
  · rw [busy, First]
  · rw [busy, First]

theorem busy_not_idle {call next : Call} {first : Bool} (progress : Progress call next first) :
    call.callback ≠ .idle := by
  rcases progress.busy with ⟨request, busy⟩ | busy
  · simp [busy]
  · simp [busy]

theorem quiet_notStarted {call next : Call} (quiet : Quiet call next) :
    next.pump = .notStarted ↔ call.pump = .notStarted := by
  rcases quiet.pump with same | ⟨before, after⟩
  · rw [same]
  · exact iff_of_false after.1 before.1

theorem consistent_quiet {call next : Call} (consistent : Consistent call) (quiet : Quiet call next) :
    Consistent next := by
  have notStarted := quiet_notStarted quiet
  have exited : next.pump = .exited ↔ call.pump = .exited := by
    rcases quiet.pump with same | ⟨before, after⟩
    · rw [same]
    · exact iff_of_false after.2 before.2
  refine ⟨?_, ?_, ?_, ?_, ?_, ?_⟩
  · rw [quiet.readsEnded, quiet.callback]
    exact consistent.readsEnded
  · rw [quiet.callback, notStarted]
    exact consistent.first
  · rw [quiet.callback, notStarted]
    intro later unstarted
    have unopened := consistent.unopened later unstarted
    rcases quiet.downstream with same | opened
    · rw [same, unopened]
    · rw [unopened] at opened
      cases opened
  · rw [quiet.isStarted, quiet.callback, notStarted]
    intro unstarted
    obtain ⟨idle, noThread, isOpen⟩ := consistent.unstarted unstarted
    refine ⟨idle, noThread, ?_⟩
    rcases quiet.isClosed with same | finished
    · rw [same, isOpen]
    · exact absurd (consistent.running (by simp [noThread])) finished
  · rw [ne_eq, exited, quiet.finishes]
    exact consistent.running
  · rw [exited, quiet.finishes]
    exact consistent.exited

theorem consistent_progress {call next : Call} {first : Bool} (consistent : Consistent call)
    (progress : Progress call next first) : Consistent next := by
  have busy := busy_not_idle progress
  have isFirst := first_of_busy progress
  have started : call.isStarted ≠ false := fun unstarted => busy (consistent.unstarted unstarted).1
  have reading : next.readsEnded ≠ true := by
    rw [progress.readsEnded]
    exact fun ended => busy (consistent.readsEnded ended)
  have unstarted : next.isStarted ≠ false := by
    rw [progress.isStarted]
    exact started
  rcases progress.goesOn with ⟨closing, pump⟩ | ⟨idle, pump⟩
  · refine ⟨fun ended => absurd ended reading, ?_, ?_, fun absent => absurd absent unstarted, ?_, ?_⟩
    · rw [closing, First, pump, ← isFirst]
      exact consistent.first
    · rw [closing, First, pump, progress.downstream, ← isFirst]
      exact consistent.unopened
    · rw [pump, progress.finishes]
      exact consistent.running
    · rw [pump, progress.finishes]
      exact consistent.exited
  · cases first with
    | true =>
      have noThread := consistent.first (isFirst.mpr rfl)
      have none_finished := consistent.running (by simp [noThread])
      refine ⟨fun _ => idle, ?_, ?_, fun absent => absurd absent unstarted, ?_, ?_⟩
      · exact fun isFirst => absurd isFirst (not_first_of_idle idle)
      · rw [pump]
        exact fun _ absent => by cases absent
      · rw [progress.finishes]
        exact fun _ => none_finished
      · rw [pump]
        exact fun absent => by cases absent
    | false =>
      have later : ¬ First call.callback := fun isThe => Bool.false_ne_true (isFirst.mp isThe)
      simp only [Bool.false_eq_true, if_false] at pump
      refine ⟨fun _ => idle, ?_, ?_, fun absent => absurd absent unstarted, ?_, ?_⟩
      · exact fun isFirst => absurd isFirst (not_first_of_idle idle)
      · rw [pump, progress.downstream]
        exact fun _ => consistent.unopened later
      · rw [pump, progress.finishes]
        exact consistent.running
      · rw [pump, progress.finishes]
        exact consistent.exited

theorem consistent_received {call : Call} (consistent : Consistent call) (idle : call.callback = .idle)
    (reading : call.readsEnded = false) (request : InvokeEzRequest) (created : Bool) :
    Consistent (call.onReadDone routingTable request created) := by
  obtain ⟨started, readsEnded, pump, finishes, received⟩ :=
    onReadDone_spec routingTable consistent idle request created
  have later := not_first_of_idle idle
  refine ⟨?_, ?_, ?_, ?_, ?_, ?_⟩
  · intro ended
    rw [readsEnded, reading] at ended
    cases ended
  · rw [pump]
    cases received with
    | dropped callback _ => exact fun isFirst => absurd isFirst (not_first_of_idle callback)
    | opened _ isFirst _ => exact fun _ => (consistent.unstarted isFirst).2.1
    | forwarded _ callback _ =>
      rw [callback, First]
      exact fun absent => absurd absent Bool.false_ne_true
  · rw [pump]
    cases received with
    | dropped _ downstream =>
      rw [downstream]
      exact fun _ => consistent.unopened later
    | opened _ _ callback =>
      rw [callback, First]
      exact fun absent => absurd rfl absent
    | forwarded _ _ downstream =>
      rw [downstream]
      exact fun _ => consistent.unopened later
  · intro unstarted
    rw [started] at unstarted
    cases unstarted
  · rw [pump, finishes]
    exact consistent.running
  · rw [pump, finishes]
    exact consistent.exited

theorem consistent_endReads {call : Call} (consistent : Consistent call) (idle : call.callback = .idle) :
    Consistent call.endReads :=
  ⟨fun _ => idle, consistent.first, consistent.unopened, consistent.unstarted, consistent.running,
    consistent.exited⟩

theorem consistent_notified {call : Call} (consistent : Consistent call) (leaving : call.pump = .leaving) :
    Consistent (call.notifyConnectionClosed Status.OK) := by
  have running : call.pump ≠ .notStarted := by simp [leaving]
  have unfinished : call.finishes = [] := consistent.running (by simp [leaving])
  refine ⟨consistent.readsEnded, ?_, ?_, ?_, ?_, ?_⟩
  · exact fun isFirst => absurd (consistent.first isFirst) running
  · exact fun _ absent => by cases absent
  · exact fun unstarted => absurd (consistent.unstarted unstarted).2.1 running
  · exact fun absent => absurd rfl absent
  · intro _
    simp only [Call.notifyConnectionClosed, unfinished, List.nil_append, List.length_singleton]

theorem consistent_step {call next : Call} {event : Event} (consistent : Consistent call)
    (taken : step routingTable call event = some next) : Consistent next := by
  cases step_effect taken with
  | quiet _ quiet => exact consistent_quiet consistent quiet
  | received request created idle reading => exact consistent_received consistent idle reading request created
  | readsEnd idle _ => exact consistent_endReads consistent idle
  | progress _ _ progress => exact consistent_progress consistent progress
  | notified leaving => exact consistent_notified consistent leaving

/-! ### Runs -/

theorem finished_once {call : Call} (consistent : Consistent call) : call.finishes.length ≤ 1 := by
  by_cases exited : call.pump = .exited
  · exact Nat.le_of_eq (consistent.exited exited)
  · rw [consistent.running exited]
    exact Nat.zero_le 1

theorem wellEnded_iff {call : Call} (consistent : Consistent call) :
    WellEnded call ↔ (call.readsEnded = true → call.pump ≠ .notStarted) ∧
      ∀ finish ∈ call.finishes, Honest finish := by
  constructor
  · intro ended
    refine ⟨?_, ended.honest⟩
    intro readsEnded noThread
    have idle := consistent.readsEnded readsEnded
    have unopened := consistent.unopened (not_first_of_idle idle) noThread
    have settled : Settled call := by
      refine ⟨idle, ?_, ?_⟩
      · rw [Call.pumpRunning, noThread]
      · rw [Call.downstreamOver, unopened]
    exact ended.finished readsEnded settled (consistent.running (by simp [noThread]))
  · intro ⟨started, honest⟩
    refine ⟨finished_once consistent, ?_, honest⟩
    intro readsEnded settled unfinished
    have exited : call.pump = .exited := by
      have stopped := settled.2.1
      have hasThread := started readsEnded
      cases pump : call.pump with
      | notStarted => exact absurd pump hasThread
      | exited => rfl
      | _ => simp [Call.pumpRunning, pump] at stopped
    have one := consistent.exited exited
    rw [unfinished] at one
    cases one

theorem wellEnded_new : WellEnded newCall := by
  apply (wellEnded_iff consistent_new).mpr
  constructor
  · intro absent
    cases absent
  · intro finish absent
    cases absent

theorem honest_ok (downstream : Downstream) (closedWith : Option Status) :
    Honest ⟨Status.OK, downstream, closedWith⟩ ↔ EndedOk downstream := Iff.rfl

theorem wellEnded_step {call next : Call} {event : Event} (consistent : Consistent call)
    (taken : step routingTable call event = some next) :
    WellEnded next ↔ WellEnded call ∧ EndsInOrder call event := by
  rw [wellEnded_iff (consistent_step consistent taken), wellEnded_iff consistent]
  cases step_effect taken with
  | quiet ordered quiet =>
    rw [quiet.readsEnded, ne_eq, quiet_notStarted quiet, quiet.finishes]
    exact (and_iff_left ordered).symm
  | received request created idle reading =>
    have done := onReadDone_spec routingTable consistent idle request created
    rw [done.readsEnded, done.pump, done.finishes]
    exact (and_iff_left trivial).symm
  | readsEnd idle reading =>
    simp only [Call.endReads, reading, EndsInOrder]
    tauto
  | progress first ordered progress =>
    have reading : call.readsEnded = false := by
      apply Bool.eq_false_iff.mpr
      exact fun ended => busy_not_idle progress (consistent.readsEnded ended)
    rw [progress.readsEnded, progress.finishes, reading]
    simp only [Bool.false_eq_true, false_implies, true_and, and_iff_left ordered]
  | notified leaving =>
    have unfinished : call.finishes = [] := consistent.running (by simp [leaving])
    simp only [Call.notifyConnectionClosed, unfinished, leaving, List.nil_append, List.mem_singleton,
      forall_eq, honest_ok, EndsInOrder]
    simp

/-- In every run the call is finished at most once. It is finished when it is over, with the status
of what has happened, exactly if the caller half-closes no earlier than the reader thread has been
started and the reader thread leaves only when the isolate has ended its stream with OK. -/
theorem stream_end_reported_iff (routingTable : String → Option String) (events : List Event)
    (final : Call) (reached : run routingTable events = some final) :
    final.finishes.length ≤ 1 ∧
      (WellEnded final ↔ Runs.EveryStep (step routingTable) EndsInOrder newCall events) := by
  have consistent : Consistent final :=
    Runs.run_preserves Consistent (fun _ _ _ consistent taken => consistent_step consistent taken)
      newCall final events consistent_new reached
  refine ⟨finished_once consistent, ?_⟩
  rw [Runs.run_keeps_iff_everyStep Consistent WellEnded EndsInOrder
    (fun _ _ _ consistent taken => consistent_step consistent taken)
    (fun _ _ _ consistent taken => wellEnded_step consistent taken)
    newCall final events consistent_new reached]
  exact and_iff_right wellEnded_new

namespace GreeterCalls

def table (service : String) : Option String :=
  if service = "Greeter" then some "unix:///tmp/greeter-server-uds" else none

def request (service : String) : InvokeEzRequest :=
  { controlPlaneMetadata := some { destinationServiceName := service } }

/-- The caller sends one message and half-closes, and the isolate ends its stream. -/
def endedWith (status : Status) : List Event :=
  [.onReadDone (request "Greeter") true, .writeReturns true, .onReadsEnd, .isolateEnds status,
    .pumpChecks, .pumpReadFails, .pumpNotifies]

end GreeterCalls

theorem ok_stream_reported : ∃ final, run GreeterCalls.table (GreeterCalls.endedWith Status.OK) =
    some final ∧ WellEnded final :=
  ⟨_, rfl, (stream_end_reported_iff GreeterCalls.table (GreeterCalls.endedWith Status.OK) _ rfl).2.mpr
    (by decide)⟩

/-- A call for an unknown service is never finished, and a call whose isolate is gone is finished
with OK. -/
theorem stream_end_not_reported :
    (∃ final, run GreeterCalls.table
        [.onReadDone (GreeterCalls.request "Echo") true, .onReadsEnd] = some final ∧
      final.readsEnded = true ∧ Settled final ∧ final.finishes = [] ∧
      final.closedWith = some ⟨.unavailable, "Service not found: Echo"⟩) ∧
    ∃ final, run GreeterCalls.table
        (GreeterCalls.endedWith ⟨.unavailable, "Socket closed"⟩) = some final ∧
      final.finishes = [⟨Status.OK, .ended ⟨.unavailable, "Socket closed"⟩, none⟩] :=
  ⟨⟨_, rfl, rfl, ⟨rfl, rfl, rfl⟩, rfl, rfl⟩, _, rfl, rfl⟩

end EzSdk.Local
