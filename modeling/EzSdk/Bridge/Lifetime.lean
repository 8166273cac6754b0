import EzSdk.Bridge.Outcomes
import EzSdk.Foundation.CallbackLife

/-! The life of one Reactor: when `Finish` is called, when `OnDone` frees the
object, and what the handler side may still do with its pointer. The Reactor is an
instance of the callback object of `CallbackLife`. -/

namespace EzSdk.Bridge

open CallbackLife

variable {Msg : Type}

def handlerOf : Option (Task Msg) → Handler
  | none => .absent
  | some task => if task.active then .active else .returned

/-- What the life of a Reactor depends on. -/
def Stream.life (services : ServiceMap Msg) (stream : Stream Msg) : Life where
  started := stream.isRpcStarted
  handler := handlerOf stream.task
  reading := stream.readOutstanding
  writes := stream.writesOutstanding
  closed := stream.halfClosed
  finishes := stream.finishes.length
  done := stream.doneRun
  freed := stream.freed
  supported := (stream.getService services).isSome

/-- What in the program makes an event of the callback object happen. -/
def Because (services : ServiceMap Msg) (currentState : Int) (stream : Stream Msg)
    (objects : Objects Msg) (event : StreamEvent) : LifeEvent → Prop
  | .rejected => ∃ message, event = .readDone message ∧
      findService services message.metadata.destinationServiceName = none
  | .refused => ∃ message service, event = .readDone message ∧
      findService services message.metadata.destinationServiceName = some service ∧
      stream.isRpcStarted = false ∧ currentState = isolateStateReady ∧
      (service.bidiMethod message.metadata.destinationMethodName = none ∨
        (objects.state service.serviceName).poolStopped = true)
  | .endRejected => event = .readFailed
  | .ended => event = .readFailed
  | .writeDone ok => event = .writeDone ok
  | _ => True

variable {services : ServiceMap Msg} {currentState : Int} {self : Nat} {event : StreamEvent}
  {stream changed : Stream Msg} {objects after : Objects Msg} {task : Task Msg}
  {calls : List WriterCall}

theorem handlerOf_running (running : task.phase = .running) :
    handlerOf (some task) = .active := by
  simp [handlerOf, Task.active, running]

theorem life_of_task (services : ServiceMap Msg) (changed : Task Msg) (has : stream.task = some task)
    (same : changed.active = task.active) :
    stream.life services = { stream with task := some changed }.life services := by
  simp only [Stream.life, has, handlerOf, same, Stream.getService, Stream.serviceName]

theorem onDone_eq (services : ServiceMap Msg) (stream : Stream Msg) :
    onDone services stream =
      { stream with freed := stream.freed || (stream.getService services).isSome } := by
  cases found : stream.getService services with
  | none => simp [onDone, found]
  | some service => simp [onDone, found]

/-- The Reactor is a callback object: each of its events is one of the object's. -/
theorem outcome_life
    (outcome : Outcome services currentState self stream objects event changed after calls) :
    ∃ lifeEvent, LifeStep (stream.life services) lifeEvent (changed.life services) ∧
      Because services currentState stream objects event lifeEvent := by
  cases outcome with
  | clientWrite message writable => exact ⟨.idle, .idle, trivial⟩
  | clientWritesDone => exact ⟨.idle, .idle, trivial⟩
  | clientCancel => exact ⟨.idle, .idle, trivial⟩
  | readUnsupported message reading next missing =>
    refine ⟨.rejected, ?_, message, rfl, missing⟩
    have shape := @LifeStep.rejected (stream.life services) reading
    simpa [Stream.life, Stream.accept, Stream.finish, Stream.getService, Stream.serviceName,
      missing] using shape
  | readNotReady message service reading next found first state =>
    refine ⟨.notReady, ?_, trivial⟩
    have shape := @LifeStep.notReady (stream.life services) reading first
    simpa [Stream.life, Stream.accept, Stream.finish, Stream.getService, Stream.serviceName,
      found] using shape
  | readRefused message service reading next found first state cannot =>
    refine ⟨.refused, ?_, message, service, rfl, found, first, state, cannot⟩
    have shape := @LifeStep.refused (stream.life services) reading first
    simpa [Stream.life, Stream.accept, Stream.startRead, Stream.getService, Stream.serviceName,
      handlerOf, found, reading] using shape
  | readOpened message service method reading next found first state declared pool =>
    refine ⟨.opened, ?_, trivial⟩
    have shape := @LifeStep.opened (stream.life services) reading first
    simpa [Stream.life, Stream.accept, Stream.startRead, Stream.getService, Stream.serviceName,
      handlerOf, newTask, Task.active, found, reading] using shape
  | readLost message service reading next found started absent =>
    refine ⟨.continued, ?_, trivial⟩
    have shape := @LifeStep.continued (stream.life services) reading started
    simpa [Stream.life, Stream.accept, Stream.startRead, Stream.getService, Stream.serviceName,
      found, reading] using shape
  | readForwarded message service index adapter reading next found started entry stored =>
    refine ⟨.continued, ?_, trivial⟩
    have shape := @LifeStep.continued (stream.life services) reading started
    simpa [Stream.life, Stream.accept, Stream.startRead, Stream.getService, Stream.serviceName,
      found, reading] using shape
  | endUnsupported reading noneLeft missing =>
    refine ⟨.endRejected, ?_, rfl⟩
    have shape := @LifeStep.endRejected (stream.life services) reading
      (by simp [Stream.life, Stream.getService, missing])
    simpa [Stream.life, Stream.endReads, Stream.finish, Stream.getService, Stream.serviceName]
      using shape
  | endLost service reading noneLeft found absent =>
    exact ⟨.ended, .ended reading (by simp [Stream.life, Stream.getService, found]), rfl⟩
  | endSignalled service index adapter reading noneLeft found entry stored =>
    exact ⟨.ended, .ended reading (by simp [Stream.life, Stream.getService, found]), rfl⟩
  | writeDone ok writing =>
    refine ⟨.writeDone ok, ?_, rfl⟩
    have shape := @LifeStep.writeDone (stream.life services) ok writing
    cases ok with
    | false => simpa [Stream.life, onWriteDone, Stream.finish, Stream.getService,
        Stream.serviceName] using shape
    | true => simpa [Stream.life, onWriteDone, Stream.getService, Stream.serviceName] using shape
  | done finished reads writes once =>
    refine ⟨.done, ?_, trivial⟩
    have shape := @LifeStep.done (stream.life services)
      (List.length_pos_iff.mpr finished) reads writes once
    simpa [Stream.life, onDone_eq, Stream.getService, Stream.serviceName] using shape
  | taskStart task has queued =>
    have same := life_of_task services { task with phase := .running } has
      (by simp [Task.active, queued])
    exact ⟨.idle, same ▸ .idle, trivial⟩
  | taskRead task adapter message rest has running stored queue =>
    exact ⟨.idle, life_of_task services _ has rfl ▸ .idle, trivial⟩
  | taskEnd task adapter has running stored queue signalled =>
    exact ⟨.idle, life_of_task services _ has rfl ▸ .idle, trivial⟩
  | taskWrite task adapter payload has running stored alive =>
    have same := life_of_task services { task with phase := .writing (adapter.response payload) } has
      (by simp [Task.active, running])
    exact ⟨.idle, same ▸ .idle, trivial⟩
  | taskWriteFreed task payload has running freed => exact ⟨.idle, .idle, trivial⟩
  | taskResume task response has waiting alive idle =>
    refine ⟨.writeStarted, ?_, trivial⟩
    have shape := @LifeStep.writeStarted (stream.life services)
      (by simp [Stream.life, has, handlerOf, Task.active, waiting]) alive
    simpa [Stream.life, writeResponse, Stream.getService, Stream.serviceName, has, handlerOf,
      Task.active, waiting] using shape
  | taskResumeFreed task response has waiting freed =>
    have same := life_of_task services { task with phase := .running } has
      (by simp [Task.active, waiting])
    exact ⟨.idle, same ▸ .idle, trivial⟩
  | taskReturn task status has running alive =>
    refine ⟨.returned, ?_, trivial⟩
    have shape := @LifeStep.returned (stream.life services)
      (by simp [Stream.life, has, handlerOf_running running]) alive
    simpa [Stream.life, Stream.finish, Stream.getService, Stream.serviceName, handlerOf,
      Task.active] using shape
  | taskReturnFreed task status has running freed =>
    refine ⟨.returned, ?_, trivial⟩
    have shape := @LifeStep.returnedFreed (stream.life services)
      (by simp [Stream.life, has, handlerOf_running running]) freed
    simpa [Stream.life, Stream.getService, Stream.serviceName, handlerOf, Task.active] using shape

/-- A call through the `ResponseWriter` is made by a handler that has not returned. -/
theorem outcome_calls
    (outcome : Outcome services currentState self stream objects event changed after calls) :
    ∀ call ∈ calls, (stream.life services).handler = .active ∧ call.alive = !stream.freed := by
  intro call member
  cases outcome with
  | taskWrite task adapter payload has running stored alive =>
    cases List.mem_singleton.mp member
    exact ⟨by simp [Stream.life, has, handlerOf_running running], by simp [alive]⟩
  | taskWriteFreed task payload has running freed =>
    cases List.mem_singleton.mp member
    exact ⟨by simp [Stream.life, has, handlerOf_running running], by simp [freed]⟩
  | taskReturn task status has running alive =>
    cases List.mem_singleton.mp member
    exact ⟨by simp [Stream.life, has, handlerOf_running running], by simp [alive]⟩
  | taskReturnFreed task status has running freed =>
    cases List.mem_singleton.mp member
    exact ⟨by simp [Stream.life, has, handlerOf_running running], by simp [freed]⟩
  | _ => cases member

/-- Every rule of the callback object that allowed events keep holds of every
Reactor throughout every run of allowed steps. -/
theorem run_every_life (services : ServiceMap Msg) (Holds : Life → Prop) (Good : WriterCall → Prop)
    (allowed : Isolate Msg → Event → Prop) (fresh : ∀ supported, Holds (newLife supported))
    (keeps : ∀ isolate index event stream lifeEvent next,
      isolate.streams[index]? = some stream → Sound (stream.life services) →
      Holds (stream.life services) → allowed isolate (.onStream index event) →
      LifeStep (stream.life services) lifeEvent next →
      Because services isolate.currentState stream isolate.objects event lifeEvent → Holds next)
    (calls : ∀ life call, Holds life → life.handler = .active → call.alive = !life.freed → Good call)
    (events : List Event) (final : Isolate Msg)
    (every : Runs.EveryStep (step services) allowed newIsolate events)
    (reached : run services events = some final) :
    (∀ stream ∈ final.streams, Sound (stream.life services) ∧ Holds (stream.life services)) ∧
      ∀ call ∈ final.writerCalls, Good call := by
  apply run_every_stream services
    (fun stream => Sound (stream.life services) ∧ Holds (stream.life services)) Good allowed
    (fun address => ⟨sound_new _, fresh _⟩) ?_ events final every reached
  rintro isolate index event stream changed objects made present ⟨sound, holds⟩ permitted outcome
  obtain ⟨lifeEvent, taken, because⟩ := outcome_life outcome
  refine ⟨⟨sound_step _ _ lifeEvent sound taken,
    keeps isolate index event stream lifeEvent _ present sound holds permitted taken because⟩, ?_⟩
  intro call member
  obtain ⟨active, alive⟩ := outcome_calls outcome call member
  exact calls (stream.life services) call holds active alive

theorem run_every_sound (services : ServiceMap Msg) (events : List Event) (final : Isolate Msg)
    (reached : run services events = some final) :
    ∀ stream ∈ final.streams, Sound (stream.life services) := by
  have every := run_every_life services (fun _ => True) (fun _ => True) (fun _ _ => True)
    (fun _ => trivial) (fun _ _ _ _ _ _ _ _ _ _ _ _ => trivial) (fun _ _ _ _ _ => trivial) events
    final (Runs.everyStep_of_forall _ (fun _ _ => trivial) _ _) reached
  intro stream member
  exact (every.1 stream member).1

/-- The handler task is queued or running. -/
def Stream.handlerActive (stream : Stream Msg) : Bool :=
  stream.task.any Task.active

theorem life_handler_active (services : ServiceMap Msg) (stream : Stream Msg) :
    (stream.life services).handler = .active ↔ stream.handlerActive = true := by
  cases has : stream.task with
  | none => simp [Stream.life, Stream.handlerActive, has, handlerOf]
  | some task => cases active : task.active <;>
      simp [Stream.life, Stream.handlerActive, has, handlerOf, active]

theorem life_handler_absent (services : ServiceMap Msg) (stream : Stream Msg) :
    (stream.life services).handler = .absent ↔ stream.task = none := by
  cases has : stream.task with
  | none => simp [Stream.life, has, handlerOf]
  | some task => cases active : task.active <;> simp [Stream.life, has, handlerOf, active]

/-- A write fails only when the handler task has returned, or when the message read
last names a service that the isolate does not have. -/
def FailsNoRunningWrite (services : ServiceMap Msg) (isolate : Isolate Msg) : Event → Prop
  | .onStream index (.writeDone false) =>
    ∀ stream ∈ isolate.streams[index]?,
      stream.handlerActive = false ∨ (stream.getService services).isSome = false
  | _ => True

instance (services : ServiceMap Msg) (isolate : Isolate Msg) (event : Event) :
    Decidable (FailsNoRunningWrite services isolate event) := by
  unfold FailsNoRunningWrite
  split <;> infer_instance

/-- In every run in which no write fails under a queued or running handler whose
stream `OnDone` would free, the handler side calls only Reactors that have not been
deleted. -/
theorem writer_calls_alive (services : ServiceMap Msg) (events : List Event) (final : Isolate Msg)
    (every : Runs.EveryStep (step services) (FailsNoRunningWrite services) newIsolate events)
    (reached : run services events = some final) :
    ∀ call ∈ final.writerCalls, call.alive = true := by
  have result := run_every_life services Guarded (fun call => call.alive = true)
    (FailsNoRunningWrite services) guarded_new ?_ ?_ events final every reached
  · exact result.2
  · intro isolate index event stream lifeEvent next present sound guarded permitted taken because
    apply guarded_step _ next lifeEvent sound guarded taken
    rintro rfl
    cases because
    rcases permitted stream present with inactive | unregistered
    · refine .inl (fun active => ?_)
      exact absurd ((life_handler_active services stream).mp active) (by simp [inactive])
    · exact .inr unregistered
  · intro life call guarded active alive
    cases freed : life.freed with
    | false => simpa [freed] using alive
    | true => exact absurd active (guarded.freed_inactive freed)

def hello : InvokeIsolateRequest := bridgeMessage "Greeter" "StreamingSayHello" [10, 2, 72, 105]

/-- A stream on the greeter whose handler writes one response. -/
def writingRun : List Event :=
  [.setIsolateReady, .streamInvokeIsolate 4096, .onStream 0 (.clientWrite hello),
    .onStream 0 (.readDone hello), .onStream 0 .taskStart, .onStream 0 .taskRead,
    .onStream 0 (.taskWrite [10, 2, 72, 105]), .onStream 0 .taskResume]

/-- The call is cancelled, and the write fails after the handler has returned. -/
def lateFailureRun : List Event :=
  writingRun ++ [.onStream 0 .clientCancel, .onStream 0 .readFailed, .onStream 0 (.taskReturn .OK),
    .onStream 0 (.writeDone false), .onStream 0 .onDone]

theorem writer_calls_alive_lateFailure :
    ∃ final, run [greeter] lateFailureRun = some final ∧ final.writerCalls.length = 2 ∧
      ∀ call ∈ final.writerCalls, call.alive = true :=
  ⟨_, rfl, rfl, writer_calls_alive [greeter] lateFailureRun _ (by decide) rfl⟩

/-- The write fails under the handler, nothing is outstanding any more, `OnDone`
deletes the Reactor, and the handler writes again. -/
def earlyFailureRun : List Event :=
  writingRun ++ [.onStream 0 .clientCancel, .onStream 0 .readFailed, .onStream 0 (.writeDone false),
    .onStream 0 .onDone, .onStream 0 (.taskWrite [10, 2, 72, 105])]

theorem write_after_delete :
    ∃ final, run [greeter] earlyFailureRun = some final ∧
      ∃ call ∈ final.writerCalls, call.alive = false :=
  ⟨_, rfl, by decide⟩

/-- No write fails, and once a stream has a handler, every message it reads names a
registered service. -/
def EndsByHandler (services : ServiceMap Msg) (isolate : Isolate Msg) : Event → Prop
  | .onStream index (.readDone message) =>
    ∀ stream ∈ isolate.streams[index]?, stream.task.isSome = true →
      (findService services message.metadata.destinationServiceName).isSome = true
  | .onStream _ (.writeDone ok) => ok = true
  | _ => True

instance (services : ServiceMap Msg) (isolate : Isolate Msg) (event : Event) :
    Decidable (EndsByHandler services isolate event) := by
  unfold EndsByHandler
  split <;> infer_instance

/-- In every such run every Reactor calls `Finish` at most once. -/
theorem finish_at_most_once (services : ServiceMap Msg) (events : List Event) (final : Isolate Msg)
    (every : Runs.EveryStep (step services) (EndsByHandler services) newIsolate events)
    (reached : run services events = some final) :
    ∀ stream ∈ final.streams, stream.finishes.length ≤ 1 := by
  have result := run_every_life services FinishedOnce (fun _ => True) (EndsByHandler services)
    finishedOnce_new ?_ (fun _ _ _ _ _ => trivial) events final every reached
  · intro stream member
    exact (result.1 stream member).2.once
  · intro isolate index event stream lifeEvent next present sound single permitted taken because
    apply finishedOnce_step _ next lifeEvent sound single taken
    · rintro rfl
      obtain ⟨message, rfl, missing⟩ := because
      rw [life_handler_absent]
      by_contra present_task
      have found := permitted stream present (Option.isSome_iff_ne_none.mpr present_task)
      simp [missing] at found
    · rintro rfl
      cases because
      exact absurd permitted (by simp [EndsByHandler])

/-- The client half-closes, the handler reads to the end and returns. -/
def orderlyRun : List Event :=
  writingRun ++ [.onStream 0 .clientWritesDone, .onStream 0 .readFailed, .onStream 0 (.writeDone true),
    .onStream 0 .taskRead, .onStream 0 (.taskReturn .OK), .onStream 0 .onDone]

theorem finish_at_most_once_orderly :
    ∃ final, run [greeter] orderlyRun = some final ∧
      (final.streams.map (fun stream => stream.finishes)) = [[.OK]] ∧
      ∀ stream ∈ final.streams, stream.finishes.length ≤ 1 :=
  ⟨_, rfl, rfl, finish_at_most_once [greeter] orderlyRun _ (by decide) rfl⟩

/-- A write fails, and then the handler returns. -/
def twiceFinishedRun : List Event :=
  writingRun ++ [.onStream 0 (.writeDone false), .onStream 0 (.taskReturn .OK)]

theorem finish_called_twice :
    ∃ final, run [greeter] twiceFinishedRun = some final ∧
      ∃ stream ∈ final.streams, ¬ stream.finishes.length ≤ 1 :=
  ⟨_, rfl, _, List.mem_singleton.mpr rfl, by decide⟩

/-- The client has half-closed, no handler task is queued or running, and no gRPC
operation is outstanding. -/
def Stream.Quiescent (stream : Stream Msg) : Prop :=
  stream.halfClosed = true ∧ stream.handlerActive = false ∧ stream.readOutstanding = false ∧
    stream.writesOutstanding = 0

theorem life_quiescent (services : ServiceMap Msg) (quiet : stream.Quiescent) :
    CallbackLife.Quiescent (stream.life services) := by
  obtain ⟨closed, inactive, reads, writes⟩ := quiet
  refine ⟨closed, ?_, reads, writes⟩
  intro active
  exact absurd ((life_handler_active services stream).mp active) (by simp [inactive])

/-- In every run, exactly when a quiescent Reactor has called `Finish`, and exactly
when a Reactor whose `OnDone` has run has been freed. -/
theorem completion_exact (services : ServiceMap Msg) (events : List Event) (final : Isolate Msg)
    (reached : run services events = some final) :
    ∀ stream ∈ final.streams,
      (stream.Quiescent →
        (stream.finishes ≠ [] ↔ stream.task ≠ none ∨ stream.getService services = none)) ∧
      (stream.doneRun = true → (stream.freed = true ↔ stream.getService services ≠ none)) := by
  intro stream member
  have sound := run_every_sound services events final reached stream member
  constructor
  · intro quiet
    have finished := quiescent_finished_iff _ sound (life_quiescent services quiet)
    rw [ne_eq, life_handler_absent] at finished
    simpa [Stream.life, List.length_pos_iff] using finished
  · intro done
    have freed : stream.freed = (stream.getService services).isSome := (sound.done_freed done).2
    rw [freed, Option.isSome_iff_ne_none]

/-- Every message read names a registered service, a first message read by a ready
isolate moreover one of its bidirectional methods while its pool accepts tasks, and
the client half-closes only after a message has been read. -/
def OpensBeforeEnd (services : ServiceMap Msg) (isolate : Isolate Msg) : Event → Prop
  | .onStream index (.readDone message) =>
    ∀ stream ∈ isolate.streams[index]?,
      ∃ service ∈ findService services message.metadata.destinationServiceName,
        stream.isRpcStarted = false → isolate.currentState = isolateStateReady →
          (service.bidiMethod message.metadata.destinationMethodName).isSome = true ∧
            (isolate.objects.state service.serviceName).poolStopped = false
  | .onStream index .readFailed =>
    ∀ stream ∈ isolate.streams[index]?, stream.isRpcStarted = true
  | _ => True

instance (services : ServiceMap Msg) (isolate : Isolate Msg) (event : Event) :
    Decidable (OpensBeforeEnd services isolate event) := by
  unfold OpensBeforeEnd
  split <;> infer_instance

/-- In every such run a quiescent Reactor has called `Finish`, and a Reactor whose
`OnDone` has run has been freed. -/
theorem no_orphaned_stream (services : ServiceMap Msg) (events : List Event) (final : Isolate Msg)
    (every : Runs.EveryStep (step services) (OpensBeforeEnd services) newIsolate events)
    (reached : run services events = some final) :
    ∀ stream ∈ final.streams,
      (stream.Quiescent → stream.finishes ≠ []) ∧ (stream.doneRun = true → stream.freed = true) := by
  have result := run_every_life services Completing (fun _ => True) (OpensBeforeEnd services)
    completing_new ?_ (fun _ _ _ _ _ => trivial) events final every reached
  · intro stream member
    obtain ⟨sound, completing⟩ := result.1 stream member
    constructor
    · intro quiet
      have started := completing.closed_started quiet.1
      have finished := (quiescent_finished_iff _ sound (life_quiescent services quiet)).mpr
        (.inl (completing.started_handler started).1)
      exact List.length_pos_iff.mp finished
    · intro done
      have supported := completing.finished_supported (sound.done_finished done)
      exact (sound.done_freed done).2.trans supported
  · intro isolate index event stream lifeEvent next present sound completing permitted taken because
    apply completing_step _ next lifeEvent sound completing taken
    · rintro rfl
      obtain ⟨message, rfl, missing⟩ := because
      obtain ⟨service, found, _⟩ := permitted stream present
      exact absurd (missing.symm.trans found) (by simp)
    · rintro rfl
      obtain ⟨message, service, rfl, found, first, state, cannot⟩ := because
      obtain ⟨other, otherFound, opens⟩ := permitted stream present
      cases Option.some.inj (found.symm.trans otherFound)
      obtain ⟨declared, pool⟩ := opens first state
      rcases cannot with undeclared | stopped
      · simp [undeclared] at declared
      · simp [stopped] at pool
    · rintro (rfl | rfl)
      · cases because
        exact permitted stream present
      · cases because
        exact permitted stream present

theorem no_orphaned_stream_orderly :
    ∃ final, run [greeter] orderlyRun = some final ∧ final.streams.length = 1 ∧
      ∀ stream ∈ final.streams,
        (stream.Quiescent → stream.finishes ≠ []) ∧ (stream.doneRun = true → stream.freed = true) :=
  ⟨_, rfl, rfl, no_orphaned_stream [greeter] orderlyRun _ (by decide) rfl⟩

def unknownMethod : InvokeIsolateRequest := bridgeMessage "Greeter" "SayGoodbye" [10, 2, 72, 105]

/-- One message that names an unknown method, then the half-close. -/
def unknownMethodRun : List Event :=
  [.setIsolateReady, .streamInvokeIsolate 4096, .onStream 0 (.clientWrite unknownMethod),
    .onStream 0 (.readDone unknownMethod), .onStream 0 .clientWritesDone, .onStream 0 .readFailed]

theorem unknown_method_orphaned :
    ∃ final, run [greeter] unknownMethodRun = some final ∧
      ∃ stream ∈ final.streams, stream.Quiescent ∧ stream.finishes = [] :=
  ⟨_, rfl, _, List.mem_singleton.mpr rfl, ⟨rfl, rfl, rfl, rfl⟩, rfl⟩

end EzSdk.Bridge
