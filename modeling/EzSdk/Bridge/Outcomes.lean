import EzSdk.Bridge.Reactor
import EzSdk.Foundation.HeapLists

/-! Everything that one event can do to its stream. All invariants of the bridge
are proved from these cases and never unfold the callbacks again. -/

namespace EzSdk.Bridge

variable {Msg : Type}

/-- The service objects after an adapter has been handed something. -/
def Objects.handedTo (objects : Objects Msg) (stream index : Nat) (adapter changed : Adapter Msg)
    (message : Option InvokeIsolateRequest) : Objects Msg :=
  { objects with
    adapters := objects.adapters.set index changed
    handed := objects.handed ++ [⟨stream, index, adapter.owner, adapter.service, message⟩] }

/-- The service objects after a first message has opened an rpc. -/
def Objects.opening (objects : Objects Msg) (service : Service Msg) (method : Method Msg)
    (streamId writer : Nat) (request : InvokeIsolateRequest) : Objects Msg where
  state := Function.update objects.state service.serviceName
    { objects.state service.serviceName with
      activeStreams := (objects.state service.serviceName).activeStreams.insert streamId
        objects.adapters.length }
  adapters := objects.adapters ++ [((newAdapter service method writer request).forwardRequest request).2]
  handed := objects.handed ++
    [⟨writer, objects.adapters.length, writer, service.serviceName, some request⟩]

/-- No message of the client is left to read: the call was cancelled, or the client has
half-closed and everything it sent has been read. -/
def Stream.Over (stream : Stream Msg) : Prop :=
  stream.cancelled = true ∨
    (stream.clientClosed = true ∧ stream.received.length = stream.sent.length)

/-- The cases of an event; each names the branch of the source that it takes. -/
inductive Outcome (services : ServiceMap Msg) (currentState : Int) (self : Nat)
    (stream : Stream Msg) (objects : Objects Msg) :
    StreamEvent → Stream Msg → Objects Msg → List WriterCall → Prop where
  | clientWrite (message : InvokeIsolateRequest) (writable : stream.clientClosed = false) :
      Outcome services currentState self stream objects (.clientWrite message)
        { stream with sent := stream.sent ++ [message] } objects []
  | clientWritesDone :
      Outcome services currentState self stream objects .clientWritesDone
        { stream with clientClosed := true } objects []
  | clientCancel :
      Outcome services currentState self stream objects .clientCancel
        { stream with cancelled := true } objects []
  | readUnsupported (message : InvokeIsolateRequest) (reading : stream.readOutstanding = true)
      (next : stream.sent[stream.received.length]? = some message)
      (missing : findService services message.metadata.destinationServiceName = none) :
      Outcome services currentState self stream objects (.readDone message)
        ((stream.accept message).finish (unsupported message.metadata.destinationServiceName))
        objects []
  | readNotReady (message : InvokeIsolateRequest) (service : Service Msg)
      (reading : stream.readOutstanding = true)
      (next : stream.sent[stream.received.length]? = some message)
      (found : findService services message.metadata.destinationServiceName = some service)
      (first : stream.isRpcStarted = false) (state : currentState ≠ isolateStateReady) :
      Outcome services currentState self stream objects (.readDone message)
        ((stream.accept message).finish (notReady currentState)) objects []
  | readRefused (message : InvokeIsolateRequest) (service : Service Msg)
      (reading : stream.readOutstanding = true)
      (next : stream.sent[stream.received.length]? = some message)
      (found : findService services message.metadata.destinationServiceName = some service)
      (first : stream.isRpcStarted = false) (state : currentState = isolateStateReady)
      (cannot : service.bidiMethod message.metadata.destinationMethodName = none ∨
        (objects.state service.serviceName).poolStopped = true) :
      Outcome services currentState self stream objects (.readDone message)
        { stream.accept message with isRpcStarted := true, task := none }.startRead objects []
  | readOpened (message : InvokeIsolateRequest) (service : Service Msg) (method : Method Msg)
      (reading : stream.readOutstanding = true)
      (next : stream.sent[stream.received.length]? = some message)
      (found : findService services message.metadata.destinationServiceName = some service)
      (first : stream.isRpcStarted = false) (state : currentState = isolateStateReady)
      (declared : service.bidiMethod message.metadata.destinationMethodName = some method)
      (pool : (objects.state service.serviceName).poolStopped = false) :
      Outcome services currentState self stream objects (.readDone message)
        { stream.accept message with
          isRpcStarted := true
          task := some (newTask service objects.adapters.length) }.startRead
        (objects.opening service method stream.address self message) []
  | readLost (message : InvokeIsolateRequest) (service : Service Msg)
      (reading : stream.readOutstanding = true)
      (next : stream.sent[stream.received.length]? = some message)
      (found : findService services message.metadata.destinationServiceName = some service)
      (started : stream.isRpcStarted = true)
      (absent : ∀ index, objects.activeStream service.serviceName stream.address = some index →
        objects.adapters[index]? = none) :
      Outcome services currentState self stream objects (.readDone message)
        (stream.accept message).startRead objects []
  | readForwarded (message : InvokeIsolateRequest) (service : Service Msg) (index : Nat)
      (adapter : Adapter Msg) (reading : stream.readOutstanding = true)
      (next : stream.sent[stream.received.length]? = some message)
      (found : findService services message.metadata.destinationServiceName = some service)
      (started : stream.isRpcStarted = true)
      (entry : objects.activeStream service.serviceName stream.address = some index)
      (stored : objects.adapters[index]? = some adapter) :
      Outcome services currentState self stream objects (.readDone message)
        (stream.accept message).startRead
        (objects.handedTo self index adapter (adapter.forwardRequest message).2 (some message)) []
  | endUnsupported (reading : stream.readOutstanding = true) (noneLeft : stream.Over)
      (missing : findService services stream.serviceName = none) :
      Outcome services currentState self stream objects .readFailed
        (stream.endReads.finish (unsupported stream.serviceName)) objects []
  | endLost (service : Service Msg) (reading : stream.readOutstanding = true) (noneLeft : stream.Over)
      (found : findService services stream.serviceName = some service)
      (absent : ∀ index, objects.activeStream service.serviceName stream.address = some index →
        objects.adapters[index]? = none) :
      Outcome services currentState self stream objects .readFailed stream.endReads objects []
  | endSignalled (service : Service Msg) (index : Nat) (adapter : Adapter Msg)
      (reading : stream.readOutstanding = true) (noneLeft : stream.Over)
      (found : findService services stream.serviceName = some service)
      (entry : objects.activeStream service.serviceName stream.address = some index)
      (stored : objects.adapters[index]? = some adapter) :
      Outcome services currentState self stream objects .readFailed stream.endReads
        (objects.handedTo self index adapter adapter.signalDone none) []
  | writeDone (ok : Bool) (writing : 0 < stream.writesOutstanding) :
      Outcome services currentState self stream objects (.writeDone ok)
        (onWriteDone ok { stream with writesOutstanding := stream.writesOutstanding - 1 }) objects []
  | done (finished : stream.finishes ≠ []) (reads : stream.readOutstanding = false)
      (writes : stream.writesOutstanding = 0) (once : stream.doneRun = false) :
      Outcome services currentState self stream objects .onDone
        (onDone services { stream with doneRun := true }) objects []
  | taskStart (task : Task Msg) (has : stream.task = some task) (queued : task.phase = .queued) :
      Outcome services currentState self stream objects .taskStart
        { stream with task := some { task with phase := .running } } objects []
  | taskRead (task : Task Msg) (adapter : Adapter Msg) (message : Msg) (rest : List Msg)
      (has : stream.task = some task) (running : task.phase = .running)
      (stored : objects.adapters[task.adapter]? = some adapter)
      (queue : adapter.requestQueue = message :: rest) :
      Outcome services currentState self stream objects .taskRead
        { stream with task := some { task with reads := task.reads ++ [message] } }
        { objects with
          adapters := objects.adapters.set task.adapter { adapter with requestQueue := rest } } []
  | taskEnd (task : Task Msg) (adapter : Adapter Msg)
      (has : stream.task = some task) (running : task.phase = .running)
      (stored : objects.adapters[task.adapter]? = some adapter)
      (queue : adapter.requestQueue = []) (signalled : adapter.isDone = true) :
      Outcome services currentState self stream objects .taskRead
        { stream with task := some { task with sawEnd := true } } objects []
  | taskWrite (task : Task Msg) (adapter : Adapter Msg) (payload : Bytes)
      (has : stream.task = some task) (running : task.phase = .running)
      (stored : objects.adapters[task.adapter]? = some adapter) (alive : stream.freed = false) :
      Outcome services currentState self stream objects (.taskWrite payload)
        { stream with task := some { task with phase := .writing (adapter.response payload) } }
        objects [⟨self, .writeResponse, true⟩]
  | taskWriteFreed (task : Task Msg) (payload : Bytes)
      (has : stream.task = some task) (running : task.phase = .running)
      (freed : stream.freed = true) :
      Outcome services currentState self stream objects (.taskWrite payload) stream objects
        [⟨self, .writeResponse, false⟩]
  | taskResume (task : Task Msg) (response : InvokeIsolateResponse)
      (has : stream.task = some task) (waiting : task.phase = .writing response)
      (alive : stream.freed = false) (idle : stream.writingInProgress = false) :
      Outcome services currentState self stream objects .taskResume
        (writeResponse response { stream with task := some { task with phase := .running } })
        objects []
  | taskResumeFreed (task : Task Msg) (response : InvokeIsolateResponse)
      (has : stream.task = some task) (waiting : task.phase = .writing response)
      (freed : stream.freed = true) :
      Outcome services currentState self stream objects .taskResume
        { stream with task := some { task with phase := .running } } objects []
  | taskReturn (task : Task Msg) (status : Status)
      (has : stream.task = some task) (running : task.phase = .running)
      (alive : stream.freed = false) :
      Outcome services currentState self stream objects (.taskReturn status)
        ({ stream with task := some { task with phase := .returned status } }.finish .OK)
        objects [⟨self, .finishStream, true⟩]
  | taskReturnFreed (task : Task Msg) (status : Status)
      (has : stream.task = some task) (running : task.phase = .running)
      (freed : stream.freed = true) :
      Outcome services currentState self stream objects (.taskReturn status)
        { stream with task := some { task with phase := .returned status } }
        objects [⟨self, .finishStream, false⟩]

theorem hand_absent (objects : Objects Msg) (stream index : Nat)
    (message : Option InvokeIsolateRequest) (operation : Adapter Msg → Status × Adapter Msg)
    (absent : objects.adapters[index]? = none) :
    objects.hand stream index message operation = (.OK, objects) := by
  simp only [Objects.hand, absent]

theorem hand_stored (objects : Objects Msg) (stream index : Nat)
    (message : Option InvokeIsolateRequest) (operation : Adapter Msg → Status × Adapter Msg)
    (adapter : Adapter Msg) (stored : objects.adapters[index]? = some adapter) :
    objects.hand stream index message operation =
      ((operation adapter).1, objects.handedTo stream index adapter (operation adapter).2 message) := by
  simp only [Objects.hand, stored, Objects.handedTo]

variable {services : ServiceMap Msg} {currentState : Int} {self index : Nat} {event : StreamEvent}
  {stream : Stream Msg} {objects : Objects Msg} {task : Task Msg} {effect : Effect Msg}
  {request message : InvokeIsolateRequest} {service : Service Msg} {method : Method Msg}
  {isolate next : Isolate Msg}

theorem handler_refuses (streamId writer : Nat)
    (cannot : service.bidiMethod request.metadata.destinationMethodName = none ∨ (objects.state
      service.serviceName).poolStopped = true) :
    (isolateStreamRpcMethodHandler service streamId writer request objects).2 = (none, objects) := by
  cases declared : service.bidiMethod request.metadata.destinationMethodName with
  | none => simp only [isolateStreamRpcMethodHandler, declared]
  | some method =>
    have stopped : (objects.state service.serviceName).poolStopped = true := by
      simpa [declared] using cannot
    simp only [isolateStreamRpcMethodHandler, declared, stopped, if_true]

theorem handler_opens (streamId writer : Nat)
    (declared : service.bidiMethod request.metadata.destinationMethodName = some method)
    (pool : (objects.state service.serviceName).poolStopped = false) :
    (isolateStreamRpcMethodHandler service streamId writer request objects).2 =
      (some (newTask service objects.adapters.length),
        objects.opening service method streamId writer request) := by
  simp only [isolateStreamRpcMethodHandler, declared, pool, Bool.false_eq_true, if_false]
  rw [hand_stored _ _ _ _ _ (newAdapter service method writer request) (by simp [Objects.install])]
  simp [Objects.handedTo, Objects.install, Objects.opening, newAdapter]

theorem readDone_outcome (services : ServiceMap Msg) (currentState : Int) (self : Nat)
    (objects : Objects Msg) (reading : stream.readOutstanding = true)
    (next : stream.sent[stream.received.length]? = some message) :
    Outcome services currentState self stream objects (.readDone message)
      (onReadDone services currentState self true (stream.accept message) objects).1
      (onReadDone services currentState self true (stream.accept message) objects).2 [] := by
  have service_eq : (stream.accept message).getService services =
      findService services message.metadata.destinationServiceName := rfl
  cases found : findService services message.metadata.destinationServiceName with
  | none =>
    simp only [onReadDone, service_eq, found]
    exact .readUnsupported message reading next found
  | some service =>
    cases started : stream.isRpcStarted with
    | false =>
      have first : (stream.accept message).isRpcStarted = false := started
      by_cases state : currentState = isolateStateReady
      · subst state
        by_cases cannot : service.bidiMethod message.metadata.destinationMethodName = none ∨
            (objects.state service.serviceName).poolStopped = true
        · have refuses : (isolateStreamRpcMethodHandler service (stream.accept message).address
              self (stream.accept message).invokeIsolateReq objects).2 = (none, objects) :=
            handler_refuses stream.address self cannot
          simp only [onReadDone, service_eq, found, first, Bool.true_eq_false, if_false,
            if_true, ne_eq, not_true_eq_false, refuses]
          exact .readRefused message service reading next found started rfl cannot
        · obtain ⟨undeclared, running⟩ := not_or.mp cannot
          obtain ⟨method, declared⟩ := Option.ne_none_iff_exists'.mp undeclared
          have pool := Bool.eq_false_iff.mpr running
          have opens : (isolateStreamRpcMethodHandler service (stream.accept message).address
              self (stream.accept message).invokeIsolateReq objects).2 =
              (some (newTask service objects.adapters.length),
                objects.opening service method stream.address self message) :=
            handler_opens stream.address self declared pool
          simp only [onReadDone, service_eq, found, first, Bool.true_eq_false, if_false,
            if_true, ne_eq, not_true_eq_false, opens]
          exact .readOpened message service method reading next found started rfl declared pool
      · simp only [onReadDone, service_eq, found, first, Bool.true_eq_false, if_false, if_true,
          ne_eq, state, not_false_eq_true]
        exact .readNotReady message service reading next found started state
    | true =>
      have later : (stream.accept message).isRpcStarted = true := started
      simp only [onReadDone, service_eq, found, later, Bool.true_eq_false, if_false]
      cases entry : objects.activeStream service.serviceName stream.address with
      | none =>
        have same : (forwardStreamingMessage service (stream.accept message).address self
            (stream.accept message).invokeIsolateReq objects).2 = objects := by
          simp only [forwardStreamingMessage, Stream.accept, entry]
        rw [same]
        exact .readLost message service reading next found started (by simp [entry])
      | some index =>
        have forwards : forwardStreamingMessage service (stream.accept message).address self
            (stream.accept message).invokeIsolateReq objects =
            objects.hand self index (some message) (·.forwardRequest message) := by
          simp only [forwardStreamingMessage, Stream.accept, entry]
        rw [forwards]
        cases stored : objects.adapters[index]? with
        | none =>
          rw [hand_absent _ _ _ _ _ stored]
          exact .readLost message service reading next found started (by
            intro other same
            cases entry.symm.trans same
            exact stored)
        | some adapter =>
          rw [hand_stored _ _ _ _ _ adapter stored]
          exact .readForwarded message service index adapter reading next found started
            entry stored

theorem readFailed_outcome (services : ServiceMap Msg) (currentState : Int) (self : Nat)
    (objects : Objects Msg) (reading : stream.readOutstanding = true) (noneLeft : stream.Over) :
    Outcome services currentState self stream objects .readFailed
      (onReadDone services currentState self false stream.endReads objects).1
      (onReadDone services currentState self false stream.endReads objects).2 [] := by
  have service_eq : stream.endReads.getService services =
      findService services stream.serviceName := rfl
  cases found : findService services stream.serviceName with
  | none =>
    simp only [onReadDone, service_eq, found]
    exact .endUnsupported reading noneLeft found
  | some service =>
    simp only [onReadDone, service_eq, found, if_true]
    cases entry : objects.activeStream service.serviceName stream.address with
    | none =>
      have same : (requestStreamClosed service stream.endReads.address self objects).2 =
          objects := by
        simp only [requestStreamClosed, Stream.endReads, entry]
      rw [same]
      exact .endLost service reading noneLeft found (by simp [entry])
    | some index =>
      have closes : requestStreamClosed service stream.endReads.address self objects =
          objects.hand self index none (fun adapter => (.OK, adapter.signalDone)) := by
        simp only [requestStreamClosed, Stream.endReads, entry]
      rw [closes]
      cases stored : objects.adapters[index]? with
      | none =>
        rw [hand_absent _ _ _ _ _ stored]
        exact .endLost service reading noneLeft found (by
          intro other same
          cases entry.symm.trans same
          exact stored)
      | some adapter =>
        rw [hand_stored _ _ _ _ _ adapter stored]
        exact .endSignalled service index adapter reading noneLeft found entry stored

theorem taskRead_outcome (services : ServiceMap Msg) (currentState : Int) (self : Nat)
    (has : stream.task = some task) (running : task.phase = .running)
    (taken : taskRead task stream objects = some effect) :
    Outcome services currentState self stream objects .taskRead
      effect.stream effect.objects effect.calls := by
  cases stored : objects.adapters[task.adapter]? with
  | none => simp [taskRead, stored] at taken
  | some adapter =>
    cases queue : adapter.requestQueue with
    | nil =>
      cases signalled : adapter.isDone with
      | false => simp [taskRead, stored, queue, signalled] at taken
      | true =>
        simp only [taskRead, stored, queue, signalled, if_true, Option.some.injEq] at taken
        subst taken
        exact .taskEnd task adapter has running stored queue signalled
    | cons message rest =>
      simp only [taskRead, stored, queue, Option.some.injEq] at taken
      subst taken
      exact .taskRead task adapter message rest has running stored queue

theorem taskWrite_outcome (services : ServiceMap Msg) (currentState : Int) (payload : Bytes)
    (has : stream.task = some task) (running : task.phase = .running)
    (taken : taskWrite self task payload stream objects = some effect) :
    Outcome services currentState self stream objects (.taskWrite payload)
      effect.stream effect.objects effect.calls := by
  cases stored : objects.adapters[task.adapter]? with
  | none => simp [taskWrite, stored] at taken
  | some adapter =>
    cases freed : stream.freed with
    | false =>
      simp only [taskWrite, stored] at taken
      rw [if_neg (by simp [freed])] at taken
      cases taken
      exact .taskWrite task adapter payload has running stored freed
    | true =>
      simp only [taskWrite, stored] at taken
      rw [if_pos freed] at taken
      cases taken
      exact .taskWriteFreed task payload has running freed

theorem taskReturn_outcome (services : ServiceMap Msg) (currentState : Int) (self : Nat)
    (objects : Objects Msg) (status : Status) (has : stream.task = some task)
    (running : task.phase = .running) :
    Outcome services currentState self stream objects (.taskReturn status)
      (taskReturn self task status stream objects).stream
      (taskReturn self task status stream objects).objects
      (taskReturn self task status stream objects).calls := by
  cases freed : stream.freed with
  | false =>
    have call : (!stream.freed) = true := by simp [freed]
    simp only [taskReturn, call]
    rw [if_neg (by simp [freed])]
    exact .taskReturn task status has running freed
  | true =>
    have call : (!stream.freed) = false := by simp [freed]
    simp only [taskReturn, call]
    rw [if_pos freed]
    exact .taskReturnFreed task status has running freed

theorem taskResume_outcome (has : stream.task = some task)
    (taken : streamStep services currentState self .taskResume stream objects = some effect) :
    Outcome services currentState self stream objects .taskResume
      effect.stream effect.objects effect.calls := by
  cases phase : task.phase with
  | queued => simp [streamStep, has, phase] at taken
  | running => simp [streamStep, has, phase] at taken
  | returned status => simp [streamStep, has, phase] at taken
  | writing response =>
    cases freed : stream.freed with
    | true =>
      simp only [streamStep, has, phase] at taken
      rw [if_pos freed] at taken
      cases taken
      exact .taskResumeFreed task response has phase freed
    | false =>
      cases idle : stream.writingInProgress with
      | true => simp [streamStep, has, phase, freed, idle] at taken
      | false =>
        simp only [streamStep, has, phase] at taken
        rw [if_neg (by simp [freed]), if_neg (by simp [idle])] at taken
        cases taken
        exact .taskResume task response has phase freed idle

/-- The one inversion of `streamStep`. -/
theorem streamStep_outcome
    (taken : streamStep services currentState self event stream objects = some effect) :
    Outcome services currentState self stream objects event
      effect.stream effect.objects effect.calls := by
  cases event with
  | clientWrite message =>
    simp only [streamStep, Option.ite_none_left_eq_some, Option.some.injEq] at taken
    obtain ⟨writable, rfl⟩ := taken
    exact .clientWrite message (Bool.eq_false_iff.mpr writable)
  | clientWritesDone =>
    simp only [streamStep, Option.some.injEq] at taken
    subst taken
    exact .clientWritesDone
  | clientCancel =>
    simp only [streamStep, Option.some.injEq] at taken
    subst taken
    exact .clientCancel
  | readDone message =>
    simp only [streamStep, Runs.guarded] at taken
    obtain ⟨⟨reading, next⟩, rfl⟩ := taken
    exact readDone_outcome services currentState self objects reading next
  | readFailed =>
    simp only [streamStep, Runs.guarded] at taken
    obtain ⟨⟨reading, noneLeft⟩, rfl⟩ := taken
    exact readFailed_outcome services currentState self objects reading noneLeft
  | writeDone ok =>
    simp only [streamStep, Runs.guarded] at taken
    obtain ⟨writing, rfl⟩ := taken
    exact .writeDone ok writing
  | onDone =>
    simp only [streamStep, Runs.guarded] at taken
    obtain ⟨⟨finished, reads, writes, once⟩, rfl⟩ := taken
    exact .done finished reads writes once
  | taskStart =>
    cases has : stream.task with
    | none => simp [streamStep, has] at taken
    | some task =>
      simp only [streamStep, has, Runs.guarded] at taken
      obtain ⟨queued, rfl⟩ := taken
      exact .taskStart task has queued
  | taskRead =>
    cases has : stream.task with
    | none => simp [streamStep, has] at taken
    | some task =>
      simp only [streamStep, has, Option.ite_none_right_eq_some] at taken
      exact taskRead_outcome services currentState self has taken.1 taken.2
  | taskWrite payload =>
    cases has : stream.task with
    | none => simp [streamStep, has] at taken
    | some task =>
      simp only [streamStep, has, Option.ite_none_right_eq_some] at taken
      exact taskWrite_outcome services currentState payload has taken.1 taken.2
  | taskResume =>
    cases has : stream.task with
    | none => simp [streamStep, has] at taken
    | some task =>
      exact taskResume_outcome has taken
  | taskReturn status =>
    cases has : stream.task with
    | none => simp [streamStep, has] at taken
    | some task =>
      simp only [streamStep, has, Runs.guarded] at taken
      obtain ⟨running, rfl⟩ := taken
      exact taskReturn_outcome services currentState self objects status has running

theorem onStream_cases (taken : step services isolate (.onStream index event) = some next) :
    ∃ stream changed objects calls, isolate.streams[index]? = some stream ∧
      Outcome services isolate.currentState index stream isolate.objects event changed objects calls ∧
      next = { isolate with
        objects := objects
        streams := isolate.streams.set index changed
        writerCalls := isolate.writerCalls ++ calls } := by
  cases present : isolate.streams[index]? with
  | none => simp [step, present] at taken
  | some stream =>
    simp only [step, present, Option.map_eq_some_iff] at taken
    obtain ⟨effect, result, rfl⟩ := taken
    exact ⟨stream, effect.stream, effect.objects, effect.calls, rfl,
      streamStep_outcome result, rfl⟩

/-- A property of single streams that holds of new ones and that every allowed
event keeps holds of all streams throughout every run of allowed steps; and so does
what it says of the calls that such events make. -/
theorem run_every_stream (services : ServiceMap Msg) (Holds : Stream Msg → Prop)
    (Good : WriterCall → Prop) (allowed : Isolate Msg → Event → Prop)
    (fresh : ∀ address, Holds (newStream address))
    (keeps : ∀ isolate index event stream changed objects calls,
      isolate.streams[index]? = some stream → Holds stream → allowed isolate (.onStream index event) →
      Outcome services isolate.currentState index stream isolate.objects event changed objects calls →
      Holds changed ∧ ∀ call ∈ calls, Good call)
    (events : List Event) (final : Isolate Msg)
    (every : Runs.EveryStep (step services) allowed newIsolate events)
    (reached : run services events = some final) :
    (∀ stream ∈ final.streams, Holds stream) ∧ ∀ call ∈ final.writerCalls, Good call := by
  apply Runs.run_preserves_allowed
    (fun isolate => (∀ stream ∈ isolate.streams, Holds stream) ∧
      ∀ call ∈ isolate.writerCalls, Good call) allowed
    ?_ newIsolate final events (by simp [newIsolate]) every reached
  rintro isolate event next ⟨holds, good⟩ permitted taken
  cases event with
  | setIsolateReady => cases taken; exact ⟨holds, good⟩
  | updateIsolateState moveToState => cases taken; exact ⟨holds, good⟩
  | stopPool service => cases taken; exact ⟨holds, good⟩
  | streamInvokeIsolate address =>
    simp only [step, Runs.guarded] at taken
    obtain ⟨_, rfl⟩ := taken
    refine ⟨?_, good⟩
    intro stream member
    rcases List.mem_append.mp member with old | new
    · exact holds stream old
    · cases List.mem_singleton.mp new
      exact fresh address
  | onStream index event =>
    obtain ⟨before, changed, objects, calls, present, outcome, rfl⟩ :=
      onStream_cases taken
    have result := keeps isolate index event before changed objects calls present
      (holds before (List.mem_of_getElem? present)) permitted outcome
    constructor
    · intro stream member
      rcases List.mem_or_eq_of_mem_set member with old | rfl
      · exact holds stream old
      · exact result.1
    · intro call member
      rcases List.mem_append.mp member with old | new
      · exact good call old
      · exact result.2 call new

/-- How a stream relates to what it becomes in any run, when every event relates it so. -/
theorem run_later_stream (services : ServiceMap Msg) (Later : Stream Msg → Stream Msg → Prop)
    (unchanged : ∀ stream, Later stream stream)
    (further : ∀ first second third, Later first second → Later second third → Later first third)
    (each : ∀ currentState self event stream changed objects after calls,
      Outcome services currentState self stream objects event changed after calls →
      Later stream changed)
    (start final : Isolate Msg) (events : List Event) (index : Nat) (stream : Stream Msg)
    (present : start.streams[index]? = some stream)
    (reached : Runs.run (step services) start events = some final) :
    ∃ changed, final.streams[index]? = some changed ∧ Later stream changed := by
  refine Runs.run_preserves
    (fun isolate => ∃ changed, isolate.streams[index]? = some changed ∧ Later stream changed) ?_
    start final events ⟨stream, present, unchanged stream⟩ reached
  rintro isolate event next ⟨current, stored, later⟩ taken
  cases event with
  | setIsolateReady => cases taken; exact ⟨current, stored, later⟩
  | updateIsolateState moveToState => cases taken; exact ⟨current, stored, later⟩
  | stopPool service => cases taken; exact ⟨current, stored, later⟩
  | streamInvokeIsolate address =>
    simp only [step, Runs.guarded] at taken
    obtain ⟨_, rfl⟩ := taken
    exact ⟨current, (HeapLists.getElem?_append_one _ _ _ _).mpr (.inl stored), later⟩
  | onStream acting event =>
    obtain ⟨touched, changed, objects, calls, acted, outcome, rfl⟩ :=
      onStream_cases taken
    have lookup := HeapLists.getElem?_set_some isolate.streams acting index touched changed
    by_cases here : index = acting
    · subst here
      have same : current = touched := Option.some.inj (stored.symm.trans acted)
      subst same
      exact ⟨changed, (lookup changed acted).mpr (.inl ⟨rfl, rfl⟩),
        further stream current changed later (each _ _ _ _ _ _ _ _ outcome)⟩
    · exact ⟨current, (lookup current acted).mpr (.inr ⟨here, stored⟩), later⟩

end EzSdk.Bridge
