import EzSdk.Bridge.Delivery

/-! What the handler of a stream reads: the messages of the client that parse, in
order, and the end of the stream only after all of them. -/

namespace EzSdk.Bridge

open AddressTable CallbackLife HeapLists

variable {Msg : Type}

theorem head?_append_other (finishes : List Status) (status : Status) (failure : status ≠ .OK)
    (head : (finishes ++ [status]).head? = some .OK) : finishes.head? = some .OK := by
  cases finishes with
  | nil => exact absurd (Option.some.inj head) failure
  | cons first rest => exact head

/-- What has arrived of a client's messages, and what an OK at the end means. -/
structure Arrived (stream : Stream Msg) : Prop where
  arrived : stream.received <+: stream.sent
  complete : stream.halfClosed = true → stream.cancelled = false →
    stream.clientClosed = true ∧ stream.received = stream.sent
  finished : stream.finishes.head? = some .OK → stream.handlerActive = false

variable {services : ServiceMap Msg} {isolate : Isolate Msg} {index handle other : Nat}
  {stream changed kept : Stream Msg} {objects after : Objects Msg} {task : Task Msg}
  {event : StreamEvent} {calls : List WriterCall} {message : InvokeIsolateRequest}
  {adapter : Adapter Msg} {service : Service Msg} {currentState : Int}

theorem arrived_new (address : Nat) : Arrived (newStream address : Stream Msg) := by
  constructor <;> simp [newStream]

/-- What client and Reactor know of each other's messages. -/
structure Traffic where
  received : List InvokeIsolateRequest
  sent : List InvokeIsolateRequest
  cancelled : Bool
  clientClosed : Bool
  halfClosed : Bool

def Stream.traffic (stream : Stream Msg) : Traffic where
  received := stream.received
  sent := stream.sent
  cancelled := stream.cancelled
  clientClosed := stream.clientClosed
  halfClosed := stream.halfClosed

theorem arrived_read (arrived : Arrived stream)
    (next : stream.sent[stream.received.length]? = some message) (unclosed : stream.halfClosed = false)
    (read : changed.traffic = { stream.traffic with received := stream.received ++ [message] })
    (finished : changed.finishes.head? = some .OK → changed.handlerActive = false) :
    Arrived changed := by
  simp only [Stream.traffic, Traffic.mk.injEq] at read
  obtain ⟨received, sent, _, _, closed⟩ := read
  refine ⟨?_, fun half => absurd (half.symm.trans (closed.trans unclosed)) (by decide), finished⟩
  obtain ⟨rest, split⟩ := arrived.arrived
  rw [received, sent, ← split]
  rw [← split, List.getElem?_append_right (Nat.le_refl _), Nat.sub_self] at next
  cases rest with
  | nil => cases next
  | cons first rest =>
    cases next
    exact ⟨rest, by simp⟩

theorem arrived_end (arrived : Arrived stream) (noneLeft : stream.Over)
    (ended : changed.traffic = { stream.traffic with halfClosed := true })
    (finished : changed.finishes.head? = some .OK → changed.handlerActive = false) :
    Arrived changed := by
  simp only [Stream.traffic, Traffic.mk.injEq] at ended
  obtain ⟨received, sent, cancelled, closed, _⟩ := ended
  refine ⟨by rw [received, sent]; exact arrived.arrived, ?_, finished⟩
  intro _ live
  rw [cancelled] at live
  rcases noneLeft with gone | ⟨half, length⟩
  · exact absurd (live.symm.trans gone) (by decide)
  · rw [closed, received, sent]
    exact ⟨half, arrived.arrived.eq_of_length length⟩

/-- Events that the client does not see. -/
theorem arrived_idle (arrived : Arrived stream) (same : changed.traffic = stream.traffic)
    (finished : changed.finishes.head? = some .OK → changed.handlerActive = false) :
    Arrived changed := by
  obtain ⟨received, sent, cancelled, closed, half⟩ := Traffic.mk.inj same
  refine ⟨by rw [received, sent]; exact arrived.arrived, ?_, finished⟩
  simpa only [half, cancelled, closed, received, sent] using arrived.complete

theorem outcome_arrived (sound : Sound (stream.life services)) (arrived : Arrived stream)
    (outcome : Outcome services currentState index stream objects event changed after calls) :
    Arrived changed := by
  have later := fun status failure head =>
    arrived.finished (head?_append_other stream.finishes status failure head)
  -- A running handler has not finished the stream with OK.
  have running_unfinished : ∀ task, stream.task = some task → task.active = true →
      ∀ {goal : Prop}, stream.finishes.head? = some .OK → goal := by
    intro task has active goal head
    have inactive := arrived.finished head
    simp [Stream.handlerActive, has, active] at inactive
  cases outcome with
  | clientWrite message writable =>
    refine ⟨arrived.arrived.trans (List.prefix_append _ _), ?_, arrived.finished⟩
    intro half live
    exact absurd (writable.symm.trans (arrived.complete half live).1) (by decide)
  | clientWritesDone =>
    exact ⟨arrived.arrived, fun half live => ⟨rfl, (arrived.complete half live).2⟩, arrived.finished⟩
  | clientCancel => exact ⟨arrived.arrived, fun _ live => absurd live (by simp), arrived.finished⟩
  | readUnsupported message reading next missing =>
    exact arrived_read arrived next (sound.reading_open reading).1 rfl
      (later _ (by simp [unsupported, Status.OK]))
  | readNotReady message service reading next found first state =>
    exact arrived_read arrived next (sound.reading_open reading).1 rfl
      (later _ (by simp [notReady, Status.OK]))
  | readRefused message service reading next found first state cannot =>
    exact arrived_read arrived next (sound.reading_open reading).1 rfl (fun _ => rfl)
  | readOpened message service method reading next found first state declared pool =>
    have unfinished := sound.reading_unfinished (sound.handler_started first) reading
    have none_yet : stream.finishes = [] := List.length_eq_zero_iff.mp unfinished
    exact arrived_read arrived next (sound.reading_open reading).1 rfl
      (fun head => absurd head (by simp [Stream.startRead, Stream.accept, none_yet]))
  | readLost message service reading next found started absent =>
    exact arrived_read arrived next (sound.reading_open reading).1 rfl arrived.finished
  | readForwarded message service handle adapter reading next found started entry stored =>
    exact arrived_read arrived next (sound.reading_open reading).1 rfl arrived.finished
  | endUnsupported reading noneLeft missing =>
    exact arrived_end arrived noneLeft rfl (later _ (by simp [unsupported, Status.OK]))
  | endLost service reading noneLeft found absent =>
    exact arrived_end arrived noneLeft rfl arrived.finished
  | endSignalled service handle adapter reading noneLeft found entry stored =>
    exact arrived_end arrived noneLeft rfl arrived.finished
  | writeDone ok writing =>
    cases ok with
    | true => exact arrived_idle arrived rfl arrived.finished
    | false =>
      exact arrived_idle arrived rfl (later _ (by simp [Status.OK]))
  | done finished reads writes once =>
    rw [onDone_eq]
    exact arrived_idle arrived rfl arrived.finished
  | taskStart task has queued =>
    exact arrived_idle arrived rfl (running_unfinished task has (by simp [Task.active, queued]))
  | taskRead task adapter message rest has running stored queue =>
    exact arrived_idle arrived rfl (running_unfinished task has (by simp [Task.active, running]))
  | taskEnd task adapter has running stored queue signalled =>
    exact arrived_idle arrived rfl (running_unfinished task has (by simp [Task.active, running]))
  | taskWrite task adapter payload has running stored alive =>
    exact arrived_idle arrived rfl (running_unfinished task has (by simp [Task.active, running]))
  | taskWriteFreed task payload has running freed => exact arrived
  | taskResume task response has waiting alive idle =>
    exact arrived_idle arrived rfl (running_unfinished task has (by simp [Task.active, waiting]))
  | taskResumeFreed task response has waiting freed =>
    exact arrived_idle arrived rfl (running_unfinished task has (by simp [Task.active, waiting]))
  | taskReturn task status has running alive =>
    exact arrived_idle arrived rfl (fun _ => rfl)
  | taskReturnFreed task status has running freed =>
    exact arrived_idle arrived rfl (fun _ => rfl)

/-- The handler reads from the adapter of a Reactor that was not deleted under it. -/
def Stream.Intact (stream : Stream Msg) : Prop :=
  stream.freed = false ∨ stream.finishes.head? = some .OK

/-- How far a handler has got with what its adapter was handed. -/
structure Consumes (stream : Stream Msg) (task : Task Msg) (adapter : Adapter Msg) : Prop where
  queue : stream.freed = false →
    task.reads ++ adapter.requestQueue = stream.received.filterMap adapter.parse
  signalled : stream.freed = false → adapter.isDone = true → stream.halfClosed = true
  ended : stream.Intact → task.sawEnd = true →
    stream.halfClosed = true ∧ task.reads = stream.received.filterMap adapter.parse

/-- What holds of a handler whose stream names the rpc's service throughout. -/
def Consumed (objects : Objects Msg) (stream : Stream Msg) : Prop :=
  ∀ task adapter, stream.task = some task → stream.AllNaming task.service →
    objects.adapters[task.adapter]? = some adapter → Consumes stream task adapter

/-- Events that neither hand anything to the adapter nor read from it. -/
theorem consumed_idle (consumed : Consumed objects stream)
    (received : changed.received = stream.received) (closed : changed.halfClosed = stream.halfClosed)
    (freed : changed.freed = false → stream.freed = false) (intact : changed.Intact → stream.Intact)
    (task : ∀ after, changed.task = some after →
      ∃ before phase, stream.task = some before ∧ after = { before with phase := phase }) :
    Consumed objects changed := by
  intro after adapter has naming stored
  obtain ⟨before, phase, had, rfl⟩ := task after has
  have consumes := consumed before adapter had (by simpa only [Stream.AllNaming, received] using naming)
    stored
  constructor
  · intro alive
    rw [received]
    exact consumes.queue (freed alive)
  · intro alive signalled
    rw [closed]
    exact consumes.signalled (freed alive) signalled
  · intro whole sawEnd
    rw [received, closed]
    exact consumes.ended (intact whole) sawEnd

theorem intact_finish (status : Status) (failure : status ≠ .OK)
    (intact : (stream.finish status).Intact) : stream.Intact := by
  rcases intact with alive | head
  · exact .inl alive
  · exact .inr (head?_append_other stream.finishes status failure head)

theorem forwardRequest_spec (adapter : Adapter Msg) (request : InvokeIsolateRequest) :
    (adapter.forwardRequest request).2.requestQueue =
        adapter.requestQueue ++ (adapter.parse request).toList ∧
      (adapter.forwardRequest request).2.isDone = adapter.isDone ∧
      (adapter.forwardRequest request).2.method = adapter.method := by
  cases parsed : adapter.parse request with
  | none => simp [Adapter.forwardRequest, parsed]
  | some message => simp [Adapter.forwardRequest, parsed, Adapter.feedRequest]

theorem parse_of_method (other : Adapter Msg) (method : other.method = adapter.method) :
    other.parse = adapter.parse := by
  funext request
  rw [Adapter.parse, Adapter.parse, method]

theorem filterMap_append_one (parse : InvokeIsolateRequest → Option Msg)
    (received : List InvokeIsolateRequest) (message : InvokeIsolateRequest) :
    (received ++ [message]).filterMap parse = received.filterMap parse ++ (parse message).toList := by
  cases parsed : parse message <;> simp [parsed]

theorem consumes_forward (consumes : Consumes stream task adapter) (alive : stream.freed = false)
    (open_before : stream.halfClosed = false)
    (received : changed.received = stream.received ++ [message]) :
    Consumes changed task (adapter.forwardRequest message).2 := by
  obtain ⟨queue, done, method⟩ := forwardRequest_spec adapter message
  have parse := parse_of_method _ method
  have unsignalled : adapter.isDone = false := by
    by_contra signalled
    have closed := consumes.signalled alive (Bool.eq_true_of_not_eq_false signalled)
    exact absurd (closed.symm.trans open_before) (by decide)
  constructor
  · intro _
    rw [queue, parse, received, filterMap_append_one, ← consumes.queue alive, List.append_assoc]
  · intro _ signalled
    exact absurd (signalled.symm.trans (done.trans unsignalled)) (by decide)
  · intro _ sawEnd
    have closed := (consumes.ended (.inl alive) sawEnd).1
    exact absurd (closed.symm.trans open_before) (by decide)

theorem consumes_signal (consumes : Consumes stream task adapter) :
    Consumes stream.endReads task adapter.signalDone := by
  constructor
  · exact consumes.queue
  · intro _ _
    rfl
  · intro intact sawEnd
    exact ⟨rfl, (consumes.ended intact sawEnd).2⟩

theorem consumes_read (message : Msg) (rest : List Msg) (consumes : Consumes stream task adapter)
    (running : changed.Intact → stream.freed = false) (queue : adapter.requestQueue = message :: rest)
    (received : changed.received = stream.received) (closed : changed.halfClosed = stream.halfClosed) :
    Consumes changed { task with reads := task.reads ++ [message] }
      { adapter with requestQueue := rest } := by
  constructor
  · intro alive
    have moved : (task.reads ++ [message]) ++ rest = task.reads ++ adapter.requestQueue := by
      rw [queue, List.append_assoc, List.singleton_append]
    rw [received]
    exact moved.trans (consumes.queue (running (.inl alive)))
  · intro alive signalled
    rw [closed]
    exact consumes.signalled (running (.inl alive)) signalled
  · intro intact sawEnd
    have alive := running intact
    have before := consumes.queue alive
    rw [← (consumes.ended (.inl alive) sawEnd).2, queue] at before
    simp at before

theorem consumes_end (consumes : Consumes stream task adapter)
    (running : changed.Intact → stream.freed = false) (queue : adapter.requestQueue = [])
    (signalled : adapter.isDone = true) (received : changed.received = stream.received)
    (closed : changed.halfClosed = stream.halfClosed) :
    Consumes changed { task with sawEnd := true } adapter := by
  constructor
  · intro alive
    rw [received]
    exact consumes.queue (running (.inl alive))
  · intro alive _
    rw [closed]
    exact consumes.signalled (running (.inl alive)) signalled
  · intro intact _
    have alive := running intact
    have all := consumes.queue alive
    rw [queue, List.append_nil] at all
    rw [closed, received]
    exact ⟨consumes.signalled alive signalled, all⟩

theorem consumed_forward (housed : Housed services isolate)
    (present : isolate.streams[index]? = some stream) (alive : stream.freed = false)
    (open_before : stream.halfClosed = false) (consumed : Consumed isolate.objects stream)
    (found : findService services message.metadata.destinationServiceName = some service)
    (entry : isolate.objects.activeStream service.serviceName stream.address = some handle)
    (stored : isolate.objects.adapters[handle]? = some adapter) :
    Consumed (isolate.objects.handedTo index handle adapter (adapter.forwardRequest message).2
      (some message)) (stream.accept message).startRead := by
  intro task after has naming after_stored
  have named := naming message (by simp [Stream.startRead, Stream.accept])
  have before : stream.AllNaming task.service :=
    fun content member => naming content (by simp [Stream.startRead, Stream.accept, member])
  rw [findService_name services _ service found, named] at entry
  obtain ⟨rfl, _, _⟩ := named_adapter housed task.adapter adapter present alive
    (handle_of_task stream task has) entry stored
  rcases (getElem?_set_some _ _ _ _ _ _ stored).mp after_stored with ⟨_, rfl⟩ | ⟨different, _⟩
  · exact consumes_forward (consumed task adapter has before stored) alive open_before rfl
  · exact absurd rfl different

theorem consumed_signal (housed : Housed services isolate)
    (present : isolate.streams[index]? = some stream) (alive : stream.freed = false)
    (delivered : Delivered services isolate.objects index stream)
    (consumed : Consumed isolate.objects stream)
    (found : findService services stream.serviceName = some service)
    (entry : isolate.objects.activeStream service.serviceName stream.address = some handle)
    (stored : isolate.objects.adapters[handle]? = some adapter) :
    Consumed (isolate.objects.handedTo index handle adapter adapter.signalDone none)
      stream.endReads := by
  intro task after has naming after_stored
  have named := delivered_taskName delivered has naming
  rw [findService_name services _ service found, named] at entry
  obtain ⟨rfl, _, _⟩ := named_adapter housed task.adapter adapter present alive
    (handle_of_task stream task has) entry stored
  rcases (getElem?_set_some _ _ _ _ _ _ stored).mp after_stored with ⟨_, rfl⟩ | ⟨different, _⟩
  · exact consumes_signal (consumed task adapter has naming stored)
  · exact absurd rfl different

/-- The first message of an rpc, parsed, is all that its new adapter holds. -/
theorem consumed_opening (index : Nat) (stream : Stream Msg) (method : Method Msg)
    (task : changed.task = some (newTask service objects.adapters.length))
    (received : changed.received = [message]) :
    Consumed (objects.opening service method stream.address index message) changed := by
  intro after adapter has naming stored
  cases Option.some.inj (task.symm.trans has)
  have added : adapter = ((newAdapter service method index message).forwardRequest message).2 := by
    simpa [Objects.opening, newTask, eq_comm] using stored
  subst added
  obtain ⟨queue, done, kept⟩ := forwardRequest_spec (newAdapter service method index message) message
  have parse := parse_of_method _ kept
  constructor
  · intro _
    rw [queue, parse, received]
    exact (filterMap_append_one _ [] message).symm
  · intro _ signalled
    exact absurd (signalled.symm.trans done) (by simp [newAdapter])
  · intro _ sawEnd
    cases sawEnd

theorem outcome_consumed (housed : Housed services isolate)
    (present : isolate.streams[index]? = some stream) (arrived : Arrived stream)
    (delivered : Delivered services isolate.objects index stream)
    (consumed : Consumed isolate.objects stream)
    (outcome : Outcome services isolate.currentState index stream isolate.objects event changed objects
      calls) :
    Consumed objects changed := by
  have sound := housed.sound stream (List.mem_of_getElem? present)
  have alive := reading_alive sound
  have unopened : stream.isRpcStarted = false → stream.task = none :=
    fun first => (life_handler_absent services stream).mp (sound.handler_started first)
  have same : ∀ after, stream.task = some after →
      ∃ before phase, stream.task = some before ∧ after = { before with phase := phase } :=
    fun after has => ⟨after, after.phase, has, rfl⟩
  have intact : ∀ task, stream.task = some task → task.phase = .running →
      stream.Intact → stream.freed = false := by
    intro task has running whole
    rcases whole with live | head
    · exact live
    · have inactive := arrived.finished head
      simp [Stream.handlerActive, has, Task.active, running] at inactive
  cases outcome with
  | clientWrite message writable => exact consumed_idle consumed rfl rfl id id same
  | clientWritesDone => exact consumed_idle consumed rfl rfl id id same
  | clientCancel => exact consumed_idle consumed rfl rfl id id same
  | readUnsupported message reading next missing =>
    intro task adapter has naming stored
    have registered := delivered.registered _ _ (handle_of_task stream task has)
    rw [← naming message (by simp [Stream.finish, Stream.accept]), missing] at registered
    cases registered
  | readNotReady message service reading next found first state =>
    intro task adapter has
    exact absurd ((unopened first).symm.trans has) (by simp)
  | readRefused message service reading next found first state cannot =>
    intro task adapter has
    cases has
  | readOpened message service method reading next found first state declared pool =>
    have received := (delivered.unopened first reading).1
    exact consumed_opening index stream method rfl (by simp [Stream.startRead, Stream.accept, received])
  | readLost message service reading next found started absent =>
    intro task adapter has naming stored
    have named := naming message (by simp [Stream.startRead, Stream.accept])
    rw [findService_name services _ service found, named] at absent
    exact absurd absent (named_adapter_not_absent housed _ present (alive reading)
      (handle_of_task stream task has))
  | readForwarded message service handle adapter reading next found started entry stored =>
    exact consumed_forward housed present (alive reading) (sound.reading_open reading).1 consumed found
      entry stored
  | endUnsupported reading noneLeft missing =>
    intro task adapter has naming stored
    have registered := delivered.registered _ _ (handle_of_task stream task has)
    rw [← delivered_taskName delivered has naming, missing] at registered
    cases registered
  | endLost service reading noneLeft found absent =>
    intro task adapter has naming stored
    have named := delivered_taskName delivered has naming
    rw [findService_name services _ service found, named] at absent
    exact absurd absent (named_adapter_not_absent housed _ present (alive reading)
      (handle_of_task stream task has))
  | endSignalled service handle adapter reading noneLeft found entry stored =>
    exact consumed_signal housed present (alive reading) delivered consumed found entry stored
  | writeDone ok writing =>
    cases ok with
    | true => exact consumed_idle consumed rfl rfl id id same
    | false =>
      exact consumed_idle consumed rfl rfl id (intact_finish _ (by simp [Status.OK])) same
  | done finished reads writes once =>
    rw [onDone_eq]
    refine consumed_idle consumed rfl rfl ?_ ?_ same
    · intro live
      exact (Bool.or_eq_false_iff.mp live).1
    · rintro (live | head)
      · exact .inl (Bool.or_eq_false_iff.mp live).1
      · exact .inr head
  | taskRead task adapter message rest has running stored queue =>
    intro after kept has_after naming after_stored
    cases has_after
    have consumes := consumed task adapter has naming stored
    rcases (getElem?_set_some _ _ _ _ _ _ stored).mp after_stored with ⟨_, rfl⟩ | ⟨different, _⟩
    · exact consumes_read message rest consumes (intact task has running) queue rfl rfl
    · exact absurd rfl different
  | taskEnd task adapter has running stored queue signalled =>
    intro after kept has_after naming after_stored
    cases has_after
    cases Option.some.inj (stored.symm.trans after_stored)
    exact consumes_end (consumed task adapter has naming stored) (intact task has running) queue
      signalled rfl rfl
  | taskWriteFreed task payload has running freed => exact consumed
  | taskReturn task status has running live =>
    exact consumed_idle consumed rfl rfl id (fun _ => .inl live)
      (fun after has_after => ⟨task, _, has, (Option.some.inj has_after).symm⟩)
  | taskStart task has queued | taskWrite task adapter payload has running stored live
  | taskResume task response has waiting live free | taskResumeFreed task response has waiting freed
  | taskReturnFreed task status has running freed =>
    exact consumed_idle consumed rfl rfl id id
      (fun after has_after => ⟨task, _, has, (Option.some.inj has_after).symm⟩)

/-- A live Reactor has the address of no other live one, so the events of another
stream do not reach its adapter. -/
theorem entry_not_other (housed : Housed services isolate) (service : String)
    (present : isolate.streams[index]? = some stream) (keptAt : isolate.streams[other]? = some kept)
    (different : other ≠ index) (alive : stream.freed = false) (keptAlive : kept.freed = false)
    (entry : isolate.objects.activeStream service stream.address = some handle)
    (stored : isolate.objects.adapters[handle]? = some adapter) : adapter.owner ≠ other := by
  rintro rfl
  obtain ⟨owner, resident, made, residentAt, address⟩ :=
    housed.owned.entry service stream.address handle entry
  simp only [heapOf, List.getElem?_map, stored, Option.map_some, Option.some.injEq,
    Adapter.handle, Prod.mk.injEq] at made residentAt
  obtain ⟨rfl, _⟩ := made
  rw [keptAt, Option.map_some, Option.some.injEq] at residentAt
  subst residentAt
  exact different (housed.owned.distinct adapter.owner index kept.resident stream.resident
    (by simp [heapOf, keptAt]) (by simp [heapOf, present]) (by simp [Stream.resident, keptAlive])
    (by simp [Stream.resident, alive]) address)

/-- What the event of one stream does to the adapter of another: nothing while that
stream lives, and never anything to the way it parses. -/
theorem outcome_adapter_frame (housed : Housed services isolate)
    (present : isolate.streams[index]? = some stream) (keptAt : isolate.streams[other]? = some kept)
    (different : other ≠ index) (has : kept.task = some task)
    (outcome : Outcome services isolate.currentState index stream isolate.objects event changed objects
      calls) (stored : objects.adapters[task.adapter]? = some adapter) :
    ∃ before, isolate.objects.adapters[task.adapter]? = some before ∧
      adapter.method = before.method ∧ (kept.freed = false → adapter = before) := by
  have sound := housed.sound stream (List.mem_of_getElem? present)
  obtain ⟨before, beforeAt, owner, _⟩ := own_adapter housed keptAt has
  refine ⟨before, beforeAt, ?_⟩
  have unchanged : isolate.objects.adapters[task.adapter]? = some adapter →
      adapter.method = before.method ∧ (kept.freed = false → adapter = before) := by
    intro same
    cases Option.some.inj (beforeAt.symm.trans same)
    exact ⟨rfl, fun _ => rfl⟩
  cases outcome with
  | readOpened message service method reading next found first state declared pool =>
    rcases (getElem?_append_one _ _ _ _).mp stored with old | ⟨here, _⟩
    · exact unchanged old
    · simp [here] at beforeAt
  | readForwarded message service handle target reading next found started entry targetAt =>
    rcases (getElem?_set_some _ _ _ _ _ _ targetAt).mp stored with ⟨here, rfl⟩ | ⟨_, old⟩
    · cases Option.some.inj ((here ▸ beforeAt).symm.trans targetAt)
      refine ⟨(forwardRequest_spec before message).2.2, fun live => ?_⟩
      exact absurd owner (entry_not_other housed _ present keptAt different
        (reading_alive sound reading) live entry targetAt)
    · exact unchanged old
  | endSignalled service handle target reading noneLeft found entry targetAt =>
    rcases (getElem?_set_some _ _ _ _ _ _ targetAt).mp stored with ⟨here, rfl⟩ | ⟨_, old⟩
    · cases Option.some.inj ((here ▸ beforeAt).symm.trans targetAt)
      refine ⟨rfl, fun live => ?_⟩
      exact absurd owner (entry_not_other housed _ present keptAt different
        (reading_alive sound reading) live entry targetAt)
    · exact unchanged old
  | taskRead own target message rest ownHas running targetAt queue =>
    rcases (getElem?_set_some _ _ _ _ _ _ targetAt).mp stored with ⟨here, rfl⟩ | ⟨_, old⟩
    · obtain ⟨mine, mineAt, ownOwner, _⟩ :=
        own_adapter housed present ownHas
      cases Option.some.inj ((here ▸ beforeAt).symm.trans mineAt)
      exact absurd (owner.symm.trans ownOwner) different
    · exact unchanged old
  | _ => exact unchanged stored

/-- All that holds of a stream and what its handler has read of it. -/
structure Tracked (services : ServiceMap Msg) (objects : Objects Msg) (index : Nat)
    (stream : Stream Msg) : Prop where
  arrived : Arrived stream
  delivered : Delivered services objects index stream
  consumed : Consumed objects stream

theorem outcome_tracked (services : ServiceMap Msg) (isolate : Isolate Msg) (index : Nat)
    (event : StreamEvent) (stream changed : Stream Msg) (objects : Objects Msg)
    (calls : List WriterCall) (housed : Housed services isolate)
    (present : isolate.streams[index]? = some stream)
    (tracked : Tracked services isolate.objects index stream)
    (outcome : Outcome services isolate.currentState index stream isolate.objects event changed
      objects calls) :
    Tracked services objects index changed :=
  ⟨outcome_arrived (housed.sound stream (List.mem_of_getElem? present)) tracked.arrived outcome,
    outcome_delivered services isolate index event stream changed objects calls housed present
      tracked.delivered outcome,
    outcome_consumed housed present tracked.arrived tracked.delivered tracked.consumed outcome⟩

theorem consumed_frame (housed : Housed services isolate)
    (present : isolate.streams[index]? = some stream) (keptAt : isolate.streams[other]? = some kept)
    (different : other ≠ index) (consumed : Consumed isolate.objects kept)
    (outcome : Outcome services isolate.currentState index stream isolate.objects event changed objects
      calls) :
    Consumed objects kept := by
  intro task adapter has naming stored
  obtain ⟨before, beforeAt, method, same⟩ := outcome_adapter_frame housed present keptAt different has
    outcome stored
  have consumes := consumed task before has naming beforeAt
  constructor
  · intro alive
    rw [same alive]
    exact consumes.queue alive
  · intro alive
    rw [same alive]
    exact consumes.signalled alive
  · rw [parse_of_method adapter method]
    exact consumes.ended

theorem run_tracked (services : ServiceMap Msg) (events : List Event) (final : Isolate Msg)
    (reached : run services events = some final) (index : Nat) (stream : Stream Msg)
    (present : final.streams[index]? = some stream) :
    Tracked services final.objects index stream := by
  apply run_every_housed services (Tracked services) ?_ ?_ (outcome_tracked services) ?_ events final
    reached index stream present
  · intro isolate address housed
    exact ⟨arrived_new address, delivered_new services isolate address housed,
      fun task adapter has => absurd has (by simp [newStream])⟩
  · intro objects state index stream tracked
    exact ⟨tracked.arrived, delivered_idle tracked.delivered rfl rfl, tracked.consumed⟩
  · intro isolate index event stream changed objects calls other kept housed present keptAt different
      tracked outcome
    exact ⟨tracked.arrived, delivered_frame kept different tracked.delivered outcome,
      consumed_frame housed present keptAt different tracked.consumed outcome⟩

/-- What the client sees as status OK: `Finish(OK)` came first, and the call was not
cancelled. -/
def Stream.FinishedOk (stream : Stream Msg) : Prop :=
  stream.finishes.head? = some .OK ∧ stream.cancelled = false

theorem filterMap_complete_iff (parse : InvokeIsolateRequest → Option Msg)
    (messages : List InvokeIsolateRequest) :
    (messages.filterMap parse).map some = messages.map parse ↔
      ∀ message ∈ messages, (parse message).isSome = true := by
  constructor
  · intro equal message member
    have listed : parse message ∈ (messages.filterMap parse).map some :=
      equal ▸ List.mem_map_of_mem member
    obtain ⟨parsed, _, same⟩ := List.mem_map.mp listed
    simp [← same]
  · intro parses
    induction messages with
    | nil => rfl
    | cons message rest ih =>
      obtain ⟨parsed, some_parsed⟩ := Option.isSome_iff_exists.mp (parses message (by simp))
      have tail := ih (fun other member => parses other (by simp [member]))
      simp [some_parsed, tail]

/-- On a stream whose messages all name the service of its rpc, that finished with
status OK and whose handler read to the end, the handler has read one message for
every message sent, in order, exactly when every message sent parses. -/
theorem all_read_iff (services : ServiceMap Msg) (events : List Event) (final : Isolate Msg)
    (reached : run services events = some final) (index : Nat) (stream : Stream Msg) (task : Task Msg)
    (adapter : Adapter Msg) (present : final.streams[index]? = some stream)
    (opened : stream.task = some task)
    (stored : final.objects.adapters[task.adapter]? = some adapter)
    (naming : ∀ message ∈ stream.sent, message.metadata.destinationServiceName = task.service)
    (ended : task.sawEnd = true) (finished : stream.FinishedOk) :
    task.reads.map some = stream.sent.map adapter.parse ↔
      ∀ message ∈ stream.sent, (adapter.parse message).isSome = true := by
  have tracked := run_tracked services events final reached index stream present
  have received : stream.AllNaming task.service :=
    fun message member => naming message (tracked.arrived.arrived.subset member)
  have consumes := tracked.consumed task adapter opened received stored
  obtain ⟨closed, reads⟩ := consumes.ended (.inr finished.1) ended
  have complete := (tracked.arrived.complete closed finished.2).2
  rw [reads, complete]
  exact filterMap_complete_iff adapter.parse stream.sent

/-- The client sends two messages and half-closes; the handler reads to the end and
returns. -/
def twoMessageRun (second : InvokeIsolateRequest) (reads : List Event) : List Event :=
  [.setIsolateReady, .streamInvokeIsolate 4096, .onStream 0 (.clientWrite hello),
    .onStream 0 (.clientWrite second), .onStream 0 .clientWritesDone, .onStream 0 (.readDone hello),
    .onStream 0 (.readDone second), .onStream 0 .readFailed, .onStream 0 .taskStart] ++ reads ++
  [.onStream 0 .taskRead, .onStream 0 (.taskReturn .OK)]

def bothRead : List Event := twoMessageRun hello [.onStream 0 .taskRead, .onStream 0 .taskRead]

theorem all_read_twice :
    ∃ final stream task adapter, run [greeter] bothRead = some final ∧
      final.streams[0]? = some stream ∧ stream.task = some task ∧
      final.objects.adapters[task.adapter]? = some adapter ∧ stream.sent = [hello, hello] ∧
      task.reads.map some = stream.sent.map adapter.parse :=
  ⟨_, _, _, _, rfl, rfl, rfl, rfl, rfl,
    (all_read_iff [greeter] bothRead _ rfl 0 _ _ _ rfl rfl rfl (by decide) rfl ⟨rfl, rfl⟩).mpr
      (by decide)⟩

def unparsable : InvokeIsolateRequest := bridgeMessage "Greeter" "StreamingSayHello" [255]

def oneDropped : List Event := twoMessageRun unparsable [.onStream 0 .taskRead]

theorem unparsable_message_dropped :
    ∃ final stream task, run [greeter] oneDropped = some final ∧
      final.streams[0]? = some stream ∧ stream.task = some task ∧ stream.sent = [hello, unparsable] ∧
      task.sawEnd = true ∧ stream.finishes = [.OK] ∧ stream.cancelled = false ∧
      task.reads.length = 1 :=
  ⟨_, _, _, rfl, rfl, rfl, rfl, rfl, rfl, rfl, rfl⟩

end EzSdk.Bridge
