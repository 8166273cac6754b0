import EzSdk.Bridge.Ownership

/-! What of a stream's messages reaches the adapter of the rpc that its first message
opened. The Reactor looks the service up anew for every message. -/

namespace EzSdk.Bridge

open AddressTable CallbackLife HeapLists

variable {Msg : Type}

/-- What a stream has handed to adapters, in order. -/
def Objects.handedBy (objects : Objects Msg) (index : Nat) : List Handed :=
  objects.handed.filter (fun entry => entry.stream == index)

def Stream.AllNaming (stream : Stream Msg) (service : String) : Prop :=
  ∀ message ∈ stream.received, message.metadata.destinationServiceName = service

/-- Every message that the stream has read, and then the half-close, each handed to
one adapter of the stream. -/
def Stream.deliveries (stream : Stream Msg) (index : Nat) (service : String) (adapter : Nat) :
    List Handed :=
  stream.received.map (fun message => ⟨index, adapter, index, service, some message⟩) ++
    if stream.halfClosed then [⟨index, adapter, index, service, none⟩] else []

/-- What holds of a stream and the deliveries it has made. -/
structure Delivered (services : ServiceMap Msg) (objects : Objects Msg) (index : Nat)
    (stream : Stream Msg) : Prop where
  buffer : ∀ last ∈ stream.received.getLast?, stream.invokeIsolateReq = last
  unopened : stream.isRpcStarted = false → stream.readOutstanding = true →
    stream.received = [] ∧ objects.handedBy index = []
  names : ∀ entry ∈ objects.handedBy index, ∀ message ∈ entry.message,
    message.metadata.destinationServiceName = entry.service
  nonempty : stream.task ≠ none → stream.received ≠ []
  registered : ∀ service adapter, stream.resident.handle = some (service, adapter) →
    (findService services service).isSome = true
  delivered : ∀ service adapter, stream.resident.handle = some (service, adapter) →
    stream.AllNaming service → objects.handedBy index = stream.deliveries index service adapter

variable {services : ServiceMap Msg} {isolate : Isolate Msg} {index handle other : Nat}
  {stream changed : Stream Msg} {objects after : Objects Msg} {task : Task Msg}
  {event : StreamEvent} {calls : List WriterCall} {message : InvokeIsolateRequest}
  {service : String} {added : List Handed} {currentState : Int}

theorem delivered_new (services : ServiceMap Msg) (isolate : Isolate Msg) (address : Nat)
    (housed : Housed services isolate) :
    Delivered services isolate.objects isolate.streams.length (newStream address) := by
  have nothing : isolate.objects.handedBy isolate.streams.length = [] := by
    apply List.filter_eq_nil_iff.mpr
    intro entry member
    have bound := housed.known entry member
    simp only [beq_iff_eq]
    omega
  constructor <;> simp [newStream, Stream.resident, nothing]

theorem task_eq_none_iff (stream : Stream Msg) : stream.task = none ↔ stream.resident.handle = none := by
  simp [Stream.resident]

/-- What of a stream the delivery of its messages depends on; `opened` are the service
and the adapter of its rpc. -/
structure Session where
  received : List InvokeIsolateRequest
  buffer : InvokeIsolateRequest
  started : Bool
  reading : Bool
  closed : Bool
  opened : Option (String × Nat)

def Stream.session (stream : Stream Msg) : Session where
  received := stream.received
  buffer := stream.invokeIsolateReq
  started := stream.isRpcStarted
  reading := stream.readOutstanding
  closed := stream.halfClosed
  opened := stream.resident.handle

theorem session_of_task (changed : Task Msg) (has : stream.task = some task)
    (service : changed.service = task.service) (adapter : changed.adapter = task.adapter) :
    { stream with task := some changed }.session = stream.session := by
  simp [Stream.session, Stream.resident, has, service, adapter]

/-- Events that neither read nor hand over anything. -/
theorem delivered_idle (delivered : Delivered services objects index stream)
    (handed : after.handedBy index = objects.handedBy index) (same : changed.session = stream.session) :
    Delivered services after index changed := by
  obtain ⟨received, buffer, started, reading, closed, handle⟩ := Session.mk.inj same
  have deliveries : ∀ service adapter, changed.deliveries index service adapter =
      stream.deliveries index service adapter := by
    intro service adapter
    rw [Stream.deliveries, Stream.deliveries, received, closed]
  constructor
  · simpa only [received, buffer] using delivered.buffer
  · simpa only [started, reading, received, handed] using delivered.unopened
  · simpa only [handed] using delivered.names
  · simpa only [ne_eq, task_eq_none_iff, handle, received] using delivered.nonempty
  · simpa only [handle] using delivered.registered
  · simpa only [handle, Stream.AllNaming, received, handed, deliveries] using delivered.delivered

/-- A read that does not open an rpc. If the stream has one, what it hands over has to
be right for a message that names the rpc's service. -/
theorem delivered_read (delivered : Delivered services objects index stream)
    (handed : after.handedBy index = objects.handedBy index ++ added)
    (read : changed.session = { stream.session with
      received := stream.received ++ [message]
      buffer := message
      started := changed.isRpcStarted
      reading := changed.readOutstanding })
    (unstarted : changed.isRpcStarted = false → changed.readOutstanding = false)
    (unclosed : stream.halfClosed = false)
    (names : ∀ entry ∈ added, ∀ content ∈ entry.message, content.metadata.destinationServiceName =
      entry.service)
    (own : ∀ service adapter, stream.resident.handle = some (service, adapter) →
      message.metadata.destinationServiceName = service → added = [⟨index, adapter, index, service, some
      message⟩]) :
    Delivered services after index changed := by
  simp only [Stream.session, Session.mk.injEq, true_and] at read
  obtain ⟨received, buffer, closed, handle⟩ := read
  have still_open : changed.halfClosed = false := closed.trans unclosed
  constructor
  · simp [received, buffer]
  · intro first reading
    exact absurd (reading.symm.trans (unstarted first)) (by decide)
  · intro entry member
    rw [handed] at member
    rcases List.mem_append.mp member with old | new
    · exact delivered.names entry old
    · exact names entry new
  · simp [received]
  · simpa only [handle] using delivered.registered
  · intro service adapter holds naming
    rw [handle] at holds
    have before : stream.AllNaming service := fun content member => naming content (by simp [received, member])
    have last := own service adapter holds (naming message (by simp [received]))
    rw [handed, delivered.delivered service adapter holds before, last]
    simp [Stream.deliveries, received, unclosed, still_open]

/-- As long as all messages name the service of the rpc, so does the buffer. -/
theorem delivered_serviceName (delivered : Delivered services objects index stream)
    (opened : stream.task ≠ none) (naming : stream.AllNaming service) :
    stream.serviceName = service := by
  have nonempty := delivered.nonempty opened
  rw [Stream.serviceName, delivered.buffer _ (List.getLast?_eq_some_getLast nonempty)]
  exact naming _ (List.getLast_mem nonempty)

theorem delivered_taskName (delivered : Delivered services objects index stream)
    (has : stream.task = some task) (naming : stream.AllNaming task.service) :
    stream.serviceName = task.service :=
  delivered_serviceName delivered (by simp [has]) naming

theorem delivered_end (delivered : Delivered services objects index stream)
    (handed : after.handedBy index = objects.handedBy index ++ added)
    (ended : changed.session = { stream.session with reading := false, closed := true })
    (unclosed : stream.halfClosed = false) (names : ∀ entry ∈ added, entry.message = none)
    (own : ∀ service adapter, stream.resident.handle = some (service, adapter) → stream.serviceName =
      service → added = [⟨index, adapter, index, service, none⟩]) :
    Delivered services after index changed := by
  simp only [Stream.session, Session.mk.injEq] at ended
  obtain ⟨received, buffer, _, reading, closed, handle⟩ := ended
  constructor
  · simpa only [received, buffer] using delivered.buffer
  · intro _ still
    exact absurd (still.symm.trans reading) (by decide)
  · intro entry member
    rw [handed] at member
    rcases List.mem_append.mp member with old | new
    · exact delivered.names entry old
    · simp [names entry new]
  · simpa only [ne_eq, task_eq_none_iff, handle, received] using delivered.nonempty
  · simpa only [handle] using delivered.registered
  · intro service adapter holds naming
    rw [handle] at holds
    have opened : stream.task ≠ none := by simp [task_eq_none_iff, holds]
    have before : stream.AllNaming service := by simpa only [Stream.AllNaming, received] using naming
    have named := delivered_serviceName delivered opened before
    rw [handed, delivered.delivered service adapter holds before, own service adapter holds named]
    simp [Stream.deliveries, received, unclosed, closed]

/-- A read that hands nothing over is right only where the message does not name the
service of an rpc of the stream. -/
theorem delivered_read_unhanded (message : InvokeIsolateRequest)
    (delivered : Delivered services objects index stream)
    (handed : after.handedBy index = objects.handedBy index)
    (read : changed.session = { stream.session with
      received := stream.received ++ [message]
      buffer := message
      started := changed.isRpcStarted
      reading := changed.readOutstanding })
    (unstarted : changed.isRpcStarted = false → changed.readOutstanding = false)
    (unclosed : stream.halfClosed = false)
    (foreign : ∀ service adapter, stream.resident.handle = some (service, adapter) →
      message.metadata.destinationServiceName ≠ service) :
    Delivered services after index changed :=
  delivered_read delivered (by rw [handed, List.append_nil]) read unstarted unclosed (by simp)
    (fun service adapter holds naming => absurd naming (foreign service adapter holds))

theorem delivered_end_unhanded (delivered : Delivered services objects index stream)
    (handed : after.handedBy index = objects.handedBy index)
    (ended : changed.session = { stream.session with reading := false, closed := true })
    (unclosed : stream.halfClosed = false)
    (foreign : ∀ service adapter, stream.resident.handle = some (service, adapter) → stream.serviceName
      ≠ service) :
    Delivered services after index changed :=
  delivered_end delivered (by rw [handed, List.append_nil]) ended unclosed (by simp)
    (fun service adapter holds naming => absurd naming (foreign service adapter holds))

theorem delivered_opening (service : Service Msg) (method : Method Msg)
    (delivered : Delivered services objects index stream) (first : stream.isRpcStarted = false)
    (reading : stream.readOutstanding = true)
    (found : findService services message.metadata.destinationServiceName = some service)
    (unclosed : stream.halfClosed = false)
    (opened : changed.session = ⟨stream.received ++ [message], message, true, true, stream.halfClosed,
      some (service.serviceName, objects.adapters.length)⟩) :
    Delivered services (objects.opening service method stream.address index message) index
      changed := by
  simp only [Stream.session, Session.mk.injEq] at opened
  obtain ⟨received, buffer, started, _, closed, handle⟩ := opened
  obtain ⟨nothing_read, nothing_handed⟩ := delivered.unopened first reading
  have name := findService_name services _ service found
  have handed : (objects.opening service method stream.address index message).handedBy index =
      [⟨index, objects.adapters.length, index, service.serviceName, some message⟩] := by
    rw [Objects.handedBy] at nothing_handed
    simp [Objects.handedBy, Objects.opening, nothing_handed]
  constructor
  · simp [received, buffer]
  · simp [started]
  · simp [handed, name]
  · simp [received]
  · intro other adapter holds
    cases Option.some.inj (handle.symm.trans holds)
    simp [name, found]
  · intro other adapter holds naming
    cases Option.some.inj (handle.symm.trans holds)
    simp [handed, Stream.deliveries, received, nothing_read, closed, unclosed]

theorem handedBy_handedTo (objects : Objects Msg) (index handle : Nat) (adapter changed : Adapter Msg)
    (message : Option InvokeIsolateRequest) :
    (objects.handedTo index handle adapter changed message).handedBy index =
      objects.handedBy index ++ [⟨index, handle, adapter.owner, adapter.service, message⟩] := by
  simp [Objects.handedBy, Objects.handedTo]

theorem entry_service (housed : Housed services isolate) (address : Nat) (adapter : Adapter Msg)
    (entry : isolate.objects.activeStream service address = some handle)
    (stored : isolate.objects.adapters[handle]? = some adapter) : adapter.service = service := by
  obtain ⟨owner, _, made, _⟩ := housed.owned.entry service address handle entry
  simp only [heapOf, List.getElem?_map, stored, Option.map_some, Option.some.injEq,
    Adapter.handle, Prod.mk.injEq] at made
  exact made.2

theorem own_handle (housed : Housed services isolate) (adapter : Nat)
    (present : isolate.streams[index]? = some stream) (alive : stream.freed = false)
    (holds : stream.resident.handle = some (service, adapter)) :
    isolate.objects.activeStream service stream.address = some adapter ∧
      ∃ stored, isolate.objects.adapters[adapter]? = some stored ∧ stored.owner = index ∧
        stored.service = service := by
  obtain ⟨task, has, pair⟩ := Option.map_eq_some_iff.mp holds
  cases pair
  exact ⟨own_entry housed present has alive,
    own_adapter housed present has⟩

/-- A live stream that turns to the service of its rpc finds its own adapter there. -/
theorem named_adapter (housed : Housed services isolate) (adapter : Nat) (found : Adapter Msg)
    (present : isolate.streams[index]? = some stream) (alive : stream.freed = false)
    (holds : stream.resident.handle = some (service, adapter))
    (entry : isolate.objects.activeStream service stream.address = some handle)
    (stored : isolate.objects.adapters[handle]? = some found) :
    handle = adapter ∧ found.owner = index ∧ found.service = service := by
  obtain ⟨own, kept, kept_at, owner, kind⟩ :=
    own_handle housed adapter present alive holds
  cases Option.some.inj (entry.symm.trans own)
  cases Option.some.inj (stored.symm.trans kept_at)
  exact ⟨rfl, owner, kind⟩

theorem named_adapter_not_absent (housed : Housed services isolate) (adapter : Nat)
    (present : isolate.streams[index]? = some stream) (alive : stream.freed = false)
    (holds : stream.resident.handle = some (service, adapter)) :
    ¬ ∀ handle, isolate.objects.activeStream service stream.address = some handle →
      isolate.objects.adapters[handle]? = none := by
  obtain ⟨own, kept, kept_at, _⟩ :=
    own_handle housed adapter present alive holds
  intro absent
  exact absurd (absent adapter own) (by simp [kept_at])

theorem outcome_delivered (services : ServiceMap Msg) (isolate : Isolate Msg) (index : Nat)
    (event : StreamEvent) (stream changed : Stream Msg) (objects : Objects Msg)
    (calls : List WriterCall) (housed : Housed services isolate)
    (present : isolate.streams[index]? = some stream)
    (delivered : Delivered services isolate.objects index stream)
    (outcome : Outcome services isolate.currentState index stream isolate.objects event changed
      objects calls) :
    Delivered services objects index changed := by
  have sound := housed.sound stream (List.mem_of_getElem? present)
  have alive := reading_alive sound
  have unclosed : stream.readOutstanding = true → stream.halfClosed = false :=
    fun reading => (sound.reading_open reading).1
  have absent : stream.isRpcStarted = false → stream.task = none :=
    fun first => (life_handler_absent services stream).mp (sound.handler_started first)
  cases outcome with
  | readUnsupported message reading next missing =>
    refine delivered_read_unhanded message delivered rfl rfl (fun _ => rfl) (unclosed reading) ?_
    intro service adapter holds naming
    have registered := delivered.registered service adapter holds
    simp [← naming, missing] at registered
  | readNotReady message service reading next found first state =>
    refine delivered_read_unhanded message delivered rfl rfl (fun _ => rfl) (unclosed reading) ?_
    intro service adapter holds
    simp [Stream.resident, absent first] at holds
  | readRefused message service reading next found first state cannot =>
    have kept : stream.resident.handle = none := by simp [Stream.resident, absent first]
    refine delivered_read_unhanded message delivered rfl ?_
      (fun unstarted => absurd unstarted (by simp [Stream.startRead])) (unclosed reading) ?_
    · simp only [Stream.session, kept]
      rfl
    · intro service adapter holds
      exact absurd (kept.symm.trans holds) (by simp)
  | readOpened message service method reading next found first state declared pool =>
    exact delivered_opening service method delivered first reading found (unclosed reading) rfl
  | readLost message service reading next found started missing =>
    refine delivered_read_unhanded message delivered rfl rfl
      (fun unstarted => absurd (started.symm.trans unstarted) (by decide)) (unclosed reading) ?_
    intro name adapter holds naming
    rw [findService_name services _ service found, naming] at missing
    exact named_adapter_not_absent housed adapter present (alive reading) holds missing
  | readForwarded message service handle adapter reading next found started entry stored =>
    refine delivered_read delivered (handedBy_handedTo _ index handle adapter _ (some message)) rfl
      (fun unstarted => absurd (started.symm.trans unstarted) (by decide)) (unclosed reading) ?_ ?_
    · have name := findService_name services _ service found
      have kind := entry_service housed _ adapter entry stored
      simp [kind, name]
    · intro name mine holds naming
      rw [findService_name services _ service found, naming] at entry
      obtain ⟨rfl, owner, kind⟩ := named_adapter housed mine adapter present (alive reading) holds entry
        stored
      rw [owner, kind]
  | endUnsupported reading noneLeft missing =>
    refine delivered_end_unhanded delivered rfl rfl (unclosed reading) ?_
    intro service adapter holds naming
    have registered := delivered.registered service adapter holds
    simp [← naming, missing] at registered
  | endLost service reading noneLeft found missing =>
    refine delivered_end_unhanded delivered rfl rfl (unclosed reading) ?_
    intro name adapter holds naming
    rw [findService_name services _ service found, naming] at missing
    exact named_adapter_not_absent housed adapter present (alive reading) holds missing
  | endSignalled service handle adapter reading noneLeft found entry stored =>
    refine delivered_end delivered (handedBy_handedTo _ index handle adapter _ none) rfl
      (unclosed reading) (by simp) ?_
    intro name mine holds naming
    rw [findService_name services _ service found, naming] at entry
    obtain ⟨rfl, owner, kind⟩ := named_adapter housed mine adapter present (alive reading) holds entry
      stored
    rw [owner, kind]
  | clientWrite message writable => exact delivered_idle delivered rfl rfl
  | clientWritesDone => exact delivered_idle delivered rfl rfl
  | clientCancel => exact delivered_idle delivered rfl rfl
  | writeDone ok writing =>
    cases ok with
    | true => exact delivered_idle delivered rfl rfl
    | false => exact delivered_idle delivered rfl rfl
  | done finished reads writes once =>
    rw [onDone_eq]
    exact delivered_idle delivered rfl rfl
  | taskWriteFreed task payload has running freed => exact delivered
  | taskStart task has queued | taskEnd task adapter has running stored queue signalled
  | taskWrite task adapter payload has running stored live
  | taskResume task response has waiting live free | taskResumeFreed task response has waiting freed
  | taskReturn task status has running live | taskReturnFreed task status has running freed
  | taskRead task adapter message rest has running stored queue =>
    exact delivered_idle delivered rfl (session_of_task _ has rfl rfl)

theorem handedBy_other (different : other ≠ index)
    (outcome : Outcome services currentState index stream objects event changed after calls) :
    after.handedBy other = objects.handedBy other := by
  obtain ⟨added, handed, own⟩ := outcome_handed outcome
  have none_added : added.filter (fun entry => entry.stream == other) = [] := by
    apply List.filter_eq_nil_iff.mpr
    intro entry member
    simpa only [own entry member, beq_iff_eq] using different.symm
  rw [Objects.handedBy, handed, List.filter_append, none_added, List.append_nil, Objects.handedBy]

theorem delivered_frame (kept : Stream Msg) (different : other ≠ index)
    (delivered : Delivered services isolate.objects other kept)
    (outcome : Outcome services isolate.currentState index stream isolate.objects event changed objects
      calls) :
    Delivered services objects other kept :=
  delivered_idle delivered (handedBy_other different outcome) rfl

theorem run_delivered (services : ServiceMap Msg) (events : List Event) (final : Isolate Msg)
    (reached : run services events = some final) (index : Nat) (stream : Stream Msg)
    (present : final.streams[index]? = some stream) :
    Delivered services final.objects index stream := by
  apply run_every_housed services (Delivered services) (delivered_new services) ?_
    (outcome_delivered services) ?_ events final reached index stream present
  · intro objects state index stream delivered
    exact delivered_idle delivered rfl rfl
  · intro isolate index event stream changed objects calls other kept _ _ _ different
    exact delivered_frame kept different

/-- Of a stream whose first message has opened an rpc, every message and the half-close
have been delivered to the rpc's adapter, in order, exactly when every message that
was read carries the name of the rpc's service. -/
theorem session_affinity_iff (services : ServiceMap Msg) (events : List Event) (final : Isolate Msg)
    (reached : run services events = some final) (index : Nat) (stream : Stream Msg) (task : Task Msg)
    (present : final.streams[index]? = some stream) (opened : stream.task = some task) :
    final.objects.handedBy index = stream.deliveries index task.service task.adapter ↔
      ∀ message ∈ stream.received, message.metadata.destinationServiceName = task.service := by
  have delivered := run_delivered services events final reached index stream present
  constructor
  · intro all message member
    apply delivered.names ⟨index, task.adapter, index, task.service, some message⟩ ?_ message rfl
    rw [all]
    exact List.mem_append_left _ (List.mem_map_of_mem member)
  · intro naming
    exact delivered.delivered task.service task.adapter (handle_of_task stream task opened) naming

theorem session_affinity_orderly :
    ∃ final stream task, run [greeter] orderlyRun = some final ∧ final.streams[0]? = some stream ∧
      stream.task = some task ∧ stream.received = [hello] ∧ stream.halfClosed = true ∧
      final.objects.handedBy 0 = stream.deliveries 0 task.service task.adapter :=
  ⟨_, _, _, rfl, rfl, rfl, rfl, rfl,
    (session_affinity_iff [greeter] orderlyRun _ rfl 0 _ _ rfl rfl).mpr (by decide)⟩

/-- The second message of a session names another service. -/
def strayMessageRun : List Event :=
  let stray := bridgeMessage "Farewell" "StreamingSayHello" [10, 2, 72, 105]
  [.setIsolateReady, .streamInvokeIsolate 4096, .onStream 0 (.clientWrite hello),
    .onStream 0 (.clientWrite stray), .onStream 0 (.readDone hello), .onStream 0 (.readDone stray)]

theorem stray_message_undelivered :
    ∃ final stream task, run [greeter] strayMessageRun = some final ∧
      final.streams[0]? = some stream ∧ stream.task = some task ∧ stream.received.length = 2 ∧
      (final.objects.handedBy 0).length = 1 ∧
      final.objects.handedBy 0 ≠ stream.deliveries 0 task.service task.adapter :=
  ⟨_, _, _, rfl, rfl, rfl, rfl, rfl, by decide⟩

end EzSdk.Bridge
