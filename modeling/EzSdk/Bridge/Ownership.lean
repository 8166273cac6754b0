import EzSdk.Bridge.Lifetime
import EzSdk.Foundation.AddressTable

/-! Which adapter a stream's messages reach. Service objects key their adapters by
the address of the Reactor and never drop one, so Reactors and adapters are the
objects and handles of `AddressTable`. -/

namespace EzSdk.Bridge

open AddressTable CallbackLife HeapLists

variable {Msg : Type}

def Stream.resident (stream : Stream Msg) : Resident String where
  address := stream.address
  alive := !stream.freed
  handle := stream.task.map (fun task => (task.service, task.adapter))

theorem handle_of_task (stream : Stream Msg) (task : Task Msg) (has : stream.task = some task) :
    stream.resident.handle = some (task.service, task.adapter) := by
  simp [Stream.resident, has]

def Adapter.handle (adapter : Adapter Msg) : Nat × String :=
  (adapter.owner, adapter.service)

def heapOf (streams : List (Stream Msg)) (objects : Objects Msg) : Heap String where
  residents := streams.map Stream.resident
  handles := objects.adapters.map Adapter.handle
  table := objects.activeStream

variable {services : ServiceMap Msg} {isolate : Isolate Msg} {index handle : Nat}
  {stream changed : Stream Msg} {objects after : Objects Msg} {task : Task Msg}
  {event : StreamEvent} {calls : List WriterCall} {adapter : Adapter Msg} {currentState : Int}
  {streams : List (Stream Msg)} {service : String}

/-- An event that leaves the stream's address, its life and its task's adapter alone
leaves the heap alone, whatever it does to the contents of an adapter. -/
theorem heapOf_idle (present : streams[index]? = some stream)
    (resident : changed.resident = stream.resident)
    (handles : after.adapters.map Adapter.handle = objects.adapters.map Adapter.handle)
    (table : after.state = objects.state) :
    TableStep (heapOf streams objects) (heapOf (streams.set index changed) after) := by
  have unchanged := map_set_same Stream.resident streams index stream changed present resident
  have lookup : after.activeStream = objects.activeStream := by
    funext service address
    rw [Objects.activeStream, Objects.activeStream, table]
  have same : heapOf (streams.set index changed) after = heapOf streams objects := by
    simp only [heapOf, unchanged, handles, lookup]
  exact same ▸ .idle

theorem activeStream_opening (objects : Objects Msg) (service : Service Msg) (method : Method Msg)
    (streamId writer : Nat) (request : InvokeIsolateRequest) :
    (objects.opening service method streamId writer request).activeStream =
      Function.update objects.activeStream service.serviceName
        (Function.update (objects.activeStream service.serviceName) streamId
          (some objects.adapters.length)) := by
  funext other address
  by_cases same : other = service.serviceName
  · subst same
    by_cases here : address = streamId
    · subst here
      simp [Objects.activeStream, Objects.opening]
    · simp [Objects.activeStream, Objects.opening, here]
  · simp [Objects.activeStream, Objects.opening, same]

theorem forwardRequest_handle (adapter : Adapter Msg) (request : InvokeIsolateRequest) :
    (adapter.forwardRequest request).2.handle = adapter.handle := by
  cases parsed : adapter.parse request with
  | none => simp only [Adapter.forwardRequest, parsed]
  | some message => simp only [Adapter.forwardRequest, parsed]; rfl

theorem heapOf_opening (streams : List (Stream Msg)) (index : Nat) (service : Service Msg)
    (method : Method Msg) (request : InvokeIsolateRequest)
    (resident : changed.resident = { stream.resident with
      handle := some (service.serviceName, objects.adapters.length) }) :
    heapOf (streams.set index changed)
        (objects.opening service method stream.address index request) =
      (heapOf streams objects).claim index stream.resident service.serviceName := by
  have handle := forwardRequest_handle (newAdapter service method index request) request
  have pair : (newAdapter service method index request).handle = (index, service.serviceName) := rfl
  simp only [heapOf, Heap.claim, activeStream_opening, List.map_set, resident]
  simp [Objects.opening, handle, pair, Stream.resident]

theorem resident_of_task (changed : Task Msg) (has : stream.task = some task)
    (service : changed.service = task.service) (adapter : changed.adapter = task.adapter) :
    { stream with task := some changed }.resident = stream.resident := by
  simp [Stream.resident, has, service, adapter]

theorem reading_alive (sound : Sound (stream.life services)) (reading : stream.readOutstanding = true) :
    stream.freed = false := by
  by_contra freed
  have done := sound.freed_done (Bool.eq_true_of_not_eq_false freed)
  exact absurd (done.symm.trans (sound.reading_open reading).2) (by decide)

/-- Each event of a stream is one step of the heap. -/
theorem outcome_heap (present : streams[index]? = some stream) (sound : Sound (stream.life services))
    (outcome : Outcome services currentState index stream objects event changed after calls) :
    TableStep (heapOf streams objects) (heapOf (streams.set index changed) after) := by
  have idle {changed : Stream Msg} (same : changed.resident = stream.resident) :
      TableStep (heapOf streams objects) (heapOf (streams.set index changed) objects) :=
    heapOf_idle present same rfl rfl
  have placed : (heapOf streams objects).residents[index]? = some stream.resident := by
    simp [heapOf, present]
  cases outcome with
  | clientWrite message writable => exact idle rfl
  | clientWritesDone => exact idle rfl
  | clientCancel => exact idle rfl
  | readUnsupported message reading next missing => exact idle rfl
  | readNotReady message service reading next found first state => exact idle rfl
  | readRefused message service reading next found first state cannot =>
    have absent := (life_handler_absent services stream).mp (sound.handler_started first)
    exact idle (by simp [Stream.resident, Stream.startRead, Stream.accept, absent])
  | readOpened message service method reading next found first state declared pool =>
    have absent := (life_handler_absent services stream).mp (sound.handler_started first)
    have alive := reading_alive sound reading
    rw [heapOf_opening streams index service method message
      (by simp [Stream.resident, Stream.startRead, Stream.accept, newTask])]
    exact .claim index stream.resident service.serviceName placed
      (by simp [Stream.resident, alive]) (by simp [Stream.resident, absent])
  | readLost message service reading next found started absent => exact idle rfl
  | readForwarded message service handle adapter reading next found started entry stored =>
    exact heapOf_idle present rfl
      (map_set_same _ _ _ _ _ stored (forwardRequest_handle adapter message)) rfl
  | endUnsupported reading noneLeft missing => exact idle rfl
  | endLost service reading noneLeft found absent => exact idle rfl
  | endSignalled service handle adapter reading noneLeft found entry stored =>
    exact heapOf_idle present rfl (map_set_same _ _ _ _ _ stored rfl) rfl
  | writeDone ok writing =>
    cases ok with
    | false => exact idle rfl
    | true => exact idle rfl
  | done finished reads writes once =>
    have same : { stream with doneRun := true }.getService services = stream.getService services := rfl
    cases found : stream.getService services with
    | none => exact idle (by simp only [onDone, same, found]; rfl)
    | some service =>
      have released := @TableStep.release _ _ (heapOf streams objects) index stream.resident placed
      simpa only [onDone, same, found, heapOf, List.map_set, Stream.resident, Bool.not_true] using released
  | taskStart task has queued => exact idle (resident_of_task _ has rfl rfl)
  | taskRead task adapter message rest has running stored queue =>
    exact heapOf_idle present (resident_of_task _ has rfl rfl) (map_set_same _ _ _ _ _ stored rfl) rfl
  | taskEnd task adapter has running stored queue signalled =>
    exact idle (resident_of_task _ has rfl rfl)
  | taskWrite task adapter payload has running stored alive =>
    exact idle (resident_of_task _ has rfl rfl)
  | taskWriteFreed task payload has running freed => exact idle rfl
  | taskResume task response has waiting alive free =>
    exact idle (resident_of_task _ has rfl rfl)
  | taskResumeFreed task response has waiting freed =>
    exact idle (resident_of_task _ has rfl rfl)
  | taskReturn task status has running alive =>
    exact idle (resident_of_task _ has rfl rfl)
  | taskReturnFreed task status has running freed =>
    exact idle (resident_of_task _ has rfl rfl)

theorem outcome_handed
    (outcome : Outcome services currentState index stream objects event changed after calls) :
    ∃ added, after.handed = objects.handed ++ added ∧ ∀ entry ∈ added, entry.stream = index := by
  cases outcome with
  | readOpened message service method reading next found first state declared pool =>
    exact ⟨_, rfl, by simp⟩
  | readForwarded message service handle adapter reading next found started entry stored =>
    exact ⟨_, rfl, by simp⟩
  | endSignalled service handle adapter reading noneLeft found entry stored =>
    exact ⟨_, rfl, by simp⟩
  | _ => exact ⟨[], (List.append_nil _).symm, fun _ member => absurd member List.not_mem_nil⟩

/-- What holds in every state of a run: every Reactor is a sound callback object, the
heap is owned, and only streams that exist have handed anything over. -/
structure Housed (services : ServiceMap Msg) (isolate : Isolate Msg) : Prop where
  sound : ∀ stream ∈ isolate.streams, Sound (stream.life services)
  owned : Owned (heapOf isolate.streams isolate.objects)
  known : ∀ entry ∈ isolate.objects.handed, entry.stream < isolate.streams.length

theorem housed_new (services : ServiceMap Msg) : Housed services (newIsolate : Isolate Msg) :=
  ⟨fun _ member => absurd member List.not_mem_nil, owned_empty,
    fun _ member => absurd member List.not_mem_nil⟩

theorem activeStream_stopPool (objects : Objects Msg) (name : String) :
    { objects with
      state := Function.update objects.state name
        { objects.state name with poolStopped := true } }.activeStream = objects.activeStream := by
  funext service address
  by_cases same : service = name
  · subst same
    simp [Objects.activeStream]
  · simp [Objects.activeStream, same]

theorem housed_step (services : ServiceMap Msg) (isolate : Isolate Msg) (event : Event)
    (next : Isolate Msg) (housed : Housed services isolate)
    (taken : step services isolate event = some next) : Housed services next := by
  cases event with
  | setIsolateReady => cases taken; exact ⟨housed.sound, housed.owned, housed.known⟩
  | updateIsolateState moveToState => cases taken; exact ⟨housed.sound, housed.owned, housed.known⟩
  | stopPool name =>
    cases taken
    refine ⟨housed.sound, ?_, housed.known⟩
    simpa only [heapOf, activeStream_stopPool] using housed.owned
  | streamInvokeIsolate address =>
    simp only [step, Runs.guarded] at taken
    obtain ⟨vacant, rfl⟩ := taken
    constructor
    · intro stream member
      rcases List.mem_append.mp member with old | new
      · exact housed.sound stream old
      · cases List.mem_singleton.mp new
        exact sound_new _
    · have allocated := owned_allocate _ address housed.owned (by
        intro resident member alive
        obtain ⟨stream, stored, rfl⟩ := List.mem_map.mp member
        exact vacant stream stored (by simpa [Stream.resident] using alive))
      simpa [heapOf, newStream, Stream.resident] using allocated
    · intro entry member
      have bound := housed.known entry member
      simp only [List.length_append, List.length_singleton]
      omega
  | onStream index event =>
    obtain ⟨stream, changed, objects, calls, present, outcome, rfl⟩ :=
      onStream_cases taken
    have sound := housed.sound stream (List.mem_of_getElem? present)
    obtain ⟨lifeEvent, lived, _⟩ := outcome_life outcome
    obtain ⟨added, handed, own⟩ := outcome_handed outcome
    constructor
    · intro other member
      rcases List.mem_or_eq_of_mem_set member with old | rfl
      · exact housed.sound other old
      · exact sound_step _ _ lifeEvent sound lived
    · exact owned_step _ _ housed.owned
        (outcome_heap present sound outcome)
    · intro entry member
      rw [List.length_set]
      rcases List.mem_append.mp (handed ▸ member) with old | new
      · exact housed.known entry old
      · rw [own entry new]
        exact (List.getElem?_eq_some_iff.mp present).1

/-- A property of each stream and the service objects holds throughout every run if
new streams have it, its stream's events keep it, and so do the events of others. -/
theorem run_every_housed (services : ServiceMap Msg) (Holds : Objects Msg → Nat → Stream Msg → Prop)
    (fresh : ∀ isolate address, Housed services isolate →
      Holds isolate.objects isolate.streams.length (newStream address))
    (tables : ∀ objects state index stream, Holds objects index stream →
      Holds { objects with state := state } index stream)
    (keeps : ∀ isolate index event stream changed objects calls, Housed services isolate →
      isolate.streams[index]? = some stream → Holds isolate.objects index stream →
      Outcome services isolate.currentState index stream isolate.objects event changed objects calls →
      Holds objects index changed)
    (frame : ∀ isolate index event stream changed objects calls other kept, Housed services isolate →
      isolate.streams[index]? = some stream → isolate.streams[other]? = some kept → other ≠ index →
      Holds isolate.objects other kept →
      Outcome services isolate.currentState index stream isolate.objects event changed objects calls →
      Holds objects other kept)
    (events : List Event) (final : Isolate Msg) (reached : run services events = some final)
    (index : Nat) (stream : Stream Msg) (present : final.streams[index]? = some stream) :
    Holds final.objects index stream := by
  suffices every : Housed services final ∧ ∀ index stream, final.streams[index]? = some stream →
      Holds final.objects index stream from every.2 index stream present
  apply Runs.run_preserves
    (fun isolate => Housed services isolate ∧ ∀ (index : Nat) stream,
      isolate.streams[index]? = some stream → Holds isolate.objects index stream)
    ?_ newIsolate final events ⟨housed_new services, by simp [newIsolate]⟩ reached
  rintro isolate event next ⟨housed, holds⟩ taken
  refine ⟨housed_step services isolate event next housed taken, ?_⟩
  cases event with
  | setIsolateReady => cases taken; exact holds
  | updateIsolateState moveToState => cases taken; exact holds
  | stopPool name =>
    cases taken
    exact fun index stream present => tables _ _ index stream (holds index stream present)
  | streamInvokeIsolate address =>
    simp only [step, Runs.guarded] at taken
    obtain ⟨_, rfl⟩ := taken
    intro index stream present
    rcases (getElem?_append_one _ _ _ _).mp present with old | ⟨rfl, rfl⟩
    · exact holds index stream old
    · exact fresh isolate address housed
  | onStream acting event =>
    obtain ⟨actor, changed, objects, calls, actorAt, outcome, rfl⟩ :=
      onStream_cases taken
    intro index stream present
    rcases (getElem?_set_some _ _ _ _ _ _ actorAt).mp present with ⟨rfl, rfl⟩ | ⟨different, old⟩
    · exact keeps isolate index event actor stream objects calls housed actorAt
        (holds index actor actorAt) outcome
    · exact frame isolate acting event actor changed objects calls index stream housed actorAt old
        different (holds index stream old) outcome

theorem own_entry (housed : Housed services isolate) (present : isolate.streams[index]? = some stream)
    (has : stream.task = some task) (alive : stream.freed = false) :
    isolate.objects.activeStream task.service stream.address = some task.adapter :=
  housed.owned.held index task.adapter stream.resident task.service (by simp [heapOf, present])
    (by simp [Stream.resident, alive]) (handle_of_task stream task has)

theorem own_adapter (housed : Housed services isolate) (present : isolate.streams[index]? = some stream)
    (has : stream.task = some task) :
    ∃ adapter, isolate.objects.adapters[task.adapter]? = some adapter ∧ adapter.owner = index ∧
      adapter.service = task.service := by
  have claimed := (housed.owned.claimed task.adapter index task.service).mpr
    ⟨stream.resident, by simp [heapOf, present], handle_of_task stream task has⟩
  simpa [heapOf, Adapter.handle] using claimed

theorem adapter_owner_iff (housed : Housed services isolate)
    (present : isolate.streams[index]? = some stream) (alive : stream.freed = false)
    (entry : isolate.objects.activeStream service stream.address = some handle)
    (stored : isolate.objects.adapters[handle]? = some adapter) :
    adapter.owner = index ↔ stream.task.map Task.service = some service := by
  have owner := owner_eq_iff _ housed.owned index handle adapter.owner stream.resident service
    adapter.service (by simp [heapOf, present]) (by simp [Stream.resident, alive]) entry
    (by simp [heapOf, stored, Adapter.handle])
  rw [owner]
  simp [Stream.resident, Function.comp_def]

theorem entry_stored (housed : Housed services isolate) (address : Nat)
    (entry : isolate.objects.activeStream service address = some handle) :
    isolate.objects.adapters[handle]? ≠ none := by
  obtain ⟨owner, _, stored, _⟩ := housed.owned.entry service address handle entry
  intro absent
  simp [heapOf, absent] at stored

/-- Under its own address the stream finds in this service its own adapter, or none. -/
def OwnOrVacant (objects : Objects Msg) (stream : Stream Msg) (service : String) : Prop :=
  stream.task.map Task.service = some service ∨ objects.activeStream service stream.address = none

instance (objects : Objects Msg) (stream : Stream Msg) (service : String) :
    Decidable (OwnOrVacant objects stream service) :=
  inferInstanceAs (Decidable (_ ∨ _))

/-- When a stream that has been started reads a message, or its reads end, the service
to which the Reactor turns has no adapter of another stream under its address. -/
def ReachesOwn (services : ServiceMap Msg) (isolate : Isolate Msg) : Event → Prop
  | .onStream index (.readDone message) =>
    ∀ stream ∈ isolate.streams[index]?, stream.isRpcStarted = true →
      ∀ service ∈ findService services message.metadata.destinationServiceName,
        OwnOrVacant isolate.objects stream service.serviceName
  | .onStream index .readFailed =>
    ∀ stream ∈ isolate.streams[index]?, ∀ service ∈ stream.getService services,
      OwnOrVacant isolate.objects stream service.serviceName
  | _ => True

instance (services : ServiceMap Msg) (isolate : Isolate Msg) (event : Event) :
    Decidable (ReachesOwn services isolate event) := by
  cases event with
  | onStream index event => cases event <;> (unfold ReachesOwn; infer_instance)
  | _ => exact isTrue trivial

theorem ownOrVacant_of_absent (housed : Housed services isolate)
    (absent : ∀ handle, isolate.objects.activeStream service stream.address = some handle →
      isolate.objects.adapters[handle]? = none) :
    OwnOrVacant isolate.objects stream service := by
  cases entry : isolate.objects.activeStream service stream.address with
  | none => exact .inr entry
  | some handle =>
    exact absurd (absent handle entry) (entry_stored housed _ entry)

theorem ownOrVacant_iff_owner (housed : Housed services isolate)
    (present : isolate.streams[index]? = some stream) (alive : stream.freed = false)
    (entry : isolate.objects.activeStream service stream.address = some handle)
    (stored : isolate.objects.adapters[handle]? = some adapter) :
    OwnOrVacant isolate.objects stream service ↔ adapter.owner = index := by
  rw [adapter_owner_iff housed present alive entry stored]
  simp [OwnOrVacant, entry]

/-- Everything was handed to an adapter created for the stream that it came from. -/
def Objects.OwnHanded (objects : Objects Msg) : Prop :=
  ∀ entry ∈ objects.handed, entry.owner = entry.stream

theorem ownHanded_handedTo (objects : Objects Msg) (stream index : Nat) (adapter changed : Adapter Msg)
    (message : Option InvokeIsolateRequest) :
    (objects.handedTo stream index adapter changed message).OwnHanded ↔
      objects.OwnHanded ∧ adapter.owner = stream := by
  simp [Objects.OwnHanded, Objects.handedTo, or_imp, forall_and]

/-- An event keeps the adapters of different streams apart exactly when it is one
that reaches the stream's own adapter or none. -/
theorem outcome_ownHanded (housed : Housed services isolate)
    (present : isolate.streams[index]? = some stream)
    (outcome : Outcome services isolate.currentState index stream isolate.objects event changed after
      calls) :
    after.OwnHanded ↔
      isolate.objects.OwnHanded ∧ ReachesOwn services isolate (.onStream index event) := by
  have sound := housed.sound stream (List.mem_of_getElem? present)
  have reads : ∀ message, ReachesOwn services isolate (.onStream index (.readDone message)) ↔
      (stream.isRpcStarted = true →
        ∀ service ∈ findService services message.metadata.destinationServiceName,
          OwnOrVacant isolate.objects stream service.serviceName) := by
    simp [ReachesOwn, present]
  have ends : ReachesOwn services isolate (.onStream index .readFailed) ↔
      ∀ service ∈ stream.getService services,
        OwnOrVacant isolate.objects stream service.serviceName := by
    simp [ReachesOwn, present]
  cases outcome with
  | readUnsupported message reading next missing =>
    rw [reads]
    simp [missing]
  | readNotReady message service reading next found first state =>
    rw [reads]
    simp [first]
  | readRefused message service reading next found first state cannot =>
    rw [reads]
    simp [first]
  | readOpened message service method reading next found first state declared pool =>
    rw [reads]
    simp [first, Objects.OwnHanded, Objects.opening, or_imp, forall_and]
  | readLost message service reading next found started absent =>
    have vacant := ownOrVacant_of_absent housed absent
    rw [reads]
    simp [started, found, vacant]
  | readForwarded message service handle adapter reading next found started entry stored =>
    have alive := reading_alive sound reading
    have owner := ownOrVacant_iff_owner housed present alive entry stored
    rw [reads, ownHanded_handedTo, ← owner]
    simp [started, found]
  | endUnsupported reading noneLeft missing =>
    rw [ends]
    simp [Stream.getService, missing]
  | endLost service reading noneLeft found absent =>
    have vacant := ownOrVacant_of_absent housed absent
    rw [ends]
    simp [Stream.getService, found, vacant]
  | endSignalled service handle adapter reading noneLeft found entry stored =>
    have alive := reading_alive sound reading
    have owner := ownOrVacant_iff_owner housed present alive entry stored
    rw [ends, ownHanded_handedTo, ← owner]
    simp [Stream.getService, found]
  | _ => exact (and_iff_left trivial).symm

/-- In every run, all messages and half-closes went to adapters created for the
stream instance they came from exactly when no step of the run met an adapter that
an earlier stream had left under the same address. -/
theorem handed_to_own_iff (services : ServiceMap Msg) (events : List Event) (final : Isolate Msg)
    (reached : run services events = some final) :
    (∀ entry ∈ final.objects.handed, entry.owner = entry.stream) ↔
      Runs.EveryStep (step services) (ReachesOwn services) newIsolate events := by
  have exactly := Runs.run_keeps_iff_everyStep (Housed services)
    (fun isolate => isolate.objects.OwnHanded) (ReachesOwn services) (housed_step services) ?_
    newIsolate final events (housed_new services) reached
  · have initially : (newIsolate : Isolate Msg).objects.OwnHanded :=
      fun _ member => absurd member List.not_mem_nil
    exact exactly.trans (and_iff_right initially)
  · intro isolate event next housed taken
    cases event with
    | setIsolateReady => cases taken; exact (and_iff_left trivial).symm
    | updateIsolateState moveToState => cases taken; exact (and_iff_left trivial).symm
    | stopPool name => cases taken; exact (and_iff_left trivial).symm
    | streamInvokeIsolate address =>
      simp only [step, Runs.guarded] at taken
      obtain ⟨_, rfl⟩ := taken
      exact (and_iff_left trivial).symm
    | onStream index event =>
      obtain ⟨stream, changed, objects, calls, present, outcome, rfl⟩ :=
        onStream_cases taken
      exact outcome_ownHanded housed present outcome

/-- A second stream at the address of a finished one. -/
def reusedAddressRun (message : InvokeIsolateRequest) : List Event :=
  orderlyRun ++ [.streamInvokeIsolate 4096, .onStream 1 (.clientWrite message),
    .onStream 1 (.clientWrite hello), .onStream 1 (.readDone message), .onStream 1 (.readDone hello)]

theorem handed_to_own_iff_reused :
    ∃ final, run [greeter] (reusedAddressRun hello) = some final ∧
      final.objects.handed.length = 4 ∧ ∀ entry ∈ final.objects.handed, entry.owner = entry.stream :=
  ⟨_, rfl, rfl, (handed_to_own_iff [greeter] (reusedAddressRun hello) _ rfl).mpr (by decide)⟩

/-- The second stream asks for an unknown method first; its next message then reaches
the adapter of the stream that is gone. -/
theorem handed_to_earlier_stream :
    ∃ final, run [greeter] (reusedAddressRun unknownMethod) = some final ∧
      ∃ entry ∈ final.objects.handed, entry.stream = 1 ∧ entry.owner = 0 :=
  ⟨_, rfl, by decide⟩

end EzSdk.Bridge
