import EzSdk.Foundation.HeapLists
import EzSdk.Foundation.Runs

/-! The fileshare event stream of `isolate_ez_bridge_client.cpp`: handlers are registered
from any thread, and the event thread that the first of them starts reads the stream,
calls the handlers, and resets the started flag when the stream has ended. -/

namespace EzSdk.Client.FileshareEvents

open HeapLists

/-- A message of the event stream. `topic` and the event's type are open enums. -/
structure StreamSubscribeToResponse where
  topic : Int
  handle : String
  fileshareEvent : Option Int
  deriving DecidableEq

def eventTopicFileshare : Int := 1

/-- A call of `OnFileshareEvent`, with the service object that it is made on. -/
structure HandlerCall where
  service : Nat
  fileshareHandle : String
  eventType : Int
  deriving DecidableEq

/-- The body of the read loop. A handler is known by the service object that it captures. -/
def handlerCalls (handlers : List Nat) (response : StreamSubscribeToResponse) : List HandlerCall :=
  if response.topic ≠ eventTopicFileshare then []
  else
    match response.fileshareEvent with
    | none => []
    | some eventType => handlers.map (fun service => ⟨service, response.handle, eventType⟩)

inductive RegistrationPhase where
  | appended
  | starting
  | returned
  deriving DecidableEq

/-- One call of `RegisterFileshareEventHandler`. Recorded of the moment at which it
appended its handler are the number of streams that had been started, whether a read loop
was running, and whether one had ended with the flag not yet reset; `exchangedInGap`
says the last of the moment at which it exchanged the flag. -/
structure Registration where
  service : Nat
  phase : RegistrationPhase
  startedBefore : Nat
  loopRunning : Bool
  appendedInGap : Bool
  exchangedInGap : Bool
  deriving DecidableEq

/-- An event thread: in its read loop, after the loop, or past the reset of the flag. -/
inductive ThreadPhase where
  | reading
  | ended
  | reset
  deriving DecidableEq

structure State where
  handlers : List Nat
  started : Bool
  registrations : List Registration
  threads : List ThreadPhase
  calls : List HandlerCall
  deriving DecidableEq

def newState : State where
  handlers := []
  started := false
  registrations := []
  threads := []
  calls := []

inductive Event where
  | append (service : Nat)
  | exchange (registration : Nat)
  | start (registration : Nat)
  | receive (thread : Nat) (response : StreamSubscribeToResponse)
  | endLoop (thread : Nat)
  | reset (thread : Nat)
  | clear
  deriving DecidableEq

/-- The handlers are appended, called and cleared under the mutex, and the flag is
exchanged and stored atomically. `StartFileshareEventStream` joins the thread before. -/
def step (state : State) : Event → Option State
  | .append service =>
    some { state with
      handlers := state.handlers ++ [service]
      registrations := state.registrations ++
        [⟨service, .appended, state.threads.length, decide (.reading ∈ state.threads),
          decide (.ended ∈ state.threads), false⟩] }
  | .exchange index =>
    match state.registrations[index]? with
    | none => none
    | some registration =>
      if registration.phase = .appended then
        let exchanged :=
          { registration with
            phase := if state.started then .returned else .starting
            exchangedInGap := decide (.ended ∈ state.threads) }
        some { state with
          started := true
          registrations := state.registrations.set index exchanged }
      else none
  | .start index =>
    match state.registrations[index]? with
    | none => none
    | some registration =>
      if registration.phase = .starting ∧ ∀ thread ∈ state.threads, thread = .reset then
        some { state with
          registrations := state.registrations.set index { registration with phase := .returned }
          threads := state.threads ++ [.reading] }
      else none
  | .receive index response =>
    if state.threads[index]? = some .reading then
      some { state with calls := state.calls ++ handlerCalls state.handlers response }
    else none
  | .endLoop index =>
    if state.threads[index]? = some .reading then
      some { state with threads := state.threads.set index .ended }
    else none
  | .reset index =>
    if state.threads[index]? = some .ended then
      some { state with started := false, threads := state.threads.set index .reset }
    else none
  | .clear => some { state with handlers := [] }

def run (events : List Event) : Option State := Runs.run step newState events

/-- The registration after its exchange of the flag. -/
def State.exchanged (state : State) (registration : Registration) : Registration :=
  { registration with
    phase := if state.started then .returned else .starting
    exchangedInGap := decide (.ended ∈ state.threads) }

/-- What each event needs, and what it does. -/
inductive Turn (state : State) : Event → State → Prop where
  | append (service : Nat) : Turn state (.append service)
      { state with
        handlers := state.handlers ++ [service]
        registrations := state.registrations ++
          [⟨service, .appended, state.threads.length, decide (.reading ∈ state.threads),
            decide (.ended ∈ state.threads), false⟩] }
  | exchange (index : Nat) (registration : Registration)
      (present : state.registrations[index]? = some registration)
      (phase : registration.phase = .appended) : Turn state (.exchange index)
      { state with
        started := true
        registrations := state.registrations.set index (state.exchanged registration) }
  | start (index : Nat) (registration : Registration)
      (present : state.registrations[index]? = some registration)
      (phase : registration.phase = .starting)
      (joined : ∀ thread ∈ state.threads, thread = .reset) : Turn state (.start index)
      { state with
        registrations := state.registrations.set index { registration with phase := .returned }
        threads := state.threads ++ [.reading] }
  | receive (index : Nat) (response : StreamSubscribeToResponse)
      (reading : state.threads[index]? = some .reading) : Turn state (.receive index response)
      { state with calls := state.calls ++ handlerCalls state.handlers response }
  | endLoop (index : Nat) (reading : state.threads[index]? = some .reading) :
      Turn state (.endLoop index) { state with threads := state.threads.set index .ended }
  | reset (index : Nat) (ended : state.threads[index]? = some .ended) :
      Turn state (.reset index)
        { state with started := false, threads := state.threads.set index .reset }
  | clear : Turn state .clear { state with handlers := [] }

theorem turn_of_step (state next : State) (event : Event) (taken : step state event = some next) :
    Turn state event next := by
  cases event with
  | append service =>
    cases taken
    exact .append service
  | exchange index =>
    cases present : state.registrations[index]? with
    | none => simp [step, present] at taken
    | some registration =>
      simp only [step, present, Runs.guarded] at taken
      obtain ⟨phase, rfl⟩ := taken
      exact .exchange index registration present phase
  | start index =>
    cases present : state.registrations[index]? with
    | none => simp [step, present] at taken
    | some registration =>
      simp only [step, present, Runs.guarded] at taken
      obtain ⟨⟨phase, joined⟩, rfl⟩ := taken
      exact .start index registration present phase joined
  | receive index response =>
    simp only [step, Runs.guarded] at taken
    obtain ⟨reading, rfl⟩ := taken
    exact .receive index response reading
  | endLoop index =>
    simp only [step, Runs.guarded] at taken
    obtain ⟨reading, rfl⟩ := taken
    exact .endLoop index reading
  | reset index =>
    simp only [step, Runs.guarded] at taken
    obtain ⟨ended, rfl⟩ := taken
    exact .reset index ended
  | clear =>
    cases taken
    exact .clear

/-! ### Every registration gets a stream -/

/-- From the append on there was a running read loop, or a stream has been started. -/
def Served (registration : Registration) (state : State) : Prop :=
  registration.loopRunning = true ∨ registration.startedBefore < state.threads.length

/-- Append and exchange both fell between the end of a read loop and the reset of the
flag, and no stream has been started since. -/
def Missed (registration : Registration) (state : State) : Prop :=
  registration.appendedInGap = true ∧ registration.exchangedInGap = true ∧
    registration.startedBefore = state.threads.length

/-- A registration has found the flag not set and has not yet started its stream. -/
def StartPending (state : State) : Prop :=
  ∃ registration ∈ state.registrations, registration.phase = .starting

/-- The flag is set exactly while there is one registration about to start a stream, or
one thread that has not reset it. -/
def FlagAccounted (state : State) : Prop :=
  (state.registrations.map Registration.phase).count .starting + state.threads.count .reading +
    state.threads.count .ended = if state.started then 1 else 0

/-- What holds of a registration from its append on, as long as it is not served. -/
structure Unserved (registration : Registration) (state : State) : Prop where
  idle : .reading ∉ state.threads
  gap : .ended ∈ state.threads → registration.appendedInGap = true
  outcome : registration.phase = .returned →
    StartPending state ∨ (registration.appendedInGap = true ∧ registration.exchangedInGap = true)

/-- What holds of every registration. -/
structure Tracked (registration : Registration) (state : State) : Prop where
  before : registration.startedBefore ≤ state.threads.length
  quiet : registration.appendedInGap = true → registration.loopRunning = false
  followed : Served registration state ∨ Unserved registration state

structure Accounted (state : State) : Prop where
  flag : FlagAccounted state
  tracked : ∀ registration ∈ state.registrations, Tracked registration state

theorem flagAccounted_turn (state next : State) (event : Event) (flag : FlagAccounted state)
    (turn : Turn state event next) : FlagAccounted next := by
  unfold FlagAccounted at flag ⊢
  cases turn with
  | append service => simpa [List.count_append] using flag
  | exchange index registration present phase =>
    have counted := count_map_set Registration.phase state.registrations index registration
      (state.exchanged registration) .starting present
    cases started : state.started <;>
      simp [State.exchanged, phase, started] at counted flag ⊢ <;> omega
  | start index registration present phase joined =>
    have counted := count_map_set Registration.phase state.registrations index registration
      { registration with phase := .returned } .starting present
    simp [phase, List.count_append] at counted flag ⊢
    omega
  | receive index response reading => exact flag
  | endLoop index reading =>
    have fewer := count_set state.threads index .reading .ended .reading reading
    have more := count_set state.threads index .reading .ended .ended reading
    simp at fewer more flag ⊢
    omega
  | reset index ended =>
    have same := count_set state.threads index .ended .reset .reading ended
    have fewer := count_set state.threads index .ended .reset .ended ended
    have present : 0 < state.threads.count .ended :=
      List.count_pos_iff.mpr (List.mem_of_getElem? ended)
    simp at same fewer flag ⊢
    split at flag <;> omega
  | clear => exact flag

/-- A read loop and an ended one that has not reset the flag exclude each other. -/
theorem ended_excludes_reading (state : State) (flag : FlagAccounted state)
    (ended : .ended ∈ state.threads) : .reading ∉ state.threads := by
  intro reading
  have one := List.count_pos_iff.mpr ended
  have other := List.count_pos_iff.mpr reading
  unfold FlagAccounted at flag
  split at flag <;> omega

/-- Whoever finds the flag set with no read loop running finds a start under way, or a
thread that is about to reset the flag. -/
theorem started_idle (state : State) (flag : FlagAccounted state) (started : state.started = true)
    (idle : .reading ∉ state.threads) : StartPending state ∨ .ended ∈ state.threads := by
  have none := List.count_eq_zero.mpr idle
  rw [FlagAccounted, none, started, if_pos rfl] at flag
  by_cases ended : .ended ∈ state.threads
  · exact .inr ended
  · have gone := List.count_eq_zero.mpr ended
    have pending : 0 < (state.registrations.map Registration.phase).count .starting := by omega
    exact .inl (List.mem_map.mp (List.count_pos_iff.mp pending))

/-- What is tracked of a registration stays so while no stream is started, no read loop
ends, and no pending start is given up. -/
theorem tracked_frame (registration : Registration) (state next : State)
    (lengths : next.threads.length = state.threads.length)
    (reading : .reading ∈ next.threads → .reading ∈ state.threads)
    (ended : .ended ∈ next.threads → .ended ∈ state.threads)
    (pending : StartPending state → StartPending next)
    (tracked : Tracked registration state) : Tracked registration next := by
  refine ⟨lengths ▸ tracked.before, tracked.quiet, ?_⟩
  rcases tracked.followed with served | unserved
  · left
    rw [Served, lengths]
    exact served
  · right
    exact ⟨fun loop => unserved.idle (reading loop), fun gap => unserved.gap (ended gap),
      fun returned => (unserved.outcome returned).imp_left pending⟩

theorem tracked_started {registration : Registration} (state : State)
    (later : registration.startedBefore < state.threads.length)
    (quiet : registration.appendedInGap = true → registration.loopRunning = false) :
    Tracked registration state :=
  ⟨Nat.le_of_lt later, quiet, .inl (.inr later)⟩

theorem tracked_append (state : State) (flag : FlagAccounted state) (service : Nat)
    (next : State) (same : next.threads = state.threads) :
    Tracked ⟨service, .appended, state.threads.length, decide (.reading ∈ state.threads),
      decide (.ended ∈ state.threads), false⟩ next := by
  refine ⟨Nat.le_of_eq (congrArg List.length same).symm, ?_, ?_⟩
  · intro gap
    have excluded := ended_excludes_reading state flag (of_decide_eq_true gap)
    exact decide_eq_false excluded
  · by_cases reading : .reading ∈ state.threads
    · exact .inl (.inl (decide_eq_true reading))
    · right
      rw [← same] at reading
      exact ⟨reading, fun ended => decide_eq_true (same ▸ ended), nofun⟩

theorem pending_exchange (state next : State) (index : Nat) (registration : Registration)
    (present : state.registrations[index]? = some registration)
    (phase : registration.phase = .appended)
    (changed : next.registrations = state.registrations.set index (state.exchanged registration))
    (pending : StartPending state) : StartPending next := by
  obtain ⟨other, member, starting⟩ := pending
  rcases eq_or_mem_set state.registrations index registration (state.exchanged registration) other
    present member with same | kept
  · rw [same, phase] at starting
    cases starting
  · exact ⟨other, changed ▸ kept, starting⟩

/-- An exchange serves the registration, or leaves it with a start under way, or shows
that it fell into the gap. -/
theorem tracked_exchange (state next : State) (registration : Registration)
    (flag : FlagAccounted state) (same : next.threads = state.threads)
    (pending : StartPending state → StartPending next) (tracked : Tracked registration state) :
    Tracked (state.exchanged registration) next := by
  refine ⟨?_, tracked.quiet, ?_⟩
  · rw [same]
    exact tracked.before
  rcases tracked.followed with served | unserved
  · left
    rw [Served, same]
    exact served
  · right
    refine ⟨same ▸ unserved.idle, fun gap => unserved.gap (same ▸ gap), fun returned => ?_⟩
    have started : state.started = true := by
      by_contra unset
      simp [State.exchanged, unset] at returned
    rcases started_idle state flag started unserved.idle with begun | ended
    · exact .inl (pending begun)
    · exact .inr ⟨unserved.gap ended, decide_eq_true ended⟩

theorem accounted_turn (state next : State) (event : Event) (accounted : Accounted state)
    (turn : Turn state event next) : Accounted next := by
  refine ⟨flagAccounted_turn state next event accounted.flag turn, ?_⟩
  intro registration member
  cases turn with
  | append service =>
    rcases List.mem_append.mp member with old | new
    · refine tracked_frame registration state _ rfl id id ?_ (accounted.tracked registration old)
      rintro ⟨other, present, starting⟩
      exact ⟨other, List.mem_append_left _ present, starting⟩
    · rw [List.mem_singleton.mp new]
      exact tracked_append state accounted.flag service _ rfl
  | exchange index exchanging present phase =>
    have pending := pending_exchange state
      { state with
        started := true
        registrations := state.registrations.set index (state.exchanged exchanging) }
      index exchanging present phase rfl
    rcases List.mem_or_eq_of_mem_set member with old | rfl
    · exact tracked_frame registration state _ rfl id id pending (accounted.tracked registration old)
    · exact tracked_exchange state _ exchanging accounted.flag rfl pending
        (accounted.tracked exchanging (List.mem_of_getElem? present))
  | start index starting present phase joined =>
    -- the stream that is started serves every registration
    have served (earlier : Registration) (tracked : Tracked earlier state) :
        earlier.startedBefore < (state.threads ++ [ThreadPhase.reading]).length := by
      rw [List.length_append]
      exact Nat.lt_succ_of_le tracked.before
    rcases List.mem_or_eq_of_mem_set member with old | rfl
    · have tracked := accounted.tracked registration old
      exact tracked_started _ (served registration tracked) tracked.quiet
    · have tracked := accounted.tracked starting (List.mem_of_getElem? present)
      exact tracked_started _ (served starting tracked) tracked.quiet
  | receive index response reading =>
    exact tracked_frame registration state _ rfl id id id (accounted.tracked registration member)
  | endLoop index reading =>
    -- a registration that is not served has had no read loop to end
    have tracked := accounted.tracked registration member
    have lengths : (state.threads.set index .ended).length = state.threads.length := List.length_set
    rcases tracked.followed with served | unserved
    · refine ⟨lengths ▸ tracked.before, tracked.quiet, .inl ?_⟩
      rw [Served, lengths]
      exact served
    · exact absurd (List.mem_of_getElem? reading) unserved.idle
  | reset index ended =>
    refine tracked_frame registration state _ List.length_set ?_ ?_ id
      (accounted.tracked registration member)
    · intro reading
      exact (List.mem_or_eq_of_mem_set reading).resolve_right nofun
    · intro _
      exact List.mem_of_getElem? ended
  | clear => exact tracked_frame registration state _ rfl id id id (accounted.tracked registration member)

theorem run_accounted (events : List Event) (final : State) (reached : run events = some final) :
    Accounted final := by
  apply Runs.run_preserves Accounted ?_ newState final events ?_ reached
  · intro state event next accounted taken
    exact accounted_turn state next event accounted (turn_of_step state next event taken)
  · exact ⟨rfl, fun _ member => absurd member List.not_mem_nil⟩

/-- When all registrations have returned, one of them has been served by a read loop
exactly if it did not fall, with both of its steps, between the end of a loop and the reset
of the flag with no stream started since. -/
theorem registration_served_iff (events : List Event) (final : State)
    (reached : run events = some final)
    (returned : ∀ registration ∈ final.registrations, registration.phase = .returned)
    (registration : Registration) (member : registration ∈ final.registrations) :
    Served registration final ↔ ¬ Missed registration final := by
  have tracked := (run_accounted events final reached).tracked registration member
  constructor
  · rintro (running | later) ⟨appended, _, unchanged⟩
    · exact absurd (running.symm.trans (tracked.quiet appended)) (by decide)
    · omega
  · intro caught
    rcases tracked.followed with served | unserved
    · exact served
    · rcases unserved.outcome (returned registration member) with ⟨other, present, starting⟩ | gap
      · rw [returned other present] at starting
        cases starting
      · right
        have different : registration.startedBefore ≠ final.threads.length :=
          fun equal => caught ⟨gap.1, gap.2, equal⟩
        exact Nat.lt_of_le_of_ne tracked.before different

/-- A registration that comes while a stream is being read. -/
theorem registration_during_loop_served :
    ∃ final, run [.append 0, .exchange 0, .start 0, .append 1, .exchange 1] = some final ∧
      (⟨1, .returned, 1, true, false, false⟩ : Registration) ∈ final.registrations ∧
      Served ⟨1, .returned, 1, true, false, false⟩ final := by
  refine ⟨⟨[0, 1], true, [⟨0, .returned, 0, false, false, false⟩,
    ⟨1, .returned, 1, true, false, false⟩], [.reading], []⟩, by decide, by decide, ?_⟩
  refine (registration_served_iff [.append 0, .exchange 0, .start 0, .append 1, .exchange 1] _
    (by decide) (by decide) _ (by decide)).mpr ?_
  rintro ⟨appended, _⟩
  cases appended

/-- The second registration falls between the end of the first stream and the reset of the
flag, and is left without a stream. -/
theorem registration_in_gap_unserved :
    ∃ final registration,
      run [.append 0, .exchange 0, .start 0, .endLoop 0, .append 1, .exchange 1, .reset 0] = some final ∧
        registration ∈ final.registrations ∧
        (∀ other ∈ final.registrations, other.phase = .returned) ∧
        ¬ Served registration final ∧ final.started = false ∧ .reading ∉ final.threads := by
  refine ⟨⟨[0, 1], false, [⟨0, .returned, 0, false, false, false⟩, ⟨1, .returned, 1, false, true, true⟩],
    [.reset], []⟩, ⟨1, .returned, 1, false, true, true⟩, by decide, by decide, by decide, ?_, rfl,
    by decide⟩
  rintro (running | later)
  · cases running
  · exact absurd later (by decide)

end EzSdk.Client.FileshareEvents
