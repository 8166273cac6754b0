import Mathlib.Data.List.Basic

/-! Finite runs of a partial step function, and the rules by which a property of
single steps becomes a property of whole runs. -/

namespace EzSdk.Runs

variable {State Event : Type}

/-- Take the events in order. The run exists only if every event is enabled in
the state in which it is taken. -/
def run (step : State → Event → Option State) : State → List Event → Option State
  | state, [] => some state
  | state, event :: events => (step state event).bind (fun next => run step next events)

/-- Every event of the run is allowed in the state in which it is taken. -/
def EveryStep (step : State → Event → Option State) (allowed : State → Event → Prop) :
    State → List Event → Prop
  | _, [] => True
  | state, event :: events =>
    allowed state event ∧ ∀ next ∈ step state event, EveryStep step allowed next events

instance decidableEveryStep (step : State → Event → Option State)
    (allowed : State → Event → Prop) [∀ state event, Decidable (allowed state event)] :
    ∀ state events, Decidable (EveryStep step allowed state events)
  | _, [] => isTrue trivial
  | state, event :: events =>
    have (next : State) := decidableEveryStep step allowed next events
    inferInstanceAs (Decidable
      (allowed state event ∧ ∀ next ∈ step state event, EveryStep step allowed next events))

variable {step : State → Event → Option State}

/-- What is known of a step that is taken where its guard holds. -/
theorem guarded {enabled : Prop} [Decidable enabled] {after next : State} :
    (if enabled then some after else none) = some next ↔ enabled ∧ after = next := by
  rw [Option.ite_none_right_eq_some, Option.some.injEq]

theorem run_cons (state final : State) (event : Event) (events : List Event) :
    run step state (event :: events) = some final ↔
      ∃ next, step state event = some next ∧ run step next events = some final := by
  simp only [run, Option.bind_eq_some_iff]

theorem run_append (state final : State) (first later : List Event) :
    run step state (first ++ later) = some final ↔
      ∃ middle, run step state first = some middle ∧ run step middle later = some final := by
  induction first generalizing state with
  | nil => simp [run]
  | cons event events ih =>
    simp only [List.cons_append, run_cons, ih]
    constructor
    · rintro ⟨next, taken, middle, ahead, behind⟩
      exact ⟨middle, ⟨next, taken, ahead⟩, behind⟩
    · rintro ⟨middle, ⟨next, taken, ahead⟩, behind⟩
      exact ⟨next, taken, middle, ahead, behind⟩

/-- An invariant that every allowed step keeps holds at the end of every run
whose steps are all allowed. -/
theorem run_preserves_allowed (Invariant : State → Prop) (allowed : State → Event → Prop)
    (keeps : ∀ state event next, Invariant state → allowed state event →
      step state event = some next → Invariant next)
    (start final : State) (events : List Event) (initially : Invariant start)
    (every : EveryStep step allowed start events)
    (reached : run step start events = some final) : Invariant final := by
  induction events generalizing start with
  | nil =>
    have same : start = final := Option.some.inj reached
    exact same ▸ initially
  | cons event events ih =>
    obtain ⟨next, taken, rest⟩ := (run_cons start final event events).mp reached
    exact ih next (keeps start event next initially every.1 taken) (every.2 next taken) rest

theorem everyStep_of_mem (allowed : State → Event → Prop) (start : State) (events : List Event)
    (always : ∀ event ∈ events, ∀ state, allowed state event) :
    EveryStep step allowed start events := by
  induction events generalizing start with
  | nil => trivial
  | cons event events ih =>
    exact ⟨always event List.mem_cons_self start,
      fun next _ => ih next (fun later member => always later (List.mem_cons_of_mem event member))⟩

theorem everyStep_of_forall (allowed : State → Event → Prop)
    (always : ∀ state event, allowed state event) (start : State) (events : List Event) :
    EveryStep step allowed start events :=
  everyStep_of_mem allowed start events (fun event _ state => always state event)

/-- What an invariant of the assumed steps allows is allowed throughout. -/
theorem everyStep_of_invariant (Invariant : State → Prop) (assumed allowed : State → Event → Prop)
    (keeps : ∀ state event next, Invariant state → assumed state event →
      step state event = some next → Invariant next)
    (allows : ∀ state event, Invariant state → assumed state event → allowed state event)
    (start : State) (events : List Event) (initially : Invariant start)
    (every : EveryStep step assumed start events) : EveryStep step allowed start events := by
  induction events generalizing start with
  | nil => trivial
  | cons event events ih =>
    exact ⟨allows start event initially every.1, fun next taken =>
      ih next (keeps start event next initially every.1 taken) (every.2 next taken)⟩

theorem everyStep_mono (allowed weaker : State → Event → Prop)
    (weakens : ∀ state event, allowed state event → weaker state event)
    (start : State) (events : List Event) (every : EveryStep step allowed start events) :
    EveryStep step weaker start events :=
  everyStep_of_invariant (fun _ => True) allowed weaker (fun _ _ _ _ _ _ => trivial)
    (fun state event _ holds => weakens state event holds) start events trivial every

theorem everyStep_and (one other : State → Event → Prop) (start : State) (events : List Event)
    (first : EveryStep step one start events) (second : EveryStep step other start events) :
    EveryStep step (fun state event => one state event ∧ other state event) start events := by
  induction events generalizing start with
  | nil => trivial
  | cons event events ih =>
    exact ⟨⟨first.1, second.1⟩,
      fun next taken => ih next (first.2 next taken) (second.2 next taken)⟩

/-- A system that can always take its next event runs to the end. -/
theorem run_exists (total : ∀ state event, ∃ next, step state event = some next)
    (start : State) (events : List Event) : ∃ final, run step start events = some final := by
  induction events generalizing start with
  | nil => exact ⟨start, rfl⟩
  | cons event events ih =>
    obtain ⟨next, taken⟩ := total start event
    obtain ⟨final, reached⟩ := ih next
    exact ⟨final, (run_cons start final event events).mpr ⟨next, taken, reached⟩⟩

theorem run_preserves (Invariant : State → Prop)
    (keeps : ∀ state event next, Invariant state → step state event = some next → Invariant next)
    (start final : State) (events : List Event) (initially : Invariant start)
    (reached : run step start events = some final) : Invariant final :=
  run_preserves_allowed Invariant (fun _ _ => True)
    (fun state event next holds _ taken => keeps state event next holds taken)
    start final events initially
    (everyStep_of_forall _ (fun _ _ => trivial) start events) reached

/-- What the events of a run add to a log of the state, in order. -/
theorem run_log_invariant {Entry : Type} (Invariant : State → Prop) (log : State → List Entry)
    (adds : Event → Option Entry)
    (keeps : ∀ state event next, Invariant state → step state event = some next → Invariant next)
    (each : ∀ state event next, Invariant state → step state event = some next →
      log next = log state ++ (adds event).toList)
    (start final : State) (events : List Event) (initially : Invariant start)
    (reached : run step start events = some final) :
    log final = log start ++ events.filterMap adds := by
  induction events generalizing start with
  | nil =>
    have same : start = final := Option.some.inj reached
    simp [same]
  | cons event events ih =>
    obtain ⟨next, taken, rest⟩ := (run_cons start final event events).mp reached
    rw [ih next (keeps start event next initially taken) rest, each start event next initially taken]
    cases added : adds event <;> simp [added]

theorem run_log {Entry : Type} (log : State → List Entry) (adds : Event → Option Entry)
    (each : ∀ state event next, step state event = some next →
      log next = log state ++ (adds event).toList)
    (start final : State) (events : List Event) (reached : run step start events = some final) :
    log final = log start ++ events.filterMap adds :=
  run_log_invariant (fun _ => True) log adds (fun _ _ _ _ _ => trivial)
    (fun state event next _ taken => each state event next taken) start final events trivial reached

/-- An invariant that relates the state to what the events have added so far. -/
theorem run_history {Entry : Type} (Invariant : State → List Entry → Prop) (adds : Event → Option Entry)
    (keeps : ∀ state event next entries, Invariant state entries → step state event = some next →
      Invariant next (entries ++ (adds event).toList))
    (start final : State) (events : List Event) (initially : Invariant start [])
    (reached : run step start events = some final) : Invariant final (events.filterMap adds) := by
  have general (entries : List Entry) (held : Invariant start entries) :
      Invariant final (entries ++ events.filterMap adds) := by
    clear initially
    induction events generalizing start entries with
    | nil =>
      have same : start = final := Option.some.inj reached
      simpa [same] using held
    | cons event events ih =>
      obtain ⟨next, taken, rest⟩ := (run_cons start final event events).mp reached
      have later := ih next rest _ (keeps start event next entries held taken)
      cases added : adds event with
      | none => simpa [added] using later
      | some entry => simpa [added] using later
  exact general [] initially

/-- A property that a step can only lose, and loses exactly when the step is not
allowed, holds at the end of a run exactly when it held at the start and every
step was allowed. -/
theorem run_keeps_iff_everyStep (Invariant Good : State → Prop) (allowed : State → Event → Prop)
    (keeps : ∀ state event next, Invariant state → step state event = some next → Invariant next)
    (exact_step : ∀ state event next, Invariant state → step state event = some next →
      (Good next ↔ Good state ∧ allowed state event))
    (start final : State) (events : List Event) (initially : Invariant start)
    (reached : run step start events = some final) :
    Good final ↔ Good start ∧ EveryStep step allowed start events := by
  induction events generalizing start with
  | nil =>
    have same : start = final := Option.some.inj reached
    simp only [← same, EveryStep, and_true]
  | cons event events ih =>
    obtain ⟨next, taken, rest⟩ := (run_cons start final event events).mp reached
    have tail := ih next (keeps start event next initially taken) rest
    have head := exact_step start event next initially taken
    constructor
    · intro good
      obtain ⟨goodNext, everyNext⟩ := tail.mp good
      obtain ⟨goodStart, first⟩ := head.mp goodNext
      refine ⟨goodStart, first, ?_⟩
      intro other otherTaken
      have same : next = other := Option.some.inj (taken.symm.trans otherTaken)
      exact same ▸ everyNext
    · rintro ⟨goodStart, first, later⟩
      exact tail.mpr ⟨head.mpr ⟨goodStart, first⟩, later next taken⟩

/-- A run of a system whose every step is a run of a more abstract one is a run of
the abstract system. -/
theorem run_refines {Abstract Act : Type} {act : Abstract → Act → Option Abstract}
    (view : State → Abstract)
    (each : ∀ state event next, step state event = some next →
      ∃ acts, run act (view state) acts = some (view next))
    (start final : State) (events : List Event) (reached : run step start events = some final) :
    ∃ acts, run act (view start) acts = some (view final) := by
  induction events generalizing start with
  | nil =>
    have same : start = final := Option.some.inj reached
    exact ⟨[], by rw [same, run]⟩
  | cons event events ih =>
    obtain ⟨next, taken, rest⟩ := (run_cons start final event events).mp reached
    obtain ⟨first, firstRun⟩ := each start event next taken
    obtain ⟨later, laterRun⟩ := ih next rest
    exact ⟨first ++ later, (run_append _ _ first later).mpr ⟨view next, firstRun, laterRun⟩⟩

/-- A goal is reached if until then some event keeps the invariant and lowers the measure. -/
theorem run_reaches (Invariant Goal : State → Prop) (measure : State → Nat)
    (progress : ∀ state, Invariant state → Goal state ∨ ∃ event next, step state event = some next ∧
      Invariant next ∧ measure next < measure state)
    (start : State) (initially : Invariant start) :
    ∃ events final, run step start events = some final ∧ Invariant final ∧ Goal final := by
  induction bound : measure start using Nat.strongRecOn generalizing start with
  | ind bound ih =>
    rcases progress start initially with reached | ⟨event, next, taken, held, lower⟩
    · exact ⟨[], start, rfl, initially, reached⟩
    · rcases ih (measure next) (by omega) next held rfl with ⟨events, final, rest, reached⟩
      exact ⟨event :: events, final, (run_cons start final event events).mpr ⟨next, taken, rest⟩, reached⟩

section Completion

variable (Invariant : State → Prop) (measure : State → Nat)
  (keeps : ∀ state event next, Invariant state → step state event = some next → Invariant next)
  (lowers : ∀ state event next, Invariant state → step state event = some next →
    measure next < measure state)

include keeps lowers

/-- A run is no longer than the measure that each of its steps lowers. -/
theorem run_length_le (start final : State) (events : List Event) (initially : Invariant start)
    (reached : run step start events = some final) : events.length + measure final ≤ measure start := by
  induction events generalizing start with
  | nil =>
    have same : start = final := Option.some.inj reached
    simp [same]
  | cons event events ih =>
    obtain ⟨next, taken, rest⟩ := (run_cons start final event events).mp reached
    have later := ih next (keeps start event next initially taken) rest
    have first := lowers start event next initially taken
    rw [List.length_cons]
    omega

/-- A system in which something can happen until it is over can be run until it is over. -/
theorem run_completes (Over : State → Prop)
    (progress : ∀ state, Invariant state → Over state ∨ ∃ event next, step state event = some next)
    (start : State) (initially : Invariant start) :
    ∃ events final, run step start events = some final ∧ Over final := by
  have runs : ∃ events final, run step start events = some final ∧ Invariant final ∧ Over final := by
    apply run_reaches Invariant Over measure ?_ start initially
    intro state held
    rcases progress state held with ended | ⟨event, next, taken⟩
    · exact .inl ended
    · exact .inr ⟨event, next, taken, keeps state event next held taken, lowers state event next held taken⟩
  rcases runs with ⟨events, final, reached, _, ended⟩
  exact ⟨events, final, reached, ended⟩

end Completion

end EzSdk.Runs
