import EzSdk.Foundation.Postconditions

/-! Scripts: computations that run commands one after the other, look at their answers, and
may stop with an error. What has been run stays run either way. -/

namespace EzSdk.Scripts

open Postconditions

variable {Error Command Answer Value Next State Item : Type}

/-- From the commands that have been run, the result and the commands with those that the
script has run. -/
def Script (Error Command Value : Type) : Type :=
  List Command → Except Error Value × List Command

instance : Monad (Script Error Command) where
  pure value := fun commands => (.ok value, commands)
  bind script next := fun commands =>
    match script commands with
    | (.ok value, later) => next value later
    | (.error error, later) => (.error error, later)

/-- Run a command. Its answer may depend on all that was run before. -/
def perform (host : List Command → Command → Answer) (command : Command) :
    Script Error Command Answer :=
  fun commands => (.ok (host commands command), commands ++ [command])

/-- A computation that runs no command. -/
def calculate (result : Except Error Value) : Script Error Command Value :=
  fun commands => (result, commands)

/-- Started after commands that are all good, the script runs only good commands, stops only
with errors that are allowed, and a value that it returns meets the postcondition. -/
def Performs (stop : Error → Prop) (good : Command → Prop) (post : Value → Prop)
    (script : Script Error Command Value) : Prop :=
  ∀ commands, (∀ command ∈ commands, good command) →
    (∀ command ∈ (script commands).2, good command) ∧ Meets stop post (script commands).1

variable {stop : Error → Prop} {good : Command → Prop} {post : Value → Prop}

theorem performs_pure {value : Value} (holds : post value) :
    Performs stop good post (pure value : Script Error Command Value) :=
  fun _ before => ⟨before, holds⟩

theorem performs_calculate {result : Except Error Value} (meets : Meets stop post result) :
    Performs stop good post (calculate result) :=
  fun _ before => ⟨before, meets⟩

theorem performs_perform (host : List Command → Command → Answer) {command : Command}
    (fine : good command) : Performs stop good (fun _ => True) (perform host command) := by
  intro commands before
  refine ⟨?_, trivial⟩
  intro other member
  rcases List.mem_append.mp member with old | new
  · exact before other old
  · rw [List.mem_singleton.mp new]
    exact fine

theorem performs_bind {next : Next → Prop} {script : Script Error Command Value}
    {later : Value → Script Error Command Next} (first : Performs stop good post script)
    (rest : ∀ value, post value → Performs stop good next (later value)) :
    Performs stop good next (script >>= later) := by
  intro commands before
  have ran := first commands before
  change (∀ command ∈ (match script commands with
      | (.ok value, after) => later value after
      | (.error error, after) => (.error error, after)).2, good command) ∧
    Meets stop next (match script commands with
      | (.ok value, after) => later value after
      | (.error error, after) => (.error error, after)).1
  cases result : script commands with
  | mk outcome after =>
    rw [result] at ran
    cases outcome with
    | error error => exact ran
    | ok value => exact rest value ran.2 after ran.1

theorem performs_mono {more : Error → Prop} {weaker : Value → Prop}
    {script : Script Error Command Value} (performs : Performs stop good post script)
    (allows : ∀ error, stop error → more error) (weakens : ∀ value, post value → weaker value) :
    Performs more good weaker script := by
  intro commands before
  obtain ⟨fine, meets⟩ := performs commands before
  refine ⟨fine, ?_⟩
  cases result : (script commands).1 with
  | error error => exact allows error (meets.error result)
  | ok value => exact weakens value (meets.value result)

/-- A loop with an invariant about the items that it has dealt with. -/
theorem performs_foldlM (Invariant : List Item → State → Prop)
    {body : State → Item → Script Error Command State} (items : List Item)
    (each : ∀ earlier item later state, items = earlier ++ item :: later → Invariant earlier state →
      Performs stop good (Invariant (earlier ++ [item])) (body state item)) :
    ∀ (later earlier : List Item) (state : State), items = earlier ++ later →
      Invariant earlier state → Performs stop good (Invariant items) (later.foldlM body state) := by
  intro later
  induction later with
  | nil =>
    intro earlier state split holds
    rw [List.append_nil] at split
    exact performs_pure (split ▸ holds)
  | cons item later ih =>
    intro earlier state split holds
    rw [List.foldlM_cons]
    apply performs_bind (each earlier item later state split holds)
    intro next kept
    apply ih (earlier ++ [item]) next ?_ kept
    rw [split, List.append_assoc, List.singleton_append]

/-! ### Pre- and postconditions on all that was run -/

/-- After commands with the first property the script returns a value, and then the second holds
of it and of the commands, or it stops, and the third holds of the commands. -/
def Ensures (before : List Command → Prop) (script : Script Error Command Value)
    (after : Value → List Command → Prop) (stopped : List Command → Prop) : Prop :=
  ∀ commands, before commands →
    match script commands with
    | (.ok value, later) => after value later
    | (.error _, later) => stopped later

section Ensures

theorem perform_bind (host : List Command → Command → Answer) (command : Command)
    (next : Answer → Script Error Command Next) (commands : List Command) :
    (perform host command >>= next) commands = next (host commands command) (commands ++ [command]) := rfl

variable {before stopped : List Command → Prop} {after : Value → List Command → Prop}

theorem ensures_pure {value : Value} (holds : ∀ commands, before commands → after value commands) :
    Ensures before (pure value : Script Error Command Value) after stopped :=
  holds

theorem ensures_calculate {result : Except Error Value}
    (leads : ∀ value, result = .ok value → ∀ commands, before commands → after value commands)
    (stops : ∀ error, result = .error error → ∀ commands, before commands → stopped commands) :
    Ensures before (calculate result : Script Error Command Value) after stopped := by
  intro commands holds
  cases result with
  | error error => exact stops error rfl commands holds
  | ok value => exact leads value rfl commands holds

theorem ensures_stop {error : Error} (stops : ∀ commands, before commands → stopped commands) :
    Ensures before (calculate (.error error) : Script Error Command Value) after stopped :=
  stops

theorem ensures_bind {middle : Value → List Command → Prop} {last : Next → List Command → Prop}
    {script : Script Error Command Value} {next : Value → Script Error Command Next}
    (first : Ensures before script middle stopped)
    (rest : ∀ value, Ensures (middle value) (next value) last stopped) :
    Ensures before (script >>= next) last stopped := by
  intro commands holds
  have ran := first commands holds
  change match (match script commands with
      | (.ok value, later) => next value later
      | (.error error, later) => (.error error, later)) with
    | (.ok value, later) => last value later
    | (.error _, later) => stopped later
  cases result : script commands with
  | mk outcome later =>
    rw [result] at ran
    cases outcome with
    | error error => exact ran
    | ok value => exact rest value later ran

theorem Performs.ensures {stop : Error → Prop} {good : Command → Prop} {post : Value → Prop}
    {script : Script Error Command Value} (performs : Performs stop good post script) :
    Ensures (fun commands => ∀ command ∈ commands, good command) script
      (fun _ commands => ∀ command ∈ commands, good command)
      (fun commands => ∀ command ∈ commands, good command) := by
  intro commands holds
  have ran := (performs commands holds).1
  cases result : script commands with
  | mk outcome later =>
    rw [result] at ran
    cases outcome with
    | error error => exact ran
    | ok value => exact ran

theorem Ensures.returned {script : Script Error Command Value} (ensures : Ensures before script after stopped)
    {commands : List Command} (holds : before commands) {value : Value}
    (ok : (script commands).1 = .ok value) : after value (script commands).2 := by
  have ran := ensures commands holds
  cases result : script commands with
  | mk outcome later =>
    rw [result] at ran ok
    cases ok
    exact ran

/-- A script that has no way to stop returns a value. -/
theorem Ensures.returns {script : Script Error Command Value}
    (ensures : Ensures before script after (fun _ => False)) {commands : List Command}
    (holds : before commands) :
    ∃ value, (script commands).1 = .ok value ∧ after value (script commands).2 := by
  have ran := ensures commands holds
  cases result : script commands with
  | mk outcome later =>
    rw [result] at ran
    cases outcome with
    | error error => exact ran.elim
    | ok value => exact ⟨value, rfl, ran⟩

/-- What holds in any case. -/
theorem Ensures.either {script : Script Error Command Value}
    (ensures : Ensures before script after stopped) {commands : List Command} (holds : before commands)
    (whenReturned : ∀ value later, after value later → stopped later) :
    stopped (script commands).2 := by
  have ran := ensures commands holds
  cases result : script commands with
  | mk outcome later =>
    rw [result] at ran
    cases outcome with
    | error error => exact ran
    | ok value => exact whenReturned value later ran

theorem ensures_mono {stronger : List Command → Prop} {weaker : Value → List Command → Prop}
    {script : Script Error Command Value} (ensures : Ensures before script after stopped)
    (strengthens : ∀ commands, stronger commands → before commands)
    (weakens : ∀ value commands, after value commands → weaker value commands) :
    Ensures stronger script weaker stopped := by
  intro commands holds
  have ran := ensures commands (strengthens commands holds)
  cases result : script commands with
  | mk outcome later =>
    rw [result] at ran
    cases outcome with
    | error error => exact ran
    | ok value => exact weakens value later ran

/-- A loop with an invariant about the items that it has dealt with and the commands so far. -/
theorem ensures_foldlM (Invariant : List Item → State → List Command → Prop)
    {body : State → Item → Script Error Command State} (items : List Item)
    (each : ∀ earlier item later state, items = earlier ++ item :: later →
      Ensures (Invariant earlier state) (body state item) (Invariant (earlier ++ [item])) stopped) :
    ∀ (later earlier : List Item) (state : State), items = earlier ++ later →
      Ensures (Invariant earlier state) (later.foldlM body state) (Invariant items) stopped := by
  intro later
  induction later with
  | nil =>
    intro earlier state split
    rw [List.append_nil] at split
    rw [split]
    exact ensures_pure (fun _ holds => holds)
  | cons item later ih =>
    intro earlier state split
    rw [List.foldlM_cons]
    apply ensures_bind (each earlier item later state split)
    intro next
    apply ih (earlier ++ [item]) next
    rw [split, List.append_assoc, List.singleton_append]

end Ensures

end EzSdk.Scripts
