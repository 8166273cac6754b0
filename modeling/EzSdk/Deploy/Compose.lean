import EzSdk.Deploy.Run

/-! The compose project of a deployment: the processes that `Up` starts, and when `deploy` takes
the project down again. -/

namespace EzSdk.Deploy

open Postconditions

/-- The fields of the message `DockerCompose` besides the name of its file. -/
structure ComposeFields where
  envFilenames : List Bytes
  dockerImageFiles : List Bytes

inductive Verb where
  | up
  | events
  | down
  deriving DecidableEq

def Verb.commandArgs : Verb → List Bytes
  | up => [ascii "up"]
  | events => [ascii "events", ascii "--json"]
  | down => [ascii "down"]

/-- What loading an image, starting or running a command and killing a process come to. -/
structure ComposeWorld where
  dockerLoad : Bytes → Option Bytes
  start : Cmd → Option Bytes
  run : Cmd → Option Bytes
  kill : Verb → Option Bytes

/-- What has happened outside. A command that does not start leaves nothing behind. -/
inductive Effect where
  | loaded (image : Bytes)
  | started (verb : Verb)
  | stage (position : Nat)
  | ran (verb : Verb)
  | killed (verb : Verb)
  deriving DecidableEq

def Effect.startsUp : Effect → Bool
  | loaded _ => true
  | started _ => true
  | _ => false

section DockerCompose

variable (fields : ComposeFields) (yamlFilename sutWorkdir : Bytes) (world : ComposeWorld)

def createCmd (verb : Verb) : Cmd where
  name := ascii "docker"
  args := [ascii "compose", ascii "--file", yamlFilename] ++
    (fields.envFilenames.flatMap fun envFilename => [ascii "--env-file", envFilename]) ++
    verb.commandArgs
  env := [ascii "SUT_DATA_DIR=" ++ sutWorkdir ++ ascii "/" ++ ascii "sut_data"]

def loadImages (world : ComposeWorld) : List Bytes → List Effect × Option Bytes
  | [] => ([], none)
  | image :: images =>
    match world.dockerLoad image with
    | some error => ([], some error)
    | none =>
      let (effects, error) := loadImages world images
      (.loaded image :: effects, error)

/-- `Up`: what it has done, and its error. -/
def up : List Effect × Option Bytes :=
  match loadImages world fields.dockerImageFiles with
  | (effects, some error) => (effects, some error)
  | (effects, none) =>
    match world.start (createCmd fields yamlFilename sutWorkdir .up) with
    | some error => (effects, some error)
    | none =>
      match world.start (createCmd fields yamlFilename sutWorkdir .events) with
      | some error => (effects ++ [.started .up], some error)
      | none => (effects ++ [.started .up, .started .events], none)

/-- `Down`, whose error nobody reads. -/
def down : List Effect :=
  match world.run (createCmd fields yamlFilename sutWorkdir .down) with
  | some _ => [.ran .down]
  | none =>
    match world.kill .up with
    | some _ => [.ran .down]
    | none =>
      match world.kill .events with
      | some _ => [.ran .down, .killed .up]
      | none => [.ran .down, .killed .up, .killed .events]

theorem loadImages_effects (images : List Bytes) (effect : Effect)
    (member : effect ∈ (loadImages world images).1) : ∃ image, effect = .loaded image := by
  induction images with
  | nil => cases member
  | cons image images ih =>
    rw [loadImages] at member
    split at member
    · cases member
    · cases List.mem_cons.mp member with
      | inl same => exact ⟨image, same⟩
      | inr later => exact ih later

/-- What `Up` can have done. Once the process of the project was started, only the start of the
events can fail. -/
structure UpDone (done : List Effect × Option Bytes) : Prop where
  starts : ∀ effect ∈ done.1, effect.startsUp = true
  ok : done.2 = none → .started .up ∈ done.1
  events : .started .up ∈ done.1 →
    (done.2 = none ↔ world.start (createCmd fields yamlFilename sutWorkdir .events) = none)

theorem up_done : UpDone fields yamlFilename sutWorkdir world
    (up fields yamlFilename sutWorkdir world) := by
  have loading := loadImages_effects world fields.dockerImageFiles
  unfold up
  cases loads : loadImages world fields.dockerImageFiles with
  | mk effects error =>
    rw [loads] at loading
    have starts : ∀ effect ∈ effects, effect.startsUp = true := by
      intro effect member
      obtain ⟨image, rfl⟩ := loading effect member
      rfl
    have notStarted : .started .up ∉ effects := by
      intro member
      obtain ⟨image, same⟩ := loading _ member
      cases same
    have afterUp : ∀ later : List Effect, (∀ effect ∈ later, effect.startsUp = true) →
        ∀ effect ∈ effects ++ later, effect.startsUp = true := by
      intro later laterStarts effect member
      exact (List.mem_append.mp member).elim (starts effect) (laterStarts effect)
    cases error with
    | some error => exact ⟨starts, nofun, fun started => absurd started notStarted⟩
    | none =>
      cases upStarts : world.start (createCmd fields yamlFilename sutWorkdir .up) with
      | some error => exact ⟨starts, nofun, fun started => absurd started notStarted⟩
      | none =>
        cases eventsStart : world.start (createCmd fields yamlFilename sutWorkdir .events) with
        | some error => exact ⟨afterUp _ (by decide), nofun, by simp [eventsStart]⟩
        | none => exact ⟨afterUp _ (by decide), by simp, by simp [eventsStart]⟩

theorem ran_notMem_up (verb : Verb) : .ran verb ∉ (up fields yamlFilename sutWorkdir world).1 := by
  intro member
  have starts := (up_done fields yamlFilename sutWorkdir world).starts _ member
  cases starts

theorem count_down : (down fields yamlFilename sutWorkdir world).count (.ran .down) = 1 := by
  unfold down
  split
  · rfl
  · split
    · rfl
    · split
      · rfl
      · rfl

end DockerCompose

/-! ### The deployment -/

section Deployment

variable (flags : Flags) (calls : Calls) (world : Nat → StageWorld) (fields : ComposeFields)
  (composeWorld : ComposeWorld)

/-- `deploy` before `Up` is called. -/
def prepareBeforeUp : Except Ending (Settings × TestRunner) := prepare flags { calls with up := none }

/-- The stages and then, when they return, the deferred call of `Down`. -/
def stagesThenDown (settings : Settings) (runner : TestRunner) : List Effect × Ending :=
  let (positions, ending) := runStages settings world 0 runner.stages
  match ending with
  | .died => (positions.map .stage, .died)
  | .returned error =>
    (positions.map .stage ++
      down fields runner.yamlFilename settings.sutWorkdir composeWorld, .returned error)

/-- `deploy` with what it does outside, from the start of the compose project on. -/
def deployEffects : List Effect × Ending :=
  match prepareBeforeUp flags calls with
  | .error ending => ([], ending)
  | .ok (settings, runner) =>
    if runner.yamlFilename = [] then
      let (positions, ending) := runStages settings world 0 runner.stages
      (positions.map .stage, ending)
    else
      match up fields runner.yamlFilename settings.sutWorkdir composeWorld with
      | (effects, some error) => (effects, .returned (some error))
      | (effects, none) =>
        let (later, ending) := stagesThenDown world fields composeWorld settings runner
        (effects ++ later, ending)

/-- The error of `Up` is looked at after everything else. -/
theorem prepare_up (error : Option Bytes) :
    prepare flags { calls with up := error } = (do
      let prepared ← prepareBeforeUp flags calls
      if prepared.2.yamlFilename = [] then return prepared
      else do
        checked error
        return prepared) := by
  have last : ∀ settings (runner : TestRunner),
      (do composeUp { calls with up := error } runner.yamlFilename; return (settings, runner)) =
        (do
          composeUp { calls with up := none } runner.yamlFilename
          if runner.yamlFilename = [] then return (settings, runner)
          else do
            checked error
            return (settings, runner) : Except Ending (Settings × TestRunner)) := by
    intro settings runner
    by_cases noCompose : runner.yamlFilename = []
    · simp [composeUp, noCompose]
    · rw [composeUp, composeUp, if_neg noCompose, if_neg noCompose, if_neg noCompose]
      cases calls.newDockerCompose with
      | none => rfl
      | some failure => rfl
  unfold prepareBeforeUp prepare
  simp only [bind_assoc, pure_bind]
  -- the calls before `Up` are the same on both sides
  iterate 12 refine bind_congr fun _ => ?_
  exact last _ _

/-- The error of `Up`, where `deploy` gets to it. -/
def upError : Option Bytes :=
  match prepareBeforeUp flags calls with
  | .error _ => none
  | .ok (settings, runner) => (up fields runner.yamlFilename settings.sutWorkdir composeWorld).2

def stagesOf (effects : List Effect) : List Nat :=
  effects.filterMap fun
    | .stage position => some position
    | _ => none

theorem stagesOf_append (first second : List Effect) :
    stagesOf (first ++ second) = stagesOf first ++ stagesOf second :=
  List.filterMap_append

theorem stagesOf_stages (positions : List Nat) : stagesOf (positions.map .stage) = positions := by
  induction positions with
  | nil => rfl
  | cons position positions ih => exact congrArg (position :: ·) ih

theorem stagesOf_up (settings : Settings) (runner : TestRunner) :
    stagesOf (up fields runner.yamlFilename settings.sutWorkdir composeWorld).1 = [] := by
  apply List.filterMap_eq_nil_iff.mpr
  intro effect member
  have starts := (up_done fields runner.yamlFilename settings.sutWorkdir composeWorld).starts _ member
  cases effect with
  | stage position => cases starts
  | loaded image => rfl
  | started verb => rfl
  | ran verb => rfl
  | killed verb => rfl

theorem stagesOf_down (settings : Settings) (runner : TestRunner) :
    stagesOf (down fields runner.yamlFilename settings.sutWorkdir composeWorld) = [] := by
  unfold down
  split
  · rfl
  · split
    · rfl
    · split
      · rfl
      · rfl

theorem stagesThenDown_stages (settings : Settings) (runner : TestRunner) :
    (stagesOf (stagesThenDown world fields composeWorld settings runner).1,
      (stagesThenDown world fields composeWorld settings runner).2) =
        runStages settings world 0 runner.stages := by
  unfold stagesThenDown
  cases runStages settings world 0 runner.stages with
  | mk positions ending =>
    cases ending with
    | died => exact Prod.ext (stagesOf_stages positions) rfl
    | returned error =>
      apply Prod.ext
      · show stagesOf (_ ++ _) = positions
        rw [stagesOf_append, stagesOf_stages, stagesOf_down, List.append_nil]
      · rfl

/-- `deploy` with its effects runs the stages of `deploy` and ends as it does. -/
theorem deploy_eq_effects :
    deploy flags { calls with up := upError flags calls fields composeWorld } world =
      (stagesOf (deployEffects flags calls world fields composeWorld).1,
        (deployEffects flags calls world fields composeWorld).2) := by
  rw [deploy, prepare_up, deployEffects, upError]
  cases prepareBeforeUp flags calls with
  | error ending => rfl
  | ok prepared =>
    cases prepared with
    | mk settings runner =>
      have bound : ∀ later : Settings × TestRunner → Except Ending (Settings × TestRunner),
          (Except.ok (settings, runner) >>= later) = later (settings, runner) := fun _ => rfl
      by_cases noCompose : runner.yamlFilename = []
      · rw [bound, if_pos noCompose]
        dsimp only [pure, Except.pure]
        rw [if_pos noCompose]
        exact Prod.ext (stagesOf_stages _).symm rfl
      · rw [bound, if_neg noCompose]
        dsimp only
        rw [if_neg noCompose]
        have noStages := stagesOf_up fields composeWorld settings runner
        cases ran : up fields runner.yamlFilename settings.sutWorkdir composeWorld with
        | mk effects error =>
          rw [ran] at noStages
          cases error with
          | some error => exact Prod.ext noStages.symm rfl
          | none =>
            have stages := stagesThenDown_stages world fields composeWorld settings runner
            apply Prod.ext
            · show _ = stagesOf (effects ++ _)
              rw [stagesOf_append, noStages]
              exact (congrArg Prod.fst stages).symm
            · exact (congrArg Prod.snd stages).symm

/-! ### When the project is taken down -/

/-- Where `deploy` returns after the process of the project was started, the project was taken down
exactly once. -/
def DownOnce (done : List Effect × Ending) : Prop :=
  ∀ error, done.2 = .returned error → .started .up ∈ done.1 → done.1.count (.ran .down) = 1

/-- Where the process of the project is started, that of the events is too. -/
def EventsStart : Prop :=
  ∀ settings runner, prepareBeforeUp flags calls = .ok (settings, runner) →
    runner.yamlFilename ≠ [] →
      .started .up ∈ (up fields runner.yamlFilename settings.sutWorkdir composeWorld).1 →
        composeWorld.start (createCmd fields runner.yamlFilename settings.sutWorkdir .events) = none

theorem notMem_stages {effect : Effect} (other : ∀ position, effect ≠ .stage position)
    (positions : List Nat) : effect ∉ positions.map Effect.stage := by
  intro member
  obtain ⟨position, _, same⟩ := List.mem_map.mp member
  exact other position same.symm

theorem count_stages (positions : List Nat) (verb : Verb) :
    (positions.map Effect.stage).count (.ran verb) = 0 :=
  List.count_eq_zero.mpr (notMem_stages (by simp) positions)

theorem count_stagesThenDown (settings : Settings) (runner : TestRunner) (error : Option Bytes)
    (returns : (stagesThenDown world fields composeWorld settings runner).2 = .returned error) :
    (stagesThenDown world fields composeWorld settings runner).1.count (.ran .down) = 1 := by
  unfold stagesThenDown at returns ⊢
  cases ran : runStages settings world 0 runner.stages with
  | mk positions ending =>
    rw [ran] at returns
    cases ending with
    | died => cases returns
    | returned error =>
      show List.count _ (_ ++ _) = 1
      rw [List.count_append, count_stages, count_down]

/-- The containers are taken down on all paths exactly when the events process starts wherever the
project's process does: `Down` is deferred only after `Up` has returned without an error. -/
theorem down_once_iff :
    DownOnce (deployEffects flags calls world fields composeWorld) ↔
      EventsStart flags calls fields composeWorld := by
  constructor
  · intro once settings runner prepared compose started
    have done := up_done fields runner.yamlFilename settings.sutWorkdir composeWorld
    rw [← done.events started]
    cases failed : (up fields runner.yamlFilename settings.sutWorkdir composeWorld).2 with
    | none => rfl
    | some error =>
      have returns : deployEffects flags calls world fields composeWorld =
          ((up fields runner.yamlFilename settings.sutWorkdir composeWorld).1,
            .returned (some error)) := by
        rw [deployEffects, prepared]
        dsimp only
        rw [if_neg compose]
        cases ran : up fields runner.yamlFilename settings.sutWorkdir composeWorld with
        | mk effects upError =>
          rw [ran] at failed
          subst failed
          rfl
      rw [returns] at once
      have counted := once (some error) rfl started
      have notRan := ran_notMem_up fields runner.yamlFilename settings.sutWorkdir composeWorld .down
      rw [List.count_eq_zero.mpr notRan] at counted
      cases counted
  · intro eventsStart error returned started
    unfold deployEffects at returned started ⊢
    cases prepared : prepareBeforeUp flags calls with
    | error ending =>
      rw [prepared] at started
      cases started
    | ok value =>
      cases value with
      | mk settings runner =>
        rw [prepared] at returned started
        dsimp only at returned started ⊢
        by_cases noCompose : runner.yamlFilename = []
        · rw [if_pos noCompose] at started
          exact absurd started (notMem_stages (by simp) _)
        · rw [if_neg noCompose] at returned started ⊢
          have done := up_done fields runner.yamlFilename settings.sutWorkdir composeWorld
          have notRan := ran_notMem_up fields runner.yamlFilename settings.sutWorkdir
            composeWorld .down
          have ifStarted := eventsStart settings runner prepared noCompose
          cases ran : up fields runner.yamlFilename settings.sutWorkdir composeWorld with
          | mk effects upError =>
            rw [ran] at returned started done notRan ifStarted
            cases upError with
            | some upError =>
              have ok := (done.events started).mpr (ifStarted started)
              cases ok
            | none =>
              show List.count _ (effects ++ _) = 1
              rw [List.count_append, List.count_eq_zero.mpr notRan,
                count_stagesThenDown world fields composeWorld settings runner error returned]

end Deployment

/-- A runner with a compose project and no stages. -/
def composeRunner : TestRunner := ⟨ascii "compose.yaml", []⟩

/-- The second process cannot be started. -/
def eventsFail : ComposeWorld where
  dockerLoad := fun _ => none
  start := fun cmd => if ascii "events" ∈ cmd.args then some (ascii "fork/exec docker") else none
  run := fun _ => none
  kill := fun _ => none

/-- `deploy` returns while the containers run, and nothing has taken them down. -/
theorem containers_left_running :
    deployEffects zipFlags (smoothCalls composeRunner) (fun _ => bazelExits 0 true) ⟨[], []⟩
        eventsFail = ([.started .up], .returned (some (ascii "fork/exec docker"))) ∧
      ¬ DownOnce (deployEffects zipFlags (smoothCalls composeRunner) (fun _ => bazelExits 0 true)
        ⟨[], []⟩ eventsFail) := by
  have trace : deployEffects zipFlags (smoothCalls composeRunner) (fun _ => bazelExits 0 true)
      ⟨[], []⟩ eventsFail = ([.started .up], .returned (some (ascii "fork/exec docker"))) := by
    decide +kernel
  refine ⟨trace, ?_⟩
  rw [trace]
  intro once
  have counted := once _ rfl List.mem_cons_self
  cases counted

end EzSdk.Deploy
