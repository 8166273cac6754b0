import EzSdk.Deploy.Unzip

/-! `deploy` of `deploy.go` with the bazel runs of `bazel.go`: what its result says about
the stages of the test runner. -/

namespace EzSdk.Deploy

/-- `env` is in the order in which the map is ranged over. -/
structure ShellCommand where
  command : List Bytes
  env : List (Bytes × Bytes)

structure BazelTest where
  testTargets : List Bytes

/-- The alternatives of the message `Command`; `notSet` is the oneof without a value. -/
inductive Command where
  | shell (shell : ShellCommand)
  | bazel (bazel : BazelTest)
  | notSet

structure Stage where
  label : Bytes
  command : Option Command

structure TestRunner where
  yamlFilename : Bytes
  stages : List Stage

/-- What `exec.Command` makes, with the environment. -/
structure Cmd where
  name : Bytes
  args : List Bytes
  env : List Bytes

/-- A file of the bazel logs: the error of opening it, whether the archive gives a writer
for it, whether nothing is in it, and the error of the copy. -/
structure LogFile where
  opens : Option Bytes
  creates : Bool
  blank : Bool
  copies : Option Bytes

structure LogOutcome where
  logRootIsDir : Bool
  archiveIsDir : Bool
  createsArchive : Option Bytes
  findBazelLogFiles : Except Bytes (List LogFile)

/-- What the outside does during one stage. `run` is `cmd.Run`, which has an error for a
command that does not start and for every exit code but zero. -/
structure StageWorld where
  environ : List Bytes
  getenv : Bytes → Bytes
  run : Cmd → Option Bytes
  bazelisk : List Bytes → Int × Option Bytes
  logs : Bytes → Bytes → LogOutcome

/-- The variables of the package that the stages read. -/
structure Settings where
  sutWorkdir : Bytes
  sutId : Bytes

/-- How a function ends; `died` is a panic or `log.Fatalln`. -/
inductive Ending where
  | returned (error : Option Bytes)
  | died
  deriving DecidableEq

/-- The white space of Unicode in UTF-8. -/
def spaces : List Bytes :=
  [[0x09], [0x0A], [0x0B], [0x0C], [0x0D], [0x20], [0xC2, 0x85], [0xC2, 0xA0],
    [0xE1, 0x9A, 0x80], [0xE2, 0x80, 0xA8], [0xE2, 0x80, 0xA9], [0xE2, 0x80, 0xAF],
    [0xE2, 0x81, 0x9F], [0xE3, 0x80, 0x80]] ++
  (List.range 11).map (fun index => [0xE2, 0x80, 0x80 + UInt8.ofNat index])

def dropSpace (spaces : List Bytes) (text : Bytes) : Bytes :=
  match spaces.find? (·.isPrefixOf text) with
  | some space => text.drop space.length
  | none => text

def dropSpaces (spaces : List Bytes) (text : Bytes) : Bytes :=
  text.length.repeat (dropSpace spaces) text

/-- `strings.TrimSpace` -/
def trimSpace (text : Bytes) : Bytes :=
  (dropSpaces (spaces.map List.reverse) (dropSpaces spaces text).reverse).reverse

def stringValPredicate (text : Bytes) : Bool := trimSpace text ≠ []

def stringValFilter (texts : List Bytes) : List Bytes := texts.filter stringValPredicate

def shellCommandToCmd (settings : Settings) (world : StageWorld) (shellCommand : ShellCommand) :
    Except Bytes Cmd :=
  match shellCommand.command with
  | [] => .error (ascii "command not specified")
  | name :: args =>
    if name = [] then .error (ascii "executable not specified")
    else
      .ok ⟨name, args, world.environ ++ [ascii "SUT_ID=" ++ settings.sutId] ++
        shellCommand.env.map (fun (key, value) =>
          key ++ ascii "=" ++ if value = [] then world.getenv key else value)⟩

def runBazelArgs (bazelisk : List Bytes → Int × Option Bytes) (args : List Bytes) :
    Int × Option Bytes :=
  let args := stringValFilter args
  if args = [] then (0, some (ascii "invalid args")) else bazelisk args

/-- The loop of `captureBazelLogs`. The error of `writer.Create` is not looked at, so that
a file with content is then copied to a nil writer. -/
def archiveLogs : List LogFile → Ending
  | [] => .returned none
  | file :: files =>
    match file.opens with
    | some error => .returned (some error)
    | none =>
      if !file.creates && !file.blank then .died
      else
        match file.copies with
        | some error => .returned (some error)
        | none => archiveLogs files

def captureBazelLogs (logs : Bytes → Bytes → LogOutcome) (logRoot archiveFilename : Bytes) :
    Ending :=
  if logRoot = [] ∨ archiveFilename = [] then .returned (some (ascii "invalid args"))
  else
    let outcome := logs (clean logRoot) (clean archiveFilename)
    if outcome.logRootIsDir = false then .returned (some (ascii "directory does not exist"))
    else if outcome.archiveIsDir then .returned (some (ascii "path is an existing directory"))
    else
      match outcome.createsArchive, outcome.findBazelLogFiles with
      | some error, _ => .returned (some error)
      | none, .error error => .returned (some error)
      | none, .ok files => archiveLogs files

def testArgs (settings : Settings) (label : Bytes) (testTargets : List Bytes) : List Bytes :=
  [ascii "--output_base=" ++ (join [settings.sutWorkdir, ascii "bazel-"] ++ label),
    ascii "test", ascii "--action_env=SUT_ID=" ++ settings.sutId] ++ testTargets

/-- The exit code and the error; `none` when the process dies. The `bazel clean` that is
deferred unless debugging has no part in them. -/
def runBazelTest (settings : Settings) (world : StageWorld) (bazelTestCmd : BazelTest)
    (label : Bytes) : Option (Int × Option Bytes) :=
  let label := trimSpace label
  let testTargets := stringValFilter bazelTestCmd.testTargets
  if label = [] then some (0, some (ascii "invalid label"))
  else if testTargets = [] then some (0, some (ascii "bazel test targets unspecified"))
  else
    match runBazelArgs world.bazelisk (testArgs settings label testTargets) with
    | (exitCode, some error) => some (exitCode, some error)
    | (exitCode, none) =>
      match captureBazelLogs world.logs (ascii "bazel-testlogs")
          (join [settings.sutWorkdir, label ++ ascii "-logs.zip"]) with
      | .died => none
      | .returned error => some (exitCode, error)

def nonZeroExit (exitCode : Int) : Bytes :=
  ascii ("bazel non-zero exit code: " ++ toString exitCode)

def runStage (settings : Settings) (world : StageWorld) (stage : Stage) : Ending :=
  match stage.command with
  | none => .died
  | some (.shell shell) =>
    match shellCommandToCmd settings world shell with
    | .error error => .returned (some error)
    | .ok cmd => .returned (world.run cmd)
  | some (.bazel bazel) =>
    match runBazelTest settings world bazel stage.label with
    | none => .died
    -- The error stays in a variable of this case; the result is still nil.
    | some (_, some _) => .returned none
    | some (exitCode, none) =>
      .returned (if exitCode ≠ 0 then some (nonZeroExit exitCode) else none)
  | some .notSet => .returned (some (ascii "unsupported command type: <nil>"))

/-- The loop of `deploy`: the positions of the stages that are started, and the end.
`index` is the position of the first stage. -/
def runStages (settings : Settings) (world : Nat → StageWorld) :
    Nat → List Stage → List Nat × Ending
  | _, [] => ([], .returned none)
  | index, stage :: stages =>
    match runStage settings (world index) stage with
    | .returned none =>
      let (started, ending) := runStages settings world (index + 1) stages
      (index :: started, ending)
    | ending => ([index], ending)

/-- The stage ends without error and with exit code 0. -/
def Stage.Passes (settings : Settings) (world : StageWorld) (stage : Stage) : Prop :=
  match stage.command with
  | some (.shell shell) =>
    ∃ cmd, shellCommandToCmd settings world shell = .ok cmd ∧ world.run cmd = none
  | some (.bazel bazel) => runBazelTest settings world bazel stage.label = some (0, none)
  | _ => False

/-- The stage is no bazel stage, or its label and one of its targets are not blank, bazel
can be run, with whatever exit code, and its logs can be archived. -/
def Stage.Completes (settings : Settings) (world : StageWorld) (stage : Stage) : Prop :=
  ∀ bazel, stage.command = some (.bazel bazel) →
    trimSpace stage.label ≠ [] ∧ stringValFilter bazel.testTargets ≠ [] ∧
    (runBazelArgs world.bazelisk (testArgs settings (trimSpace stage.label)
      (stringValFilter bazel.testTargets))).2 = none ∧
    captureBazelLogs world.logs (ascii "bazel-testlogs")
      (join [settings.sutWorkdir, trimSpace stage.label ++ ascii "-logs.zip"]) = .returned none

theorem runBazelTest_none_iff {settings : Settings} {world : StageWorld} {stage : Stage}
    {bazel : BazelTest} (command : stage.command = some (.bazel bazel)) :
    (∃ exitCode, runBazelTest settings world bazel stage.label = some (exitCode, none)) ↔
      stage.Completes settings world := by
  simp only [Stage.Completes, command, Option.some.injEq, Command.bazel.injEq, forall_eq']
  rw [runBazelTest]
  by_cases label : trimSpace stage.label = []
  · simp [label]
  by_cases targets : stringValFilter bazel.testTargets = []
  · simp [label, targets]
  rcases runBazelArgs world.bazelisk (testArgs settings (trimSpace stage.label)
    (stringValFilter bazel.testTargets)) with ⟨exitCode, error | _⟩
  · cases captureBazelLogs world.logs (ascii "bazel-testlogs")
      (join [settings.sutWorkdir, trimSpace stage.label ++ ascii "-logs.zip"]) <;>
      simp [label, targets]
  · simp [label, targets]

theorem completes_of_passes {settings : Settings} {world : StageWorld} {stage : Stage}
    (passes : stage.Passes settings world) : stage.Completes settings world := by
  intro bazel command
  simp only [Stage.Passes, command] at passes
  exact (runBazelTest_none_iff command).mp ⟨0, passes⟩ bazel command

theorem runStage_of_passes {settings : Settings} {world : StageWorld} {stage : Stage}
    (passes : stage.Passes settings world) : runStage settings world stage = .returned none := by
  rw [runStage]
  rw [Stage.Passes] at passes
  split at passes
  case h_1 shell command =>
    obtain ⟨cmd, made, succeeds⟩ := passes
    simp [command, made, succeeds]
  case h_2 bazel command => simp [command, passes]
  case h_3 => exact passes.elim

/-- A stage that does not pass is reported if bazel, where it is one of bazel, completes. -/
theorem runStage_reports {settings : Settings} {world : StageWorld} {stage : Stage}
    (given : stage.command.isSome) (completes : stage.Completes settings world)
    (fails : ¬ stage.Passes settings world) :
    ∃ error, runStage settings world stage = .returned (some error) := by
  rw [runStage]
  rw [Stage.Passes] at fails
  rcases command : stage.command with _ | (shell | bazel | _)
  · simp [command] at given
  · simp only [command] at fails ⊢
    cases made : shellCommandToCmd settings world shell with
    | error error => exact ⟨error, rfl⟩
    | ok cmd =>
      cases ran : world.run cmd with
      | none => exact absurd ⟨cmd, made, ran⟩ fails
      | some error => exact ⟨error, by simp [ran]⟩
  · obtain ⟨exitCode, ran⟩ := (runBazelTest_none_iff command).mpr completes
    have nonZero : exitCode ≠ 0 := by
      intro zero
      apply fails
      simp [command, ran, zero]
    exact ⟨nonZeroExit exitCode, by simp [ran, nonZero]⟩
  · exact ⟨_, rfl⟩

theorem runStage_unreported {settings : Settings} {world : StageWorld} {stage : Stage}
    (incomplete : ¬ stage.Completes settings world) :
    runStage settings world stage = .returned none ∨ runStage settings world stage = .died := by
  have isBazel : ∃ bazel, stage.command = some (.bazel bazel) := by
    by_contra other
    exact incomplete (fun bazel command => absurd ⟨bazel, command⟩ other)
  obtain ⟨bazel, command⟩ := isBazel
  simp only [runStage, command]
  rcases ran : runBazelTest settings world bazel stage.label with _ | ⟨exitCode, _ | error⟩
  · exact .inr rfl
  · exact absurd ((runBazelTest_none_iff command).mp ⟨exitCode, ran⟩) incomplete
  · exact .inl rfl

theorem runStages_drop (settings : Settings) (world : Nat → StageWorld) (count : Nat) :
    ∀ index stages, count ≤ stages.length →
    (∀ position stage, position < count → stages[position]? = some stage →
      runStage settings (world (index + position)) stage = .returned none) →
    runStages settings world index stages =
      (List.range' index count ++
        (runStages settings world (index + count) (stages.drop count)).1,
       (runStages settings world (index + count) (stages.drop count)).2) := by
  induction count with
  | zero => simp
  | succ count ih =>
    intro index stages within silent
    cases stages with
    | nil => simp at within
    | cons stage stages =>
      have first : runStage settings (world index) stage = .returned none :=
        silent 0 stage (by omega) rfl
      have later := ih (index + 1) stages (by simpa using within) (by
        intro position next earlier found
        rw [Nat.add_assoc, Nat.add_comm 1]
        exact silent (position + 1) next (by omega) found)
      rw [runStages, first, later, Nat.add_assoc, Nat.add_comm 1]
      rfl

def PassBefore (settings : Settings) (world : Nat → StageWorld) (stages : List Stage)
    (count : Nat) : Prop :=
  ∀ position stage, position < count → stages[position]? = some stage →
    stage.Passes settings (world position)

/-- A nil error says that all stages were started, one after the other, and passed. The
first one that does not pass is the last one started, and gives an error. -/
structure Truthful (settings : Settings) (world : Nat → StageWorld) (stages : List Stage)
    (result : List Nat × Ending) : Prop where
  green : result.2 = .returned none →
    result.1 = List.range stages.length ∧ PassBefore settings world stages stages.length
  red : ∀ position stage, stages[position]? = some stage →
    PassBefore settings world stages position → ¬ stage.Passes settings (world position) →
    result.1 = List.range (position + 1) ∧ ∃ error, result.2 = .returned (some error)

/-- The loop after the stages up to a position have passed. -/
theorem runStages_after {settings : Settings} {world : Nat → StageWorld} {stages : List Stage}
    {count : Nat} (within : count ≤ stages.length)
    (pass : PassBefore settings world stages count) :
    runStages settings world 0 stages =
      (List.range count ++ (runStages settings world count (stages.drop count)).1,
       (runStages settings world count (stages.drop count)).2) := by
  have go := runStages_drop settings world count 0 stages within (by
    intro position stage earlier found
    rw [Nat.zero_add]
    exact runStage_of_passes (pass position stage earlier found))
  rwa [Nat.zero_add, ← List.range_eq_range'] at go

theorem runStages_all {settings : Settings} {world : Nat → StageWorld} {stages : List Stage}
    (pass : PassBefore settings world stages stages.length) :
    runStages settings world 0 stages = (List.range stages.length, .returned none) := by
  rw [runStages_after (Nat.le_refl _) pass, List.drop_length, runStages, List.append_nil]

theorem runStages_stop {settings : Settings} {world : Nat → StageWorld} {stages : List Stage}
    {position : Nat} {stage : Stage} {ending : Ending} (found : stages[position]? = some stage)
    (pass : PassBefore settings world stages position)
    (ends : runStage settings (world position) stage = ending) (notNil : ending ≠ .returned none) :
    runStages settings world 0 stages = (List.range (position + 1), ending) := by
  obtain ⟨within, rfl⟩ := List.getElem?_eq_some_iff.mp found
  rw [runStages_after (Nat.le_of_lt within) pass, List.drop_eq_getElem_cons within, runStages, ends]
  rcases ending with (_ | error) | _
  · exact absurd rfl notNil
  · rw [List.range_succ]
  · rw [List.range_succ]

theorem runStages_starts (settings : Settings) (world : Nat → StageWorld) (index : Nat)
    (stage : Stage) (stages : List Stage) :
    0 < (runStages settings world index (stage :: stages)).1.length := by
  rw [runStages]
  split <;> simp

theorem runStages_pass_over {settings : Settings} {world : Nat → StageWorld}
    {stages : List Stage} {position : Nat} {stage : Stage}
    (found : stages[position]? = some stage)
    (pass : PassBefore settings world stages position)
    (nil : runStage settings (world position) stage = .returned none) :
    (runStages settings world 0 stages).2 = .returned none ∨
      position + 1 < (runStages settings world 0 stages).1.length := by
  obtain ⟨within, rfl⟩ := List.getElem?_eq_some_iff.mp found
  rw [runStages_after (Nat.le_of_lt within) pass, List.drop_eq_getElem_cons within, runStages, nil]
  cases rest : stages.drop (position + 1) with
  | nil => exact .inl rfl
  | cons next later =>
    right
    have starts := runStages_starts settings world (position + 1) next later
    simp only [List.length_append, List.length_range, List.length_cons]
    omega

theorem pass_or_first_failure (settings : Settings) (world : Nat → StageWorld)
    (stages : List Stage) :
    PassBefore settings world stages stages.length ∨
      ∃ position stage, stages[position]? = some stage ∧
        PassBefore settings world stages position ∧ ¬ stage.Passes settings (world position) := by
  suffices upTo : ∀ count, PassBefore settings world stages count ∨
      ∃ position stage, stages[position]? = some stage ∧
        PassBefore settings world stages position ∧ ¬ stage.Passes settings (world position) from
    upTo stages.length
  intro count
  induction count with
  | zero => exact .inl (fun position stage before _ => absurd before (by omega))
  | succ count ih =>
    rcases ih with pass | failure
    · by_cases next : ∀ stage, stages[count]? = some stage →
          stage.Passes settings (world count)
      · left
        intro position stage before found
        rcases Nat.lt_succ_iff_lt_or_eq.mp before with earlier | rfl
        · exact pass position stage earlier found
        · exact next stage found
      · push Not at next
        obtain ⟨stage, found, fails⟩ := next
        exact .inr ⟨count, stage, found, pass, fails⟩
    · exact .inr failure

theorem truthful_iff (settings : Settings) (world : Nat → StageWorld) (stages : List Stage)
    (given : ∀ stage ∈ stages, stage.command.isSome) :
    Truthful settings world stages (runStages settings world 0 stages) ↔
      ∀ position stage, stages[position]? = some stage →
        PassBefore settings world stages position → stage.Completes settings (world position) := by
  constructor
  · intro truthful position stage found pass
    by_contra incomplete
    have fails : ¬ stage.Passes settings (world position) :=
      fun passes => incomplete (completes_of_passes passes)
    obtain ⟨started, error, ending⟩ := truthful.red position stage found pass fails
    rcases runStage_unreported incomplete with nil | died
    · rcases runStages_pass_over found pass nil with green | further
      · rw [green] at ending
        cases ending
      · rw [started, List.length_range] at further
        omega
    · rw [runStages_stop found pass died (by simp)] at ending
      cases ending
  · intro complete
    have reported : ∀ position stage, stages[position]? = some stage →
        PassBefore settings world stages position → ¬ stage.Passes settings (world position) →
        ∃ error, runStages settings world 0 stages =
          (List.range (position + 1), .returned (some error)) := by
      intro position stage found pass fails
      obtain ⟨error, reports⟩ := runStage_reports (given stage (List.mem_of_getElem? found))
        (complete position stage found pass) fails
      exact ⟨error, runStages_stop found pass reports (by simp)⟩
    constructor
    · intro green
      rcases pass_or_first_failure settings world stages with pass | failure
      · exact ⟨by rw [runStages_all pass], pass⟩
      · obtain ⟨position, stage, found, pass, fails⟩ := failure
        obtain ⟨error, result⟩ := reported position stage found pass fails
        rw [result] at green
        cases green
    · intro position stage found pass fails
      obtain ⟨error, result⟩ := reported position stage found pass fails
      rw [result]
      exact ⟨rfl, error, rfl⟩

end EzSdk.Deploy
