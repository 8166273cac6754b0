import EzSdk.Deploy.Stages
import EzSdk.Foundation.Postconditions

/-! `deploy` of `deploy.go`: the preparations and then the stages. -/

namespace EzSdk.Deploy

open Postconditions

structure Flags where
  initBazel : Bool
  sutZipFile : Bytes
  sutTestRunnerFile : Bytes
  sutDockerImages : List Bytes

/-- An archive, and what the calls of its extraction come to. -/
structure Extraction where
  archive : Except Bytes (List ZipEntry)
  destOutcome : MkdirOutcome
  outcomes : Nat → EntryOutcome
  dirs : List GoPath

/-- What the calls before the stages come to, each with the text of its error. The test
runner is `none` when its text does not parse. -/
structure Calls where
  mkdirTemp : Except Bytes Bytes
  readEmbedZip : Except Bytes Extraction
  openZip : Option Bytes
  statZip : Option Bytes
  findFileInZip : Bytes → Except Bytes Bytes
  sutZip : Extraction
  copyFile : Bytes → Bytes → Option Bytes
  mkdirImages : Option Bytes
  abs : Bytes → Except Bytes Bytes
  configureBazelisk : Option Bytes
  getwd : Except Bytes Bytes
  bazelisk : List Bytes → Int × Option Bytes
  readFile : Bytes → Except Bytes (Option TestRunner)
  getwdAgain : Except Bytes Bytes
  bazeliskAgain : List Bytes → Int × Option Bytes
  newDockerCompose : Option Bytes
  up : Option Bytes

/-- A call whose error is returned. -/
def checked : Option Bytes → Except Ending Unit
  | none => .ok ()
  | some error => .error (.returned (some error))

def obtained {Value : Type} : Except Bytes Value → Except Ending Value
  | .ok value => .ok value
  | .error error => .error (.returned (some error))

/-- `unzipToDir`, whose error is returned after a text. -/
def unzipped (text : Bytes) (extraction : Extraction) (basedir dest : Bytes) :
    Except Ending Unit :=
  match (unzipToDir extraction.archive basedir dest extraction.destOutcome extraction.outcomes
      extraction.dirs).1 with
  | .panicked _ => .error .died
  | .returned error => checked (error.map (text ++ ·))

def testRunnerFilename : Bytes := ascii "testrunner.textproto"

def extractEmbeddedFS (calls : Calls) (sutWorkdir : Bytes) : Except Ending Unit :=
  match calls.readEmbedZip with
  | .error error => checked (some (ascii "extracting embedFS.zip -- " ++ error))
  | .ok extraction =>
    unzipped (ascii "extracting embedFS.zip -- unzipping embedFS.zip -- ") extraction []
      sutWorkdir

def extractSutZip (flags : Flags) (calls : Calls) (sutWorkdir : Bytes) : Except Ending Unit :=
  if flags.sutZipFile = [] then .ok ()
  else do
    checked calls.openZip
    checked calls.statZip
    match calls.findFileInZip testRunnerFilename with
    | .error error => checked (some (ascii "searching " ++ flags.sutZipFile ++ ascii " -- " ++ error))
    | .ok basedir =>
      unzipped (ascii "unzipping " ++ flags.sutZipFile ++ ascii " to " ++ sutWorkdir ++
        ascii " -- ") calls.sutZip basedir sutWorkdir

def copyTestRunner (flags : Flags) (calls : Calls) (sutWorkdir : Bytes) : Except Ending Unit :=
  if flags.sutTestRunnerFile = [] then .ok ()
  else checked (calls.copyFile flags.sutTestRunnerFile sutWorkdir)

def copyImage (calls : Calls) (destDir fPath : Bytes) : Except Ending Unit := do
  let fPath ← obtained (calls.abs fPath)
  match rel [slash] fPath with
  | none => checked (some (ascii "Rel: can't make " ++ fPath ++ ascii " relative to /"))
  | some fPath => checked (calls.copyFile fPath (join [destDir, base fPath]))

def copyImages (flags : Flags) (calls : Calls) (sutWorkdir : Bytes) : Except Ending Unit :=
  if flags.sutDockerImages = [] then .ok ()
  else do
    checked calls.mkdirImages
    flags.sutDockerImages.forM (copyImage calls (join [sutWorkdir, ascii "docker_images"]))

def runBazelVersion (bazelisk : List Bytes → Int × Option Bytes) : Except Ending Unit :=
  match runBazelArgs bazelisk [ascii "version"] with
  | (_, some error) => checked (some error)
  | (exitCode, none) => checked (if exitCode ≠ 0 then some (nonZeroExit exitCode) else none)

/-- With the flag the function returns after `bazel info`. -/
def initOnly (flags : Flags) (calls : Calls) : Except Ending Unit :=
  if flags.initBazel then .error (.returned (runBazelArgs calls.bazelisk [ascii "info"]).2)
  else .ok ()

/-- A stage without a label gets one from its position. -/
def assignLabels (stages : List Stage) : List Stage :=
  stages.mapIdx (fun i stage =>
    if stage.label = [] then { stage with label := ascii ("stage" ++ toString (i + 1)) }
    else stage)

def readTestRunner (calls : Calls) (runnerConfigFile : Bytes) : Except Ending TestRunner :=
  if runnerConfigFile = [] then .error (.returned (some (ascii "invalid argument")))
  else
    match calls.readFile runnerConfigFile with
    | .error error => .error (.returned (some error))
    | .ok none => .error .died
    | .ok (some runner) => .ok { runner with stages := assignLabels runner.stages }

def composeUp (calls : Calls) (yamlFilename : Bytes) : Except Ending Unit :=
  if yamlFilename = [] then .ok ()
  else do
    checked calls.newDockerCompose
    checked calls.up

/-- `deploy` up to the loop over the stages. The value of `sutId` is from the directory as
it was made, that of `sutWorkdir` from the working directory. -/
def prepare (flags : Flags) (calls : Calls) : Except Ending (Settings × TestRunner) := do
  let created ← obtained calls.mkdirTemp
  extractEmbeddedFS calls created
  extractSutZip flags calls created
  copyTestRunner flags calls created
  copyImages flags calls created
  checked calls.configureBazelisk
  let workdir ← obtained calls.getwd
  runBazelVersion calls.bazelisk
  initOnly flags calls
  let runner ← readTestRunner calls (join [workdir, testRunnerFilename])
  let sutWorkdir ← obtained calls.getwdAgain
  runBazelVersion calls.bazeliskAgain
  composeUp calls runner.yamlFilename
  return (⟨sutWorkdir, base created⟩, runner)

/-- The positions of the stages that are started, and the end. -/
def deploy (flags : Flags) (calls : Calls) (world : Nat → StageWorld) : List Nat × Ending :=
  match prepare flags calls with
  | .error ending => ([], ending)
  | .ok (settings, runner) => runStages settings world 0 runner.stages

/-- The preparations end with an error, not with nil, where they end before the stages. -/
abbrev Reports {Value : Type} (result : Except Ending Value) : Prop :=
  Meets (· ≠ .returned none) (fun _ => True) result

theorem reports_checked (error : Option Bytes) : Reports (checked error) := by
  cases error <;> simp [Meets, checked]

theorem reports_obtained {Value : Type} (result : Except Bytes Value) :
    Reports (obtained result) := by
  cases result <;> simp [Meets, obtained]

theorem reports_unzipped (text : Bytes) (extraction : Extraction) (basedir dest : Bytes) :
    Reports (unzipped text extraction basedir dest) := by
  rw [unzipped]
  split
  · simp [Meets]
  · exact reports_checked _

theorem reports_extractEmbeddedFS (calls : Calls) (sutWorkdir : Bytes) :
    Reports (extractEmbeddedFS calls sutWorkdir) := by
  rw [extractEmbeddedFS]
  split
  · exact reports_checked _
  · exact reports_unzipped ..

theorem reports_extractSutZip (flags : Flags) (calls : Calls) (sutWorkdir : Bytes) :
    Reports (extractSutZip flags calls sutWorkdir) := by
  rw [extractSutZip]
  split
  · trivial
  · apply meets_bind (reports_checked _)
    intro _ _
    apply meets_bind (reports_checked _)
    intro _ _
    split
    · exact reports_checked _
    · exact reports_unzipped ..

theorem reports_copyTestRunner (flags : Flags) (calls : Calls) (sutWorkdir : Bytes) :
    Reports (copyTestRunner flags calls sutWorkdir) := by
  rw [copyTestRunner]
  split
  · trivial
  · exact reports_checked _

theorem reports_copyImage (calls : Calls) (destDir fPath : Bytes) :
    Reports (copyImage calls destDir fPath) := by
  apply meets_bind (reports_obtained _)
  intro fPath _
  split
  · exact reports_checked _
  · exact reports_checked _

theorem reports_copyImages (flags : Flags) (calls : Calls) (sutWorkdir : Bytes) :
    Reports (copyImages flags calls sutWorkdir) := by
  rw [copyImages]
  split
  · trivial
  · apply meets_bind (reports_checked _)
    intro _ _
    exact meets_forM (fun image _ => reports_copyImage ..)

theorem reports_runBazelVersion (bazelisk : List Bytes → Int × Option Bytes) :
    Reports (runBazelVersion bazelisk) := by
  rw [runBazelVersion]
  split
  · exact reports_checked _
  · exact reports_checked _

theorem reports_composeUp (calls : Calls) (yamlFilename : Bytes) :
    Reports (composeUp calls yamlFilename) := by
  rw [composeUp]
  split
  · trivial
  · apply meets_bind (reports_checked _)
    intro _ _
    exact reports_checked _

/-- Every stage that is read has a command. -/
def Commanded (calls : Calls) : Prop :=
  ∀ file runner, calls.readFile file = .ok (some runner) →
    ∀ stage ∈ runner.stages, stage.command.isSome

theorem meets_readTestRunner {calls : Calls} (commanded : Commanded calls) (file : Bytes) :
    Meets (· ≠ .returned none) (fun runner => ∀ stage ∈ runner.stages, stage.command.isSome)
      (readTestRunner calls file) := by
  rw [readTestRunner]
  split
  · simp [Meets]
  · split
    · simp [Meets]
    · simp [Meets]
    · rename_i runner read
      intro stage member
      obtain ⟨index, within, rfl⟩ := List.mem_mapIdx.mp member
      have given := commanded file runner read _ (List.getElem_mem within)
      split <;> exact given

theorem meets_prepare {flags : Flags} {calls : Calls} (stagesToo : flags.initBazel = false)
    (commanded : Commanded calls) :
    Meets (· ≠ .returned none) (fun prepared => ∀ stage ∈ prepared.2.stages, stage.command.isSome)
      (prepare flags calls) := by
  have initOnly_ok : initOnly flags calls = .ok () := by simp [initOnly, stagesToo]
  apply meets_bind (reports_obtained _)
  intro created _
  apply meets_bind (reports_extractEmbeddedFS ..)
  intro _ _
  apply meets_bind (reports_extractSutZip ..)
  intro _ _
  apply meets_bind (reports_copyTestRunner ..)
  intro _ _
  apply meets_bind (reports_copyImages ..)
  intro _ _
  apply meets_bind (reports_checked _)
  intro _ _
  apply meets_bind (reports_obtained _)
  intro workdir _
  apply meets_bind (reports_runBazelVersion _)
  intro _ _
  rw [initOnly_ok]
  apply meets_bind (meets_readTestRunner commanded _)
  intro runner given
  apply meets_bind (reports_obtained _)
  intro sutWorkdir _
  apply meets_bind (reports_runBazelVersion _)
  intro _ _
  apply meets_bind (reports_composeUp ..)
  intro _ _
  exact given

/-- A nil error comes from the stages, and what the result says about them is true. -/
def GreenMeansPassed (flags : Flags) (calls : Calls) (world : Nat → StageWorld) : Prop :=
  ((deploy flags calls world).2 = .returned none →
    ∃ prepared, prepare flags calls = .ok prepared) ∧
  ∀ settings runner, prepare flags calls = .ok (settings, runner) →
    Truthful settings world runner.stages (deploy flags calls world)

/-- Bazel completes in every stage that is reached. -/
def BazelCompletes (flags : Flags) (calls : Calls) (world : Nat → StageWorld) : Prop :=
  ∀ settings runner, prepare flags calls = .ok (settings, runner) →
    ∀ position stage, runner.stages[position]? = some stage →
      PassBefore settings world runner.stages position → stage.Completes settings (world position)

theorem green_means_passed_iff (flags : Flags) (calls : Calls) (world : Nat → StageWorld)
    (stagesToo : flags.initBazel = false) (commanded : Commanded calls) :
    GreenMeansPassed flags calls world ↔ BazelCompletes flags calls world := by
  have meets := meets_prepare stagesToo commanded
  have prepared : (deploy flags calls world).2 = .returned none →
      ∃ prepared, prepare flags calls = .ok prepared := by
    intro green
    rw [deploy] at green
    cases result : prepare flags calls with
    | error ending =>
      rw [result] at green
      exact absurd green (meets.error result)
    | ok prepared => exact ⟨prepared, rfl⟩
  have onStages : ∀ settings runner, prepare flags calls = .ok (settings, runner) →
      deploy flags calls world = runStages settings world 0 runner.stages := by
    intro settings runner result
    rw [deploy, result]
  constructor
  · intro passed settings runner result
    have truthful := passed.2 settings runner result
    rw [onStages settings runner result] at truthful
    exact (truthful_iff settings world runner.stages (meets.value result)).mp truthful
  · intro complete
    refine ⟨prepared, ?_⟩
    intro settings runner result
    rw [onStages settings runner result]
    exact (truthful_iff settings world runner.stages (meets.value result)).mpr
      (complete settings runner result)

/-- A runner of one bazel stage. -/
def unitTests : TestRunner :=
  ⟨[], [⟨ascii "unit", some (.bazel ⟨[ascii "//..."]⟩)⟩]⟩

def zipFlags : Flags := ⟨false, ascii "sut.zip", [], []⟩

def emptyExtraction : Extraction := ⟨.ok [], .succeeds, fun _ => ⟨none, .succeeds, none, none⟩, []⟩

/-- All preparations succeed. -/
def smoothCalls (runner : TestRunner) : Calls where
  mkdirTemp := .ok (ascii "/tmp/sut1")
  readEmbedZip := .ok emptyExtraction
  openZip := none
  statZip := none
  findFileInZip := fun _ => .ok []
  sutZip := emptyExtraction
  copyFile := fun _ _ => none
  mkdirImages := none
  abs := .ok
  configureBazelisk := none
  getwd := .ok (ascii "/tmp/sut1")
  bazelisk := fun _ => (0, none)
  readFile := fun _ => .ok (some runner)
  getwdAgain := .ok (ascii "/tmp/sut1")
  bazeliskAgain := fun _ => (0, none)
  newDockerCompose := none
  up := none

/-- Bazel exits with a code and leaves its logs behind, or not. -/
def bazelExits (exitCode : Int) (logRootIsDir : Bool) : StageWorld where
  environ := []
  getenv := fun _ => []
  run := fun _ => none
  bazelisk := fun _ => (exitCode, none)
  logs := fun _ _ => ⟨logRootIsDir, false, none, .ok []⟩

theorem prepare_unitTests : prepare zipFlags (smoothCalls unitTests) =
    .ok (⟨ascii "/tmp/sut1", ascii "sut1"⟩, unitTests) := by
  rfl

/-- The tests fail, and the result says so. -/
theorem green_means_passed_unitTests :
    GreenMeansPassed zipFlags (smoothCalls unitTests) (fun _ => bazelExits 3 true) ∧
      (deploy zipFlags (smoothCalls unitTests) (fun _ => bazelExits 3 true)).2 =
        .returned (some (ascii "bazel non-zero exit code: 3")) := by
  have commanded : Commanded (smoothCalls unitTests) := by
    rintro _ runner ⟨⟩ stage member
    rw [List.mem_singleton.mp member]
    rfl
  refine ⟨(green_means_passed_iff _ _ _ rfl commanded).mpr ?_, by decide +kernel⟩
  intro settings runner prepared position stage found _
  cases prepare_unitTests.symm.trans prepared
  rw [List.mem_singleton.mp (List.mem_of_getElem? found)]
  rintro bazel ⟨⟩
  beta_reduce
  decide +kernel

/-- The build fails, so that there are no logs, and the run is green. -/
theorem failed_build_green :
    (deploy zipFlags (smoothCalls unitTests) (fun _ => bazelExits 1 false)).2 = .returned none ∧
      ¬ GreenMeansPassed zipFlags (smoothCalls unitTests) (fun _ => bazelExits 1 false) := by
  have green : (deploy zipFlags (smoothCalls unitTests) (fun _ => bazelExits 1 false)).2 =
      .returned none := by decide +kernel
  refine ⟨green, ?_⟩
  intro passed
  have truthful := passed.2 _ _ prepare_unitTests
  have passes : runBazelTest ⟨ascii "/tmp/sut1", ascii "sut1"⟩ (bazelExits 1 false)
      ⟨[ascii "//..."]⟩ (ascii "unit") = some (0, none) :=
    (truthful.green green).2 0 _ (by decide) rfl
  exact absurd passes (by decide +kernel)

end EzSdk.Deploy
