import EzSdk.Devkit.MinimalMounts

/-! The volumes with which `docker_run.py` starts the container: whether the entries of the home
directory of the host are in the home directory of the container. -/

namespace EzSdk.Devkit

open LexicalPaths hiding Part Path
open FileTrees Coverings

/-! ### The mounts that are requested -/

section Requested

variable {tree : FileTree FileName} (scandir : Scandir tree) (resolve : PurePath → List FileName)

/-- `all_paths` of `get_minimal_mounts`. -/
def allPaths (fuel : Nat) (rootDir : PurePath) (existingMounts : List PurePath) :
    Option (List PurePath) := do
  let symlinkPaths ← listExternalMounts scandir resolve fuel rootDir
  let physical := if isSymlink tree rootDir then [.ofNames (resolve rootDir)] else []
  let existingPaths := existingMounts ++ existingMounts.map (fun path => .ofNames (resolve path))
  return symlinkPaths ++ (existingPaths ++ physical)

def getMinimalMounts (fuel : Nat) (rootDir : PurePath) (existingMounts : List PurePath) :
    Option (List PurePath) :=
  (allPaths scandir resolve fuel rootDir existingMounts).map minimizePaths

end Requested

def homeFiles : List (List FileName) := [[⟨".gitconfig".toList, by decide⟩]]

def homeDirs : List (List FileName) := [
  [⟨".cache".toList, by decide⟩, ⟨"bazel".toList, by decide⟩],
  [⟨".cache".toList, by decide⟩, ⟨"bazelisk".toList, by decide⟩],
  [⟨".cache".toList, by decide⟩, ⟨"buf".toList, by decide⟩],
  [⟨".cache".toList, by decide⟩, ⟨"go-build".toList, by decide⟩],
  [⟨".cache".toList, by decide⟩, ⟨"nvim".toList, by decide⟩],
  [⟨".cache".toList, by decide⟩, ⟨"pip".toList, by decide⟩],
  [⟨".cache".toList, by decide⟩, ⟨"pip-tools".toList, by decide⟩],
  [⟨".cache".toList, by decide⟩, ⟨"pre-commit".toList, by decide⟩],
  [⟨".cache".toList, by decide⟩, ⟨"pylint".toList, by decide⟩],
  [⟨".config".toList, by decide⟩, ⟨"gcloud".toList, by decide⟩],
  [⟨".config".toList, by decide⟩, ⟨"google-chrome".toList, by decide⟩],
  [⟨".config".toList, by decide⟩, ⟨"matplotlib".toList, by decide⟩],
  [⟨".devkit".toList, by decide⟩, ⟨"logs".toList, by decide⟩],
  [⟨".docker".toList, by decide⟩],
  [⟨".gemini".toList, by decide⟩],
  [⟨".local".toList, by decide⟩, ⟨"pre-commit".toList, by decide⟩],
  [⟨".local".toList, by decide⟩, ⟨"share".toList, by decide⟩, ⟨"nvim".toList, by decide⟩],
  [⟨".local".toList, by decide⟩, ⟨"state".toList, by decide⟩],
  [⟨".npm".toList, by decide⟩],
  [⟨".vim".toList, by decide⟩]]

def dockerSock : PurePath :=
  .ofNames [⟨"var".toList, by decide⟩, ⟨"run".toList, by decide⟩, ⟨"docker.sock".toList, by decide⟩]

def systemBusSocket : PurePath :=
  .ofNames [⟨"run".toList, by decide⟩, ⟨"dbus".toList, by decide⟩, ⟨"system_bus_socket".toList, by decide⟩]

def etcGitconfig : PurePath := .ofNames [⟨"etc".toList, by decide⟩, ⟨"gitconfig".toList, by decide⟩]

def sessionBusSocket (userId : FileName) : PurePath :=
  .ofNames [⟨"run".toList, by decide⟩, ⟨"user".toList, by decide⟩, userId, ⟨"bus".toList, by decide⟩]

/-- What `main` gets from the environment variables, where an empty one is not set, and from the
system. -/
structure Environment where
  devkitHostProjectRoot : Option PurePath
  devkitContainerProjectRoot : Option PurePath
  devkitCommandProjectRoot : Option PurePath
  devkitHostHome : Option PurePath
  devkitCommandHome : Option PurePath
  devkitContainerHome : Option PurePath
  devkitHostTmpDir : Option PurePath
  devkitContainerTmpDir : Option PurePath
  projectRoot : PurePath
  home : PurePath
  tmpdir : PurePath
  userId : FileName
  gitDir : Option PurePath
  cwd : PurePath

def pathFromEnv (value : Option PurePath) (default : PurePath) : PurePath := value.getD default

namespace Environment

variable (env : Environment)

def hostProjectRoot : PurePath := pathFromEnv env.devkitHostProjectRoot env.projectRoot
def containerProjectRoot : PurePath := pathFromEnv env.devkitContainerProjectRoot env.hostProjectRoot
def commandProjectRoot : PurePath := pathFromEnv env.devkitCommandProjectRoot env.hostProjectRoot
def hostHome : PurePath := pathFromEnv env.devkitHostHome env.home
def commandHome : PurePath := pathFromEnv env.devkitCommandHome env.hostHome
def containerHome : PurePath := pathFromEnv env.devkitContainerHome env.hostHome
def hostTmpDir : PurePath := pathFromEnv env.devkitHostTmpDir env.tmpdir
def containerTmpDir : PurePath := pathFromEnv env.devkitContainerTmpDir env.hostTmpDir

/-- The git directory, if it is not in the working directory. -/
def outOfTreeGitDir : List PurePath :=
  match env.gitDir with
  | some gitDir => if gitDir.isRelativeTo env.cwd then [] else [gitDir]
  | none => []

/-- `mounts`, for the file tree in which the home directories have been made. -/
def mounts (tree : FileTree FileName) : List PurePath :=
  [dockerSock, systemBusSocket] ++ (if pathExists tree etcGitconfig then [etcGitconfig] else []) ++
    [sessionBusSocket env.userId] ++ (homeDirs ++ homeFiles).map env.commandHome.descend ++
    env.outOfTreeGitDir

end Environment

/-! ### The volumes -/

/-- `path.relative_to(other)`. -/
def PurePath.relativeTo (path other : PurePath) : PurePath :=
  ⟨.relative, path.parts.drop other.parts.length, fun member => path.moves (List.mem_of_mem_drop member)⟩

/-- A directory of the host and where it is in the container. -/
structure Volume where
  host : PurePath
  container : PurePath

/-- The volume for a minimal mount. -/
def mountVolume (env : Environment) (path : PurePath) : Volume :=
  if path.isRelativeTo env.commandHome then
    ⟨env.hostHome.join (path.relativeTo env.commandHome),
      env.containerHome.join (path.relativeTo env.commandHome)⟩
  else ⟨path, path⟩

def projectVolume (env : Environment) : Volume := ⟨env.hostProjectRoot, env.containerProjectRoot⟩

def tmpVolume (env : Environment) : Volume := ⟨env.hostTmpDir, env.containerTmpDir⟩

/-- The volumes in the order of `docker_cmd`, for the minimal mounts. -/
def volumesFor (env : Environment) (minimalMounts : List PurePath) : List Volume :=
  [projectVolume env] ++ minimalMounts.map (mountVolume env) ++ [tmpVolume env]

def dockerVolumes {tree : FileTree FileName} (scandir : Scandir tree)
    (resolve : PurePath → List FileName) (fuel : Nat) (env : Environment) : Option (List Volume) :=
  (getMinimalMounts scandir resolve fuel env.commandProjectRoot (env.mounts tree)).map (volumesFor env)

/-! ### What the container sees -/

/-- What is left of a path below an ancestor. -/
def Rest (path ancestor : PurePath) (suffix : Steps FileName) : Prop :=
  path.root = ancestor.root ∧ path.parts = ancestor.parts ++ suffix

/-- Through the volume, the entry in the home of the container is the entry in the home of the
host. -/
def Shows (env : Environment) (volume : Volume) (entry : List FileName) : Prop :=
  ∃ suffix, Rest (env.hostHome.descend entry) volume.host suffix ∧
    Rest (env.containerHome.descend entry) volume.container suffix

theorem le_iff_rest {ancestor path : PurePath} : ancestor ≤ path ↔ ∃ suffix, Rest path ancestor suffix := by
  rw [PurePath.le_iff, PurePath.isRelativeTo_iff]
  constructor
  · rintro ⟨root, suffix, same⟩
    exact ⟨suffix, root, same.symm⟩
  · rintro ⟨suffix, root, same⟩
    exact ⟨root, suffix, same.symm⟩

theorem descend_injective {path other : PurePath} {names : List FileName}
    (same : path.descend names = other.descend names) : path = other := by
  have root : (path.descend names).root = (other.descend names).root := congrArg PurePath.root same
  have parts : path.parts ++ names.map .name = other.parts ++ names.map .name :=
    congrArg PurePath.parts same
  exact PurePath.ext root (List.append_cancel_right parts)

/-- The ancestors of a path are ancestors of each other. -/
theorem ancestors_comparable {first second path : PurePath} (above : first ≤ path)
    (alsoAbove : second ≤ path) : first ≤ second ∨ second ≤ first := by
  rw [PurePath.le_iff, PurePath.isRelativeTo_iff] at above alsoAbove
  rcases List.prefix_or_prefix_of_prefix above.2 alsoAbove.2 with shorter | longer
  · exact .inl (PurePath.isRelativeTo_iff.mpr ⟨alsoAbove.1.symm.trans above.1, shorter⟩)
  · exact .inr (PurePath.isRelativeTo_iff.mpr ⟨above.1.symm.trans alsoAbove.1, longer⟩)

theorem le_descend (path : PurePath) (names : List FileName) : path ≤ path.descend names :=
  le_iff_rest.mpr ⟨names.map .name, rfl, rfl⟩

theorem shows_same_iff {env : Environment} {path : PurePath} {entry : List FileName} :
    Shows env ⟨path, path⟩ entry ↔
      env.hostHome = env.containerHome ∧ path ≤ env.hostHome.descend entry := by
  constructor
  · rintro ⟨suffix, host, container⟩
    have same : env.hostHome.descend entry = env.containerHome.descend entry :=
      PurePath.ext (host.1.trans container.1.symm) (host.2.trans container.2.symm)
    exact ⟨descend_injective same, le_iff_rest.mpr ⟨suffix, host⟩⟩
  · rintro ⟨same, below⟩
    obtain ⟨suffix, rest⟩ := le_iff_rest.mp below
    exact ⟨suffix, rest, same ▸ rest⟩

theorem shows_of_home_mount {env : Environment} {path : PurePath} {entry : List FileName}
    (inHome : env.commandHome ≤ path) (below : path ≤ env.commandHome.descend entry) :
    Shows env (mountVolume env path) entry := by
  obtain ⟨inner, homeRoot, homeParts⟩ := le_iff_rest.mp inHome
  obtain ⟨suffix, _, entryParts⟩ := le_iff_rest.mp below
  have entrySteps : entry.map .name = inner ++ suffix := by
    have parts : env.commandHome.parts ++ entry.map .name = env.commandHome.parts ++ (inner ++ suffix) := by
      rw [← List.append_assoc, ← homeParts]
      exact entryParts
    exact List.append_cancel_left parts
  have innerSteps : (path.relativeTo env.commandHome).parts = inner := by
    show path.parts.drop env.commandHome.parts.length = inner
    rw [homeParts, List.drop_left]
  have translated (home : PurePath) :
      Rest (home.descend entry) (home.join (path.relativeTo env.commandHome)) suffix := by
    constructor
    · rfl
    · show home.parts ++ entry.map .name = home.parts ++ (path.relativeTo env.commandHome).parts ++ suffix
      rw [entrySteps, innerSteps, List.append_assoc]
  rw [mountVolume, if_pos (PurePath.le_iff.mp inHome)]
  exact ⟨suffix, translated _, translated _⟩

/-! ### When the entries are shown -/

section Minimal

variable {env : Environment} {requested : List PurePath} {entry : List FileName}

/-- No ancestor of the home of the command is requested: then the entry has a mount in it. -/
theorem shows_of_no_ancestor (member : env.commandHome.descend entry ∈ requested)
    (none_above : ∀ path ∈ requested, ¬ path < env.commandHome) :
    ∃ path ∈ minimizePaths requested, Shows env (mountVolume env path) entry := by
  have cover := minimizePaths_cover requested
  obtain ⟨path, kept, below⟩ := cover.covers _ member
  refine ⟨path, kept, shows_of_home_mount ?_ below⟩
  rcases ancestors_comparable below (le_descend env.commandHome entry) with above | inHome
  · rcases above.lt_or_eq with strict | same
    · exact absurd strict (none_above path (cover.subset kept))
    · exact same.symm.le
  · exact inHome

theorem mountVolume_of_ancestor (above : ∃ path ∈ requested, path < env.commandHome) {path : PurePath}
    (kept : path ∈ minimizePaths requested) : mountVolume env path = ⟨path, path⟩ := by
  have cover := minimizePaths_cover requested
  obtain ⟨ancestor, member, strict⟩ := above
  obtain ⟨lowest, alsoKept, below⟩ := cover.covers ancestor member
  have outside : ¬ path.isRelativeTo env.commandHome = true := by
    intro inHome
    have belowPath : lowest < path := lt_of_lt_of_le (lt_of_le_of_lt below strict) inHome
    exact belowPath.ne (cover.antichain.eq alsoKept kept belowPath.le)
  rw [mountVolume, if_neg outside]

theorem mount_shows_iff (member : env.commandHome.descend entry ∈ requested) :
    (∃ path ∈ minimizePaths requested, Shows env (mountVolume env path) entry) ↔
      (∀ path ∈ requested, ¬ path < env.commandHome) ∨
        env.hostHome = env.containerHome ∧ ∃ path ∈ requested, path ≤ env.hostHome.descend entry := by
  have cover := minimizePaths_cover requested
  by_cases above : ∃ path ∈ requested, path < env.commandHome
  · have someAbove : ¬ ∀ path ∈ requested, ¬ path < env.commandHome := by
      obtain ⟨path, inside, strict⟩ := above
      exact fun all => all path inside strict
    rw [or_iff_right someAbove]
    constructor
    · rintro ⟨path, kept, shows⟩
      rw [mountVolume_of_ancestor above kept, shows_same_iff] at shows
      exact ⟨shows.1, path, cover.subset kept, shows.2⟩
    · rintro ⟨same, path, inside, below⟩
      obtain ⟨lowest, kept, belowPath⟩ := cover.covers path inside
      refine ⟨lowest, kept, ?_⟩
      rw [mountVolume_of_ancestor above kept, shows_same_iff]
      exact ⟨same, belowPath.trans below⟩
  · have noneAbove : ∀ path ∈ requested, ¬ path < env.commandHome := fun path inside strict =>
      above ⟨path, inside, strict⟩
    exact iff_of_true (shows_of_no_ancestor member noneAbove) (.inl noneAbove)

theorem volumesFor_shows_iff (member : env.commandHome.descend entry ∈ requested) :
    (∃ volume ∈ volumesFor env (minimizePaths requested), Shows env volume entry) ↔
      (∀ path ∈ requested, ¬ path < env.commandHome) ∨
        (env.hostHome = env.containerHome ∧ ∃ path ∈ requested, path ≤ env.hostHome.descend entry) ∨
          Shows env (projectVolume env) entry ∨ Shows env (tmpVolume env) entry := by
  rw [← or_assoc, ← mount_shows_iff member]
  simp only [volumesFor, List.mem_append, List.mem_singleton, List.mem_map]
  constructor
  · rintro ⟨volume, (rfl | ⟨path, kept, rfl⟩) | rfl, shows⟩
    · exact .inr (.inl shows)
    · exact .inl ⟨path, kept, shows⟩
    · exact .inr (.inr shows)
  · rintro (⟨path, kept, shows⟩ | shows | shows)
    · exact ⟨_, .inl (.inr ⟨path, kept, rfl⟩), shows⟩
    · exact ⟨_, .inl (.inl rfl), shows⟩
    · exact ⟨_, .inr rfl, shows⟩

end Minimal

theorem entry_mem_allPaths {tree : FileTree FileName} {scandir : Scandir tree}
    {resolve : PurePath → List FileName} {fuel : Nat} {env : Environment} {requested : List PurePath}
    (all : allPaths scandir resolve fuel env.commandProjectRoot (env.mounts tree) = some requested)
    {entry : List FileName} (member : entry ∈ homeDirs ++ homeFiles) :
    env.commandHome.descend entry ∈ requested := by
  have mounted : env.commandHome.descend entry ∈ env.mounts tree := by
    rw [Environment.mounts]
    exact List.mem_append_left _ (List.mem_append_right _ (List.mem_map_of_mem member))
  unfold allPaths at all
  obtain ⟨symlinkPaths, _, same⟩ := Option.bind_eq_some_iff.mp all
  cases Option.some.inj same
  exact List.mem_append_right _ (List.mem_append_left _ (List.mem_append_left _ mounted))

/-- All entries of the home of the host are in the home of the container exactly when, for each
entry, no ancestor of the home of the command is to be mounted, or the homes of host and container
are the same path and something is mounted there for the entry, or the volume of the project or of
the temporary directory shows it. -/
theorem home_entries_shown_iff (tree : FileTree FileName) (resolve : PurePath → List FileName)
    (env : Environment) :
    ∃ bound, ∀ (scandir : Scandir tree) (fuel : Nat), bound ≤ fuel → ∃ requested volumes,
      allPaths scandir resolve fuel env.commandProjectRoot (env.mounts tree) = some requested ∧
      dockerVolumes scandir resolve fuel env = some volumes ∧
      ((∀ entry ∈ homeDirs ++ homeFiles, ∃ volume ∈ volumes, Shows env volume entry) ↔
        ∀ entry ∈ homeDirs ++ homeFiles,
          (∀ path ∈ requested, ¬ path < env.commandHome) ∨
          (env.hostHome = env.containerHome ∧ ∃ path ∈ requested, path ≤ env.hostHome.descend entry) ∨
          Shows env (projectVolume env) entry ∨ Shows env (tmpVolume env) entry) := by
  refine ⟨scanFuel tree, ?_⟩
  intro scandir fuel enough
  obtain ⟨symlinkPaths, scanned, _⟩ := scan_isLeast scandir enough resolve env.commandProjectRoot
  obtain ⟨requested, all⟩ : ∃ requested,
      allPaths scandir resolve fuel env.commandProjectRoot (env.mounts tree) = some requested := by
    rw [allPaths, scanned]
    exact ⟨_, rfl⟩
  refine ⟨requested, volumesFor env (minimizePaths requested), all, ?_, ?_⟩
  · rw [dockerVolumes, getMinimalMounts, all]
    rfl
  · apply forall₂_congr
    intro entry member
    exact volumesFor_shows_iff (entry_mem_allPaths all member)

/-! ### A link to the parent of the home -/

namespace LinkedHome

def work : FileName := ⟨"work".toList, by decide⟩
def link : FileName := ⟨"homes".toList, by decide⟩
def home : FileName := ⟨"home".toList, by decide⟩
def host : FileName := ⟨"host".toList, by decide⟩
def dev : FileName := ⟨"dev".toList, by decide⟩

/-- The project `/work` has a link to `/home`, in which the home of the command is. -/
def homeTree : FileTree FileName where
  table := [([work], .directory), ([work, link], .link ⟨.slash, [.name home]⟩), ([home], .directory),
    ([home, dev], .directory)]
  linkLimit := 40
  parents := by decide

/-- The home is `/host/dev` on the host and `/home/dev` for the command and in the container. -/
def env : Environment where
  devkitHostProjectRoot := none
  devkitContainerProjectRoot := none
  devkitCommandProjectRoot := none
  devkitHostHome := some (.ofNames [host, dev])
  devkitCommandHome := some (.ofNames [home, dev])
  devkitContainerHome := some (.ofNames [home, dev])
  devkitHostTmpDir := none
  devkitContainerTmpDir := none
  projectRoot := .ofNames [work]
  home := .ofNames [host, dev]
  tmpdir := .ofNames [⟨"tmp".toList, by decide⟩]
  userId := ⟨"1000".toList, by decide⟩
  gitDir := none
  cwd := .ofNames [work]

/-- No requested path has a link on its way. -/
def resolved (path : PurePath) : List FileName := lexical path.parts

end LinkedHome

open LinkedHome in
/-- The mount for the link is `/home`, and takes the place of all mounts in the home. It has the
same path in the container, so that no entry there is that of the home of the host. -/
theorem linked_home_not_shown :
    ∃ volumes, dockerVolumes (.inTableOrder homeTree) resolved 50 LinkedHome.env = some volumes ∧
      ∀ entry ∈ homeDirs ++ homeFiles, ¬ ∃ volume ∈ volumes, Shows LinkedHome.env volume entry := by
  have scanned : listExternalMounts (.inTableOrder homeTree) resolved 50
      LinkedHome.env.commandProjectRoot = some [.ofNames [home]] := by
    decide +kernel
  obtain ⟨requested, all, linked⟩ : ∃ requested,
      allPaths (.inTableOrder homeTree) resolved 50 LinkedHome.env.commandProjectRoot
        (LinkedHome.env.mounts homeTree) = some requested ∧ .ofNames [home] ∈ requested := by
    rw [allPaths, scanned]
    exact ⟨_, rfl, List.mem_cons_self⟩
  refine ⟨volumesFor LinkedHome.env (minimizePaths requested), ?_, ?_⟩
  · rw [dockerVolumes, getMinimalMounts, all]
    rfl
  · intro entry member
    rw [volumesFor_shows_iff (entry_mem_allPaths all member)]
    have elsewhere {volume : Volume} {name : FileName} {rest : Steps FileName} (other : host ≠ name)
        (parts : volume.host.parts = .name name :: rest) : ¬ Shows LinkedHome.env volume entry := by
      rintro ⟨suffix, ⟨_, same⟩, _⟩
      rw [parts] at same
      exact other (LexicalPaths.Part.name.inj (List.cons.inj same).1)
    rintro (noneAbove | ⟨sameHome, _⟩ | shows | shows)
    · exact noneAbove _ linked (lt_of_le_of_ne (by decide +kernel) (by decide +kernel))
    · exact absurd sameHome (by decide +kernel)
    · exact elsewhere (by decide) rfl shows
    · exact elsewhere (by decide) rfl shows

end EzSdk.Devkit
