import EzSdk.Devkit.BuildImages

/-! What docker is taken to do with its images and a registry, and what `manage_docker_image` of
`docker/build.py` does to them. -/

namespace EzSdk.Devkit

open Memoised Postconditions Scripts

/-! ### Docker -/

/-- The tags that docker has, and those that the registry has. -/
structure Images where
  here : List Str
  registry : List Str

/-- The tag that docker may newly have after the command. -/
def DockerCommand.broughtTag : DockerCommand → Option Str
  | .imageInspect _ => none
  | .manifestInspect _ => none
  | .pull tag => some tag
  | .push _ => none
  | .build command => some command.tag

/-- What docker is taken to do, with the images that it and the registry have after the commands.
A command that succeeds has done its work, and none removes an image; whether a build or what needs
the network succeeds is left open. -/
structure KeepsImages (host : DockerHost) (images : List DockerCommand → Images) : Prop where
  inspects : ∀ commands tag, host commands (.imageInspect tag) = some 0 ↔ tag ∈ (images commands).here
  inspected : ∀ commands tag, images (commands ++ [.imageInspect tag]) = images commands
  manifest : ∀ commands tag, host commands (.manifestInspect tag) = some 0 →
    tag ∈ (images commands).registry
  pulls : ∀ commands tag, host commands (.pull tag) = some 0 → tag ∈ (images commands).registry
  pulled : ∀ commands tag, host commands (.pull tag) = some 0 →
    tag ∈ (images (commands ++ [.pull tag])).here
  pushed : ∀ commands tag, host commands (.push tag) = some 0 →
    tag ∈ (images (commands ++ [.push tag])).registry
  built : ∀ commands command, host commands (.build command) = some 0 →
    command.tag ∈ (images (commands ++ [.build command])).here
  here : ∀ commands command, ∀ tag ∈ (images commands).here, tag ∈ (images (commands ++ [command])).here
  registry : ∀ commands command, ∀ tag ∈ (images commands).registry,
    tag ∈ (images (commands ++ [command])).registry
  brings : ∀ commands command, ∀ tag ∈ (images (commands ++ [command])).here,
    tag ∈ (images commands).here ∨ command.broughtTag = some tag

/-- Docker is not found, or does not build, or does not pull what the registry has. -/
def Fails (host : DockerHost) (images : List DockerCommand → Images) (commands : List DockerCommand) :
    DockerCommand → Prop
  | .imageInspect tag => host commands (.imageInspect tag) = none
  | .manifestInspect tag => host commands (.manifestInspect tag) = none
  | .pull tag => tag ∈ (images commands).registry ∧ host commands (.pull tag) ≠ some 0
  | .push tag => host commands (.push tag) = none
  | .build command => host commands (.build command) ≠ some 0

/-- Docker is found, and reaches the registry. -/
structure Reaches (host : DockerHost) (images : List DockerCommand → Images) : Prop where
  inspects : ∀ commands tag, host commands (.imageInspect tag) ≠ none
  manifest : ∀ commands, ∀ tag ∈ (images commands).registry,
    host commands (.manifestInspect tag) = some 0
  pulls : ∀ commands, ∀ tag ∈ (images commands).registry, host commands (.pull tag) = some 0

/-! ### A docker that keeps its images -/

namespace Images

/-- The exit status. An image that is not there cannot be moved; beyond that a build and what needs
the network may end in any way. -/
def status (images : Images) (attempt : Nat) : DockerCommand → Nat
  | .imageInspect tag => if images.here.contains tag then 0 else 1
  | .manifestInspect tag => if images.registry.contains tag then attempt else 1
  | .pull tag => if images.registry.contains tag then attempt else 1
  | .push tag => if images.here.contains tag then attempt else 1
  | .build _ => attempt

/-- What there is after a command that succeeds. -/
def add (images : Images) : DockerCommand → Images
  | .imageInspect _ => images
  | .manifestInspect _ => images
  | .pull tag => { images with here := tag :: images.here }
  | .push tag => { images with registry := tag :: images.registry }
  | .build command => { images with here := command.tag :: images.here }

end Images

/-- Docker as the first command finds it. -/
structure Docker where
  images : Images
  attempt : List DockerCommand → DockerCommand → Nat

namespace Docker

variable (docker : Docker)

def next (state : List DockerCommand × Images) (command : DockerCommand) :
    List DockerCommand × Images :=
  (state.1 ++ [command],
    if state.2.status (docker.attempt state.1 command) command = 0 then state.2.add command
    else state.2)

def after (commands : List DockerCommand) : Images := (commands.foldl docker.next ([], docker.images)).2

def host : DockerHost := fun commands command =>
  some ((docker.after commands).status (docker.attempt commands command) command)

theorem foldl_next_commands (commands : List DockerCommand) :
    ∀ state, (commands.foldl docker.next state).1 = state.1 ++ commands := by
  induction commands with
  | nil => simp
  | cons command commands ih => simp [ih, next]

theorem after_concat (commands : List DockerCommand) (command : DockerCommand) :
    docker.after (commands ++ [command]) =
      if docker.host commands command = some 0 then (docker.after commands).add command
      else docker.after commands := by
  have ran := docker.foldl_next_commands commands ([], docker.images)
  simp only [after, host, List.foldl_append, List.foldl_cons, List.foldl_nil, Option.some.injEq]
  simp only [next, ran, List.nil_append]

theorem keepsImages : KeepsImages docker.host docker.after where
  inspects commands tag := by simp [host, Images.status]
  inspected commands tag := by simp [after_concat, Images.add]
  manifest commands tag := by grind [host, Images.status]
  pulls commands tag := by grind [host, Images.status]
  pulled commands tag succeeded := by simp [after_concat, succeeded, Images.add]
  pushed commands tag succeeded := by simp [after_concat, succeeded, Images.add]
  built commands command succeeded := by simp [after_concat, succeeded, Images.add]
  here commands command tag present := by
    rw [after_concat]
    cases command <;> grind [Images.add]
  registry commands command tag present := by
    rw [after_concat]
    cases command <;> grind [Images.add]
  brings commands command tag present := by
    rw [after_concat] at present
    cases command <;> grind [Images.add, DockerCommand.broughtTag]

variable {docker} (succeed : ∀ commands command, docker.attempt commands command = 0)

include succeed

theorem not_fails (commands : List DockerCommand) (command : DockerCommand) :
    ¬ Fails docker.host docker.after commands command := by
  cases command <;> simp +contextual [Fails, host, Images.status, succeed]

theorem pushes (commands : List DockerCommand) (tag : Str) (here : tag ∈ (docker.after commands).here) :
    docker.host commands (.push tag) = some 0 := by
  simp [host, Images.status, here, succeed]

theorem reaches : Reaches docker.host docker.after where
  inspects commands tag := by simp [host]
  manifest commands tag inRegistry := by simp [host, Images.status, inRegistry, succeed]
  pulls commands tag inRegistry := by simp [host, Images.status, inRegistry, succeed]

end Docker

/-! ### A single image -/

section Manage

variable {host : DockerHost} {images : List DockerCommand → Images}
  {before stopped : List DockerCommand → Prop}

theorem ensures_succeeds {after : Bool → List DockerCommand → Prop} {command : DockerCommand}
    (yes : ∀ commands, before commands → host commands command = some 0 →
      after true (commands ++ [command]))
    (no : ∀ commands, before commands → host commands command ≠ some 0 →
      after false (commands ++ [command]))
    (missing : ∀ commands, before commands → host commands command = none →
      stopped (commands ++ [command])) :
    Ensures before (succeeds host command) after stopped := by
  intro commands holds
  rw [succeeds, perform_bind]
  cases answer : host commands command with
  | none => exact missing commands holds answer
  | some status =>
    cases status with
    | zero => exact yes commands holds answer
    | succ status => exact no commands holds (by simp [answer])

theorem ensures_checked {after : List DockerCommand → Prop} {command : DockerCommand}
    (leads : ∀ commands, before commands → host commands command = some 0 →
      after (commands ++ [command]))
    (stops : ∀ commands, before commands → host commands command ≠ some 0 →
      stopped (commands ++ [command])) :
    Ensures before (checked host command) (fun _ => after) stopped := by
  intro commands holds
  rw [checked, perform_bind]
  cases answer : host commands command with
  | none => exact stops commands holds (by simp [answer])
  | some status =>
    cases status with
    | zero => exact leads commands holds answer
    | succ status => exact stops commands holds (by simp [answer])

theorem ensures_unlessNoCache {after : Bool → List DockerCommand → Prop} {noCache : Bool}
    {check : DockerScript Bool} (skips : ∀ commands, before commands → after false commands)
    (checks : Ensures before check after stopped) :
    Ensures before (unlessNoCache noCache check) after stopped := by
  unfold unlessNoCache
  split
  · exact ensures_pure skips
  · exact checks

variable {tag repo : Str} {path : DockerfilePath} {buildArgsList buildArgs : List Str}
  {localMode noCache : Bool} (keeps : KeepsImages host images)

include keeps

/-- Afterwards the image is there. The turn fails only where docker does. -/
theorem manage_ensures {kept : List DockerCommand → Prop}
    (values : buildArgValues buildArgsList = some buildArgs)
    (stable : ∀ commands command,
      Concerns ⟨tag, path, noCache, buildArgs⟩ (repo ≠ [] ∧ localMode = false) command →
        kept commands → kept (commands ++ [command]))
    (fails : ∀ commands command,
      Concerns ⟨tag, path, noCache, buildArgs⟩ (repo ≠ [] ∧ localMode = false) command →
        Fails host images commands command → kept commands → stopped (commands ++ [command])) :
    Ensures kept (manageDockerImage host tag path buildArgsList localMode noCache repo)
      (fun _ later => kept later ∧ tag ∈ (images later).here) stopped := by
  have looks : Ensures kept (unlessNoCache noCache (succeeds host (.imageInspect tag)))
      (fun found later => kept later ∧ (found = true → tag ∈ (images later).here)) stopped := by
    apply ensures_unlessNoCache
    · exact fun commands holds => ⟨holds, nofun⟩
    · apply ensures_succeeds
      · intro commands holds found
        have present := keeps.here commands (.imageInspect tag) tag ((keeps.inspects commands tag).mp found)
        exact ⟨stable commands _ rfl holds, fun _ => present⟩
      · exact fun commands holds _ => ⟨stable commands _ rfl holds, nofun⟩
      · exact fun commands holds missing => fails commands (.imageInspect tag) rfl missing holds
  have builds : Ensures kept (buildImage host tag path buildArgsList noCache)
      (fun _ later => kept later ∧ tag ∈ (images later).here) stopped := by
    unfold buildImage
    rw [values]
    apply ensures_checked
    · exact fun commands holds succeeded => ⟨stable commands _ rfl holds, keeps.built commands _ succeeded⟩
    · exact fun commands holds failed => fails commands (.build _) rfl failed holds
  apply ensures_bind looks
  intro existsLocally
  split
  · rename_i found
    exact ensures_pure (fun _ holds => ⟨holds.1, holds.2 found⟩)
  · split
    · exact ensures_mono builds (fun _ holds => holds.1) (fun _ _ holds => holds)
    · rename_i notLocal
      have remote : repo ≠ [] ∧ localMode = false := by simpa using notLocal
      have asks : Ensures (fun commands => kept commands ∧
            (existsLocally = true → tag ∈ (images commands).here))
          (unlessNoCache noCache (succeeds host (.manifestInspect tag)))
          (fun found later => kept later ∧ (found = true → tag ∈ (images later).registry)) stopped := by
        apply ensures_unlessNoCache
        · exact fun commands holds => ⟨holds.1, nofun⟩
        · apply ensures_succeeds
          · intro commands holds found
            refine ⟨stable commands (.manifestInspect tag) ⟨rfl, remote⟩ holds.1, fun _ => ?_⟩
            exact keeps.registry commands _ tag (keeps.manifest commands tag found)
          · exact fun commands holds _ =>
              ⟨stable commands (.manifestInspect tag) ⟨rfl, remote⟩ holds.1, nofun⟩
          · exact fun commands holds missing =>
              fails commands (.manifestInspect tag) ⟨rfl, remote⟩ missing holds.1
      apply ensures_bind asks
      intro existsRemotely
      split
      · rename_i found
        apply ensures_checked
        · exact fun commands holds succeeded =>
            ⟨stable commands (.pull tag) ⟨rfl, remote⟩ holds.1, keeps.pulled commands tag succeeded⟩
        · exact fun commands holds failed =>
            fails commands (.pull tag) ⟨rfl, remote⟩ ⟨holds.2 found, failed⟩ holds.1
      · apply ensures_bind (ensures_mono builds (fun _ holds => holds.1) (fun _ _ holds => holds))
        intro _
        have pushes : Ensures (fun commands => kept commands ∧ tag ∈ (images commands).here)
            (succeeds host (.push tag))
            (fun _ later => kept later ∧ tag ∈ (images later).here) stopped := by
          have moved : ∀ commands, kept commands ∧ tag ∈ (images commands).here →
              kept (commands ++ [.push tag]) ∧ tag ∈ (images (commands ++ [.push tag])).here :=
            fun commands holds => ⟨stable commands (.push tag) ⟨rfl, remote⟩ holds.1,
              keeps.here commands _ tag holds.2⟩
          apply ensures_succeeds
          · exact fun commands holds _ => moved commands holds
          · exact fun commands holds _ => moved commands holds
          · exact fun commands holds missing => fails commands (.push tag) ⟨rfl, remote⟩ missing holds.1
        apply ensures_bind pushes
        intro _
        exact ensures_pure (fun _ holds => holds)

theorem manage_found (kept : List DockerCommand → Prop)
    (stable : ∀ commands, kept commands → kept (commands ++ [.imageInspect tag])) :
    Ensures (fun commands => kept commands ∧ tag ∈ (images commands).here)
      (manageDockerImage host tag path buildArgsList localMode false repo)
      (fun _ later => kept later) stopped := by
  have looks : Ensures (fun commands => kept commands ∧ tag ∈ (images commands).here)
      (unlessNoCache false (succeeds host (.imageInspect tag)))
      (fun found later => kept later ∧ found = true) stopped := by
    apply ensures_succeeds
    · exact fun commands holds _ => ⟨stable commands holds.1, rfl⟩
    · exact fun commands holds unseen => absurd ((keeps.inspects commands tag).mpr holds.2) unseen
    · intro commands holds missing
      rw [(keeps.inspects commands tag).mpr holds.2] at missing
      cases missing
  apply ensures_bind looks
  intro existsLocally
  split
  · exact ensures_pure (fun _ holds => holds.1)
  · rename_i missing
    intro commands holds
    exact absurd holds.2 missing

/-- The commands that get an image without building it. -/
def Fetches (tag : Str) : DockerCommand → Prop
  | .imageInspect other => other = tag
  | .manifestInspect other => other = tag
  | .pull other => other = tag
  | .push _ => False
  | .build _ => False

/-- An image that the registry has is not built. -/
theorem manage_fetches (kept : List DockerCommand → Prop) (someRepo : repo ≠ [])
    (reaches : Reaches host images)
    (stable : ∀ commands command, Fetches tag command → kept commands → kept (commands ++ [command])) :
    Ensures (fun commands => kept commands ∧ tag ∈ (images commands).registry)
      (manageDockerImage host tag path buildArgsList false false repo)
      (fun _ later => kept later ∧ tag ∈ (images later).here) stopped := by
  have stays : ∀ command, Fetches tag command → ∀ commands,
      kept commands ∧ tag ∈ (images commands).registry →
        kept (commands ++ [command]) ∧ tag ∈ (images (commands ++ [command])).registry :=
    fun command fetches commands holds =>
      ⟨stable commands command fetches holds.1, keeps.registry commands command tag holds.2⟩
  have looks : Ensures (fun commands => kept commands ∧ tag ∈ (images commands).registry)
      (unlessNoCache false (succeeds host (.imageInspect tag)))
      (fun found later => (kept later ∧ tag ∈ (images later).registry) ∧
        (found = true → tag ∈ (images later).here)) stopped := by
    apply ensures_succeeds
    · intro commands holds found
      have present := keeps.here commands (.imageInspect tag) tag ((keeps.inspects commands tag).mp found)
      exact ⟨stays (.imageInspect tag) rfl commands holds, fun _ => present⟩
    · exact fun commands holds _ => ⟨stays (.imageInspect tag) rfl commands holds, nofun⟩
    · exact fun commands _ missing => absurd missing (reaches.inspects commands tag)
  have asks : Ensures (fun commands => kept commands ∧ tag ∈ (images commands).registry)
      (unlessNoCache false (succeeds host (.manifestInspect tag)))
      (fun found later => (kept later ∧ tag ∈ (images later).registry) ∧ found = true) stopped := by
    apply ensures_succeeds
    · exact fun commands holds _ => ⟨stays (.manifestInspect tag) rfl commands holds, rfl⟩
    · exact fun commands holds unseen => absurd (reaches.manifest commands tag holds.2) unseen
    · intro commands holds missing
      rw [reaches.manifest commands tag holds.2] at missing
      cases missing
  apply ensures_bind looks
  intro existsLocally
  split
  · rename_i found
    exact ensures_pure (fun _ holds => ⟨holds.1.1, holds.2 found⟩)
  · rw [if_neg (by simpa using someRepo)]
    apply ensures_bind (ensures_mono asks (fun _ holds => holds.1) (fun _ _ holds => holds))
    intro existsRemotely
    split
    · apply ensures_checked
      · exact fun commands holds succeeded =>
          ⟨stable commands (.pull tag) rfl holds.1.1, keeps.pulled commands tag succeeded⟩
      · exact fun commands holds failed => absurd (reaches.pulls commands tag holds.1.2) failed
    · rename_i missing
      intro commands holds
      exact absurd holds.2 missing

/-- The registry has those of the tags that docker has. -/
def Shared (images : List DockerCommand → Images) (tags : Str → Prop) (commands : List DockerCommand) :
    Prop :=
  ∀ tag, tags tag → tag ∈ (images commands).here → tag ∈ (images commands).registry

/-- A command that brings no image, or one that the registry has, leaves the images shared. -/
theorem shared_next {tags : Str → Prop} {commands : List DockerCommand}
    (shared : Shared images tags commands) (command : DockerCommand)
    (brought : ∀ tag, tags tag → command.broughtTag = some tag → tag ∈ (images commands).registry) :
    Shared images tags (commands ++ [command]) := by
  intro tag among present
  apply keeps.registry commands command tag
  rcases keeps.brings commands command tag present with old | new
  · exact shared tag among old
  · exact brought tag among new

/-- An image that is not kept local is shared, if it can be pushed. -/
theorem manage_shares {tags : Str → Prop} (values : buildArgValues buildArgsList = some buildArgs)
    (someRepo : repo ≠ [])
    (pushes : ∀ commands, tag ∈ (images commands).here → host commands (.push tag) = some 0) :
    Ensures (Shared images tags)
      (manageDockerImage host tag path buildArgsList false noCache repo)
      (fun _ => Shared images tags) (fun _ => True) := by
  have asks (command : DockerCommand) (brings : command.broughtTag = none) :
      Ensures (Shared images tags) (unlessNoCache noCache (succeeds host command))
        (fun _ => Shared images tags) (fun _ => True) := by
    have stays : ∀ commands, Shared images tags commands → Shared images tags (commands ++ [command]) :=
      fun commands shared => shared_next keeps shared command (fun tag _ brought => by
        rw [brings] at brought
        cases brought)
    apply ensures_unlessNoCache
    · exact fun _ holds => holds
    · exact ensures_succeeds (fun commands shared _ => stays commands shared)
        (fun commands shared _ => stays commands shared) (fun _ _ _ => trivial)
  -- between the build and the push, this one image may not be shared
  have builds : Ensures (Shared images tags) (buildImage host tag path buildArgsList noCache)
      (fun _ later => Shared images (fun other => tags other ∧ other ≠ tag) later ∧
        tag ∈ (images later).here) (fun _ => True) := by
    unfold buildImage
    rw [values]
    apply ensures_checked
    · intro commands shared succeeded
      refine ⟨?_, keeps.built commands _ succeeded⟩
      apply shared_next keeps (fun other among => shared other among.1)
      intro other among brought
      exact absurd (Option.some.inj brought).symm among.2
    · exact fun _ _ _ => trivial
  have pushing : Ensures (fun later => Shared images (fun other => tags other ∧ other ≠ tag) later ∧
        tag ∈ (images later).here) (succeeds host (.push tag))
      (fun _ => Shared images tags) (fun _ => True) := by
    apply ensures_succeeds
    · intro commands holds succeeded other among present
      by_cases same : other = tag
      · exact same ▸ keeps.pushed commands tag succeeded
      · exact shared_next keeps holds.1 (.push tag) nofun other ⟨among, same⟩ present
    · exact fun commands holds failed => absurd (pushes commands holds.2) failed
    · exact fun _ _ _ => trivial
  apply ensures_bind (asks (.imageInspect tag) rfl)
  intro existsLocally
  split
  · exact ensures_pure (fun _ holds => holds)
  · rw [if_neg (by simpa using someRepo)]
    apply ensures_bind (asks (.manifestInspect tag) rfl)
    intro existsRemotely
    split
    · apply ensures_checked
      · intro commands shared succeeded
        apply shared_next keeps shared
        intro other _ brought
        exact Option.some.inj brought ▸ keeps.pulls commands tag succeeded
      · exact fun _ _ _ => trivial
    · apply ensures_bind builds
      intro _
      apply ensures_bind pushing
      intro _
      exact ensures_pure (fun _ holds => holds)

end Manage

end EzSdk.Devkit
