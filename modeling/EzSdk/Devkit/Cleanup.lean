import EzSdk.Devkit.Images

/-! `docker_cleanup.py`: which images `cleanup_images` passes to `docker rmi`. -/

namespace EzSdk.Devkit

open Memoised Postconditions

/-- What `docker images` comes to: no two lines are the same; `failed` is an error that
`get_images` catches. -/
inductive Listing where
  | listed (images : List Str) (distinct : images.Nodup)
  | failed
  | raised (exception : Exception)

def getImages : Listing → Except Raised (List Str)
  | .listed images _ => .ok images
  | .failed => .ok []
  | .raised exception => raise exception

/-- The files, what the libraries do with them, and what docker lists for a prefix and an
age in days. -/
structure Project where
  display : Display
  digest : Digest
  sorter : Sorter
  configFile : JsonFile
  searchPaths : List ImageDir
  docker : Str → Int → Listing

namespace Project

variable (project : Project)

def allTags : Except Raised (List Str) :=
  getAllDockerImageTags project.display project.digest project.sorter project.configFile
    project.searchPaths

/-- `except Exception` also catches the errors in the configuration. -/
def getIgnoredImages : Except Raised (List Str) :=
  catching (fun _ => true) (.ok []) project.allTags

def listImages (thresholdDays : Int) : Except Raised (List Str) := do
  let imagePrefix ← getImagePrefix project.display project.configFile
  getImages (project.docker imagePrefix thresholdDays)

/-- `get_images_to_cleanup` from the listed images on. -/
def selectImages (allImages : List Str) : Except Raised (List Str) :=
  if allImages = [] then .ok []
  else if filterAllowedImages allImages = [] then .ok []
  else do
    let ignoredImages ← project.getIgnoredImages
    return (filterAllowedImages allImages).filter (!ignoredImages.contains ·)

def getImagesToCleanup (thresholdDays : Int) : Except Raised (List Str) := do
  project.selectImages (← project.listImages thresholdDays)

end Project

/-- When the event is found to be set: at the start, before and during the removal of the
image at a position, and after the batch that starts at a position. -/
structure Cancellation where
  initially : Bool
  before : Nat → Bool
  during : Nat → Bool
  afterBatch : Nat → Bool

/-- The images of a batch that are passed to `docker rmi`. -/
def cleanupImagesBatch (cancellation : Cancellation) : Nat → List Str → List Str
  | _, [] => []
  | position, tag :: tags =>
    if cancellation.before position then []
    else
      tag :: if cancellation.during position then []
        else cleanupImagesBatch cancellation (position + 1) tags

/-- `range(0, length, batch_size)` -/
def batchStarts (batchSize : Int) (length : Nat) : Except Raised (List Nat) :=
  match batchSize with
  | .ofNat 0 => raise (.valueError (py "range() arg 3 must not be zero"))
  | .ofNat (less + 1) => .ok (List.range' 0 ((length + less) / (less + 1)) (less + 1))
  | .negSucc _ => .ok []

def batch (images : List Str) (size start : Nat) : List Str := (images.drop start).take size

def cleanupBatches (cancellation : Cancellation) (images : List Str) (size : Nat) :
    List Nat → List Str
  | [] => []
  | start :: starts =>
    cleanupImagesBatch cancellation start (batch images size start) ++
      if cancellation.afterBatch start then []
      else cleanupBatches cancellation images size starts

/-- The images that are passed to `docker rmi`, and how the function ends. -/
def Project.cleanupImages (project : Project) (cancellation : Cancellation) (batchSize : Int)
    (thresholdDays : Int) : List Str × Except Raised Unit :=
  if cancellation.initially then ([], .ok ())
  else
    match project.getImagesToCleanup thresholdDays with
    | .error raised => ([], .error raised)
    | .ok allToCleanup =>
      match batchStarts batchSize allToCleanup.length with
      | .error raised => ([], .error raised)
      | .ok starts =>
        (cleanupBatches cancellation allToCleanup batchSize.toNat starts, .ok ())

section Batches

variable (cancellation : Cancellation)

theorem batch_sublist (position : Nat) (tags : List Str) :
    (cleanupImagesBatch cancellation position tags).Sublist tags := by
  induction tags generalizing position with
  | nil => exact .slnil
  | cons tag tags ih =>
    rw [cleanupImagesBatch]
    split
    · exact List.nil_sublist _
    · split
      · exact (List.nil_sublist tags).cons_cons tag
      · exact (ih (position + 1)).cons_cons tag

theorem batches_sublist (images : List Str) (size : Nat) (starts : List Nat) :
    (cleanupBatches cancellation images size starts).Sublist
      (starts.map (batch images size)).flatten := by
  induction starts with
  | nil => exact .slnil
  | cons start starts ih =>
    rw [cleanupBatches, List.map_cons, List.flatten_cons]
    apply (batch_sublist cancellation start _).append
    split
    · exact List.nil_sublist _
    · exact ih

/-- The event is never found to be set. -/
structure Cancellation.Never : Prop where
  initially : cancellation.initially = false
  before : ∀ position, cancellation.before position = false
  during : ∀ position, cancellation.during position = false
  afterBatch : ∀ start, cancellation.afterBatch start = false

def uncancelled : Cancellation := ⟨false, fun _ => false, fun _ => false, fun _ => false⟩

theorem uncancelled_never : uncancelled.Never :=
  ⟨rfl, fun _ => rfl, fun _ => rfl, fun _ => rfl⟩

variable {cancellation}

theorem batch_never (never : cancellation.Never) (position : Nat) (tags : List Str) :
    cleanupImagesBatch cancellation position tags = tags := by
  induction tags generalizing position with
  | nil => rfl
  | cons tag tags ih =>
    simp [cleanupImagesBatch, never.before position, never.during position, ih]

theorem batches_never (never : cancellation.Never) (images : List Str) (size : Nat)
    (starts : List Nat) :
    cleanupBatches cancellation images size starts = (starts.map (batch images size)).flatten := by
  induction starts with
  | nil => rfl
  | cons start starts ih =>
    simp [cleanupBatches, batch_never never, never.afterBatch start, ih]

theorem batches_take (images : List Str) (size count : Nat) :
    ((List.range' 0 count size).map (batch images size)).flatten = images.take (size * count) := by
  induction count with
  | zero => simp
  | succ count ih =>
    rw [List.range'_concat, List.map_append, List.flatten_append, ih, Nat.mul_succ, List.take_add]
    simp [batch]

/-- The batches are the whole list, in order. -/
theorem batches_flatten (images : List Str) {batchSize : Int} (positive : 1 ≤ batchSize) :
    ∃ starts, batchStarts batchSize images.length = .ok starts ∧
      (starts.map (batch images batchSize.toNat)).flatten = images := by
  obtain ⟨less, rfl⟩ : ∃ less : Nat, batchSize = .ofNat (less + 1) :=
    ⟨(batchSize - 1).toNat, by rw [Int.ofNat_eq_natCast]; omega⟩
  refine ⟨_, rfl, ?_⟩
  have covers : images.length ≤ (less + 1) * ((images.length + less) / (less + 1)) := by
    have whole := Nat.div_add_mod (images.length + less) (less + 1)
    have remainder := Nat.mod_lt (images.length + less) (by omega : 0 < less + 1)
    omega
  rw [show (Int.ofNat (less + 1)).toNat = less + 1 from rfl, batches_take,
    List.take_of_length_le covers]

end Batches

namespace Project

variable (project : Project)

/-- The image is the tag of some image of the configuration, calculated on its own. -/
def Current (image : Str) : Prop :=
  ∃ builder, newDockerBuilder project.display project.configFile project.searchPaths =
      .ok builder ∧
    ∃ name limit table,
      builder.calculateTagForImage project.digest limit (some name) ∅ = .ok (image, table)

/-- The images that docker lists, where it is asked. -/
def Lists (thresholdDays : Int) (image : Str) : Prop :=
  ∃ images, project.listImages thresholdDays = .ok images ∧ image ∈ images

theorem listImages_nodup {thresholdDays : Int} {images : List Str}
    (listed : project.listImages thresholdDays = .ok images) : images.Nodup := by
  obtain ⟨imagePrefix, _, asked⟩ := bind_ok_iff.mp listed
  cases docker : project.docker imagePrefix thresholdDays with
  | listed lines distinct =>
    rw [docker] at asked
    cases asked
    exact distinct
  | failed =>
    rw [docker] at asked
    cases asked
    exact List.nodup_nil
  | raised exception =>
    rw [docker] at asked
    cases asked

/-- The candidates are the listed images that may be removed and are not ignored. -/
theorem selectImages_ok {images candidates : List Str}
    (ok : project.selectImages images = .ok candidates) :
    candidates = [] ∨ ∃ ignored, project.getIgnoredImages = .ok ignored ∧
      candidates = (filterAllowedImages images).filter (!ignored.contains ·) := by
  rw [selectImages] at ok
  split at ok
  · cases ok
    exact .inl rfl
  · split at ok
    · cases ok
      exact .inl rfl
    · obtain ⟨ignored, computed, ⟨⟩⟩ := bind_ok_iff.mp ok
      exact .inr ⟨ignored, computed, rfl⟩

theorem selectImages_of_removable {images ignored : List Str} {image : Str}
    (member : image ∈ images) (removable : Removable image)
    (computed : project.getIgnoredImages = .ok ignored) :
    project.selectImages images = .ok ((filterAllowedImages images).filter (!ignored.contains ·)) := by
  have allowed := (mem_filterAllowedImages_iff images image).mpr ⟨member, removable⟩
  rw [selectImages, if_neg (List.ne_nil_of_mem member), if_neg (List.ne_nil_of_mem allowed),
    computed]
  rfl

theorem candidate_spec {thresholdDays : Int} {candidates : List Str}
    (ok : project.getImagesToCleanup thresholdDays = .ok candidates) {image : Str}
    (member : image ∈ candidates) :
    project.Lists thresholdDays image ∧ Removable image ∧
      ∃ ignored, project.getIgnoredImages = .ok ignored ∧ image ∉ ignored := by
  obtain ⟨images, listed, selected⟩ := bind_ok_iff.mp ok
  rcases project.selectImages_ok selected with rfl | ⟨ignored, computed, rfl⟩
  · cases member
  · obtain ⟨allowed, free⟩ := List.mem_filter.mp member
    obtain ⟨inImages, removable⟩ := (mem_filterAllowedImages_iff images image).mp allowed
    exact ⟨⟨images, listed, inImages⟩, removable, ignored, computed, by simpa using free⟩

theorem candidates_nodup {thresholdDays : Int} {candidates : List Str}
    (ok : project.getImagesToCleanup thresholdDays = .ok candidates) : candidates.Nodup := by
  obtain ⟨images, listed, selected⟩ := bind_ok_iff.mp ok
  rcases project.selectImages_ok selected with rfl | ⟨ignored, _, rfl⟩
  · exact List.nodup_nil
  · exact ((project.listImages_nodup listed).filter _).filter _

theorem candidate_of_listed {thresholdDays : Int} {image : Str} {ignored : List Str}
    (lists : project.Lists thresholdDays image) (removable : Removable image)
    (computed : project.getIgnoredImages = .ok ignored) (free : image ∉ ignored) :
    ∃ candidates, project.getImagesToCleanup thresholdDays = .ok candidates ∧
      image ∈ candidates := by
  obtain ⟨images, listed, member⟩ := lists
  refine ⟨(filterAllowedImages images).filter (!ignored.contains ·), ?_, ?_⟩
  · rw [getImagesToCleanup, listed]
    exact project.selectImages_of_removable member removable computed
  · have allowed := (mem_filterAllowedImages_iff images image).mpr ⟨member, removable⟩
    exact List.mem_filter.mpr ⟨allowed, by simpa using free⟩

theorem cleanupImages_sublist (cancellation : Cancellation) (batchSize thresholdDays : Int) :
    (project.cleanupImages cancellation batchSize thresholdDays).1 = [] ∨
      ∃ candidates, project.getImagesToCleanup thresholdDays = .ok candidates ∧
        (project.cleanupImages cancellation batchSize thresholdDays).1.Sublist candidates := by
  rw [cleanupImages]
  split
  · exact .inl rfl
  · cases selected : project.getImagesToCleanup thresholdDays with
    | error raised => exact .inl rfl
    | ok candidates =>
      by_cases positive : 1 ≤ batchSize
      · obtain ⟨starts, range, whole⟩ := batches_flatten candidates positive
        right
        refine ⟨candidates, rfl, ?_⟩
        have sublist := batches_sublist cancellation candidates batchSize.toNat starts
        rw [whole] at sublist
        simpa [range] using sublist
      · left
        match batchSize, positive with
        | .ofNat 0, _ => rfl
        | .ofNat (less + 1), notPositive =>
          exact absurd (Int.ofNat_le.mpr (Nat.succ_pos less)) notPositive
        | .negSucc less, _ => rfl

theorem cleanupImages_never {cancellation : Cancellation} (never : cancellation.Never)
    {batchSize thresholdDays : Int} (positive : 1 ≤ batchSize) {candidates : List Str}
    (selected : project.getImagesToCleanup thresholdDays = .ok candidates) :
    (project.cleanupImages cancellation batchSize thresholdDays).1 = candidates := by
  obtain ⟨starts, range, whole⟩ := batches_flatten candidates positive
  simp [cleanupImages, never.initially, selected, range, batches_never never, whole]

/-- No current image is passed to `docker rmi`, only images that may be removed are, each
candidate once at most, and without cancellation every candidate. -/
structure CleansSafely : Prop where
  keepsCurrent : ∀ cancellation batchSize thresholdDays,
    ∀ image ∈ (project.cleanupImages cancellation batchSize thresholdDays).1,
      ¬ project.Current image
  onlyRemovable : ∀ cancellation batchSize thresholdDays,
    ∀ image ∈ (project.cleanupImages cancellation batchSize thresholdDays).1, Removable image
  atMostOnce : ∀ cancellation batchSize thresholdDays, 1 ≤ batchSize → ∀ image,
    (project.cleanupImages cancellation batchSize thresholdDays).1.count image ≤ 1
  exactlyOnce : ∀ cancellation batchSize thresholdDays candidates, 1 ≤ batchSize →
    cancellation.Never → project.getImagesToCleanup thresholdDays = .ok candidates →
    ∀ image ∈ candidates,
      (project.cleanupImages cancellation batchSize thresholdDays).1.count image = 1

/-- The tags cannot be calculated, with an exception that is then caught. -/
def Unprotected : Prop :=
  TagsRaise project.display project.sorter project.configFile project.searchPaths

theorem passed_spec {cancellation : Cancellation} {batchSize thresholdDays : Int} {image : Str}
    (passed : image ∈ (project.cleanupImages cancellation batchSize thresholdDays).1) :
    project.Lists thresholdDays image ∧ Removable image ∧
      ∃ ignored, project.getIgnoredImages = .ok ignored ∧ image ∉ ignored := by
  rcases project.cleanupImages_sublist cancellation batchSize thresholdDays with
    nothing | ⟨candidates, selected, sublist⟩
  · rw [nothing] at passed
    cases passed
  · exact project.candidate_spec selected (sublist.subset passed)

theorem passed_nodup (cancellation : Cancellation) (batchSize thresholdDays : Int) :
    (project.cleanupImages cancellation batchSize thresholdDays).1.Nodup := by
  rcases project.cleanupImages_sublist cancellation batchSize thresholdDays with
    nothing | ⟨candidates, selected, sublist⟩
  · rw [nothing]
    exact List.nodup_nil
  · exact (project.candidates_nodup selected).sublist sublist

/-- A current image is ignored unless the calculation of the tags raises an exception. -/
theorem ignored_of_current {image : Str} {ignored : List Str} (current : project.Current image)
    (computed : project.getIgnoredImages = .ok ignored) : project.Unprotected ∨ image ∈ ignored := by
  obtain ⟨builder, loaded, name, limit, table, alone⟩ := current
  rw [getIgnoredImages] at computed
  cases calculated : project.allTags with
  | ok tags =>
    right
    rw [calculated] at computed
    cases computed
    have tags_ok : builder.calculateTags project.digest project.sorter = .ok ignored := by
      rw [allTags, getAllDockerImageTags, loaded] at calculated
      exact calculated
    exact mem_calculateTags project.digest tags_ok
      (memoised_sound limit sound_empty alone).1
  | error raised =>
    rw [calculated] at computed
    cases raised with
    | systemExit => cases computed
    | exception exception =>
      exact .inl ((tagsRaise_iff _ project.digest _ _ _).mpr ⟨exception, calculated⟩)

theorem passed_of_unprotected (unprotected : project.Unprotected) {thresholdDays : Int}
    {image : Str} (lists : project.Lists thresholdDays image) (removable : Removable image)
    {batchSize : Int} (positive : 1 ≤ batchSize) :
    image ∈ (project.cleanupImages uncancelled batchSize thresholdDays).1 := by
  obtain ⟨exception, raised⟩ := (tagsRaise_iff _ project.digest _ _ _).mp unprotected
  have computed : project.getIgnoredImages = .ok [] := by
    rw [getIgnoredImages, allTags, raised]
    rfl
  obtain ⟨candidates, selected, member⟩ :=
    project.candidate_of_listed lists removable computed List.not_mem_nil
  rw [project.cleanupImages_never uncancelled_never positive selected]
  exact member

theorem cleans_safely_iff :
    project.CleansSafely ↔
      (project.Unprotected → ∀ thresholdDays image, project.Lists thresholdDays image →
        Removable image → ¬ project.Current image) := by
  constructor
  · intro safe unprotected thresholdDays image lists removable current
    have passed := project.passed_of_unprotected unprotected lists removable (Int.le_refl 1)
    exact safe.keepsCurrent uncancelled 1 thresholdDays image passed current
  · intro condition
    constructor
    · intro cancellation batchSize thresholdDays image passed current
      obtain ⟨lists, removable, ignored, computed, free⟩ := project.passed_spec passed
      rcases project.ignored_of_current current computed with unprotected | member
      · exact condition unprotected thresholdDays image lists removable current
      · exact free member
    · intro cancellation batchSize thresholdDays image passed
      exact (project.passed_spec passed).2.1
    · intro cancellation batchSize thresholdDays _ image
      exact List.nodup_iff_count_le_one.mp
        (project.passed_nodup cancellation batchSize thresholdDays) image
    · intro cancellation batchSize thresholdDays candidates positive never selected image member
      rw [project.cleanupImages_never never positive selected]
      exact List.count_eq_one_of_mem (project.candidates_nodup selected) member

end Project

section Stray

/-- Two images, of which the second depends on one that is not configured. -/
def strayDeps : Json :=
  .obj [(py "build-env", .obj [(py "deps", .obj [])]),
    (py "dev-env", .obj [(py "deps", .obj [(py "BASE", .str (py "base-env"))])])]

def strayDir : ImageDir := ⟨.parsed strayDeps, fun _ => some (.readable [])⟩

def strayBuilder : DockerBuilder where
  searchPaths := [strayDir]
  repo := []
  space := py "devkit"
  extraMaps := ⟨∅, ∅, ∅⟩
  imageConfigsMap := (AList.insert (py "dev-env")
    (.obj [(py "deps", .obj [(py "BASE", .str (py "base-env"))])])
    (AList.insert (py "build-env") (.obj [(py "deps", .obj [])]) ∅))

def strayGraph : Graph :=
  [(py "dev-env", [some (py "base-env")]), (py "build-env", [])]

theorem strayBuilder_loaded (display : Display) :
    newDockerBuilder display .absent [strayDir] = .ok strayBuilder := by
  rfl

theorem strayGraph_built : strayBuilder.fullGraph = .ok strayGraph := by
  rfl

theorem strayGraph_sorted :
    TopologicalOrder strayGraph
      [some (py "base-env"), some (py "dev-env"), some (py "build-env")] :=
  .of_check (by decide) (by decide) (by decide)

theorem strayNode_status {node : Node}
    (member : ∃ entry ∈ strayGraph, node = some entry.1 ∨ node ∈ entry.2) :
    strayBuilder.status node ≠ .missing := by
  have cases : node = some (py "dev-env") ∨ node = some (py "base-env") ∨
      node = some (py "build-env") := by
    simpa [strayGraph, or_assoc] using member
  rcases cases with rfl | rfl | rfl <;> decide

/-- Docker lists the current image `build-env`, and nothing else. -/
def strayProject (display : Display) (digest : Digest) (sorter : Sorter) : Project where
  display := display
  digest := digest
  sorter := sorter
  configFile := .absent
  searchPaths := [strayDir]
  docker := fun _ _ =>
    .listed [strayBuilder.getImageTag dockerArch (py "build-env") (digest.hexdigest [])]
      (List.nodup_singleton _)

variable (display : Display) (digest : Digest) (sorter : Sorter)

theorem stray_unprotected : (strayProject display digest sorter).Unprotected := by
  have loaded := strayBuilder_loaded display
  rw [Project.Unprotected, TagsRaise]
  simp only [strayProject, loaded, DockerBuilder.TagsRaise, strayGraph_built]
  split
  · rename_i cyclic _
    exact cyclic _ strayGraph_sorted
  · rename_i nodes sorted _
    have member : some (py "base-env") ∈ nodes :=
      (sorted.complete _).mpr ⟨_, List.mem_cons_self .., .inr (List.mem_cons_self ..)⟩
    apply firstTrouble_broken member (by decide)
    intro other inNodes
    exact strayNode_status ((sorted.complete other).mp inNodes)

theorem stray_current :
    (strayProject display digest sorter).Current
      (strayBuilder.getImageTag dockerArch (py "build-env") (digest.hexdigest [])) := by
  refine ⟨strayBuilder, strayBuilder_loaded display, py "build-env", 1, ?_, ?_⟩
  · exact (AList.insert (some (py "build-env"))
      (strayBuilder.getImageTag dockerArch (py "build-env") (digest.hexdigest [])) ∅)
  · rfl

theorem stray_removable :
    Removable (strayBuilder.getImageTag dockerArch (py "build-env") (digest.hexdigest [])) := by
  refine ⟨py "build-env", by decide, [], [], dockerArch, digest.hexdigest [], [], ?_⟩
  constructor
  · simp [DockerBuilder.getImageTag, strayBuilder]
  · exact .inl rfl
  · exact .inl rfl
  · exact ⟨by decide, List.all_eq_true.mp (by decide)⟩
  · exact ⟨by decide, List.all_eq_true.mp (by decide)⟩
  · exact ⟨digest.length [], digest.hex []⟩
  · rfl

theorem stray_passed :
    strayBuilder.getImageTag dockerArch (py "build-env") (digest.hexdigest []) ∈
      ((strayProject display digest sorter).cleanupImages uncancelled 4 7).1 :=
  Project.passed_of_unprotected _ (stray_unprotected display digest sorter)
    ⟨_, rfl, List.mem_singleton_self _⟩ (stray_removable digest) (by omega)

end Stray

/-- The documented order, where there is one. -/
noncomputable def someSorter : Sorter := fun graph =>
  open Classical in
  if sortable : ∃ nodes, TopologicalOrder graph nodes then .order _ sortable.choose_spec
  else .cycle (fun nodes sorted => sortable ⟨nodes, sorted⟩)

def zeroDigest : Digest where
  hexdigest := fun _ => List.replicate 64 (.char '0')
  length := fun _ => List.length_replicate
  hex := by
    intro _ char member
    rw [List.eq_of_mem_replicate member]
    rfl

def textOnly : Display where
  text := fun json => match json with
    | .str text => text
    | _ => []
  ofStr := fun _ => rfl

/-- The dependency of one image on an unknown one lets another, current image be removed. -/
theorem current_image_removed :
    strayBuilder.getImageTag dockerArch (py "build-env") (zeroDigest.hexdigest []) ∈
        ((strayProject textOnly zeroDigest someSorter).cleanupImages uncancelled 4 7).1 ∧
      ¬ (strayProject textOnly zeroDigest someSorter).CleansSafely := by
  have passed := stray_passed textOnly zeroDigest someSorter
  refine ⟨passed, ?_⟩
  intro safe
  exact safe.keepsCurrent uncancelled 4 7 _ passed (stray_current textOnly zeroDigest someSorter)

end EzSdk.Devkit
