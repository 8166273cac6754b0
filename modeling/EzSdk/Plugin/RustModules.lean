import EzSdk.Plugin.Generate

/-! The Rust modules that `isolate_rpc_service.rs.jinja2`, `isolate_stub.rs.jinja2` and
`lib.rs.jinja2` are rendered to: what they import, declare, use and re-export. Each template is
rendered once, with all files. -/

namespace EzSdk.Plugin

open Tables

/-! ### The filters -/

def lowerOrDigit (char : Char) : Bool := char.isLower || char.isDigit

/-- `_LOWER_UPPER_RE.sub(r'\1_\2', s)` -/
def lowerUpperSub : List Char → List Char
  | first :: second :: rest =>
    if lowerOrDigit first && second.isUpper then first :: '_' :: second :: lowerUpperSub rest
    else first :: lowerUpperSub (second :: rest)
  | rest => rest

/-- `_UPPER_UPPER_RE.sub(r'\1_\2', s1)` -/
def upperUpperSub : List Char → List Char
  | first :: second :: third :: rest =>
    if first.isUpper && second.isUpper && lowerOrDigit third then
      first :: '_' :: second :: third :: upperUpperSub rest
    else first :: upperUpperSub (second :: third :: rest)
  | rest => rest

def lower (text : String) : String := String.ofList (text.toList.map Char.toLower)

def snakecase (text : String) : String :=
  lower (String.ofList (upperUpperSub (lowerUpperSub text.toList)))

/-- `lstrip('.')` -/
def lstripDots (text : String) : String := String.ofList (text.toList.dropWhile (· = '.'))

/-- The filter `unique`, which takes texts that differ in case only for the same. -/
def uniqueFrom (seen : List String) : List String → List String
  | [] => []
  | item :: items =>
    if lower item ∈ seen then uniqueFrom seen items
    else item :: uniqueFrom (lower item :: seen) items

def unique (items : List String) : List String := uniqueFrom [] items

/-! ### The loops over the methods -/

def servedFiles (files : List FileDescriptor) : List FileDescriptor :=
  files.filter (fun file => file.service ≠ [])

def servedServices (files : List FileDescriptor) : List ServiceDescriptor :=
  (servedFiles files).flatMap FileDescriptor.service

/-- `file_name` -/
def FileDescriptor.fileName (file : FileDescriptor) : String :=
  ((pySplit '/' file.name).getLastD "").replace ".proto" ""

/-- What the two tests of the first loop collect for a method. -/
def collect {Item : Type} (rpc : MethodDescriptor) (items : List Item) : List Item :=
  (if rpc.isUnary then items else []) ++ (if rpc.isBidi then items else [])

def requestTypes (file : FileDescriptor) : List String :=
  file.service.flatMap (fun svc => svc.method.flatMap (fun rpc =>
    collect rpc [rustTypeName rpc.inputType]))

structure TypeInfo where
  fullType : String
  name : String
  deriving DecidableEq

def typeInfo (type : String) : TypeInfo := ⟨lstripDots type, rustTypeName type⟩

def typeUpdates (file : FileDescriptor) : List TypeInfo :=
  file.service.flatMap (fun svc => svc.method.flatMap (fun rpc =>
    collect rpc [typeInfo rpc.inputType, typeInfo rpc.outputType]))

def allTypesDict (file : FileDescriptor) : AList (fun _ : String => TypeInfo) :=
  (typeUpdates file).foldl (keepLast TypeInfo.fullType) ∅

/-- The `use` lines for message types. -/
def typeImports (files : List FileDescriptor) : List TypeInfo :=
  (servedFiles files).flatMap (fun file => (allTypesDict file).entries.map (fun entry => entry.2))

/-! ### The modules -/

/-- Message types are given by their full names, imports also by the names that they bind;
`functions` has the functions of each trait or `impl`. -/
structure RustModule where
  imports : List TypeInfo
  streamTraits : List String
  serviceTraits : List String
  structs : List String
  usedTypes : List String
  usedTraits : List String
  functions : List (List String)

def RustModule.items (rust : RustModule) : List String :=
  rust.streamTraits ++ rust.serviceTraits ++ rust.structs

def invokeIsolateResponse : TypeInfo :=
  ⟨"enforcer.v1.InvokeIsolateResponse", "InvokeIsolateResponse"⟩

/-- The message types in the trait of a service and in its two handlers. -/
def serviceUses (svc : ServiceDescriptor) : List String :=
  svc.method.flatMap (fun rpc =>
    if rpc.isUnary then [lstripDots rpc.inputType, lstripDots rpc.outputType]
    else [lstripDots rpc.outputType]) ++
  invokeIsolateResponse.fullType ::
  svc.method.flatMap (fun rpc => if rpc.isUnary then [lstripDots rpc.inputType] else []) ++
  svc.method.flatMap (fun rpc => if rpc.isBidi then [lstripDots rpc.inputType] else [])

def serviceModule (files : List FileDescriptor) : RustModule where
  imports := invokeIsolateResponse :: typeImports files
  streamTraits := (servedFiles files).flatMap (fun file =>
    (unique (requestTypes file)).map (· ++ "Stream"))
  serviceTraits := (servedServices files).map ServiceDescriptor.name
  structs := (servedServices files).map (fun svc => svc.name ++ "IsolateRpcService")
  usedTypes := (servedServices files).flatMap serviceUses
  usedTraits := (servedServices files).flatMap (fun svc =>
    (svc.method.filter (fun rpc => !rpc.isUnary)).map (fun rpc => rustTypeName rpc.inputType ++ "Stream"))
  functions := (servedServices files).map (fun svc => svc.method.map (fun rpc => snakecase rpc.name))

def stubUses (svc : ServiceDescriptor) : List String :=
  (svc.method.filter MethodDescriptor.isUnary ++ svc.method.filter MethodDescriptor.isBidi).flatMap
    (fun rpc => [lstripDots rpc.inputType, lstripDots rpc.outputType])

def stubFunctions (svc : ServiceDescriptor) : List String :=
  (svc.method.filter MethodDescriptor.isUnary ++ svc.method.filter MethodDescriptor.isBidi).map
    (fun rpc => snakecase rpc.name)

def stubModule (files : List FileDescriptor) : RustModule where
  imports := typeImports files
  streamTraits := []
  serviceTraits := []
  structs := (servedServices files).map (fun svc => svc.name ++ "IsolateStub")
  usedTypes := (servedServices files).flatMap stubUses
  usedTraits := []
  functions := (servedServices files).map stubFunctions

inductive ModuleKind where
  | service
  | stub
  deriving DecidableEq

def ModuleKind.rendered (files : List FileDescriptor) : ModuleKind → RustModule
  | .service => serviceModule files
  | .stub => stubModule files

/-- `pub use {file_name}_isolate_stub::item` and the like. -/
structure PubUse where
  fileName : String
  kind : ModuleKind
  item : String
  deriving DecidableEq

/-- The names that a file appends to `stream_request_types`. -/
def streamRequestTypes (file : FileDescriptor) : List String :=
  file.service.flatMap (fun svc =>
    (svc.method.filter MethodDescriptor.isBidi).map (fun rpc => rustTypeName rpc.inputType))

/-- What `lib.rs.jinja2` says for a file, with the names that are in `stream_request_types` then. -/
def filePubUses (types : List String) (file : FileDescriptor) : List PubUse :=
  file.service.flatMap (fun svc =>
    [⟨file.fileName, .stub, svc.name ++ "IsolateStub"⟩,
      ⟨file.fileName, .service, svc.name ++ "IsolateRpcService"⟩,
      ⟨file.fileName, .service, svc.name⟩]) ++
  (unique types).map (fun type => ⟨file.fileName, .service, type ++ "Stream"⟩)

/-- The loop, in which `stream_request_types` keeps the names of the files before. -/
def pubUsesFrom (earlierTypes : List String) : List FileDescriptor → List PubUse
  | [] => []
  | file :: files =>
    filePubUses (earlierTypes ++ streamRequestTypes file) file ++
      pubUsesFrom (earlierTypes ++ streamRequestTypes file) files

def pubUses (files : List FileDescriptor) : List PubUse := pubUsesFrom [] (servedFiles files)

/-! ### What the modules are to satisfy -/

structure RustModule.Resolves (rust : RustModule) : Prop where
  types : ∀ type ∈ rust.usedTypes, ∃ entry ∈ rust.imports, entry.fullType = type
  traits : ∀ name ∈ rust.usedTraits, name ∈ rust.streamTraits
  unambiguous : ∀ one ∈ rust.imports, ∀ other ∈ rust.imports,
    one.name = other.name → one.fullType = other.fullType
  functions : ∀ names ∈ rust.functions, names.Nodup

/-- The files that a module is called after. -/
def called (fileName : String) (files : List FileDescriptor) : List FileDescriptor :=
  files.filter (fun file => file.fileName = fileName)

/-- The modules are closed, and every re-export is an item of the module that it names. -/
structure ModulesResolve (files : List FileDescriptor) : Prop where
  service : (serviceModule files).Resolves
  stub : (stubModule files).Resolves
  reexports : ∀ entry ∈ pubUses files,
    entry.item ∈ (entry.kind.rendered (called entry.fileName files)).items

/-! ### When they do -/

/-- The types of the methods that pass one of the two tests. -/
def handledTypes (files : List FileDescriptor) : List String :=
  (servedServices files).flatMap (fun svc => svc.method.flatMap (fun rpc =>
    collect rpc [rpc.inputType, rpc.outputType]))

def importedTypes (files : List FileDescriptor) : List String :=
  invokeIsolateResponse.fullType :: handledTypes files

/-- The text is the first of those that differ from it in case only. -/
def FirstSpelling (text : String) (texts : List String) : Prop :=
  ∃ earlier later, texts = earlier ++ text :: later ∧ ∀ other ∈ earlier, lower other ≠ lower text

/-- What a list of files has to be like. -/
structure Resolvable (files : List FileDescriptor) : Prop where
  responses : ∀ svc ∈ servedServices files, ∀ rpc ∈ svc.method, rpc.isUnary = false →
    rpc.isBidi = false → ∃ type ∈ importedTypes files, lstripDots type = lstripDots rpc.outputType
  requests : ∀ svc ∈ servedServices files, ∀ rpc ∈ svc.method, rpc.isUnary = false →
    ∃ file ∈ servedFiles files, FirstSpelling (rustTypeName rpc.inputType) (requestTypes file)
  types : ∀ one ∈ importedTypes files, ∀ other ∈ importedTypes files,
    rustTypeName one = rustTypeName other → lstripDots one = lstripDots other
  methods : ∀ svc ∈ servedServices files, ∀ rpc ∈ svc.method, ∀ other ∈ svc.method,
    snakecase rpc.name = snakecase other.name → rpc = other
  -- the traits of the files before, too, are among those of a file
  streams : ∀ earlier file later, servedFiles files = earlier ++ file :: later →
    ∀ type, FirstSpelling type ((earlier ++ [file]).flatMap streamRequestTypes) →
      ∃ other ∈ servedFiles files, other.fileName = file.fileName ∧
        (FirstSpelling type (requestTypes other) ∨ ∃ svc ∈ other.service, svc.name = type ++ "Stream")

theorem firstSpelling_cons (text first : String) (texts : List String) :
    FirstSpelling text (first :: texts) ↔
      first = text ∨ lower first ≠ lower text ∧ FirstSpelling text texts := by
  constructor
  · rintro ⟨earlier, later, split, different⟩
    cases earlier with
    | nil => exact .inl (List.cons.inj split).1
    | cons other earlier =>
      obtain ⟨rfl, rest⟩ := List.cons.inj split
      refine .inr ⟨different first List.mem_cons_self, earlier, later, rest, ?_⟩
      exact fun another member => different another (List.mem_cons_of_mem first member)
  · rintro (rfl | ⟨differs, earlier, later, rfl, different⟩)
    · exact ⟨[], texts, rfl, fun _ absent => absurd absent List.not_mem_nil⟩
    · refine ⟨first :: earlier, later, rfl, ?_⟩
      intro other member
      rcases List.mem_cons.mp member with rfl | inEarlier
      · exact differs
      · exact different other inEarlier

theorem mem_uniqueFrom (seen items : List String) (text : String) :
    text ∈ uniqueFrom seen items ↔ lower text ∉ seen ∧ FirstSpelling text items := by
  induction items generalizing seen with
  | nil => simp [uniqueFrom, FirstSpelling]
  | cons item items ih =>
    rw [firstSpelling_cons, uniqueFrom]
    by_cases known : lower item ∈ seen
    · rw [if_pos known, ih]
      constructor
      · rintro ⟨new, first⟩
        exact ⟨new, .inr ⟨fun same => new (same ▸ known), first⟩⟩
      · rintro ⟨new, rfl | ⟨_, first⟩⟩
        · exact absurd known new
        · exact ⟨new, first⟩
    · rw [if_neg known, List.mem_cons, ih, List.mem_cons, not_or]
      constructor
      · rintro (rfl | ⟨⟨differs, new⟩, first⟩)
        · exact ⟨known, .inl rfl⟩
        · exact ⟨new, .inr ⟨Ne.symm differs, first⟩⟩
      · rintro ⟨new, rfl | ⟨differs, first⟩⟩
        · exact .inl rfl
        · exact .inr ⟨⟨Ne.symm differs, new⟩, first⟩

theorem mem_unique (items : List String) (text : String) :
    text ∈ unique items ↔ FirstSpelling text items := by
  rw [unique, mem_uniqueFrom]
  simp

theorem mem_collect {Item : Type} (rpc : MethodDescriptor) (items : List Item) (item : Item) :
    item ∈ collect rpc items ↔ (rpc.isUnary = true ∨ rpc.isBidi = true) ∧ item ∈ items := by
  cases unary : rpc.isUnary <;> cases bidi : rpc.isBidi <;> simp [collect, unary, bidi]

theorem splitOn_dropDots (chars : List Char) :
    ((chars.dropWhile (· = '.')).splitOn '.').getLastD [] = (chars.splitOn '.').getLastD [] := by
  induction chars with
  | nil => rfl
  | cons char chars ih =>
    by_cases dot : char = '.'
    · have cut : ('.' :: chars).splitOn '.' = [] :: chars.splitOn '.' := by
        rw [List.splitOn_eq_splitOnP, List.splitOn_eq_splitOnP]
        exact List.splitOnP_append_cons_of_forall_mem
          (fun _ absent => absurd absent List.not_mem_nil) '.' rfl chars
      rw [List.dropWhile_cons_of_pos (by simpa using dot), ih, dot, cut]
      cases pieces : chars.splitOn '.' with
      | nil => exact absurd pieces (List.splitOn_ne_nil _ _)
      | cons piece rest => rfl
    · rw [List.dropWhile_cons_of_neg (by simpa using dot)]

/-- The last component does not depend on the dots in front. -/
theorem rustTypeName_lstripDots (type : String) : rustTypeName (lstripDots type) = rustTypeName type := by
  have last (chars : List Char) : ((chars.splitOn '.').map String.ofList).getLastD "" =
      String.ofList ((chars.splitOn '.').getLastD []) := by
    rw [List.getLastD_eq_getLast?, List.getLastD_eq_getLast?, List.getLast?_map]
    cases (chars.splitOn '.').getLast? with
    | none => rfl
    | some piece => rfl
  simp only [rustTypeName, pySplit, lstripDots, String.toList_ofList, last, splitOn_dropDots]

/-- The type belongs to a method of the service that passes one of the two tests. -/
def HandlesType (svc : ServiceDescriptor) (type : String) : Prop :=
  ∃ rpc ∈ svc.method, (rpc.isUnary = true ∨ rpc.isBidi = true) ∧
    (type = rpc.inputType ∨ type = rpc.outputType)

theorem mem_typeUpdates (file : FileDescriptor) (info : TypeInfo) :
    info ∈ typeUpdates file ↔ ∃ svc ∈ file.service, ∃ type, HandlesType svc type ∧ info = typeInfo type := by
  simp only [typeUpdates, List.mem_flatMap, mem_collect, List.mem_pair, HandlesType]
  constructor
  · rintro ⟨svc, declared, rpc, inMethods, passes, rfl | rfl⟩
    · exact ⟨svc, declared, rpc.inputType, ⟨rpc, inMethods, passes, .inl rfl⟩, rfl⟩
    · exact ⟨svc, declared, rpc.outputType, ⟨rpc, inMethods, passes, .inr rfl⟩, rfl⟩
  · rintro ⟨svc, declared, type, ⟨rpc, inMethods, passes, rfl | rfl⟩, rfl⟩
    · exact ⟨svc, declared, rpc, inMethods, passes, .inl rfl⟩
    · exact ⟨svc, declared, rpc, inMethods, passes, .inr rfl⟩

theorem mem_handledTypes (files : List FileDescriptor) (type : String) :
    type ∈ handledTypes files ↔ ∃ svc ∈ servedServices files, HandlesType svc type := by
  simp only [handledTypes, List.mem_flatMap, mem_collect, List.mem_pair, HandlesType]

theorem mem_servedServices (files : List FileDescriptor) (svc : ServiceDescriptor) :
    svc ∈ servedServices files ↔ ∃ file ∈ servedFiles files, svc ∈ file.service := by
  simp [servedServices]

/-- The dict has one value for each key, and every update for a key has the same. -/
theorem typeInfo_eq {one other : String} (same : lstripDots one = lstripDots other) :
    typeInfo one = typeInfo other := by
  have names : rustTypeName one = rustTypeName other := by
    rw [← rustTypeName_lstripDots one, same, rustTypeName_lstripDots]
  rw [typeInfo, typeInfo, same, names]

theorem typeUpdates_typeInfo {file : FileDescriptor} {info : TypeInfo}
    (updated : info ∈ typeUpdates file) : ∃ type, info = typeInfo type := by
  obtain ⟨_, _, type, _, made⟩ := (mem_typeUpdates file info).mp updated
  exact ⟨type, made⟩

theorem mem_allTypesDict (file : FileDescriptor) (info : TypeInfo) :
    (∃ entry ∈ (allTypesDict file).entries, entry.2 = info) ↔ info ∈ typeUpdates file := by
  have lookup (key : String) : (allTypesDict file).lookup key =
      lastOf TypeInfo.fullType (typeUpdates file) key := by
    rw [allTypesDict, lookup_lastOf]
  constructor
  · rintro ⟨⟨key, value⟩, member, rfl⟩
    have found := (lookup key).symm.trans (AList.mem_lookup_iff.mpr member)
    exact (lastOf_mem _ _ _ _ found).1
  · intro updated
    obtain ⟨stored, found⟩ := lastOf_exists TypeInfo.fullType _ info updated
    obtain ⟨storedUpdated, sameKey⟩ := lastOf_mem _ _ _ _ found
    obtain ⟨type, rfl⟩ := typeUpdates_typeInfo updated
    obtain ⟨other, rfl⟩ := typeUpdates_typeInfo storedUpdated
    exact ⟨⟨_, typeInfo other⟩, AList.mem_lookup_iff.mp ((lookup _).trans found), typeInfo_eq sameKey⟩

theorem typeImports_iff (files : List FileDescriptor) (fullType name : String) :
    (∃ entry ∈ typeImports files, entry.fullType = fullType ∧ entry.name = name) ↔
      ∃ type ∈ handledTypes files, lstripDots type = fullType ∧ rustTypeName type = name := by
  constructor
  · rintro ⟨entry, member, rfl, rfl⟩
    obtain ⟨file, served, inFile⟩ := List.mem_flatMap.mp member
    obtain ⟨pair, inDict, rfl⟩ := List.mem_map.mp inFile
    have updated := (mem_allTypesDict file pair.2).mp ⟨pair, inDict, rfl⟩
    obtain ⟨svc, inServices, type, handled, info⟩ := (mem_typeUpdates file pair.2).mp updated
    have inServed := (mem_servedServices files svc).mpr ⟨file, served, inServices⟩
    refine ⟨type, (mem_handledTypes files type).mpr ⟨svc, inServed, handled⟩, ?_⟩
    rw [info]
    exact ⟨rfl, rfl⟩
  · rintro ⟨type, handledType, rfl, rfl⟩
    obtain ⟨svc, inServed, handled⟩ := (mem_handledTypes files type).mp handledType
    obtain ⟨file, served, inServices⟩ := (mem_servedServices files svc).mp inServed
    have updated := (mem_typeUpdates file _).mpr ⟨svc, inServices, type, handled, rfl⟩
    obtain ⟨pair, inDict, info⟩ := (mem_allTypesDict file _).mpr updated
    refine ⟨pair.2, ?_, ?_⟩
    · exact List.mem_flatMap.mpr ⟨file, served, List.mem_map.mpr ⟨pair, inDict, rfl⟩⟩
    · rw [info]
      exact ⟨rfl, rfl⟩

/-! ### The service module -/

section Modules

variable (files : List FileDescriptor)

theorem serviceImports_iff (fullType name : String) :
    (∃ entry ∈ (serviceModule files).imports, entry.fullType = fullType ∧ entry.name = name) ↔
      ∃ type ∈ importedTypes files, lstripDots type = fullType ∧ rustTypeName type = name := by
  have own : lstripDots invokeIsolateResponse.fullType = invokeIsolateResponse.fullType ∧
      rustTypeName invokeIsolateResponse.fullType = invokeIsolateResponse.name := by decide
  simp only [serviceModule, importedTypes, List.exists_mem_cons_iff, typeImports_iff, own]

theorem unambiguous_iff {imports : List TypeInfo} {types : List String}
    (imported : ∀ fullType name, (∃ entry ∈ imports, entry.fullType = fullType ∧ entry.name = name) ↔
      ∃ type ∈ types, lstripDots type = fullType ∧ rustTypeName type = name) :
    (∀ one ∈ imports, ∀ other ∈ imports, one.name = other.name → one.fullType = other.fullType) ↔
      ∀ one ∈ types, ∀ other ∈ types, rustTypeName one = rustTypeName other →
        lstripDots one = lstripDots other := by
  constructor
  · intro distinct one oneMember other otherMember same
    obtain ⟨first, firstIn, firstType, firstName⟩ :=
      (imported _ _).mpr ⟨one, oneMember, rfl, rfl⟩
    obtain ⟨second, secondIn, secondType, secondName⟩ :=
      (imported _ _).mpr ⟨other, otherMember, rfl, rfl⟩
    rw [← firstType, ← secondType]
    exact distinct first firstIn second secondIn (by rw [firstName, secondName, same])
  · intro distinct one oneIn other otherIn same
    obtain ⟨first, firstMember, firstType, firstName⟩ := (imported _ _).mp ⟨one, oneIn, rfl, rfl⟩
    obtain ⟨second, secondMember, secondType, secondName⟩ :=
      (imported _ _).mp ⟨other, otherIn, rfl, rfl⟩
    rw [← firstType, ← secondType]
    exact distinct first firstMember second secondMember (by rw [firstName, secondName, same])

theorem serviceImported_iff (fullType : String) :
    (∃ entry ∈ (serviceModule files).imports, entry.fullType = fullType) ↔
      ∃ type ∈ importedTypes files, lstripDots type = fullType := by
  constructor
  · rintro ⟨entry, member, same⟩
    obtain ⟨type, imported, stripped, _⟩ :=
      (serviceImports_iff files fullType entry.name).mp ⟨entry, member, same, rfl⟩
    exact ⟨type, imported, stripped⟩
  · rintro ⟨type, imported, stripped⟩
    obtain ⟨entry, member, same, _⟩ :=
      (serviceImports_iff files fullType (rustTypeName type)).mpr ⟨type, imported, stripped, rfl⟩
    exact ⟨entry, member, same⟩

theorem mem_serviceUses (svc : ServiceDescriptor) (type : String) :
    type ∈ serviceUses svc ↔ type = invokeIsolateResponse.fullType ∨
      ∃ rpc ∈ svc.method, type = lstripDots rpc.outputType ∨
        (rpc.isUnary = true ∨ rpc.isBidi = true) ∧ type = lstripDots rpc.inputType := by
  simp only [serviceUses, List.mem_append, List.mem_cons, List.mem_flatMap]
  constructor
  · rintro ((⟨rpc, declared, inTrait⟩ | rfl | ⟨rpc, declared, inUnary⟩) | ⟨rpc, declared, inStreaming⟩)
    · split at inTrait
      · rcases List.mem_pair.mp inTrait with input | output
        · exact .inr ⟨rpc, declared, .inr ⟨.inl ‹_›, input⟩⟩
        · exact .inr ⟨rpc, declared, .inl output⟩
      · exact .inr ⟨rpc, declared, .inl (List.mem_singleton.mp inTrait)⟩
    · exact .inl rfl
    · split at inUnary
      · exact .inr ⟨rpc, declared, .inr ⟨.inl ‹_›, List.mem_singleton.mp inUnary⟩⟩
      · exact absurd inUnary List.not_mem_nil
    · split at inStreaming
      · exact .inr ⟨rpc, declared, .inr ⟨.inr ‹_›, List.mem_singleton.mp inStreaming⟩⟩
      · exact absurd inStreaming List.not_mem_nil
  · rintro (rfl | ⟨rpc, declared, rfl | ⟨unary | bidi, rfl⟩⟩)
    · exact .inl (.inr (.inl rfl))
    · refine .inl (.inl ⟨rpc, declared, ?_⟩)
      split
      · exact List.mem_cons_of_mem _ (List.mem_singleton_self _)
      · exact List.mem_singleton_self _
    · refine .inl (.inr (.inr ⟨rpc, declared, ?_⟩))
      rw [if_pos unary]
      exact List.mem_singleton_self _
    · refine .inr ⟨rpc, declared, ?_⟩
      rw [if_pos bidi]
      exact List.mem_singleton_self _

/-- Of the types that the service module uses, only a response that is streamed to a single
request, or to which requests are streamed, can be missing. -/
theorem serviceTypes_iff :
    (∀ type ∈ (serviceModule files).usedTypes,
        ∃ entry ∈ (serviceModule files).imports, entry.fullType = type) ↔
      ∀ svc ∈ servedServices files, ∀ rpc ∈ svc.method, rpc.isUnary = false → rpc.isBidi = false →
        ∃ type ∈ importedTypes files, lstripDots type = lstripDots rpc.outputType := by
  simp only [serviceImported_iff]
  constructor
  · intro resolved svc served rpc declared _ _
    apply resolved
    exact List.mem_flatMap.mpr ⟨svc, served, (mem_serviceUses svc _).mpr
      (.inr ⟨rpc, declared, .inl rfl⟩)⟩
  · intro responses type used
    obtain ⟨svc, served, inService⟩ := List.mem_flatMap.mp used
    have imported {type : String} (handled : HandlesType svc type) : type ∈ importedTypes files :=
      List.mem_cons_of_mem _ ((mem_handledTypes files type).mpr ⟨svc, served, handled⟩)
    rcases (mem_serviceUses svc type).mp inService with rfl | ⟨rpc, declared, rfl | ⟨passes, rfl⟩⟩
    · exact ⟨invokeIsolateResponse.fullType, List.mem_cons_self, by decide⟩
    · by_cases passes : rpc.isUnary = true ∨ rpc.isBidi = true
      · exact ⟨rpc.outputType, imported ⟨rpc, declared, passes, .inr rfl⟩, rfl⟩
      · rw [not_or, Bool.not_eq_true, Bool.not_eq_true] at passes
        exact responses svc served rpc declared passes.1 passes.2
    · exact ⟨rpc.inputType, imported ⟨rpc, declared, passes, .inl rfl⟩, rfl⟩

theorem mem_streamTraits (name : String) :
    name ++ "Stream" ∈ (serviceModule files).streamTraits ↔
      ∃ file ∈ servedFiles files, FirstSpelling name (requestTypes file) := by
  simp only [serviceModule, List.mem_flatMap, List.mem_map, String.append_left_inj, exists_eq_right,
    mem_unique]

theorem serviceTraits_iff :
    (∀ name ∈ (serviceModule files).usedTraits, name ∈ (serviceModule files).streamTraits) ↔
      ∀ svc ∈ servedServices files, ∀ rpc ∈ svc.method, rpc.isUnary = false →
        ∃ file ∈ servedFiles files, FirstSpelling (rustTypeName rpc.inputType) (requestTypes file) := by
  simp only [← mem_streamTraits]
  constructor
  · intro declared svc served rpc inMethods notUnary
    apply declared
    refine List.mem_flatMap.mpr ⟨svc, served, List.mem_map.mpr ⟨rpc, ?_, rfl⟩⟩
    exact List.mem_filter.mpr ⟨inMethods, by rw [notUnary, Bool.not_false]⟩
  · intro requests name used
    obtain ⟨svc, served, inService⟩ := List.mem_flatMap.mp used
    obtain ⟨rpc, chosen, rfl⟩ := List.mem_map.mp inService
    obtain ⟨inMethods, notUnary⟩ := List.mem_filter.mp chosen
    exact requests svc served rpc inMethods (by simpa using notUnary)

theorem serviceFunctions_iff :
    (∀ names ∈ (serviceModule files).functions, names.Nodup) ↔
      ∀ svc ∈ servedServices files, ∀ rpc ∈ svc.method, ∀ other ∈ svc.method,
        snakecase rpc.name = snakecase other.name → rpc = other := by
  simp only [serviceModule, List.forall_mem_map]
  apply forall₂_congr
  intro svc _
  exact List.nodup_map_iff_inj_on svc.distinctNames.of_map

/-! ### The stub module -/

theorem mem_stubMethods (svc : ServiceDescriptor) (rpc : MethodDescriptor) :
    rpc ∈ svc.method.filter MethodDescriptor.isUnary ++ svc.method.filter MethodDescriptor.isBidi ↔
      rpc ∈ svc.method ∧ (rpc.isUnary = true ∨ rpc.isBidi = true) := by
  rw [List.mem_append, List.mem_filter, List.mem_filter, and_or_left]

theorem stubTypes_imported (type : String) (used : type ∈ (stubModule files).usedTypes) :
    ∃ entry ∈ (stubModule files).imports, entry.fullType = type := by
  obtain ⟨svc, served, inService⟩ := List.mem_flatMap.mp used
  obtain ⟨rpc, chosen, which⟩ := List.mem_flatMap.mp inService
  obtain ⟨declared, passes⟩ := (mem_stubMethods svc rpc).mp chosen
  have imported {raw : String} (handled : HandlesType svc raw) :
      ∃ entry ∈ typeImports files, entry.fullType = lstripDots raw := by
    have found := (mem_handledTypes files raw).mpr ⟨svc, served, handled⟩
    obtain ⟨entry, member, same, _⟩ := (typeImports_iff files _ _).mpr ⟨raw, found, rfl, rfl⟩
    exact ⟨entry, member, same⟩
  rcases List.mem_pair.mp which with rfl | rfl
  · exact imported ⟨rpc, declared, passes, .inl rfl⟩
  · exact imported ⟨rpc, declared, passes, .inr rfl⟩

theorem stubFunctions_nodup (svc : ServiceDescriptor)
    (distinct : ∀ rpc ∈ svc.method, ∀ other ∈ svc.method,
      snakecase rpc.name = snakecase other.name → rpc = other) : (stubFunctions svc).Nodup := by
  have methods : svc.method.Nodup := svc.distinctNames.of_map
  have once : (svc.method.filter MethodDescriptor.isUnary ++
      svc.method.filter MethodDescriptor.isBidi).Nodup := by
    apply List.Nodup.append (methods.filter _) (methods.filter _)
    intro rpc unary bidi
    have isUnary := (List.mem_filter.mp unary).2
    have isBidi := (List.mem_filter.mp bidi).2
    rw [not_both rpc isUnary] at isBidi
    cases isBidi
  apply (List.nodup_map_iff_inj_on once).mpr
  intro rpc chosen other otherChosen same
  exact distinct rpc ((mem_stubMethods svc rpc).mp chosen).1 other
    ((mem_stubMethods svc other).mp otherChosen).1 same

/-! ### The re-exports -/

theorem mem_pubUsesFrom {rest : List FileDescriptor} {earlierTypes : List String} {entry : PubUse} :
    entry ∈ pubUsesFrom earlierTypes rest ↔
      ∃ earlier file later, rest = earlier ++ file :: later ∧
        entry ∈ filePubUses (earlierTypes ++ (earlier ++ [file]).flatMap streamRequestTypes) file := by
  induction rest generalizing earlierTypes with
  | nil => simp [pubUsesFrom]
  | cons first rest ih =>
    rw [pubUsesFrom, List.mem_append, ih]
    constructor
    · rintro (own | ⟨earlier, file, later, rfl, inFile⟩)
      · exact ⟨[], first, rest, rfl, by simpa using own⟩
      · exact ⟨first :: earlier, file, later, rfl, by simpa using inFile⟩
    · rintro ⟨earlier, file, later, split, inFile⟩
      cases earlier with
      | nil =>
        obtain ⟨rfl, rfl⟩ := List.cons.inj split
        exact .inl (by simpa using inFile)
      | cons other earlier =>
        obtain ⟨rfl, rfl⟩ := List.cons.inj split
        exact .inr ⟨earlier, file, later, rfl, by simpa using inFile⟩

theorem mem_servedFiles_called {fileName : String} {file : FileDescriptor} :
    file ∈ servedFiles (called fileName files) ↔ file ∈ servedFiles files ∧ file.fileName = fileName := by
  simp [servedFiles, called, and_assoc]

/-- A trait that is re-exported is a stream trait of the module, or the trait of a service. -/
theorem streamTrait_declared_iff (fileName type : String) :
    type ++ "Stream" ∈ (serviceModule (called fileName files)).items ↔
      ∃ other ∈ servedFiles files, other.fileName = fileName ∧
        (FirstSpelling type (requestTypes other) ∨
          ∃ svc ∈ other.service, svc.name = type ++ "Stream") := by
  have notStruct : type ++ "Stream" ∉ (serviceModule (called fileName files)).structs := by
    intro member
    obtain ⟨svc, _, same⟩ := List.mem_map.mp member
    have last := congrArg (fun text => text.toList.getLast?) same
    simp at last
  have service : type ++ "Stream" ∈ (serviceModule (called fileName files)).serviceTraits ↔
      ∃ other ∈ servedFiles (called fileName files), ∃ svc ∈ other.service,
        svc.name = type ++ "Stream" := by
    simp only [serviceModule, List.mem_map, mem_servedServices]
    tauto
  rw [RustModule.items, List.mem_append, or_iff_left notStruct, List.mem_append, mem_streamTraits,
    service, ← exists_or]
  simp only [mem_servedFiles_called, ← and_or_left, and_assoc]

theorem reexports_iff :
    (∀ entry ∈ pubUses files, entry.item ∈ (entry.kind.rendered (called entry.fileName files)).items) ↔
      ∀ earlier file later, servedFiles files = earlier ++ file :: later →
        ∀ type, FirstSpelling type ((earlier ++ [file]).flatMap streamRequestTypes) →
          ∃ other ∈ servedFiles files, other.fileName = file.fileName ∧
            (FirstSpelling type (requestTypes other) ∨
              ∃ svc ∈ other.service, svc.name = type ++ "Stream") := by
  constructor
  · intro declared earlier file later split type first
    rw [← streamTrait_declared_iff]
    refine declared ⟨file.fileName, .service, type ++ "Stream"⟩ ?_
    refine mem_pubUsesFrom.mpr ⟨earlier, file, later, split, List.mem_append_right _ ?_⟩
    exact List.mem_map.mpr ⟨type, (mem_unique _ type).mpr first, rfl⟩
  · intro streams entry member
    obtain ⟨earlier, file, later, split, inFile⟩ := mem_pubUsesFrom.mp member
    rcases List.mem_append.mp inFile with inServices | inTypes
    · obtain ⟨svc, declared, which⟩ := List.mem_flatMap.mp inServices
      have served : file ∈ servedFiles (called file.fileName files) := by
        rw [mem_servedFiles_called, split]
        simp
      have inServed := (mem_servedServices _ svc).mpr ⟨file, served, declared⟩
      simp only [List.mem_cons, List.not_mem_nil, or_false] at which
      rcases which with rfl | rfl | rfl
      · exact List.mem_append_right _ (List.mem_map.mpr ⟨svc, inServed, rfl⟩)
      · exact List.mem_append_right _ (List.mem_map.mpr ⟨svc, inServed, rfl⟩)
      · exact List.mem_append_left _ (List.mem_append_right _ (List.mem_map.mpr ⟨svc, inServed, rfl⟩))
    · obtain ⟨type, inUnique, rfl⟩ := List.mem_map.mp inTypes
      have found := streams earlier file later split type ((mem_unique _ type).mp inUnique)
      exact (streamTrait_declared_iff files _ type).mpr found

end Modules

def watchFile : FileDescriptor := ⟨"watch.proto", "example", [watcher]⟩

/-- Request types that differ in case only, response types of one name in two packages, and
methods that differ in case only. -/
def chatFile : FileDescriptor where
  name := "chat.proto"
  package := "chat"
  service :=
    [⟨"Chat",
      [⟨"Send", ".chat.MSG", ".chat.Ack", false, false⟩,
        ⟨"Talk", ".chat.Msg", ".other.Ack", true, true⟩,
        ⟨"GetURL", ".chat.MSG", ".chat.Ack", false, false⟩,
        ⟨"GetUrl", ".chat.MSG", ".chat.Ack", false, false⟩], by decide⟩]

end EzSdk.Plugin
