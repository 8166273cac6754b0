import EzSdk.Devkit.Config
import EzSdk.Foundation.Postconditions
import Mathlib.Logic.Relation

/-! `validate_config` of `docker/build.py`: what it accepts, and that nothing which it accepts
makes the loading of the configuration fail. -/

namespace EzSdk.Devkit

open Postconditions Relation

def Properties.entries : Properties → List (Str × Schema)
  | none => []
  | property key schema others => (key, schema) :: others.entries

/-- A part of a document and the schema that is meant for it. -/
abbrev Place := Schema × Json

/-- From an object to what is in one of its fields: a property has its own schema, and the
other fields share one if there is one. -/
inductive Below : Place → Place → Prop where
  | property {type properties additional fields key schema value}
      (declared : (key, schema) ∈ properties.entries) (found : fields.lookup key = some value) :
      Below (.mk type properties additional, .obj fields) (schema, value)
  | additional {type properties schema fields key value}
      (member : (key, value) ∈ fields) (undeclared : key ∉ properties.keys) :
      Below (.mk type properties (.each schema), .obj fields) (schema, value)

/-- What a schema says of a part of a document, apart from what is in its fields. -/
def Fits : Place → Prop
  | (.mk type properties additional, data) =>
    (∀ wanted ∈ type, wanted.isInstance data = true) ∧
    ∀ fields, additional = .nothing → data = .obj fields → ∀ field ∈ fields, field.1 ∈ properties.keys

/-- Every part of the document, at every depth, fits the schema that is meant for it. -/
def Conforms (schema : Schema) (data : Json) : Prop :=
  ∀ place, ReflTransGen Below (schema, data) place → Fits place

/-! ### The schema as a recursive relation -/

theorem conforms_iff (schema : Schema) (data : Json) :
    Conforms schema data ↔
      Fits (schema, data) ∧ ∀ place, Below (schema, data) place → Conforms place.1 place.2 := by
  constructor
  · intro conforms
    exact ⟨conforms _ .refl, fun place below deeper path => conforms deeper (.head below path)⟩
  · rintro ⟨here, deeper⟩ place path
    rcases path.cases_head with rfl | ⟨next, below, rest⟩
    · exact here
    · exact deeper next below place rest

theorem not_below_of_not_object {schema : Schema} {data : Json} {place : Place}
    (noObject : ∀ fields, data ≠ .obj fields) : ¬ Below (schema, data) place := by
  intro below
  cases below with
  | property => exact noObject _ rfl
  | additional => exact noObject _ rfl

/-- What the schema says of a field that is no property. -/
def Additional.Allows : Additional → Json → Prop
  | .anything, _ => True
  | .nothing, _ => False
  | .each schema, value => Conforms schema value

theorem instances_object (type : Option JsonType) (fields : List (Str × Json)) :
    (∀ wanted ∈ type, wanted.isInstance (.obj fields) = true) ↔ ∀ wanted ∈ type, wanted = .dict := by
  cases type with
  | none => simp
  | some wanted => cases wanted <;> simp [JsonType.isInstance]

theorem conforms_object_iff (type : Option JsonType) (properties : Properties)
    (additional : Additional) (fields : List (Str × Json)) :
    Conforms (.mk type properties additional) (.obj fields) ↔
      (∀ wanted ∈ type, wanted = .dict) ∧
      (∀ key schema value, (key, schema) ∈ properties.entries → fields.lookup key = some value →
        Conforms schema value) ∧
      ∀ field ∈ fields, field.1 ∉ properties.keys → additional.Allows field.2 := by
  rw [conforms_iff, Fits, instances_object]
  constructor
  · rintro ⟨⟨typed, closed⟩, deeper⟩
    refine ⟨typed, fun key schema value declared found => deeper _ (.property declared found), ?_⟩
    intro field member undeclared
    cases additional with
    | anything => trivial
    | nothing => exact undeclared (closed fields rfl rfl field member)
    | each schema => exact deeper (schema, field.2) (.additional member undeclared)
  · rintro ⟨typed, declared, others⟩
    refine ⟨⟨typed, ?_⟩, ?_⟩
    · rintro same rfl ⟨⟩ field member
      by_contra undeclared
      exact others field member undeclared
    · rintro place below
      cases below with
      | property isDeclared found => exact declared _ _ _ isDeclared found
      | additional member undeclared => exact others _ member undeclared

theorem conforms_plain_iff (type : Option JsonType) (properties : Properties)
    (additional : Additional) {data : Json} (noObject : ∀ fields, data ≠ .obj fields) :
    Conforms (.mk type properties additional) data ↔
      ∀ wanted ∈ type, wanted.isInstance data = true := by
  rw [conforms_iff, Fits]
  constructor
  · exact fun conforms => conforms.1.1
  · intro typed
    exact ⟨⟨typed, fun fields _ same => absurd same (noObject fields)⟩,
      fun place below => absurd below (not_below_of_not_object noObject)⟩

/-! ### The validator -/

theorem checkType_ok_iff (data : Json) (path : Str) (type : Option JsonType) :
    checkType data path type = .ok () ↔ ∀ wanted ∈ type, wanted.isInstance data = true := by
  cases type with
  | none => simp [checkType]
  | some wanted =>
    rw [checkType]
    split <;> simp_all

theorem checkExtraKeys_ok_iff (fields : List (Str × Json)) (keys : List Str) (path : Str) :
    checkExtraKeys fields keys path = .ok () ↔ ∀ field ∈ fields, field.1 ∈ keys := by
  have extra : (fields.map Prod.fst).filter (· ∉ keys) = [] ↔ ∀ field ∈ fields, field.1 ∈ keys := by
    simp [List.filter_eq_nil_iff]
  rw [← extra, checkExtraKeys]
  cases (fields.map Prod.fst).filter (· ∉ keys) with
  | nil => simp
  | cons key keys => simp

/-- The turns of `validate_config` at an object. -/
theorem validateConfig_object_ok_iff (path : Str) (fields : List (Str × Json))
    (type : Option JsonType) (properties : Properties) (additional : Additional) :
    validateConfig path (.obj fields) (.mk type properties additional) = .ok () ↔
      checkType (.obj fields) path type = .ok () ∧
      (additional = .nothing → checkExtraKeys fields properties.keys path = .ok ()) ∧
      validateProperties path fields properties = .ok () ∧
      validateAdditional path (fields.filter (·.1 ∉ properties.keys)) additional = .ok () := by
  cases additional with
  | anything => simp [validateConfig, check_ok_iff]
  | nothing => simp [validateConfig, check_ok_iff]
  | each schema => simp [validateConfig, check_ok_iff]

theorem validateConfig_plain_ok_iff (path : Str) {data : Json} (noObject : ∀ fields, data ≠ .obj fields)
    (type : Option JsonType) (properties : Properties) (additional : Additional) :
    validateConfig path data (.mk type properties additional) = .ok () ↔
      checkType data path type = .ok () := by
  cases data with
  | obj fields => exact absurd rfl (noObject fields)
  | null => simp [validateConfig, check_ok_iff, pure, Except.pure]
  | bool value => simp [validateConfig, check_ok_iff, pure, Except.pure]
  | int value => simp [validateConfig, check_ok_iff, pure, Except.pure]
  | float zero => simp [validateConfig, check_ok_iff, pure, Except.pure]
  | str text => simp [validateConfig, check_ok_iff, pure, Except.pure]
  | arr elements => simp [validateConfig, check_ok_iff, pure, Except.pure]

mutual

theorem validateConfig_ok_iff :
    ∀ schema path data, validateConfig path data schema = .ok () ↔ Conforms schema data
  | .mk type properties additional, path, data => by
    by_cases object : ∃ fields, data = .obj fields
    · obtain ⟨fields, rfl⟩ := object
      rw [validateConfig_object_ok_iff, conforms_object_iff, checkType_ok_iff, instances_object,
        checkExtraKeys_ok_iff, validateProperties_ok_iff properties,
        validateAdditional_ok_iff additional]
      constructor
      · rintro ⟨typed, closed, declared, others⟩
        refine ⟨typed, declared, fun field member undeclared => ?_⟩
        cases additional with
        | anything => trivial
        | nothing => exact undeclared (closed rfl field member)
        | each schema =>
          exact others schema rfl field
            (List.mem_filter.mpr ⟨member, decide_eq_true undeclared⟩)
      · rintro ⟨typed, declared, others⟩
        refine ⟨typed, ?_, declared, ?_⟩
        · rintro rfl field member
          by_contra undeclared
          exact others field member undeclared
        · rintro schema rfl field member
          obtain ⟨inFields, undeclared⟩ := List.mem_filter.mp member
          exact others field inFields (of_decide_eq_true undeclared)
    · have noObject : ∀ fields, data ≠ .obj fields := fun fields same => object ⟨fields, same⟩
      rw [validateConfig_plain_ok_iff path noObject, conforms_plain_iff _ _ _ noObject,
        checkType_ok_iff]

theorem validateProperties_ok_iff :
    ∀ properties path fields, validateProperties path fields properties = .ok () ↔
      ∀ key schema value, (key, schema) ∈ properties.entries → fields.lookup key = some value →
        Conforms schema value
  | .none, path, fields => by simp [validateProperties, Properties.entries]
  | .property key schema others, path, fields => by
    have rest := validateProperties_ok_iff others path fields
    have first (value : Json) := validateConfig_ok_iff schema (subPath path key) value
    have split : validateProperties path fields (.property key schema others) = .ok () ↔
        (∀ value, fields.lookup key = some value → Conforms schema value) ∧
          validateProperties path fields others = .ok () := by
      rw [validateProperties]
      cases fields.lookup key with
      | none => simp
      | some value => simp [check_ok_iff, first]
    rw [split, rest]
    constructor
    · rintro ⟨here, later⟩ other otherSchema value declared found
      rcases List.mem_cons.mp declared with same | inOthers
      · cases same
        exact here value found
      · exact later other otherSchema value inOthers found
    · intro all
      exact ⟨fun value found => all key schema value List.mem_cons_self found,
        fun other otherSchema value declared found =>
          all other otherSchema value (List.mem_cons_of_mem _ declared) found⟩

theorem validateAdditional_ok_iff :
    ∀ additional path fields, validateAdditional path fields additional = .ok () ↔
      ∀ schema, additional = .each schema → ∀ field ∈ fields, Conforms schema field.2
  | .anything, path, fields => by simp [validateAdditional]
  | .nothing, path, fields => by simp [validateAdditional]
  | .each schema, path, fields => by
    have each (field : Str × Json) := validateConfig_ok_iff schema (subPath path field.1) field.2
    rw [validateAdditional, forM_ok_iff]
    simp only [each]
    constructor
    · rintro all _ ⟨⟩
      exact all
    · exact fun all => all schema rfl

end

/-- All that the validator raises is a ValueError. -/
abbrev OnlyValueErrors (result : Except Raised Unit) : Prop :=
  Meets (fun raised => ∃ text, raised = .exception (.valueError text)) (fun _ => True) result

theorem checkType_raises (data : Json) (path : Str) (type : Option JsonType) :
    OnlyValueErrors (checkType data path type) := by
  cases type with
  | none => trivial
  | some wanted =>
    rw [checkType]
    split
    · trivial
    · exact ⟨_, rfl⟩

theorem checkExtraKeys_raises (fields : List (Str × Json)) (keys : List Str) (path : Str) :
    OnlyValueErrors (checkExtraKeys fields keys path) := by
  rw [checkExtraKeys]
  split
  · trivial
  · exact ⟨_, rfl⟩

mutual

theorem validateConfig_raises : ∀ schema path data, OnlyValueErrors (validateConfig path data schema)
  | .mk type properties additional, path, data => by
    have declared (fields : List (Str × Json)) := validateProperties_raises properties path fields
    have others (fields : List (Str × Json)) := validateAdditional_raises additional path fields
    unfold validateConfig
    apply meets_bind (checkType_raises data path type)
    intro _ _
    cases data with
    | obj fields =>
      cases additional with
      | nothing =>
        exact meets_bind (checkExtraKeys_raises fields properties.keys path) (fun _ _ =>
          meets_bind (declared fields) (fun _ _ => others _))
      | anything => exact meets_bind (declared fields) (fun _ _ => others _)
      | each schema => exact meets_bind (declared fields) (fun _ _ => others _)
    | null => trivial
    | bool value => trivial
    | int value => trivial
    | float zero => trivial
    | str text => trivial
    | arr elements => trivial

theorem validateProperties_raises :
    ∀ properties path fields, OnlyValueErrors (validateProperties path fields properties)
  | .none, path, fields => trivial
  | .property key schema others, path, fields => by
    have rest := validateProperties_raises others path fields
    have first (value : Json) := validateConfig_raises schema (subPath path key) value
    rw [validateProperties]
    cases fields.lookup key with
    | none => exact rest
    | some value => exact meets_bind (first value) (fun _ _ => rest)

theorem validateAdditional_raises :
    ∀ additional path fields, OnlyValueErrors (validateAdditional path fields additional)
  | .anything, path, fields => trivial
  | .nothing, path, fields => trivial
  | .each schema, path, fields => by
    have each (field : Str × Json) := validateConfig_raises schema (subPath path field.1) field.2
    rw [validateAdditional]
    exact meets_forM (fun field _ => each field)

end

theorem validateConfig_rejects {schema : Schema} {data : Json} (path : Str)
    (bad : ¬ Conforms schema data) : ∃ text, validateConfig path data schema = raise (.valueError text) := by
  cases result : validateConfig path data schema with
  | ok value => exact absurd ((validateConfig_ok_iff schema path data).mp result) bad
  | error raised =>
    obtain ⟨text, rfl⟩ := (validateConfig_raises schema path data).error result
    exact ⟨text, rfl⟩

/-! ### Accepted documents -/

theorem conforms_dict {properties : Properties} {additional : Additional} {data : Json}
    (conforms : Conforms (.mk (some .dict) properties additional) data) :
    ∃ fields, data = .obj fields ∧
      (∀ key schema value, (key, schema) ∈ properties.entries → fields.lookup key = some value →
        Conforms schema value) ∧
      ∀ field ∈ fields, field.1 ∉ properties.keys → additional.Allows field.2 := by
  by_cases object : ∃ fields, data = .obj fields
  · obtain ⟨fields, rfl⟩ := object
    exact ⟨fields, rfl, ((conforms_object_iff ..).mp conforms).2⟩
  · have noObject : ∀ fields, data ≠ .obj fields := fun fields same => object ⟨fields, same⟩
    have typed := (conforms_plain_iff _ _ _ noObject).mp conforms .dict rfl
    cases data with
    | obj fields => exact absurd rfl (noObject fields)
    | null => cases typed
    | bool value => cases typed
    | int value => cases typed
    | float zero => cases typed
    | str text => cases typed
    | arr elements => cases typed

theorem conforms_str {data : Json} (conforms : Conforms strSchema data) : ∃ text, data = .str text := by
  have typed := ((conforms_iff ..).mp conforms).1.1 .str rfl
  cases data with
  | str text => exact ⟨text, rfl⟩
  | null => cases typed
  | bool value => cases typed
  | int value => cases typed
  | float zero => cases typed
  | arr elements => cases typed
  | obj fields => cases typed

theorem conforms_strDict {data : Json} (conforms : Conforms strDict data) :
    ∃ fields, data = .obj fields ∧ ∀ field ∈ fields, ∃ text, field.2 = .str text := by
  obtain ⟨fields, rfl, _, others⟩ := conforms_dict conforms
  exact ⟨fields, rfl, fun field member => conforms_str (others field member List.not_mem_nil)⟩

theorem contains_object (fields : List (Str × Json)) (key : Str) :
    (Json.obj fields).contains key = .ok (fields.lookup key).isSome := by
  rw [Json.contains]
  congr 1
  induction fields with
  | nil => rfl
  | cons field fields ih =>
    rw [List.any_cons, List.lookup_cons, ih]
    by_cases same : field.1 = key
    · simp [same]
    · have different : (key == field.1) = false := by simpa using fun equal => same equal.symm
      simp [same, different]

theorem subscript_object {fields : List (Str × Json)} {key : Str} {value : Json}
    (found : fields.lookup key = some value) : (Json.obj fields).subscript key = .ok value := by
  rw [Json.subscript, found]

/-- A string of the registry of a configuration. -/
def RegistryText (config : Json) (text : Str) : Prop :=
  ∃ fields docker registry key, config = .obj fields ∧
    fields.lookup (py "docker") = some (.obj docker) ∧
    docker.lookup (py "registry") = some (.obj registry) ∧ registry.lookup key = some (.str text)

/-- The repository and the namespace that good strings of the registry give. -/
structure RegistryParts (good : Str → Prop) (repo space : Str) : Prop where
  repo : repo = [] ∨ ∃ host project repository, good host ∧ good project ∧ good repository ∧
    repo = host ++ py "/" ++ project ++ py "/" ++ repository
  space : space = py "devkit" ∨ ∃ name, good name ∧ space = py "devkit/" ++ name

section Registry

variable (display : Display) {good : Str → Prop} {registry : List (Str × Json)}

theorem registryRepo_accepted
    (texts : ∀ key ∈ [py "host", py "project", py "repository"], ∀ value,
      registry.lookup key = some value → ∃ text, value = .str text ∧ good text) :
    ∃ repo, registryRepo display (.obj registry) = .ok repo ∧
      (repo = [] ∨ ∃ host project repository, good host ∧ good project ∧ good repository ∧
        repo = host ++ py "/" ++ project ++ py "/" ++ repository) := by
  simp only [registryRepo, contains_object, bind, Except.bind]
  cases hasHost : registry.lookup (py "host") with
  | none => exact ⟨[], by simp [pure, Except.pure], .inl rfl⟩
  | some host =>
  cases hasProject : registry.lookup (py "project") with
  | none => exact ⟨[], by simp [pure, Except.pure], .inl rfl⟩
  | some project =>
  cases hasRepository : registry.lookup (py "repository") with
  | none => exact ⟨[], by simp [pure, Except.pure], .inl rfl⟩
  | some repository =>
    obtain ⟨host, rfl, goodHost⟩ := texts _ (by simp) _ hasHost
    obtain ⟨project, rfl, goodProject⟩ := texts _ (by simp) _ hasProject
    obtain ⟨repository, rfl, goodRepository⟩ := texts _ (by simp) _ hasRepository
    simp only [Option.isSome_some, Bool.and_self, if_true, subscript_object hasHost,
      subscript_object hasProject, subscript_object hasRepository, display.ofStr]
    split
    · exact ⟨_, rfl, .inr ⟨host, project, repository, goodHost, goodProject, goodRepository, rfl⟩⟩
    · exact ⟨[], rfl, .inl rfl⟩

theorem registryNamespace_accepted
    (texts : ∀ value, registry.lookup (py "namespace") = some value →
      ∃ text, value = .str text ∧ good text) :
    ∃ space, registryNamespace display (.obj registry) = .ok space ∧
      (space = py "devkit" ∨ ∃ name, good name ∧ space = py "devkit/" ++ name) := by
  simp only [registryNamespace, contains_object, bind, Except.bind]
  cases found : registry.lookup (py "namespace") with
  | none => exact ⟨py "devkit", by simp [pure, Except.pure], .inl rfl⟩
  | some value =>
    obtain ⟨text, rfl, goodText⟩ := texts value found
    simp only [Option.isSome_some, if_true, subscript_object found, display.ofStr]
    split
    · exact ⟨_, rfl, .inr ⟨text, goodText, rfl⟩⟩
    · exact ⟨_, rfl, .inl rfl⟩

end Registry

/-- `parse_registry_config` of an accepted document. -/
theorem parseRegistryConfig_accepted (display : Display) {config : Json}
    (conforms : Conforms configSchema config) {good : Str → Prop}
    (goodTexts : ∀ text, RegistryText config text → good text) :
    ∃ repo space, parseRegistryConfig display config = .ok (repo, space) ∧
      RegistryParts good repo space := by
  have nothing : RegistryParts good [] (py "devkit") := ⟨.inl rfl, .inl rfl⟩
  obtain ⟨fields, rfl, declared, _⟩ := conforms_dict conforms
  simp only [parseRegistryConfig, contains_object, bind, Except.bind]
  cases hasDocker : fields.lookup (py "docker") with
  | none => exact ⟨[], _, by simp [pure, Except.pure], nothing⟩
  | some docker =>
  obtain ⟨dockerFields, rfl, dockerDeclared, _⟩ :=
    conforms_dict (declared _ dockerSchema docker List.mem_cons_self hasDocker)
  simp only [Option.isSome_some, if_true, subscript_object hasDocker, contains_object]
  cases hasRegistry : dockerFields.lookup (py "registry") with
  | none => exact ⟨[], _, by simp [pure, Except.pure], nothing⟩
  | some registry =>
  obtain ⟨registryFields, rfl, registryDeclared, _⟩ :=
    conforms_dict (dockerDeclared _ registrySchema registry List.mem_cons_self hasRegistry)
  have texts (key : Str) (isDeclared : (key, strSchema) ∈ [(py "host", strSchema),
      (py "project", strSchema), (py "repository", strSchema), (py "namespace", strSchema)])
      (value : Json) (found : registryFields.lookup key = some value) :
      ∃ text, value = .str text ∧ good text := by
    obtain ⟨text, rfl⟩ := conforms_str (registryDeclared key strSchema value isDeclared found)
    exact ⟨text, rfl, goodTexts text
      ⟨fields, dockerFields, registryFields, key, rfl, hasDocker, hasRegistry, found⟩⟩
  obtain ⟨repo, madeRepo, okRepo⟩ := registryRepo_accepted display (by
    intro key member
    apply texts key
    simp only [List.mem_cons, List.not_mem_nil, or_false] at member
    rcases member with rfl | rfl | rfl <;> simp)
  obtain ⟨space, madeSpace, okSpace⟩ := registryNamespace_accepted display
    (texts (py "namespace") (by simp))
  refine ⟨repo, space, ?_, okRepo, okSpace⟩
  simp only [Option.isSome_some, if_true, subscript_object hasRegistry, madeRepo, madeSpace]
  rfl

/-- A package of an image has the empty text for its version. -/
def EmptyVersion (config : Json) : Prop :=
  ∃ fields docker images image settings packages name, config = .obj fields ∧
    fields.lookup (py "docker") = some (.obj docker) ∧
    docker.lookup (py "images") = some (.obj images) ∧ (image, .obj settings) ∈ images ∧
    settings.lookup (py "packages") = some (.obj packages) ∧ (name, .str []) ∈ packages

section Images

variable (display : Display) {stop : Raised → Prop}

theorem settingTexts_found {settings items : List (Str × Json)} {field : Str}
    (check : Json → Except Raised Unit) (found : settings.lookup field = some (.obj items)) :
    settingTexts display (.obj settings) field check = do
      let texts ← items.mapM (fun (key, value) => do
        check value
        return key ++ py "=" ++ display.text value)
      return some texts := by
  simp only [settingTexts, contains_object, found, Option.isSome_some, subscript_object found,
    Json.items, bind, Except.bind, if_true]

theorem settingTexts_meets {settings : List (Str × Json)} {field : Str}
    {check : Json → Except Raised Unit}
    (accepted : ∀ value, settings.lookup field = some value → ∃ items, value = .obj items ∧
      ∀ item ∈ items, Meets stop (fun _ => True) (check item.2)) :
    Meets stop (fun _ => True) (settingTexts display (.obj settings) field check) := by
  cases found : settings.lookup field with
  | none =>
    simp only [settingTexts, contains_object, found, bind, Except.bind]
    trivial
  | some value =>
    obtain ⟨items, rfl, checked⟩ := accepted value found
    rw [settingTexts_found display check found]
    have texts : Meets stop (fun _ => True) (items.mapM (fun (key, value) => do
        check value
        return key ++ py "=" ++ display.text value)) :=
      meets_mapM (fun item member => meets_bind (checked item member) (fun _ _ => trivial))
    exact meets_bind texts (fun _ _ => trivial)

/-- A field of the settings that only holds strings, and whose check passes all of them. -/
theorem strings_meet {settings : List (Str × Json)} {field : Str} {check : Json → Except Raised Unit}
    (conforms : ∀ value, settings.lookup field = some value → Conforms strDict value)
    (checked : ∀ items name text, settings.lookup field = some (.obj items) →
      (name, .str text) ∈ items → Meets stop (fun _ => True) (check (.str text))) :
    Meets stop (fun _ => True) (settingTexts display (.obj settings) field check) := by
  apply settingTexts_meets
  intro value found
  obtain ⟨items, rfl, strings⟩ := conforms_strDict (conforms value found)
  refine ⟨items, rfl, ?_⟩
  rintro ⟨name, value⟩ member
  obtain ⟨text, rfl⟩ := strings _ member
  exact checked items name text found member

theorem loadImageSettings_meets {maps : ExtraMaps} {image : Str} {settings : Json}
    (conforms : Conforms imageSchema settings)
    (empty : ∀ fields packages name, settings = .obj fields →
      fields.lookup (py "packages") = some (.obj packages) → (name, .str []) ∈ packages →
      stop .systemExit) :
    Meets stop (fun _ => True) (loadImageSettings display maps image settings) := by
  obtain ⟨fields, rfl, declared, _⟩ := conforms_dict conforms
  have packages : Meets stop (fun _ => True)
      (settingTexts display (.obj fields) (py "packages") checkVersion) := by
    apply strings_meet display (fun value found => declared _ strDict value (by simp [Properties.entries]) found)
    intro packages name text found member
    cases text with
    | nil => exact empty fields packages name rfl found member
    | cons char text => trivial
  have unchecked (field : Str) (isDeclared : (field, strDict) ∈ [(py "packages", strDict),
      (py "keys", strDict), (py "repositories", strDict)]) : Meets stop (fun _ => True)
      (settingTexts display (.obj fields) field (fun _ => .ok ())) :=
    strings_meet display (fun value found => declared field strDict value isDeclared found)
      (fun _ _ _ _ _ => trivial)
  exact meets_bind packages (fun _ _ => meets_bind (unchecked _ (by simp)) (fun _ _ =>
    meets_bind (unchecked _ (by simp)) (fun _ _ => trivial)))

theorem loadImagesConfig_meets {config : Json} (conforms : Conforms configSchema config)
    (loaded : config.contains (py "docker") = .ok true) :
    Meets (fun raised => raised = .systemExit ∧ EmptyVersion config) (fun _ => True)
      (loadImagesConfig display config) := by
  obtain ⟨fields, rfl, declared, _⟩ := conforms_dict conforms
  rw [contains_object] at loaded
  obtain ⟨docker, hasDocker⟩ := Option.isSome_iff_exists.mp (Except.ok.inj loaded)
  obtain ⟨dockerFields, rfl, dockerDeclared, _⟩ :=
    conforms_dict (declared _ dockerSchema docker List.mem_cons_self hasDocker)
  simp only [loadImagesConfig, subscript_object hasDocker, contains_object, bind, Except.bind]
  cases hasImages : dockerFields.lookup (py "images") with
  | none => trivial
  | some images =>
    obtain ⟨imageFields, rfl, _, others⟩ := conforms_dict
      (dockerDeclared _ (.mk (some .dict) .none (.each imageSchema)) images
        (by simp [Properties.entries]) hasImages)
    simp only [Option.isSome_some, if_true, subscript_object hasImages, Json.items]
    refine meets_foldlM (fun _ _ => True) imageFields ?_ imageFields [] _ rfl trivial
    rintro earlier ⟨image, settings⟩ later maps split _
    have member : (image, settings) ∈ imageFields :=
      split ▸ List.mem_append_right earlier List.mem_cons_self
    apply loadImageSettings_meets display (others _ member List.not_mem_nil)
    rintro settingFields packages name rfl hasPackages hasEmpty
    exact ⟨rfl, fields, dockerFields, imageFields, image, settingFields, packages, name, rfl,
      hasDocker, hasImages, member, hasPackages, hasEmpty⟩

theorem loadImagesConfig_not_ok {config : Json} (empty : EmptyVersion config) (maps : ExtraMaps) :
    loadImagesConfig display config ≠ .ok maps := by
  obtain ⟨fields, docker, images, image, settings, packages, name, rfl, hasDocker, hasImages, member,
    hasPackages, hasEmpty⟩ := empty
  intro ok
  simp only [loadImagesConfig, subscript_object hasDocker, contains_object, hasImages,
    subscript_object hasImages, Json.items, Option.isSome_some, if_true, bind, Except.bind] at ok
  obtain ⟨state, next, turn⟩ := foldlM_ok_mem ok member
  obtain ⟨texts, read, _⟩ := bind_ok_iff.mp turn
  rw [settingTexts_found display checkVersion hasPackages] at read
  obtain ⟨lines, mapped, _⟩ := bind_ok_iff.mp read
  obtain ⟨line, _, checked⟩ := mapM_ok_mem mapped hasEmpty
  cases checked

end Images

theorem loadImagesConfig_accepted (display : Display) {config : Json}
    (conforms : Conforms configSchema config)
    (loaded : config.contains (py "docker") = .ok true) :
    (∃ maps, loadImagesConfig display config = .ok maps) ∧ ¬ EmptyVersion config ∨
      loadImagesConfig display config = exit ∧ EmptyVersion config := by
  have meets := loadImagesConfig_meets display conforms loaded
  cases result : loadImagesConfig display config with
  | ok maps =>
    exact .inl ⟨⟨maps, rfl⟩, fun empty => loadImagesConfig_not_ok display empty maps result⟩
  | error raised =>
    obtain ⟨rfl, empty⟩ := meets.error result
    exact .inr ⟨rfl, empty⟩

theorem contains_accepted {config : Json} (conforms : Conforms configSchema config) (key : Str) :
    ∃ present, config.contains key = .ok present := by
  obtain ⟨fields, rfl, _⟩ := conforms_dict conforms
  exact ⟨_, contains_object fields key⟩

theorem not_emptyVersion_of_absent {config : Json}
    (absent : config.contains (py "docker") = .ok false) : ¬ EmptyVersion config := by
  rintro ⟨fields, docker, _, _, _, _, _, rfl, hasDocker, _⟩
  rw [contains_object, hasDocker] at absent
  cases absent

theorem loadConfig_accepted (display : Display) {config : Json}
    (accepted : validateConfig [] config configSchema = .ok ()) :
    (∃ loaded, loadConfig display (.parsed config) = .ok loaded) ∧ ¬ EmptyVersion config ∨
      loadConfig display (.parsed config) = exit ∧ EmptyVersion config := by
  have conforms := (validateConfig_ok_iff _ _ _).mp accepted
  obtain ⟨repo, space, parsed, _⟩ :=
    parseRegistryConfig_accepted display conforms (fun text _ => (trivial : (fun _ => True) text))
  obtain ⟨present, contained⟩ := contains_accepted conforms (py "docker")
  simp only [loadConfig, JsonFile.load, accepted, contained, bind, Except.bind]
  cases present with
  | false =>
    exact .inl ⟨⟨_, rfl⟩, not_emptyVersion_of_absent contained⟩
  | true =>
    simp only [if_true, parsed]
    rcases loadImagesConfig_accepted display conforms contained with ⟨⟨maps, ok⟩, versions⟩ | ⟨exits, empty⟩
    · exact .inl ⟨⟨(repo, space, maps), by rw [ok]; rfl⟩, versions⟩
    · exact .inr ⟨by rw [exits]; rfl, empty⟩

theorem validation_exact (display : Display) :
    (∀ (schema : Schema) (path : Str) (data : Json),
      (validateConfig path data schema = .ok () ↔ Conforms schema data) ∧
      (¬ Conforms schema data → ∃ text, validateConfig path data schema = raise (.valueError text))) ∧
    ∀ config : Json, validateConfig [] config configSchema = .ok () →
      (∃ parts, parseRegistryConfig display config = .ok parts) ∧
      (config.contains (py "docker") = .ok true →
        (∃ maps, loadImagesConfig display config = .ok maps) ∧ ¬ EmptyVersion config ∨
          loadImagesConfig display config = exit ∧ EmptyVersion config) ∧
      ((∃ loaded, loadConfig display (.parsed config) = .ok loaded) ∧ ¬ EmptyVersion config ∨
        loadConfig display (.parsed config) = exit ∧ EmptyVersion config) := by
  refine ⟨fun schema path data => ⟨validateConfig_ok_iff schema path data,
    validateConfig_rejects path⟩, fun config accepted => ?_⟩
  have conforms := (validateConfig_ok_iff _ _ _).mp accepted
  obtain ⟨repo, space, parsed, _⟩ :=
    parseRegistryConfig_accepted display conforms (fun text _ => (trivial : (fun _ => True) text))
  exact ⟨⟨_, parsed⟩, loadImagesConfig_accepted display conforms, loadConfig_accepted display accepted⟩

end EzSdk.Devkit
