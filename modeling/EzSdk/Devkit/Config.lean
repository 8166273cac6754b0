import EzSdk.Devkit.Python
import EzSdk.Proto
import Mathlib.Data.List.AList

/-! The configuration of `docker/build.py`: the validation of `devkit.json` and what a
`DockerBuilder` loads from it and from the image directories. -/

namespace EzSdk.Devkit

inductive JsonType where
  | dict
  | list
  | str

mutual

inductive Schema where
  | mk (type : Option JsonType) (properties : Properties) (additional : Additional)

inductive Properties where
  | none
  | property (key : Str) (schema : Schema) (others : Properties)

/-- `additional_properties`: absent, false or a schema. -/
inductive Additional where
  | anything
  | nothing
  | each (schema : Schema)

end

def Properties.keys : Properties → List Str
  | none => []
  | property key _ others => key :: others.keys

def JsonType.name : JsonType → Str
  | dict => py "dict"
  | list => py "list"
  | str => py "str"

/-- `isinstance` -/
def JsonType.isInstance : JsonType → Json → Bool
  | dict, .obj _ => true
  | list, .arr _ => true
  | str, .str _ => true
  | _, _ => false

def checkType (data : Json) (path : Str) : Option JsonType → Except Raised Unit
  | none => .ok ()
  | some type =>
    if type.isInstance data then .ok ()
    else
      raise (.valueError (py "Invalid type at '" ++ path ++ py "'. Expected " ++
        type.name ++ py ", got " ++ data.typeName ++ py "."))

def checkExtraKeys (fields : List (Str × Json)) (keys : List Str) (path : Str) :
    Except Raised Unit :=
  match (fields.map Prod.fst).filter (· ∉ keys) with
  | [] => .ok ()
  | extraKeys =>
    raise (.valueError (py "Unexpected fields at '" ++ path ++ py "': " ++
      (py ", ").intercalate (sorted extraKeys)))

def subPath (path key : Str) : Str := if path = [] then key else path ++ py "." ++ key

mutual

def validateConfig (path : Str) (data : Json) : Schema → Except Raised Unit
  | .mk type properties additional => do
    checkType data path type
    match data with
    | .obj fields =>
      match additional with
      | .nothing => checkExtraKeys fields properties.keys path
      | _ => pure ()
      validateProperties path fields properties
      validateAdditional path (fields.filter (·.1 ∉ properties.keys)) additional
    | _ => pure ()

def validateProperties (path : Str) (fields : List (Str × Json)) : Properties → Except Raised Unit
  | .none => .ok ()
  | .property key schema others => do
    match fields.lookup key with
    | some value => validateConfig (subPath path key) value schema
    | none => pure ()
    validateProperties path fields others

def validateAdditional (path : Str) (fields : List (Str × Json)) : Additional → Except Raised Unit
  | .each schema => fields.forM (fun (key, value) => validateConfig (subPath path key) value schema)
  | _ => .ok ()

end

def strSchema : Schema := .mk (some .str) .none .anything

/-- A dict of strings. -/
def strDict : Schema := .mk (some .dict) .none (.each strSchema)

def registrySchema : Schema :=
  .mk (some .dict)
    (.property (py "host") strSchema <| .property (py "project") strSchema <|
      .property (py "repository") strSchema <| .property (py "namespace") strSchema .none)
    .nothing

def imageSchema : Schema :=
  .mk (some .dict)
    (.property (py "packages") strDict <| .property (py "keys") strDict <|
      .property (py "repositories") strDict .none)
    .nothing

def dockerSchema : Schema :=
  .mk (some .dict)
    (.property (py "registry") registrySchema <|
      .property (py "run") (.mk (some .list) .none .anything) <|
      .property (py "images") (.mk (some .dict) .none (.each imageSchema)) .none)
    .nothing

/-- `CONFIG_SCHEMA` -/
def configSchema : Schema :=
  .mk (some .dict) (.property (py "docker") dockerSchema .none) .nothing

section Loading

variable (display : Display)

/-- The part of `parse_registry_config` for the repository. -/
def registryRepo (registry : Json) : Except Raised Str := do
  let hasHost ← registry.contains (py "host")
  let hasProject ← registry.contains (py "project")
  let hasRepository ← registry.contains (py "repository")
  if hasHost && hasProject && hasRepository then
    let host ← registry.subscript (py "host")
    let project ← registry.subscript (py "project")
    let repository ← registry.subscript (py "repository")
    if host.truthy && project.truthy && repository.truthy then
      return display.text host ++ py "/" ++ display.text project ++ py "/" ++
        display.text repository
    else return []
  else return []

/-- The part of `parse_registry_config` for the namespace. -/
def registryNamespace (registry : Json) : Except Raised Str := do
  if ← registry.contains (py "namespace") then
    let value ← registry.subscript (py "namespace")
    if value.truthy then return py "devkit/" ++ display.text value
    else return py "devkit"
  else return py "devkit"

/-- The repository and the namespace. -/
def parseRegistryConfig (config : Json) : Except Raised (Str × Str) := do
  if ← config.contains (py "docker") then
    let dockerConfig ← config.subscript (py "docker")
    if ← dockerConfig.contains (py "registry") then
      let registry ← dockerConfig.subscript (py "registry")
      let repo ← registryRepo display registry
      let space ← registryNamespace display registry
      return (repo, space)
    else return ([], py "devkit")
  else return ([], py "devkit")

/-- Here the file is not validated. -/
def getImagePrefix (configFile : JsonFile) : Except Raised Str :=
  catching (fun exception => exception.isValueError || exception = .keyError)
    (.ok (py "devkit")) (do
      match ← configFile.load with
      | none => return py "devkit"
      | some config =>
        let (repo, space) ← parseRegistryConfig display config
        return if repo = [] then space else repo ++ py "/" ++ space)

/-- The texts `key=value` for a field of the settings of an image. -/
def settingTexts (settings : Json) (field : Str) (check : Json → Except Raised Unit) :
    Except Raised (Option (List Str)) := do
  if ← settings.contains field then
    let items ← (← settings.subscript field).items
    let texts ← items.mapM (fun (key, value) => do
      check value
      return key ++ py "=" ++ display.text value)
    return some texts
  else return none

/-- A package needs a version. -/
def checkVersion (version : Json) : Except Raised Unit :=
  if version.truthy then .ok () else exit

/-- The further build arguments of the images. -/
structure ExtraMaps where
  packages : AList (fun _ : Str => List Str)
  keys : AList (fun _ : Str => List Str)
  repositories : AList (fun _ : Str => List Str)

def insertTexts (table : AList (fun _ : Str => List Str)) (image : Str) :
    Option (List Str) → AList (fun _ : Str => List Str)
  | some texts => table.insert image texts
  | none => table

def loadImageSettings (maps : ExtraMaps) (image : Str) (settings : Json) :
    Except Raised ExtraMaps := do
  let packages ← settingTexts display settings (py "packages") checkVersion
  let keys ← settingTexts display settings (py "keys") (fun _ => .ok ())
  let repositories ← settingTexts display settings (py "repositories") (fun _ => .ok ())
  return ⟨insertTexts maps.packages image packages, insertTexts maps.keys image keys,
    insertTexts maps.repositories image repositories⟩

def loadImagesConfig (config : Json) : Except Raised ExtraMaps := do
  let dockerConfig ← config.subscript (py "docker")
  if ← dockerConfig.contains (py "images") then
    let images ← (← dockerConfig.subscript (py "images")).items
    images.foldlM (fun maps (image, settings) => loadImageSettings display maps image settings)
      ⟨∅, ∅, ∅⟩
  else return ⟨∅, ∅, ∅⟩

/-- `_load_config`: the repository, the namespace and the build arguments. -/
def loadConfig (configFile : JsonFile) : Except Raised (Str × Str × ExtraMaps) :=
  catching Exception.isValueError exit (do
    match ← configFile.load with
    | none => return ([], py "devkit", ⟨∅, ∅, ∅⟩)
    | some config =>
      validateConfig [] config configSchema
      if ← config.contains (py "docker") then
        let (repo, space) ← parseRegistryConfig display config
        let maps ← loadImagesConfig display config
        return (repo, space, maps)
      else return ([], py "devkit", ⟨∅, ∅, ∅⟩))

inductive Dockerfile where
  | unreadable
  | readable (content : Bytes)

/-- A search path: its `deps.json` and what is there under the name of a Dockerfile. -/
structure ImageDir where
  deps : JsonFile
  dockerfile : Str → Option Dockerfile

abbrev ImageConfigsMap := AList (fun _ : Str => Json)

def loadDeps (allConfigs : ImageConfigsMap) (dir : ImageDir) : Except Raised ImageConfigsMap := do
  match ← catching (· = .jsonDecodeError) exit dir.deps.load with
  | some (.obj configs) =>
    return configs.foldl (fun all (name, config) => all.insert name config) allConfigs
  | _ => return allConfigs

def loadImageConfigs (searchPaths : List ImageDir) : Except Raised ImageConfigsMap :=
  searchPaths.foldlM loadDeps ∅

structure DockerBuilder where
  searchPaths : List ImageDir
  repo : Str
  space : Str
  extraMaps : ExtraMaps
  imageConfigsMap : ImageConfigsMap

/-- `DockerBuilder(config_path, search_paths)` -/
def newDockerBuilder (configFile : JsonFile) (searchPaths : List ImageDir) :
    Except Raised DockerBuilder := do
  let (repo, space, extraMaps) ← loadConfig display configFile
  let imageConfigsMap ← loadImageConfigs searchPaths
  return ⟨searchPaths, repo, space, extraMaps, imageConfigsMap⟩

end Loading

end EzSdk.Devkit
