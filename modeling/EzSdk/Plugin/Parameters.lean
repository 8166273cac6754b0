import EzSdk.Foundation.FormatStrings
import EzSdk.Plugin.Generate

/-! The parameter of the plugin: what the rules of `ez_sdk.bzl` and `ez_protoc.bzl` make of
the texts of a plugin, and what `generate_code` reads from it. -/

namespace EzSdk.Plugin

open FormatStrings Tables

/-- `template.format(*positional, **named)` -/
def format (template : String) (positional : List String) (named : List (String × String)) :
    Option String :=
  (render (named.map (fun pair => (pair.1.toList, pair.2.toList))) (positional.map String.toList)
    .text template.toList).map String.ofList

def getTemplateOptions (suffix templateFile : String) : Option String :=
  format "template_name={tmpl},output_name={basename}{suffix}" []
    [("basename", "{basename}"), ("suffix", suffix), ("tmpl", templateFile)]

/-- An entry of `cc_backend_template_plugins` and the like, with the texts from which its
option is made. -/
structure TemplatePlugin where
  name : String
  package : String
  suffix : String
  templateFile : String
  deriving DecidableEq

def TemplatePlugin.label (plugin : TemplatePlugin) : String := plugin.package ++ ":" ++ plugin.name

structure PluginList where
  plugins : List TemplatePlugin
  distinctLabels : (plugins.map TemplatePlugin.label).Nodup

/-- An item of the dict `template_transform`. -/
def transformItem (protoBasename : String) (plugin : TemplatePlugin) : Option (String × String) := do
  let option ← getTemplateOptions plugin.suffix plugin.templateFile
  let text ← format option [] [("basename", protoBasename)]
  return (plugin.label, text)

/-- The dict `template_transform` of `_ez_sdk_protoc`. -/
def templateTransform (plugins : List TemplatePlugin) (protoBasename : String) :
    Option (List (String × String)) :=
  plugins.mapM (transformItem protoBasename)

def servicesItem (services : List String) : Option String :=
  if services = [] then some "" else format ",services={}" [";".intercalate services] []

/-- The last argument of `_build_protoc_args`. -/
def protocOut (transform : List (String × String)) (services : List String)
    (plugin : TemplatePlugin) (root : String) : Option String := do
  let templateStr := ((lastOf Prod.fst transform plugin.label).map Prod.snd).getD ""
  format "--{}_out={}:{}" [plugin.name, templateStr ++ (← servicesItem services), root] []

/-- protoc passes on the value of the option up to the first colon. -/
def protocParameter (plugin : TemplatePlugin) (argument : String) : String :=
  String.ofList ((argument.toList.drop ("--" ++ plugin.name ++ "_out=").toList.length).takeWhile
    (fun char => char ≠ ':'))

def assembledParameter (plugins : List TemplatePlugin) (plugin : TemplatePlugin)
    (protoBasename : String) (services : List String) (root : String) : Option String := do
  let transform ← templateTransform plugins protoBasename
  return protocParameter plugin (← protocOut transform services plugin root)

/-- A text without the characters that the parameter gives a meaning to; it may have an `=`. -/
structure Clean (text : String) : Prop where
  nonempty : text ≠ ""
  noComma : ',' ∉ text.toList
  noColon : ':' ∉ text.toList
  plain : Plain text.toList

instance (text : String) : Decidable (Clean text) :=
  decidable_of_iff
    (text ≠ "" ∧ ',' ∉ text.toList ∧ ':' ∉ text.toList ∧ Plain text.toList)
    ⟨fun ⟨nonempty, noComma, noColon, plain⟩ => ⟨nonempty, noComma, noColon, plain⟩,
      fun ⟨nonempty, noComma, noColon, plain⟩ => ⟨nonempty, noComma, noColon, plain⟩⟩

/-! ### Reading a parameter -/

def joinPairs (pairs : List (String × String)) : String :=
  ",".intercalate (pairs.map (fun pair => pair.1 ++ "=" ++ pair.2))

theorem pySplit_intercalate (separator : Char) {texts : List String} (nonempty : texts ≠ [])
    (free : ∀ text ∈ texts, separator ∉ text.toList) :
    pySplit separator ((String.singleton separator).intercalate texts) = texts := by
  have split : ([separator].intercalate (texts.map String.toList)).splitOn separator =
      texts.map String.toList := by
    apply List.splitOn_intercalate
    · intro chars member
      obtain ⟨text, inTexts, rfl⟩ := List.mem_map.mp member
      exact free text inTexts
    · simpa using nonempty
  rw [pySplit, String.toList_intercalate, String.toList_singleton, split, List.map_map]
  simp [Function.comp_def]

theorem intercalate_pySplit (separator : Char) (text : String) :
    (String.singleton separator).intercalate (pySplit separator text) = text := by
  rw [← String.toList_inj, String.toList_intercalate, pySplit, List.map_map, String.toList_singleton]
  simp [Function.comp_def]

/-- An item is cut at its first `=`. -/
theorem pySplit_item {key : String} (free : '=' ∉ key.toList) (value : String) :
    pySplit '=' (key ++ "=" ++ value) = key :: pySplit '=' value := by
  have text : (key ++ "=" ++ value).toList = key.toList ++ '=' :: value.toList := by
    simp [String.toList_append]
  have outside : ∀ char ∈ key.toList, (char == '=') = false := by
    intro char member
    exact beq_eq_false_iff_ne.mpr (fun same => free (same ▸ member))
  rw [pySplit, text, List.splitOn_eq_splitOnP,
    List.splitOnP_append_cons_of_forall_mem outside '=' rfl, ← List.splitOn_eq_splitOnP]
  simp [pySplit]

theorem parseParams_joinPairs {pairs : List (String × String)} (nonempty : pairs ≠ [])
    (keys : ∀ pair ∈ pairs, '=' ∉ pair.1.toList ∧ ',' ∉ pair.1.toList)
    (values : ∀ pair ∈ pairs, ',' ∉ pair.2.toList) : parseParams (joinPairs pairs) = pairs := by
  have items : pySplit ',' (joinPairs pairs) = pairs.map (fun pair => pair.1 ++ "=" ++ pair.2) := by
    apply pySplit_intercalate ','
    · simpa using nonempty
    · intro item member
      obtain ⟨pair, inPairs, rfl⟩ := List.mem_map.mp member
      simp [String.toList_append, (keys pair inPairs).2, values pair inPairs]
  rw [parseParams, items, List.filterMap_map]
  conv_rhs => rw [← List.filterMap_some (l := pairs)]
  apply List.filterMap_congr
  intro pair inPairs
  have value : "=".intercalate (pySplit '=' pair.2) = pair.2 := intercalate_pySplit '=' pair.2
  have some_piece : pySplit '=' pair.2 ≠ [] := by simp [pySplit]
  rw [Function.comp_apply, pySplit_item (keys pair inPairs).1]
  cases pieces : pySplit '=' pair.2 with
  | nil => exact absurd pieces some_piece
  | cons piece rest =>
    rw [pieces] at value
    simp only [value]

/-! ### Writing a parameter -/

theorem format_of_render {template text : String} {positional : List String}
    {named : List (String × String)}
    (rendered : render (named.map (fun pair => (pair.1.toList, pair.2.toList)))
      (positional.map String.toList) .text template.toList = some text.toList) :
    format template positional named = some text := by
  rw [format, rendered, Option.map_some, String.ofList_toList]

theorem getTemplateOptions_eq (suffix templateFile : String) :
    getTemplateOptions suffix templateFile =
      some ("template_name=" ++ templateFile ++ ",output_name={basename}" ++ suffix) := by
  have template : "template_name={tmpl},output_name={basename}{suffix}".toList =
      "template_name=".toList ++ '{' :: ("tmpl".toList ++ '}' :: (",output_name=".toList ++
        '{' :: ("basename".toList ++ '}' :: '{' :: ("suffix".toList ++ '}' :: [])))) := rfl
  let named := [("basename".toList, "{basename}".toList), ("suffix".toList, suffix.toList),
    ("tmpl".toList, templateFile.toList)]
  have tmpl : named.lookup "tmpl".toList = some templateFile.toList := rfl
  have basename : named.lookup "basename".toList = some "{basename}".toList := rfl
  have ending : named.lookup "suffix".toList = some suffix.toList := rfl
  have rendered : render named [] .text "template_name={tmpl},output_name={basename}{suffix}".toList =
      some ("template_name=" ++ templateFile ++ ",output_name={basename}" ++ suffix).toList := by
    rw [template, render_plain (by decide), render_named (by decide) (by decide) tmpl,
      render_plain (by decide), render_named (by decide) (by decide) basename,
      render_named (by decide) (by decide) ending, render_nil]
    simp [String.toList_append]
  exact format_of_render rendered

theorem format_option {suffix templateFile : String} (plainSuffix : Plain suffix.toList)
    (plainFile : Plain templateFile.toList) (protoBasename : String) :
    format ("template_name=" ++ templateFile ++ ",output_name={basename}" ++ suffix) []
        [("basename", protoBasename)] =
      some ("template_name=" ++ templateFile ++ ",output_name=" ++ protoBasename ++ suffix) := by
  have field : ",output_name={basename}".toList =
      ",output_name=".toList ++ '{' :: ("basename".toList ++ '}' :: []) := rfl
  have template : ("template_name=" ++ templateFile ++ ",output_name={basename}" ++ suffix).toList =
      "template_name=".toList ++ (templateFile.toList ++ (",output_name=".toList ++
        '{' :: ("basename".toList ++ '}' :: (suffix.toList ++ [])))) := by
    simp only [String.toList_append, field, List.append_assoc, List.cons_append, List.nil_append,
      List.append_nil]
  have basename : [("basename".toList, protoBasename.toList)].lookup "basename".toList =
      some protoBasename.toList := rfl
  apply format_of_render
  rw [template, render_plain (by decide), render_plain plainFile, render_plain (by decide),
    List.map_singleton, render_named (by decide) (by decide) basename, render_plain plainSuffix,
    render_nil]
  simp [String.toList_append]

theorem servicesItem_eq {services : List String} (nonempty : services ≠ []) :
    servicesItem services = some (",services=" ++ ";".intercalate services) := by
  have template : ",services={}".toList = ",services=".toList ++ '{' :: '}' :: [] := rfl
  rw [servicesItem, if_neg nonempty]
  apply format_of_render
  rw [template, List.map_singleton, render_plain (by decide), render_next, render_nil]
  simp [String.toList_append]

theorem format_out (name templateStr root : String) :
    format "--{}_out={}:{}" [name, templateStr, root] [] =
      some ("--" ++ name ++ "_out=" ++ templateStr ++ ":" ++ root) := by
  have template : "--{}_out={}:{}".toList = "--".toList ++ '{' :: '}' :: ("_out=".toList ++
      '{' :: '}' :: (":".toList ++ '{' :: '}' :: [])) := rfl
  apply format_of_render
  rw [template, List.map_cons, List.map_cons, List.map_singleton, render_plain (by decide),
    render_next, render_plain (by decide), render_next, render_plain (by decide), render_next,
    render_nil]
  simp [String.toList_append]

theorem protocParameter_out (plugin : TemplatePlugin) {templateStr : String}
    (noColon : ':' ∉ templateStr.toList) (root : String) :
    protocParameter plugin ("--" ++ plugin.name ++ "_out=" ++ templateStr ++ ":" ++ root) =
      templateStr := by
  have argument : ("--" ++ plugin.name ++ "_out=" ++ templateStr ++ ":" ++ root).toList =
      ("--" ++ plugin.name ++ "_out=").toList ++ (templateStr.toList ++ ':' :: root.toList) := by
    simp [String.toList_append]
  have before : ∀ char ∈ templateStr.toList, decide (char ≠ ':') = true := by
    intro char member
    exact decide_eq_true (fun same => noColon (same ▸ member))
  rw [protocParameter, argument, List.drop_left, List.takeWhile_append_of_pos before]
  simp

/-- What `template_transform` has for a plugin. -/
def optionText (protoBasename : String) (plugin : TemplatePlugin) : String :=
  "template_name=" ++ plugin.templateFile ++ ",output_name=" ++ protoBasename ++ plugin.suffix

theorem optionText_eq (protoBasename : String) (plugin : TemplatePlugin) :
    optionText protoBasename plugin =
      "template_name=" ++ plugin.templateFile ++ ",output_name=" ++ protoBasename ++ plugin.suffix :=
  rfl

theorem transformItem_eq (protoBasename : String) {plugin : TemplatePlugin}
    (file : Clean plugin.templateFile) (suffix : Clean plugin.suffix) :
    transformItem protoBasename plugin = some (plugin.label, optionText protoBasename plugin) := by
  have text := format_option suffix.plain file.plain protoBasename
  rw [transformItem, getTemplateOptions_eq, Option.bind_eq_bind, Option.bind_some, text]
  rfl

theorem templateTransform_eq {plugins : List TemplatePlugin} (protoBasename : String)
    (clean : ∀ plugin ∈ plugins, Clean plugin.templateFile ∧ Clean plugin.suffix) :
    templateTransform plugins protoBasename =
      some (plugins.map (fun plugin => (plugin.label, optionText protoBasename plugin))) := by
  rw [templateTransform]
  induction plugins with
  | nil => rfl
  | cons plugin plugins ih =>
    obtain ⟨file, suffix⟩ := clean plugin List.mem_cons_self
    have rest := ih (fun other member => clean other (List.mem_cons_of_mem plugin member))
    rw [List.mapM_cons, transformItem_eq protoBasename file suffix, rest]
    rfl

theorem transform_lookup (list : PluginList) (protoBasename : String) {plugin : TemplatePlugin}
    (member : plugin ∈ list.plugins) :
    lastOf Prod.fst (list.plugins.map (fun plugin => (plugin.label, optionText protoBasename plugin)))
      plugin.label = some (plugin.label, optionText protoBasename plugin) := by
  have keys : ((list.plugins.map (fun plugin =>
      (plugin.label, optionText protoBasename plugin))).map Prod.fst).Nodup := by
    rw [List.map_map]
    exact list.distinctLabels
  exact lastOf_of_mem Prod.fst _ keys _
    (List.mem_map_of_mem (f := fun plugin => (plugin.label, optionText protoBasename plugin)) member)

/-- The pairs that a plugin is to find in its parameter. -/
def parameterPairs (plugin : TemplatePlugin) (protoBasename : String) (services : List String) :
    List (String × String) :=
  [("template_name", plugin.templateFile), ("output_name", protoBasename ++ plugin.suffix)] ++
    if services = [] then [] else [("services", ";".intercalate services)]

theorem joinPairs_parameterPairs (plugin : TemplatePlugin) (protoBasename : String)
    (services : List String) :
    ∃ item, servicesItem services = some item ∧
      joinPairs (parameterPairs plugin protoBasename services) =
        optionText protoBasename plugin ++ item := by
  have template : "template_name=" = "template_name" ++ "=" := by decide
  have output : ",output_name=" = "," ++ ("output_name" ++ "=") := by decide
  have list : ",services=" = "," ++ ("services" ++ "=") := by decide
  by_cases none : services = []
  · refine ⟨"", by rw [servicesItem, if_pos none], ?_⟩
    simp only [optionText_eq, template, output, joinPairs, parameterPairs, none, if_true,
      List.append_nil, List.map_cons, List.map_nil, String.intercalate_cons_cons,
      String.intercalate_singleton, String.append_assoc, String.append_empty]
  · refine ⟨_, servicesItem_eq none, ?_⟩
    simp only [optionText_eq, template, output, list, joinPairs, parameterPairs, none, if_false,
      List.cons_append, List.nil_append, List.map_cons, List.map_nil, String.intercalate_cons_cons,
      String.intercalate_singleton, String.append_assoc]

/-- The texts of a plugin, its base name and the services. -/
structure CleanTexts (list : PluginList) (protoBasename : String) (services : List String) : Prop where
  plugins : ∀ plugin ∈ list.plugins, Clean plugin.templateFile ∧ Clean plugin.suffix
  basename : Clean protoBasename
  services : ∀ service ∈ services, Clean service ∧ ';' ∉ service.toList

section Assembled

variable {list : PluginList} {protoBasename : String} {services : List String}

theorem not_mem_intercalate {char : Char} {separator : String} {texts : List String}
    (outside : char ∉ separator.toList) (free : ∀ text ∈ texts, char ∉ text.toList) :
    char ∉ (separator.intercalate texts).toList := by
  rw [String.toList_intercalate]
  induction texts with
  | nil => simp
  | cons text texts ih =>
    have first := free text List.mem_cons_self
    have later := ih (fun other member => free other (List.mem_cons_of_mem text member))
    cases texts with
    | nil => simpa using first
    | cons other texts => simpa [List.intercalate_cons_cons, first, outside] using later

/-- A key without the characters that end it. -/
def KeyText (key : String) : Prop := '=' ∉ key.toList ∧ ',' ∉ key.toList ∧ ':' ∉ key.toList

instance (key : String) : Decidable (KeyText key) := inferInstanceAs (Decidable (_ ∧ _))

theorem parameterPairs_free (clean : CleanTexts list protoBasename services)
    {plugin : TemplatePlugin} (member : plugin ∈ list.plugins) :
    ∀ pair ∈ parameterPairs plugin protoBasename services,
      KeyText pair.1 ∧ ',' ∉ pair.2.toList ∧ ':' ∉ pair.2.toList := by
  obtain ⟨file, suffix⟩ := clean.plugins plugin member
  have basename := clean.basename
  intro pair inPairs
  rcases List.mem_append.mp inPairs with always | listed
  · rcases List.mem_pair.mp always with rfl | rfl
    · exact ⟨(by decide : KeyText "template_name"), file.noComma, file.noColon⟩
    · refine ⟨(by decide : KeyText "output_name"), ?_, ?_⟩
      · simp [String.toList_append, basename.noComma, suffix.noComma]
      · simp [String.toList_append, basename.noColon, suffix.noColon]
  · by_cases none : services = []
    · simp [none] at listed
    · rw [if_neg none, List.mem_singleton] at listed
      subst listed
      refine ⟨(by decide : KeyText "services"), ?_, ?_⟩
      · exact not_mem_intercalate (by decide) (fun name named => (clean.services name named).1.noComma)
      · exact not_mem_intercalate (by decide) (fun name named => (clean.services name named).1.noColon)

theorem assembledParameter_eq (clean : CleanTexts list protoBasename services)
    {plugin : TemplatePlugin} (member : plugin ∈ list.plugins) (root : String) :
    assembledParameter list.plugins plugin protoBasename services root =
      some (joinPairs (parameterPairs plugin protoBasename services)) := by
  obtain ⟨item, itemEq, joined⟩ := joinPairs_parameterPairs plugin protoBasename services
  have noColon : ':' ∉ (joinPairs (parameterPairs plugin protoBasename services)).toList := by
    apply not_mem_intercalate (by decide)
    intro text inItems
    obtain ⟨pair, inPairs, rfl⟩ := List.mem_map.mp inItems
    obtain ⟨key, value⟩ := parameterPairs_free clean member pair inPairs
    simp [String.toList_append, key.2.2, value.2]
  rw [assembledParameter, templateTransform_eq protoBasename clean.plugins]
  simp only [protocOut, transform_lookup list protoBasename member, itemEq, Option.bind_eq_bind,
    Option.bind_some, Option.map_some, Option.getD_some, format_out, ← joined, Option.pure_def,
    protocParameter_out plugin noColon]

/-- The plugin reads the pairs that the rules have written. -/
theorem parseParams_assembled (clean : CleanTexts list protoBasename services)
    {plugin : TemplatePlugin} (member : plugin ∈ list.plugins) :
    parseParams (joinPairs (parameterPairs plugin protoBasename services)) =
      parameterPairs plugin protoBasename services := by
  have free := parameterPairs_free clean member
  apply parseParams_joinPairs
  · simp [parameterPairs]
  · exact fun pair inPairs => ⟨(free pair inPairs).1.1, (free pair inPairs).1.2.1⟩
  · exact fun pair inPairs => (free pair inPairs).2.1

theorem getParam_assembled (clean : CleanTexts list protoBasename services)
    {plugin : TemplatePlugin} (member : plugin ∈ list.plugins) {key value : String}
    (pair : (key, value) ∈ parameterPairs plugin protoBasename services) :
    getParam (joinPairs (parameterPairs plugin protoBasename services)) key = some value := by
  have keys : ((parameterPairs plugin protoBasename services).map Prod.fst).Nodup := by
    unfold parameterPairs
    split
    · exact (by decide : ["template_name", "output_name"].Nodup)
    · exact (by decide : ["template_name", "output_name", "services"].Nodup)
  have found := lastOf_of_mem Prod.fst _ keys (key, value) pair
  rw [getParam, parseParams_assembled clean member, found, Option.map_some]

theorem registryServices_assembled (clean : CleanTexts list protoBasename services)
    {plugin : TemplatePlugin} (member : plugin ∈ list.plugins) {request : CodeGeneratorRequest}
    (passed : request.parameter = joinPairs (parameterPairs plugin protoBasename services)) :
    registryServices request = services := by
  rw [registryServices, passed]
  by_cases none : services = []
  · rw [getParam, parseParams_assembled clean member]
    simp [parameterPairs, none, lastOf, firstOf]
  · have found := getParam_assembled clean member
      (by simp [parameterPairs, none] : ("services", ";".intercalate services) ∈ _)
    have split : pySplit ';' (";".intercalate services) = services :=
      pySplit_intercalate ';' none (fun name named => (clean.services name named).2)
    have joined : ";".intercalate services ≠ "" := by
      intro empty
      have alone : services = [""] := split.symm.trans (congrArg (pySplit ';') empty)
      exact (clean.services "" (alone ▸ List.mem_singleton_self "")).1.nonempty rfl
    rw [found]
    simp only [joined, if_false]
    exact split

end Assembled

/-- What the rules write into the parameter of a plugin is what `generate_code` reads from it. -/
theorem parameter_round_trip (list : PluginList) (protoBasename : String) (services : List String)
    (clean : CleanTexts list protoBasename services) (plugin : TemplatePlugin)
    (member : plugin ∈ list.plugins) (root : String) :
    ∃ parameter, assembledParameter list.plugins plugin protoBasename services root = some parameter ∧
      getParam parameter "template_name" = some plugin.templateFile ∧
      getParam parameter "output_name" = some (protoBasename ++ plugin.suffix) ∧
      ∀ request : CodeGeneratorRequest, request.parameter = parameter →
        (∀ service, service ∈ registryServices request ↔ service ∈ services) ∧
        (∀ file ∈ request.protoFile, (makeContext request).services file =
          file.service.filter (fun svc => getFullyQualifiedName file svc ∈ services)) ∧
        ∀ (Content : Type) (getTemplate : String → Except String (Context → Except String Content))
          (template : Context → Except String Content) (content : Content),
          getTemplate plugin.templateFile = .ok template →
          template (makeContext request) = .ok content →
          generateCode getTemplate request = ⟨none, [(protoBasename ++ plugin.suffix, content)]⟩ := by
  have named : getParam (joinPairs (parameterPairs plugin protoBasename services)) "template_name" =
      some plugin.templateFile := getParam_assembled clean member (by simp [parameterPairs])
  have output : getParam (joinPairs (parameterPairs plugin protoBasename services)) "output_name" =
      some (protoBasename ++ plugin.suffix) := getParam_assembled clean member (by simp [parameterPairs])
  refine ⟨_, assembledParameter_eq clean member root, named, output, ?_⟩
  intro request passed
  have registered := registryServices_assembled clean member passed
  refine ⟨fun service => by rw [registered], ?_, ?_⟩
  · intro file present
    rw [context_services request file present]
    simp only [Listed, registered]
  · intro Content getTemplate template content loads renders
    unfold generateCode
    rw [passed, named, output, Option.getD_some]
    split
    · exact absurd ‹_› (clean.plugins plugin member).1.nonempty
    · simp [loads, renders]

/-- The plugins of `cc_backend_template_plugins`. -/
def ccBackendTemplatePlugins : PluginList where
  plugins :=
    [⟨"ez_sdk_cc_backend_plugin0", "//tools/plugin", ".grpc.pb.h", "grpc.pb.h.jinja2"⟩,
      ⟨"ez_sdk_cc_backend_plugin1", "//tools/plugin", "_server_reader_writer.h",
        "server_reader_writer.h.jinja2"⟩,
      ⟨"ez_sdk_cc_backend_plugin2", "//tools/plugin", "_client_reader_writer.h",
        "client_reader_writer.h.jinja2"⟩]
  distinctLabels := by decide

/-- The plugins of `rs_backend_template_plugins` and `rs_server_bridge_template_plugins`. -/
def rsTemplatePlugins : PluginList where
  plugins :=
    [⟨"ez_sdk_rs_backend_plugin0", "//tools/plugin", "_isolate_rpc_service.rs",
        "isolate_rpc_service.rs.jinja2"⟩,
      ⟨"ez_sdk_rs_backend_plugin1", "//tools/plugin", "_isolate_stub.rs", "isolate_stub.rs.jinja2"⟩,
      ⟨"ez_sdk_rs_server_bridge_plugin0", "//tools/plugin", "_lib.rs", "lib.rs.jinja2"⟩]
  distinctLabels := by decide

theorem templatePlugins_clean :
    ∀ plugin ∈ ccBackendTemplatePlugins.plugins ++ rsTemplatePlugins.plugins,
      Clean plugin.templateFile ∧ Clean plugin.suffix := by
  decide +kernel

theorem rs_stub_parameter_read :
    ∃ parameter, assembledParameter rsTemplatePlugins.plugins
        ⟨"ez_sdk_rs_backend_plugin1", "//tools/plugin", "_isolate_stub.rs", "isolate_stub.rs.jinja2"⟩
        "greeter" ["example.Greeter", "a=b"] "bazel-out/gen" = some parameter ∧
      getParam parameter "template_name" = some "isolate_stub.rs.jinja2" ∧
      getParam parameter "output_name" = some "greeter_isolate_stub.rs" := by
  have clean : CleanTexts rsTemplatePlugins "greeter" ["example.Greeter", "a=b"] := by
    refine ⟨fun plugin member => templatePlugins_clean plugin (List.mem_append_right _ member), ?_, ?_⟩
    · decide
    · decide
  obtain ⟨parameter, assembled, named, output, _⟩ := parameter_round_trip rsTemplatePlugins "greeter"
    ["example.Greeter", "a=b"] clean _ (List.mem_cons_of_mem _ List.mem_cons_self) "bazel-out/gen"
  exact ⟨parameter, assembled, named, output⟩

end EzSdk.Plugin
