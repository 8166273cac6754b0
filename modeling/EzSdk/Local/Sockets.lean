import Mathlib.Data.List.AList

/-! The sockets of the local test environment: where the mock enforcer looks for the server of a
service, and where `test_isolate` starts it. -/

namespace EzSdk.Local

abbrev Str := List Char

/-- What can be the name of a service. -/
structure ServiceName where
  text : Str
  valid : ∀ char ∈ text, char.isAlphanum = true ∨ char = '_'
  deriving DecidableEq

/-! ### The mock enforcer -/

/-- `!result.empty() && result.back() != '-'`. -/
def isOpen (result : Str) : Bool := !result.isEmpty && result.getLast? != some '-'

/-- One turn of the loop of `kebabCase`. -/
def kebabStep (result : Str) (char : Char) : Str :=
  let separated :=
    if (char.isUpper || char == ' ' || char == '_') && isOpen result then result ++ ['-'] else result
  if char != ' ' && char != '_' then separated ++ [char.toLower] else separated

def kebabCase (text : Str) : Str := text.foldl kebabStep []

def enforcerSocket (service : ServiceName) : Str :=
  "unix:///tmp/".toList ++ kebabCase service.text ++ "-server-uds".toList

/-- `routing_table_` after the constructor. -/
def routingTable (services : List ServiceName) : AList (fun _ : ServiceName => Str) :=
  services.foldl (fun table service => table.insert service (enforcerSocket service)) ∅

/-! ### The script -/

/-- `sed -E 's/([a-z0-9])([A-Z])/\1-\2/g'`. -/
def sedBoundaries : Str → Str
  | first :: second :: rest =>
    if (first.isLower ∨ first.isDigit) ∧ second.isUpper then
      first :: '-' :: second :: sedBoundaries rest
    else first :: sedBoundaries (second :: rest)
  | rest => rest

/-- `tr from to` for single characters. -/
def translate (old new : Char) (text : Str) : Str :=
  text.map (fun char => if char = old then new else char)

/-- `kebab_case` of the script. -/
def scriptKebabCase (text : Str) : Str :=
  translate '_' '-' (translate ' ' '-' ((sedBoundaries text).map Char.toLower))

/-- Where the script starts the server of a service. -/
def launcherSocket (service : ServiceName) : Str :=
  "/tmp/".toList ++ scriptKebabCase service.text ++ "-server-uds".toList

/-! ### Names and words -/

/-- Neither two underscores nor two capitals. -/
def Apart (first second : Char) : Prop :=
  ¬ (first = '_' ∧ second = '_') ∧ ¬ (first.isUpper = true ∧ second.isUpper = true)

/-- No underscore at the start, no two underscores and no two capitals side by side. -/
structure Plain (text : Str) : Prop where
  start : text.head? ≠ some '_'
  apart : text.IsChain Apart

/-- The parts of a name between underscores and before capitals, in lower case. -/
def pieces : Str → List Str
  | [] => [[]]
  | char :: rest =>
    if char = '_' then [] :: pieces rest
    else
      match pieces rest with
      | [] => [[char.toLower]]
      | head :: tail =>
        if char.isUpper then [] :: (char.toLower :: head) :: tail else (char.toLower :: head) :: tail

/-- The pieces of a name that are not empty, except that the last one may be. -/
def words (text : Str) : List Str :=
  (pieces text).dropLast.filter (· ≠ []) ++ (pieces text).getLast?.toList

/-! ### Characters of names -/

def NameChar (char : Char) : Prop := char.isAlphanum = true ∨ char = '_'

/-- A letter or digit, for all that the two programs ask. -/
structure Plainly (char : Char) : Prop where
  notUnderscore : char ≠ '_'
  notSpace : char ≠ ' '
  lower : char.toLower ≠ '-' ∧ char.toLower ≠ '_' ∧ char.toLower ≠ ' '
  kind : char.isUpper = !(char.isLower || char.isDigit)

theorem nameChar_lt {char : Char} (name : NameChar char) : char.toNat < 128 := by
  rcases name with alphanum | rfl
  · change ((decide ('A'.val ≤ char.val ∧ char.val ≤ 'Z'.val) ||
        (decide ('a'.val ≤ char.val) && decide (char.val ≤ 'z'.val))) ||
      (decide ('0'.val ≤ char.val) && decide (char.val ≤ '9'.val))) = true at alphanum
    simp only [Bool.or_eq_true, Bool.and_eq_true, decide_eq_true_eq, UInt32.le_iff_toNat_le] at alphanum
    have code : char.toNat = char.val.toNat := rfl
    have lastUpper : 'Z'.val.toNat = 90 := rfl
    have lastLower : 'z'.val.toNat = 122 := rfl
    have lastDigit : '9'.val.toNat = 57 := rfl
    omega
  · decide

theorem nameChar_cases {char : Char} (name : NameChar char) : char = '_' ∨ Plainly char := by
  have checked : ∀ code < 128, (Char.ofNat code).isAlphanum = true →
      Char.ofNat code ≠ '_' ∧ Char.ofNat code ≠ ' ' ∧
        ((Char.ofNat code).toLower ≠ '-' ∧ (Char.ofNat code).toLower ≠ '_' ∧ (Char.ofNat code).toLower ≠ ' ') ∧
        (Char.ofNat code).isUpper = !((Char.ofNat code).isLower || (Char.ofNat code).isDigit) := by
    decide +kernel
  rcases name with alphanum | same
  · have facts := checked char.toNat (nameChar_lt (.inl alphanum))
    rw [Char.ofNat_toNat] at facts
    obtain ⟨notUnderscore, notSpace, lower, kind⟩ := facts alphanum
    exact .inr ⟨notUnderscore, notSpace, lower, kind⟩
  · exact .inl same

theorem kebabStep_underscore (result : Str) :
    kebabStep result '_' = if isOpen result then result ++ ['-'] else result := by
  simp [kebabStep]

theorem kebabStep_plainly (result : Str) {char : Char} (plainly : Plainly char) :
    kebabStep result char =
      (if char.isUpper && isOpen result then result ++ ['-'] else result) ++ [char.toLower] := by
  simp [kebabStep, plainly.notUnderscore, plainly.notSpace]

theorem isOpen_plainly (result : Str) {char : Char} (plainly : Plainly char) :
    isOpen (result ++ [char.toLower]) = true := by
  simp [isOpen, plainly.lower.1]

theorem isOpen_separator (result : Str) : isOpen (result ++ ['-']) = false := by
  simp [isOpen]

/-! ### The words of a name -/

/-- The pieces with separators between those that are not empty. -/
def joined : List Str → Str
  | [] => []
  | [last] => last
  | head :: next :: tail =>
    if head = [] then joined (next :: tail) else head ++ '-' :: joined (next :: tail)

/-- The pieces after a text without a separator at its end. -/
def attached : List Str → Str
  | [] => []
  | [last] => last
  | head :: next :: tail => head ++ '-' :: joined (next :: tail)

theorem joined_eq_attached {head : Str} (nonempty : head ≠ []) (tail : List Str) :
    joined (head :: tail) = attached (head :: tail) := by
  cases tail with
  | nil => rfl
  | cons next tail => rw [joined, if_neg nonempty, attached]

theorem attached_cons (char : Char) (head : Str) (tail : List Str) :
    attached ((char :: head) :: tail) = char :: attached (head :: tail) := by
  cases tail <;> rfl

theorem attached_nil_cons (head : Str) (tail : List Str) :
    attached ([] :: head :: tail) = '-' :: joined (head :: tail) := rfl

theorem joined_nil_cons (head : Str) (tail : List Str) :
    joined ([] :: head :: tail) = joined (head :: tail) := by
  rw [joined, if_pos rfl]

theorem pieces_cons (text : Str) : ∃ head tail, pieces text = head :: tail := by
  cases text with
  | nil => exact ⟨[], [], rfl⟩
  | cons char rest =>
    rw [pieces]
    split
    · exact ⟨_, _, rfl⟩
    · split
      · exact ⟨_, _, rfl⟩
      · split
        · exact ⟨_, _, rfl⟩
        · exact ⟨_, _, rfl⟩

/-- The loop appends the pieces. -/
theorem foldl_pieces (text : Str) (valid : ∀ char ∈ text, NameChar char) (result : Str) :
    text.foldl kebabStep result =
      result ++ if isOpen result then attached (pieces text) else joined (pieces text) := by
  induction text generalizing result with
  | nil => simp [pieces, attached, joined]
  | cons char rest ih =>
    have later := ih (fun other member => valid other (List.mem_cons_of_mem char member))
    obtain ⟨head, tail, same⟩ := pieces_cons rest
    rw [List.foldl_cons, later, pieces, same]
    rcases nameChar_cases (valid char List.mem_cons_self) with rfl | plainly
    · rw [kebabStep_underscore, if_pos rfl]
      cases after : isOpen result with
      | true => simp [isOpen_separator, attached_nil_cons]
      | false => simp [after, joined_nil_cons]
    · rw [kebabStep_plainly result plainly, if_neg plainly.notUnderscore,
        if_pos (isOpen_plainly _ plainly)]
      cases isOpen result with
      | true => cases char.isUpper <;> simp [attached_nil_cons, joined_eq_attached, attached_cons]
      | false => cases char.isUpper <;> simp [joined_nil_cons, joined_eq_attached, attached_cons]

theorem joined_eq_intercalate (head : Str) (tail : List Str) :
    joined (head :: tail) = List.intercalate ['-']
      ((head :: tail).dropLast.filter (· ≠ []) ++ (head :: tail).getLast?.toList) := by
  induction tail generalizing head with
  | nil => simp [joined]
  | cons next tail ih =>
    rw [joined, ih next, List.dropLast_cons_cons, List.getLast?_cons_cons]
    by_cases empty : head = []
    · rw [if_pos empty, List.filter_cons_of_neg (by simp [empty])]
    · rw [if_neg empty, List.filter_cons_of_pos (by simpa using empty), List.cons_append,
        List.intercalate_cons_of_ne_nil]
      · simp
      · simp

theorem kebabCase_eq (text : Str) (valid : ∀ char ∈ text, NameChar char) :
    kebabCase text = List.intercalate ['-'] (words text) := by
  obtain ⟨head, tail, same⟩ := pieces_cons text
  rw [kebabCase, foldl_pieces text valid, words, same, ← joined_eq_intercalate]
  rfl

theorem dash_notMem_pieces (text : Str) (valid : ∀ char ∈ text, NameChar char) :
    ∀ piece ∈ pieces text, '-' ∉ piece := by
  induction text with
  | nil => simp [pieces]
  | cons char rest ih =>
    have later := ih (fun other member => valid other (List.mem_cons_of_mem char member))
    obtain ⟨head, tail, same⟩ := pieces_cons rest
    rw [same] at later
    rw [pieces, same]
    rcases nameChar_cases (valid char List.mem_cons_self) with rfl | plainly
    · simpa using later
    · have notDash : ¬ '-' = char.toLower := fun equal => plainly.lower.1 equal.symm
      rw [if_neg plainly.notUnderscore]
      cases char.isUpper <;> simpa [notDash] using later

theorem words_mem {text word : Str} (member : word ∈ words text) : word ∈ pieces text := by
  rcases List.mem_append.mp member with inner | last
  · exact (List.dropLast_sublist _).subset (List.mem_filter.mp inner).1
  · exact List.mem_of_getLast? (Option.mem_toList.mp last)

theorem words_ne_nil (text : Str) : words text ≠ [] := by
  obtain ⟨head, tail, same⟩ := pieces_cons text
  simp [words, same]

theorem kebabCase_eq_iff (first second : ServiceName) :
    kebabCase first.text = kebabCase second.text ↔ words first.text = words second.text := by
  have split (service : ServiceName) :
      (kebabCase service.text).splitOn '-' = words service.text := by
    rw [kebabCase_eq service.text service.valid]
    apply List.splitOn_intercalate
    · intro word member
      exact dash_notMem_pieces service.text service.valid word (words_mem member)
    · exact words_ne_nil service.text
  constructor
  · intro same
    rw [← split first, ← split second, same]
  · intro same
    rw [kebabCase_eq first.text first.valid, kebabCase_eq second.text second.valid, same]

/-! ### The script on the same name -/

/-- What the two `tr` make of a character after `sed`. -/
def scriptChar (char : Char) : Char :=
  let spaced := if char.toLower = ' ' then '-' else char.toLower
  if spaced = '_' then '-' else spaced

theorem scriptKebabCase_eq (text : Str) : scriptKebabCase text = (sedBoundaries text).map scriptChar := by
  simp [scriptKebabCase, translate, scriptChar, Function.comp_def]

theorem scriptChar_underscore : scriptChar '_' = '-' := by decide

theorem scriptChar_dash : scriptChar '-' = '-' := by decide

theorem scriptChar_plainly {char : Char} (plainly : Plainly char) : scriptChar char = char.toLower := by
  simp [scriptChar, plainly.lower.2.1, plainly.lower.2.2]

/-- The script puts a separator between a lower case letter or digit and a capital. -/
def boundary (first second : Char) : Str :=
  if (first.isLower || first.isDigit) && second.isUpper then ['-'] else []

theorem sedBoundaries_cons (first second : Char) (rest : Str) (valid : NameChar second) :
    sedBoundaries (first :: second :: rest) =
      first :: (boundary first second ++ sedBoundaries (second :: rest)) := by
  rw [sedBoundaries, boundary]
  by_cases found : (first.isLower = true ∨ first.isDigit = true) ∧ second.isUpper = true
  · have capital : ¬ (second.isLower = true ∨ second.isDigit = true) := by
      rcases nameChar_cases valid with rfl | plainly
      · decide
      · have kind := plainly.kind
        rw [found.2] at kind
        simpa using kind
    have after : sedBoundaries (second :: rest) = second :: sedBoundaries rest := by
      cases rest with
      | nil => rfl
      | cons third rest =>
        rw [sedBoundaries, if_neg (fun both => capital both.1)]
    simp [found, after]
  · rw [if_neg found]
    simp [found]

theorem map_boundary (first second : Char) :
    (boundary first second).map scriptChar = boundary first second := by
  unfold boundary
  split
  · rw [List.map_singleton, scriptChar_dash]
  · rfl

theorem sedBoundaries_head (first : Char) (rest : Str) :
    ∃ tail, sedBoundaries (first :: rest) = first :: tail := by
  cases rest with
  | nil => exact ⟨[], rfl⟩
  | cons second rest =>
    rw [sedBoundaries]
    split
    · exact ⟨_, rfl⟩
    · exact ⟨_, rfl⟩

/-- A result that is not open gets no separator next. -/
theorem foldl_extends (text : Str) (valid : ∀ char ∈ text, NameChar char) (result : Str) :
    ∃ added, text.foldl kebabStep result = result ++ added ∧
      (isOpen result = false → added.head? ≠ some '-') := by
  refine ⟨_, foldl_pieces text valid result, ?_⟩
  intro closed
  rw [closed]
  have noDash := dash_notMem_pieces text valid
  have starts (pieces : List Str) (noDash : ∀ piece ∈ pieces, '-' ∉ piece) :
      (joined pieces).head? ≠ some '-' := by
    induction pieces with
    | nil => simp [joined]
    | cons head tail ih =>
      have later := ih (fun piece member => noDash piece (List.mem_cons_of_mem head member))
      cases head with
      | nil =>
        cases tail with
        | nil => simp [joined]
        | cons next tail => rwa [joined_nil_cons]
      | cons char head =>
        rw [joined_eq_attached (List.cons_ne_nil char head), attached_cons]
        intro same
        apply noDash _ List.mem_cons_self
        rw [List.head?_cons, Option.some.injEq] at same
        exact same ▸ List.mem_cons_self
  exact starts _ noDash

theorem isOpen_of_last {result : Str} {char : Char} (name : NameChar char)
    (last : result.getLast? = some (scriptChar char)) : isOpen result = decide (char ≠ '_') := by
  have nonempty : result ≠ [] := by
    intro empty
    rw [empty] at last
    cases last
  rcases nameChar_cases name with rfl | plainly
  · simp [isOpen, last, scriptChar_underscore]
  · simp [isOpen, last, nonempty, scriptChar_plainly plainly, plainly.lower.1, plainly.notUnderscore]

/-- After a character that both have written alike, the next one is written alike exactly when the
two are apart. -/
theorem kebabStep_apart {result : Str} {first second : Char} (firstName : NameChar first)
    (secondName : NameChar second) (last : result.getLast? = some (scriptChar first))
    (apart : Apart first second) :
    kebabStep result second = result ++ (boundary first second ++ [scriptChar second]) := by
  have after := isOpen_of_last firstName last
  rcases nameChar_cases secondName with rfl | plainly
  · have notUnderscore : first ≠ '_' := fun same => apart.1 ⟨same, rfl⟩
    rw [kebabStep_underscore, after, scriptChar_underscore]
    simp [notUnderscore, boundary]
  · rw [kebabStep_plainly result plainly, after, scriptChar_plainly plainly]
    cases upper : second.isUpper with
    | false => simp [boundary, upper]
    | true =>
      rcases nameChar_cases firstName with rfl | firstPlainly
      · simp [boundary, upper]
      · have notUpper : first.isUpper = false := by
          rw [← Bool.not_eq_true]
          exact fun both => apart.2 ⟨both, upper⟩
        have small : (first.isLower || first.isDigit) = true := by
          have kind := firstPlainly.kind
          rw [notUpper, eq_comm, Bool.not_eq_false'] at kind
          exact kind
        simp [boundary, upper, small, firstPlainly.notUnderscore]

theorem kebabStep_not_apart {result rest : Str} {first second : Char} (firstName : NameChar first)
    (secondName : NameChar second) (valid : ∀ char ∈ rest, NameChar char)
    (last : result.getLast? = some (scriptChar first)) (together : ¬ Apart first second)
    (added : Str) :
    rest.foldl kebabStep (kebabStep result second) ≠
      result ++ (boundary first second ++ scriptChar second :: added) := by
  have after := isOpen_of_last firstName last
  have split : first = '_' ∧ second = '_' ∨ first.isUpper = true ∧ second.isUpper = true := by
    unfold Apart at together
    tauto
  rcases split with ⟨rfl, rfl⟩ | ⟨firstUpper, secondUpper⟩
  · have closed : isOpen result = false := by simpa using after
    obtain ⟨more, extends_, noDash⟩ := foldl_extends rest valid result
    rw [kebabStep_underscore, closed, if_neg Bool.false_ne_true, extends_]
    intro same
    apply noDash closed
    rw [List.append_cancel_left same, scriptChar_underscore]
    rfl
  · have notUnderscore {char : Char} (upper : char.isUpper = true) : char ≠ '_' := by
      intro same
      rw [same] at upper
      cases upper
    have firstPlainly := (nameChar_cases firstName).resolve_left (notUnderscore firstUpper)
    have plainly := (nameChar_cases secondName).resolve_left (notUnderscore secondUpper)
    have noBoundary : boundary first second = [] := by
      have kind := firstPlainly.kind
      rw [firstUpper, eq_comm, Bool.not_eq_true'] at kind
      simp [boundary, kind]
    obtain ⟨more, extends_, _⟩ := foldl_extends rest valid (result ++ ['-'] ++ [second.toLower])
    rw [kebabStep_plainly result plainly, after]
    simp only [secondUpper, notUnderscore firstUpper, ne_eq, not_false_eq_true, decide_true, Bool.and_self,
      if_true, noBoundary, List.nil_append]
    rw [extends_, scriptChar_plainly plainly, List.append_assoc, List.append_assoc]
    intro same
    have heads := (List.cons.inj (List.append_cancel_left same)).1
    exact plainly.lower.1 heads.symm

theorem foldl_eq_script_iff (rest : Str) (first : Char) (result : Str)
    (valid : ∀ char ∈ first :: rest, NameChar char)
    (last : result.getLast? = some (scriptChar first)) :
    rest.foldl kebabStep result = result ++ ((sedBoundaries (first :: rest)).map scriptChar).tail ↔
      (first :: rest).IsChain Apart := by
  induction rest generalizing first result with
  | nil => simp [sedBoundaries]
  | cons second rest ih =>
    have firstName := valid first List.mem_cons_self
    have later : ∀ char ∈ second :: rest, NameChar char := fun char member =>
      valid char (List.mem_cons_of_mem first member)
    have secondName := later second List.mem_cons_self
    have written : ((sedBoundaries (first :: second :: rest)).map scriptChar).tail =
        boundary first second ++ scriptChar second ::
          ((sedBoundaries (second :: rest)).map scriptChar).tail := by
      obtain ⟨tail, same⟩ := sedBoundaries_head second rest
      simp [sedBoundaries_cons first second rest secondName, same, map_boundary]
    rw [List.isChain_cons_cons, written, List.foldl_cons]
    by_cases apart : Apart first second
    · rw [kebabStep_apart firstName secondName last apart]
      have tail := ih second (result ++ (boundary first second ++ [scriptChar second])) later (by simp)
      simpa [apart] using tail
    · have differs := kebabStep_not_apart firstName secondName
        (fun char member => later char (List.mem_cons_of_mem second member)) last apart
        ((sedBoundaries (second :: rest)).map scriptChar).tail
      simp [apart, differs]

/-- Both make the same of a name exactly when it is plain. -/
theorem kebabCase_eq_script_iff (service : ServiceName) :
    kebabCase service.text = scriptKebabCase service.text ↔ Plain service.text := by
  obtain ⟨text, valid⟩ := service
  show kebabCase text = scriptKebabCase text ↔ Plain text
  cases text with
  | nil => exact iff_of_true rfl ⟨by simp, .nil⟩
  | cons first rest =>
    have name := valid first List.mem_cons_self
    obtain ⟨tail, same⟩ := sedBoundaries_head first rest
    rw [kebabCase, scriptKebabCase_eq, List.foldl_cons, same, List.map_cons]
    rcases nameChar_cases name with rfl | plainly
    · have closed : kebabStep [] '_' = [] := by decide
      obtain ⟨added, extends_, noDash⟩ :=
        foldl_extends rest (fun char member => valid char (List.mem_cons_of_mem '_' member)) []
      apply iff_of_false
      · rw [closed, extends_, scriptChar_underscore]
        intro equal
        apply noDash rfl
        rw [List.nil_append] at equal
        rw [equal]
        rfl
      · intro plain
        exact plain.start rfl
    · have begun : kebabStep [] first = [scriptChar first] := by
        rw [kebabStep_plainly [] plainly, scriptChar_plainly plainly]
        simp [isOpen]
      have agrees := foldl_eq_script_iff rest first [scriptChar first] valid rfl
      rw [same, List.map_cons, List.tail_cons, List.singleton_append] at agrees
      rw [begun, agrees]
      constructor
      · intro apart
        exact ⟨by simpa using plainly.notUnderscore, apart⟩
      · exact Plain.apart

/-! ### The routing table -/

theorem lookup_routingTable (services : List ServiceName) (service : ServiceName) :
    (routingTable services).lookup service =
      if service ∈ services then some (enforcerSocket service) else none := by
  have general (table : AList (fun _ : ServiceName => Str)) :
      (services.foldl (fun table service => table.insert service (enforcerSocket service)) table).lookup
          service =
        if service ∈ services then some (enforcerSocket service) else table.lookup service := by
    induction services generalizing table with
    | nil => simp
    | cons first services ih =>
      rw [List.foldl_cons, ih]
      by_cases same : service = first
      · subst same
        simp
      · simp [same, AList.lookup_insert_ne same]
  exact general ∅

theorem wrapped_inj (before after first second : Str) :
    before ++ first ++ after = before ++ second ++ after ↔ first = second := by
  simp

theorem append_wrapped (front before middle after : Str) :
    front ++ (before ++ middle ++ after) = (front ++ before) ++ middle ++ after := by
  simp only [List.append_assoc]

theorem enforcerSocket_eq_launcher_iff (service : ServiceName) :
    enforcerSocket service = "unix://".toList ++ launcherSocket service ↔ Plain service.text := by
  have scheme : "unix://".toList ++ launcherSocket service =
      "unix:///tmp/".toList ++ scriptKebabCase service.text ++ "-server-uds".toList := by
    exact append_wrapped "unix://".toList "/tmp/".toList (scriptKebabCase service.text) "-server-uds".toList
  rw [scheme, ← kebabCase_eq_script_iff]
  exact wrapped_inj _ _ _ _

theorem enforcerSocket_eq_iff (first second : ServiceName) :
    enforcerSocket first = enforcerSocket second ↔ words first.text = words second.text := by
  rw [← kebabCase_eq_iff]
  exact wrapped_inj _ _ _ _

/-- The enforcer looks for each service where the script starts its server exactly when all names
are plain, and for no two services at the same place exactly when no two have the same words. -/
theorem sockets_agree_iff (services : List ServiceName) :
    ((∀ service ∈ services, (routingTable services).lookup service =
        some ("unix://".toList ++ launcherSocket service)) ↔
      ∀ service ∈ services, Plain service.text) ∧
    ((∀ first ∈ services, ∀ second ∈ services, first ≠ second →
        (routingTable services).lookup first ≠ (routingTable services).lookup second) ↔
      ∀ first ∈ services, ∀ second ∈ services, first ≠ second →
        words first.text ≠ words second.text) := by
  constructor
  · apply forall₂_congr
    intro service member
    rw [lookup_routingTable, if_pos member, Option.some.injEq]
    exact enforcerSocket_eq_launcher_iff service
  · apply forall₂_congr
    intro first firstMember
    apply forall₂_congr
    intro second secondMember
    rw [lookup_routingTable, lookup_routingTable, if_pos firstMember, if_pos secondMember]
    exact imp_congr_right (fun _ => not_congr (Option.some_inj.trans (enforcerSocket_eq_iff first second)))

theorem valid_of_all {text : Str}
    (every : text.all (fun char => char.isAlphanum || char == '_') = true) :
    ∀ char ∈ text, char.isAlphanum = true ∨ char = '_' := by
  intro char member
  have holds := List.all_eq_true.mp every char member
  rwa [Bool.or_eq_true, beq_iff_eq] at holds

/-- `HTTPServer` is looked for at another socket than the one it is started at, and `FooBar` at the
same as `foo_bar`. -/
theorem sockets_disagree :
    ∃ httpServer fooBar fooBarSnake : ServiceName,
      httpServer.text = "HTTPServer".toList ∧ fooBar.text = "FooBar".toList ∧
      fooBarSnake.text = "foo_bar".toList ∧ fooBar ≠ fooBarSnake ∧
      (routingTable [httpServer]).lookup httpServer = some "unix:///tmp/h-t-t-p-server-server-uds".toList ∧
      launcherSocket httpServer = "/tmp/httpserver-server-uds".toList ∧
      (routingTable [fooBar, fooBarSnake]).lookup fooBar =
        (routingTable [fooBar, fooBarSnake]).lookup fooBarSnake :=
  ⟨⟨"HTTPServer".toList, valid_of_all (by decide)⟩, ⟨"FooBar".toList, valid_of_all (by decide)⟩,
    ⟨"foo_bar".toList, valid_of_all (by decide)⟩, rfl, rfl, rfl, by decide, by decide +kernel,
    by decide +kernel, by decide +kernel⟩

end EzSdk.Local
