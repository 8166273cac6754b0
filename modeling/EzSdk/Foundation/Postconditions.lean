import Mathlib.Data.List.Forall2

/-! Postconditions of computations that may stop with an error: one for the value and one
for the error. -/

namespace EzSdk.Postconditions

variable {Error Value Next Item State : Type}

def Meets (stop : Error → Prop) (post : Value → Prop) : Except Error Value → Prop
  | .error error => stop error
  | .ok value => post value

variable {stop : Error → Prop} {post : Value → Prop} {next : Next → Prop}

theorem Meets.value {result : Except Error Value} {value : Value} (meets : Meets stop post result)
    (ok : result = .ok value) : post value := by
  subst ok
  exact meets

theorem Meets.error {result : Except Error Value} {error : Error} (meets : Meets stop post result)
    (stopped : result = .error error) : stop error := by
  subst stopped
  exact meets

theorem meets_bind {first : Except Error Value} {later : Value → Except Error Next}
    (meets : Meets stop post first) (meetsLater : ∀ value, post value → Meets stop next (later value)) :
    Meets stop next (first >>= later) := by
  cases first with
  | error error => exact meets
  | ok value => exact meetsLater value meets

theorem meets_forM {action : Item → Except Error Unit} {items : List Item}
    (meets : ∀ item ∈ items, Meets stop (fun _ => True) (action item)) :
    Meets stop (fun _ => True) (items.forM action) := by
  induction items with
  | nil => trivial
  | cons item items ih =>
    apply meets_bind (meets item (List.mem_cons_self ..))
    intro _ _
    apply ih
    intro other member
    exact meets other (List.mem_cons_of_mem item member)

theorem meets_mapM {action : Item → Except Error Value} {items : List Item}
    (meets : ∀ item ∈ items, Meets stop (fun _ => True) (action item)) :
    Meets stop (fun _ => True) (items.mapM action) := by
  induction items with
  | nil => trivial
  | cons item items ih =>
    rw [List.mapM_cons]
    apply meets_bind (meets item List.mem_cons_self)
    intro value _
    apply meets_bind (ih (fun other member => meets other (List.mem_cons_of_mem item member)))
    intro values _
    trivial

/-- A loop with an invariant about the items that it has dealt with. -/
theorem meets_foldlM (Invariant : List Item → State → Prop)
    {body : State → Item → Except Error State} (items : List Item)
    (each : ∀ earlier item later state, items = earlier ++ item :: later → Invariant earlier state →
      Meets stop (Invariant (earlier ++ [item])) (body state item)) :
    ∀ (later earlier : List Item) (state : State), items = earlier ++ later →
      Invariant earlier state → Meets stop (Invariant items) (later.foldlM body state) := by
  intro later
  induction later with
  | nil =>
    intro earlier state split holds
    rw [List.append_nil] at split
    exact split ▸ holds
  | cons item later ih =>
    intro earlier state split holds
    rw [List.foldlM_cons]
    apply meets_bind (each earlier item later state split holds)
    intro next kept
    apply ih (earlier ++ [item]) next ?_ kept
    rw [split, List.append_assoc, List.singleton_append]

theorem bind_ok_iff {first : Except Error Value} {later : Value → Except Error Next}
    {result : Next} :
    first >>= later = .ok result ↔ ∃ value, first = .ok value ∧ later value = .ok result := by
  cases first with
  | error error => simp [bind, Except.bind]
  | ok value => simp [bind, Except.bind]

theorem check_ok_iff {check : Except Error Unit} {later : Unit → Except Error Next} {result : Next} :
    check >>= later = .ok result ↔ check = .ok () ∧ later () = .ok result := by
  cases check with
  | error error => simp [bind, Except.bind]
  | ok value => simp [bind, Except.bind]

theorem forM_ok_iff {action : Item → Except Error Unit} {items : List Item} :
    items.forM action = .ok () ↔ ∀ item ∈ items, action item = .ok () := by
  induction items with
  | nil => simp [pure, Except.pure]
  | cons item items ih =>
    have unfolded : (item :: items).forM action = action item >>= fun _ => items.forM action := rfl
    rw [unfolded, check_ok_iff, ih]
    simp only [List.mem_cons, forall_eq_or_imp]

/-- In a loop that comes to its end, every item has had its turn. -/
theorem foldlM_ok_mem {body : State → Item → Except Error State} {items : List Item}
    {start final : State} (ok : items.foldlM body start = .ok final) {item : Item}
    (member : item ∈ items) : ∃ state next, body state item = .ok next := by
  induction items generalizing start with
  | nil => cases member
  | cons first items ih =>
    rw [List.foldlM_cons, bind_ok_iff] at ok
    obtain ⟨next, head, tail⟩ := ok
    rcases List.mem_cons.mp member with rfl | later
    · exact ⟨start, next, head⟩
    · exact ih tail later

/-- A loop whose body does what that of another one does, wherever that one succeeds. -/
theorem foldlM_ok_mono (Invariant : State → Prop) {body other : State → Item → Except Error State}
    {items : List Item}
    (agree : ∀ state, Invariant state → ∀ item ∈ items, ∀ next, body state item = .ok next →
      other state item = .ok next ∧ Invariant next)
    {start final : State} (holds : Invariant start) (ok : items.foldlM body start = .ok final) :
    items.foldlM other start = .ok final := by
  induction items generalizing start with
  | nil => exact ok
  | cons item items ih =>
    rw [List.foldlM_cons, bind_ok_iff] at ok ⊢
    obtain ⟨next, head, tail⟩ := ok
    obtain ⟨alike, later⟩ := agree start holds item List.mem_cons_self next head
    exact ⟨next, alike, ih (fun state kept other member =>
      agree state kept other (List.mem_cons_of_mem item member)) later tail⟩

theorem mapM_ok_iff {action : Item → Except Error Value} {items : List Item} :
    ∀ {values : List Value}, items.mapM action = .ok values ↔
      List.Forall₂ (fun item value => action item = .ok value) items values := by
  induction items with
  | nil =>
    intro values
    simp [pure, Except.pure, eq_comm]
  | cons item items ih =>
    intro values
    simp only [List.mapM_cons, bind_ok_iff, ih, List.forall₂_cons_left_iff]
    constructor
    · rintro ⟨value, head, others, tail, ⟨⟩⟩
      exact ⟨value, others, head, tail, rfl⟩
    · rintro ⟨value, others, head, tail, rfl⟩
      exact ⟨value, head, others, tail, rfl⟩

theorem mapM_ok_of_forall {action : Item → Except Error Value} {items : List Item}
    (each : ∀ item ∈ items, ∃ value, action item = .ok value) :
    ∃ values, items.mapM action = .ok values := by
  induction items with
  | nil => exact ⟨[], rfl⟩
  | cons item items ih =>
    obtain ⟨value, head⟩ := each item (List.mem_cons_self ..)
    obtain ⟨values, tail⟩ := ih (fun other member => each other (List.mem_cons_of_mem item member))
    exact ⟨value :: values, mapM_ok_iff.mpr (.cons head (mapM_ok_iff.mp tail))⟩

theorem mapM_ok_mem {action : Item → Except Error Value} {items : List Item} {values : List Value}
    (ok : items.mapM action = .ok values) {item : Item} (member : item ∈ items) :
    ∃ value ∈ values, action item = .ok value := by
  have each := mapM_ok_iff.mp ok
  induction each with
  | nil => cases member
  | @cons first value items values computed each ih =>
    rcases List.mem_cons.mp member with rfl | later
    · exact ⟨value, List.mem_cons_self .., computed⟩
    · obtain ⟨found, inValues, same⟩ := ih (mapM_ok_iff.mpr each) later
      exact ⟨found, List.mem_cons_of_mem value inValues, same⟩

theorem mapM_ok_mem_value {action : Item → Except Error Value} {items : List Item}
    {values : List Value} (ok : items.mapM action = .ok values) {value : Value}
    (member : value ∈ values) : ∃ item ∈ items, action item = .ok value := by
  have each := mapM_ok_iff.mp ok
  clear ok
  induction each with
  | nil => cases member
  | @cons item first items values computed _ ih =>
    rcases List.mem_cons.mp member with rfl | later
    · exact ⟨item, List.mem_cons_self, computed⟩
    · obtain ⟨found, inItems, same⟩ := ih later
      exact ⟨found, List.mem_cons_of_mem item inItems, same⟩

/-! ### Loops that succeed at every item -/

theorem mapM_total {Item Result : Type} {find : Item → Option Result} {good : Item → Result → Prop}
    (items : List Item) (total : ∀ item ∈ items, ∃ result, find item = some result ∧ good item result) :
    ∃ results, items.mapM find = some results ∧
      (∀ result ∈ results, ∃ item ∈ items, good item result) ∧
        ∀ item ∈ items, ∃ result ∈ results, good item result := by
  induction items with
  | nil => exact ⟨[], rfl, by simp, by simp⟩
  | cons item items ih =>
    obtain ⟨result, found, isGood⟩ := total item List.mem_cons_self
    obtain ⟨results, others, sound, complete⟩ :=
      ih (fun other member => total other (List.mem_cons_of_mem item member))
    refine ⟨result :: results, by simp [List.mapM_cons, found, others], ?_, ?_⟩
    · intro other member
      rcases List.mem_cons.mp member with rfl | later
      · exact ⟨item, List.mem_cons_self, isGood⟩
      · obtain ⟨source, inside, fits⟩ := sound other later
        exact ⟨source, List.mem_cons_of_mem item inside, fits⟩
    · intro other member
      rcases List.mem_cons.mp member with rfl | later
      · exact ⟨result, List.mem_cons_self, isGood⟩
      · obtain ⟨target, inside, fits⟩ := complete other later
        exact ⟨target, List.mem_cons_of_mem result inside, fits⟩

theorem foldlM_total {Item State : Type} {step : State → Item → Option State}
    {next : State → Item → State} (total : ∀ state item, step state item = some (next state item))
    (items : List Item) (state : State) : items.foldlM step state = some (items.foldl next state) := by
  induction items generalizing state with
  | nil => rfl
  | cons item items ih =>
    rw [List.foldlM_cons, total]
    exact ih (next state item)

end EzSdk.Postconditions
