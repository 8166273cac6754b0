import EzSdk.Foundation.LexicalPaths
import EzSdk.Proto

/-! The functions of Go's `path/filepath` that the deployment uses, on byte strings of
Unix, as their documentation describes them. -/

namespace EzSdk.Deploy

open LexicalPaths

def slash : UInt8 := 47
def dot : Bytes := [46]
def dotDot : Bytes := [46, 46]

/-- The bytes of an ASCII string. -/
def ascii (text : String) : Bytes := text.toList.map (fun char => UInt8.ofNat char.toNat)

/-- An element of a path that is neither eliminated nor a step up. -/
structure Element where
  bytes : Bytes
  nonempty : bytes ≠ []
  notDot : bytes ≠ dot
  notDotDot : bytes ≠ dotDot
  noSlash : slash ∉ bytes
  deriving DecidableEq

abbrev GoPath := Path Element

def toPart (bytes : Bytes) : LexicalPaths.Part Element :=
  if proper : bytes ≠ [] ∧ bytes ≠ dot ∧ bytes ≠ dotDot ∧ slash ∉ bytes then
    .name ⟨bytes, proper.1, proper.2.1, proper.2.2.1, proper.2.2.2⟩
  else if bytes = dotDot then .up
  else .here

def partsOf (path : Bytes) : List (LexicalPaths.Part Element) := (path.splitOn slash).map toPart

def isRooted (path : Bytes) : Bool := path.head? = some slash

/-- The path that a string stands for, with everything eliminated that `Clean`
eliminates. -/
def parse (path : Bytes) : GoPath := (Path.start (isRooted path)).pushAll (partsOf path)

/-- The elements of a path as they are written. -/
def written (path : GoPath) : List Bytes :=
  List.replicate path.ups dotDot ++ path.names.map Element.bytes

def render (path : GoPath) : Bytes :=
  if path.rooted then slash :: [slash].intercalate (written path)
  else if written path = [] then dot
  else [slash].intercalate (written path)

def clean (path : Bytes) : Bytes := render (parse path)

def join (elements : List Bytes) : Bytes :=
  match elements.filter (· ≠ []) with
  | [] => []
  | nonempty => clean ([slash].intercalate nonempty)

def rel (basePath targetPath : Bytes) : Option Bytes :=
  ((parse basePath).rel (parse targetPath)).map render

/-- All but the last element, cleaned. -/
def dir (path : Bytes) : Bytes :=
  render ((Path.start (isRooted path)).pushAll (partsOf path).dropLast)

/-- The last element. -/
def base (path : Bytes) : Bytes :=
  if path = [] then dot
  else ((path.splitOn slash).filter (· ≠ [])).getLast?.getD [slash]

theorem toPart_bytes (element : Element) : toPart element.bytes = .name element := by
  have proper : element.bytes ≠ [] ∧ element.bytes ≠ dot ∧ element.bytes ≠ dotDot ∧
      slash ∉ element.bytes :=
    ⟨element.nonempty, element.notDot, element.notDotDot, element.noSlash⟩
  rw [toPart, dif_pos proper]

theorem toPart_dotDot : toPart dotDot = .up := by decide

theorem map_toPart_written (path : GoPath) : (written path).map toPart = path.parts := by
  rw [written, Path.parts, List.map_append, List.map_replicate, toPart_dotDot, List.map_map]
  congr 1
  apply List.map_congr_left
  intro element _
  exact toPart_bytes element

/-- What is written are dots and elements. -/
theorem forall_written {Holds : Bytes → Prop} (up : Holds dotDot)
    (names : ∀ element : Element, Holds element.bytes) (path : GoPath) :
    ∀ bytes ∈ written path, Holds bytes := by
  intro bytes member
  cases List.mem_append.mp member with
  | inl isUp =>
    rw [List.eq_of_mem_replicate isUp]
    exact up
  | inr isName =>
    obtain ⟨element, _, rfl⟩ := List.mem_map.mp isName
    exact names element

theorem slash_not_mem_written (path : GoPath) : ∀ bytes ∈ written path, slash ∉ bytes :=
  forall_written (by decide) (fun element => element.noSlash) path

theorem partsOf_append (first second : Bytes) :
    partsOf (first ++ slash :: second) = partsOf first ++ partsOf second := by
  rw [partsOf, List.splitOn_append_cons_self, List.map_append]
  rfl

theorem partsOf_render (path : GoPath) (something : written path ≠ []) :
    partsOf (render path) = (if path.rooted then [.here] else []) ++ path.parts := by
  have read : partsOf ([slash].intercalate (written path)) = path.parts := by
    rw [partsOf, List.splitOn_intercalate slash (slash_not_mem_written path) something,
      map_toPart_written]
  cases rooted : path.rooted with
  | false => simpa [render, rooted, something] using read
  | true =>
    have split := partsOf_append [] ([slash].intercalate (written path))
    have nothing : partsOf [] = [.here] := by decide
    rw [read, nothing] at split
    simpa [render, rooted] using split

theorem pushAll_partsOf_render (start path : GoPath) :
    start.pushAll (partsOf (render path)) = start.pushAll path.parts := by
  by_cases nothing : written path = []
  · have empty : path.parts = [] := by rw [← map_toPart_written, nothing, List.map_nil]
    have shape : ∃ heres, partsOf (render path) = List.replicate heres .here := by
      cases rooted : path.rooted with
      | false => exact ⟨1, by simp only [render, rooted, nothing]; decide⟩
      | true => exact ⟨2, by simp only [render, rooted, nothing]; decide⟩
    obtain ⟨heres, shape⟩ := shape
    rw [shape, empty, Path.pushAll_here]
    rfl
  · rw [partsOf_render path nothing]
    cases path.rooted <;> rfl

theorem written_ne_nil (path : GoPath) : ∀ bytes ∈ written path, bytes ≠ [] :=
  forall_written (by decide) (fun element => element.nonempty) path

theorem render_head (path : GoPath) (unrooted : path.rooted = false) :
    ∃ byte bytes, render path = byte :: bytes ∧ byte ≠ slash := by
  cases elements : written path with
  | nil => exact ⟨46, [], by simp [render, unrooted, elements, dot], by decide⟩
  | cons first rest =>
    have member : first ∈ written path := by simp [elements]
    have noSlash := slash_not_mem_written path first member
    cases shape : first with
    | nil => exact absurd shape (written_ne_nil path first member)
    | cons byte bytes =>
      have different : byte ≠ slash := fun same => noSlash (by simp [shape, same])
      have starts : ([slash].intercalate (written path)).head? = some byte := by
        rw [elements, shape]
        cases rest <;> rfl
      obtain ⟨tail, whole⟩ := List.head?_eq_some_iff.mp starts
      refine ⟨byte, tail, ?_, different⟩
      rw [← whole]
      simp [render, unrooted, elements]

theorem isRooted_render (path : GoPath) : isRooted (render path) = path.rooted := by
  cases rooted : path.rooted with
  | true => simp [render, rooted, isRooted]
  | false =>
    obtain ⟨byte, bytes, shape, different⟩ := render_head path rooted
    simp [shape, isRooted, different]

theorem parse_render (path : GoPath) : parse (render path) = path := by
  rw [parse, pushAll_partsOf_render, isRooted_render, Path.start_pushAll_parts]

theorem render_injective : Function.Injective render :=
  Function.LeftInverse.injective parse_render

theorem parse_clean (path : Bytes) : parse (clean path) = parse path := parse_render _

theorem render_ne_nil (path : GoPath) : render path ≠ [] := by
  cases rooted : path.rooted with
  | true => simp [render, rooted]
  | false =>
    obtain ⟨byte, bytes, shape, _⟩ := render_head path rooted
    simp [shape]

theorem render_relative_iff (path : GoPath) (unrooted : path.rooted = false) :
    (render path = [] ∨ render path = dot ∨ render path = [slash]) ↔ path = Path.descent [] := by
  have here : render (Path.descent [] : GoPath) = dot := rfl
  constructor
  · rintro (empty | isDot | isRoot)
    · exact absurd empty (render_ne_nil path)
    · exact render_injective (isDot.trans here.symm)
    · obtain ⟨byte, bytes, shape, different⟩ := render_head path unrooted
      rw [shape] at isRoot
      exact absurd (List.cons.inj isRoot).1 different
  · intro same
    exact .inr (.inl (same ▸ here))

theorem parse_join (first second : Bytes) (firstSome : first ≠ []) (secondSome : second ≠ []) :
    parse (join [first, second]) = (parse first).pushAll (partsOf second) := by
  have joined : join [first, second] = clean (first ++ slash :: second) := by
    simp [join, firstSome, secondSome, List.intercalate, List.intersperse]
  have rooted : isRooted (first ++ slash :: second) = isRooted first := by
    cases first with
    | nil => exact absurd rfl firstSome
    | cons byte bytes => rfl
  rw [joined, parse_clean, parse, rooted, partsOf_append, Path.pushAll_append]
  rfl

theorem join_eq_render (first second : Bytes) (firstSome : first ≠ []) (secondSome : second ≠ []) :
    join [first, second] = render (parse (join [first, second])) := by
  have joined : join [first, second] = clean (first ++ slash :: second) := by
    simp [join, firstSome, secondSome, List.intercalate, List.intersperse]
  rw [joined, parse_clean]
  rfl

theorem parse_join_root (name : Bytes) : (parse (join [[slash], name])).rooted = true := by
  have root : (parse [slash]).rooted = true := by decide
  cases name with
  | nil =>
    have alone : join [[slash], []] = clean [slash] := by decide
    rw [alone, parse_clean, root]
  | cons byte bytes =>
    rw [parse_join [slash] (byte :: bytes) (by decide) (by simp)]
    exact (Path.pushAll_bounds _ _).1.trans root

theorem parse_dir_render (path : GoPath) (named : path.names ≠ []) :
    parse (dir (render path)) = { path with names := path.names.dropLast } := by
  have something : written path ≠ [] := by simp [written, named]
  have kept : path.parts.dropLast =
      { path with names := path.names.dropLast : GoPath }.parts := by
    have mapped : path.names.map Part.name ≠ [] := by simp [named]
    rw [Path.parts, List.dropLast_append_of_ne_nil mapped, ← List.map_dropLast]
    rfl
  have parts : path.parts ≠ [] := by simp [Path.parts, named]
  rw [dir, parse_render, isRooted_render, partsOf_render path something,
    List.dropLast_append_of_ne_nil parts, kept, Path.pushAll_append]
  have start : (Path.start path.rooted : GoPath).pushAll (if path.rooted then [.here] else []) =
      Path.start path.rooted := by
    cases path.rooted <;> rfl
  rw [start]
  exact Path.start_pushAll_parts { path with names := path.names.dropLast }

end EzSdk.Deploy
