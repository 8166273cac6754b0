import EzSdk.Foundation.Texts
import EzSdk.Proto
import Mathlib.Data.List.Basic
import Mathlib.Logic.Function.Basic

/-! The script `check_checksums`: which lines of `checksums.txt` its loop verifies, and for which
contents an exit code of zero means what it says. -/

namespace EzSdk.Devkit.Checksums

def newline : UInt8 := 10
def space : UInt8 := 32
def dash : UInt8 := 45
def dot : UInt8 := 46
def slash : UInt8 := 47
def backslash : UInt8 := 92
def carriageReturn : UInt8 := 13

/-- The bytes of the class `[:space:]`. -/
def isSpace (byte : UInt8) : Bool := byte = space || (9 ≤ byte && byte ≤ 13)

/-! ### The commands -/

/-- A line that a newline ends, and what follows it. -/
def readLine : Bytes → Option (Bytes × Bytes)
  | [] => none
  | byte :: text =>
    if byte = newline then some ([], text)
    else (readLine text).map fun (line, rest) => (byte :: line, rest)

/-- The two fields into which `IFS='  ' read -r` splits a line. It reads no NUL bytes, and takes all
spaces around the fields away. -/
def fields (line : Bytes) : Bytes × Bytes :=
  let text := (line.filter (· ≠ 0)).dropWhile (· = space)
  let rest := (text.dropWhile (· ≠ space)).dropWhile (· = space)
  (text.takeWhile (· ≠ space), (rest.reverse.dropWhile (· = space)).reverse)

/-- `sha256sum`: the digest of a content as it is printed, the names that are not too long to be
opened, and for names that are taken for options what is printed first on its lines and how much is
read of the standard input. -/
structure Sha256sum where
  digest : Bytes → Bytes
  noSpace : ∀ content, space ∉ digest content
  accepts : Bytes → Bool
  options : Bytes → Bytes → Bytes
  consumed : Bytes → Bytes → Nat

/-- What a name denotes, apart from the links that `..` may lead back over. -/
structure Path where
  absolute : Bool
  components : List Bytes
  deriving DecidableEq

def pathOf (name : Bytes) : Path :=
  let components := (name.splitOn slash).filter fun component => component ≠ [] ∧ component ≠ [dot]
  if name.head? = some slash then ⟨true, components.dropWhile (· = [dot, dot])⟩
  else ⟨false, components⟩

/-- A name that only a directory can have. -/
def namesDirectory (name : Bytes) : Bool :=
  let last := (name.splitOn slash).getLastD []
  last = [] || last = [dot] || last = [dot, dot]

def Path.Below (path other : Path) : Prop :=
  path.absolute = other.absolute ∧ other.components <+: path.components ∧ path ≠ other

/-- The contents of the readable files. Nothing lies below a file. -/
structure Files where
  content : Path → Option Bytes
  apart : ∀ path other, (content path).isSome → (content other).isSome → ¬ path.Below other

/-- `checksums.txt`. -/
def listName : Bytes := [99, 104, 101, 99, 107, 115, 117, 109, 115, 46, 116, 120, 116]

/-- A name that is not taken for an option or for the standard input. -/
def namesFile (name : Bytes) : Bool := name.head? ≠ some dash

/-- Before a name with a backslash or a carriage return, the digest is marked with a backslash. -/
def marked (name digest : Bytes) : Bytes :=
  if backslash ∈ name ∨ carriageReturn ∈ name then backslash :: digest else digest

variable (sha256sum : Sha256sum)

def opens (name : Bytes) : Bool := sha256sum.accepts name && !namesDirectory name

def Files.read (files : Files) (name : Bytes) : Option Bytes :=
  if opens sha256sum name then files.content (pathOf name) else none

/-- `sha256sum "${filename}" | awk '{print $1}'`, while the rest of `checksums.txt` is the standard
input. -/
def actualChecksum (files : Files) (filename rest : Bytes) : Bytes :=
  if filename = [dash] then sha256sum.digest rest
  else if namesFile filename then
    match files.read sha256sum filename with
    | none => []
    | some content => marked filename (sha256sum.digest content)
  else sha256sum.options filename rest

/-- What `sha256sum` leaves of the standard input. -/
def leftOver (filename rest : Bytes) : Bytes :=
  if filename = [dash] then []
  else if namesFile filename then rest
  else rest.drop (sha256sum.consumed filename rest)

/-! ### The script -/

inductive Verdict where
  | skipped
  | ok
  | failed
  deriving DecidableEq

/-- A line that the loop has read, with what was left of the file then. -/
structure Turn where
  line : Bytes
  rest : Bytes
  deriving DecidableEq

def Turn.expectedChecksum (turn : Turn) : Bytes := (fields turn.line).1
def Turn.filename (turn : Turn) : Bytes := (fields turn.line).2

/-- The body of the loop. -/
def verdict (files : Files) (turn : Turn) : Verdict :=
  if turn.filename = [] then .skipped
  else if actualChecksum sha256sum files turn.filename turn.rest = turn.expectedChecksum then .ok
  else .failed

/-- What the next turn reads. -/
def readNext (turn : Turn) : Bytes :=
  if turn.filename = [] then turn.rest else leftOver sha256sum turn.filename turn.rest

theorem readLine_length {text line rest : Bytes} (read : readLine text = some (line, rest)) :
    rest.length < text.length := by
  induction text generalizing line with
  | nil => cases read
  | cons byte text ih =>
    rw [readLine] at read
    split at read
    · cases read
      exact Nat.lt_succ_self _
    · obtain ⟨⟨others, after⟩, later, same⟩ := Option.map_eq_some_iff.mp read
      cases same
      exact Nat.lt_succ_of_lt (ih later)

theorem readNext_length (turn : Turn) : (readNext sha256sum turn).length ≤ turn.rest.length := by
  unfold readNext leftOver
  split
  · exact Nat.le_refl _
  · split
    · exact Nat.zero_le _
    · split
      · exact Nat.le_refl _
      · simp

/-- The turns of the `while` loop. On a last line without a newline `read` fails, which ends it. -/
def turns (text : Bytes) : List Turn :=
  match _read : readLine text with
  | none => []
  | some (line, rest) => ⟨line, rest⟩ :: turns (readNext sha256sum ⟨line, rest⟩)
termination_by text.length
decreasing_by exact Nat.lt_of_le_of_lt (readNext_length sha256sum ⟨line, rest⟩) (readLine_length _read)

/-- The turns that the script takes; with nothing but white space it ends before the loop. -/
def scriptTurns (text : Bytes) : List Turn :=
  if text.all fun byte => isSpace byte || byte = 0 then [] else turns sha256sum text

/-- The exit code. -/
def checkChecksums (files : Files) : Nat :=
  match files.content (pathOf listName) with
  | none => 1
  | some text =>
    if (scriptTurns sha256sum text).all fun turn => verdict sha256sum files turn ≠ .failed then 0
    else 1

/-! ### What an exit code of zero should mean -/

def isBlank (line : Bytes) : Bool := line.all isSpace

/-- The line has the form `<digest>  <file>` and the file exists with that digest. -/
def Verified (files : Files) (line : Bytes) : Prop :=
  ∃ content name, name ≠ [] ∧ files.read sha256sum name = some content ∧
    line = sha256sum.digest content ++ space :: space :: name

/-- In every file system with this list, if the script exits with zero then every line that is not
blank is verified. -/
def Sound (text : Bytes) : Prop :=
  ∀ files : Files, files.content (pathOf listName) = some text →
    checkChecksums sha256sum files = 0 →
      ∀ line ∈ text.splitOn newline, isBlank line = false → Verified sha256sum files line

/-! ### Conditions on the list -/

/-- The turn reads the file of its name. -/
def Turn.ReadsFile (turn : Turn) : Prop := turn.filename ≠ [] ∧ namesFile turn.filename = true

/-- The paths that the loop looks at, and the path of the list. -/
def NamedPath (text : Bytes) (path : Path) : Prop :=
  path = pathOf listName ∨
    ∃ turn ∈ scriptTurns sha256sum text, turn.ReadsFile ∧ path = pathOf turn.filename

/-- The lines that the loop reads do not contradict one another, or what they are said about. -/
structure Consistent (text : Bytes) : Prop where
  -- the standard input and options
  input : ∀ turn ∈ scriptTurns sha256sum text, turn.filename = [dash] →
    turn.expectedChecksum = sha256sum.digest turn.rest
  options : ∀ turn ∈ scriptTurns sha256sum text, turn.filename ≠ [] → turn.filename ≠ [dash] →
    namesFile turn.filename = false →
      turn.expectedChecksum = sha256sum.options turn.filename turn.rest
  -- files
  opens : ∀ turn ∈ scriptTurns sha256sum text, turn.ReadsFile → opens sha256sum turn.filename = true
  digests : ∀ turn ∈ scriptTurns sha256sum text, turn.ReadsFile →
    ∃ content, turn.expectedChecksum = marked turn.filename (sha256sum.digest content)
  itself : ∀ turn ∈ scriptTurns sha256sum text, turn.ReadsFile →
    pathOf turn.filename = pathOf listName →
      turn.expectedChecksum = marked turn.filename (sha256sum.digest text)
  agree : ∀ turn ∈ scriptTurns sha256sum text, ∀ other ∈ scriptTurns sha256sum text,
    turn.ReadsFile → other.ReadsFile → pathOf turn.filename = pathOf other.filename →
      ∀ digest, turn.expectedChecksum = marked turn.filename digest →
        other.expectedChecksum = marked other.filename digest
  apart : ∀ path other, NamedPath sha256sum text path → NamedPath sha256sum text other →
    ¬ path.Below other

/-- A turn of the loop compares the digest of the line's file with the line's digest. -/
def Covered (text line : Bytes) : Prop :=
  ∃ turn ∈ scriptTurns sha256sum text, turn.ReadsFile ∧ ∃ digest name,
    turn.expectedChecksum = marked turn.filename digest ∧ name ≠ [] ∧
      opens sha256sum name = true ∧ pathOf name = pathOf turn.filename ∧
        line = digest ++ space :: space :: name

/-- The line gives the digest of the list itself. -/
def OfItself (text line : Bytes) : Prop :=
  ∃ name, name ≠ [] ∧ opens sha256sum name = true ∧ pathOf name = pathOf listName ∧
    line = sha256sum.digest text ++ space :: space :: name

/-! ### Which lines are verified -/

/-- Where there is a second field, the first is not empty. -/
theorem fields_fst_ne_nil (line : Bytes) (second : (fields line).2 ≠ []) : (fields line).1 ≠ [] := by
  unfold fields at second ⊢
  dsimp only at second ⊢
  have first := List.head?_dropWhile_not (fun byte => decide (byte = space)) (line.filter (· ≠ 0))
  cases text : (line.filter (· ≠ 0)).dropWhile (· = space) with
  | nil =>
    rw [text] at second
    exact absurd rfl second
  | cons byte bytes =>
    rw [text] at first
    have isField : byte ≠ space := by simpa using first
    simp [isField]

variable {sha256sum} in
theorem exit_zero_iff {files : Files} {text : Bytes}
    (holds : files.content (pathOf listName) = some text) :
    checkChecksums sha256sum files = 0 ↔
      ∀ turn ∈ scriptTurns sha256sum text, verdict sha256sum files turn ≠ .failed := by
  simp [checkChecksums, holds]

theorem namesFile_ne_dash {name : Bytes} (isFile : namesFile name = true) : name ≠ [dash] := by
  rintro rfl
  cases isFile

theorem marked_injective (name : Bytes) : Function.Injective (marked name) := by
  intro first second same
  unfold marked at same
  split at same
  · exact List.tail_eq_of_cons_eq same
  · exact same

variable {sha256sum}

theorem read_eq_some {files : Files} {name content : Bytes} :
    files.read sha256sum name = some content ↔
      opens sha256sum name = true ∧ files.content (pathOf name) = some content := by
  rw [Files.read]
  split
  · simp_all
  · simp_all

theorem passes_iff_of_readsFile (files : Files) {turn : Turn} (reads : turn.ReadsFile) :
    verdict sha256sum files turn ≠ .failed ↔
      ∃ content, files.read sha256sum turn.filename = some content ∧
        turn.expectedChecksum = marked turn.filename (sha256sum.digest content) := by
  obtain ⟨named, isFile⟩ := reads
  have expected : turn.expectedChecksum ≠ [] := fields_fst_ne_nil turn.line named
  simp only [verdict, named, if_false, actualChecksum, namesFile_ne_dash isFile, isFile, if_true]
  cases found : files.read sha256sum turn.filename with
  | none => simp [expected.symm]
  | some content => simp [eq_comm]

/-- What a turn that reads no file comes to does not depend on the files. -/
theorem passes_iff_of_not_readsFile (files : Files) {turn : Turn} (reads : ¬ turn.ReadsFile) :
    verdict sha256sum files turn ≠ .failed ↔
      (turn.filename = [dash] → turn.expectedChecksum = sha256sum.digest turn.rest) ∧
        (turn.filename ≠ [] → turn.filename ≠ [dash] → namesFile turn.filename = false →
          turn.expectedChecksum = sha256sum.options turn.filename turn.rest) := by
  by_cases named : turn.filename = []
  · simp [verdict, named]
  · have isOption : namesFile turn.filename = false :=
      Bool.eq_false_iff.mpr fun isFile => reads ⟨named, isFile⟩
    by_cases isInput : turn.filename = [dash]
    · have expected : sha256sum.digest turn.rest = turn.expectedChecksum ↔
          turn.expectedChecksum = sha256sum.digest turn.rest := eq_comm
      simp [verdict, actualChecksum, isInput, expected]
    · simp [verdict, actualChecksum, named, isInput, isOption, eq_comm]

/-! ### Lists that some file system passes -/

theorem consistent_of_exit {files : Files} {text : Bytes}
    (holds : files.content (pathOf listName) = some text)
    (exits : checkChecksums sha256sum files = 0) : Consistent sha256sum text := by
  have passes := (exit_zero_iff holds).mp exits
  have found : ∀ turn ∈ scriptTurns sha256sum text, turn.ReadsFile →
      ∃ content, files.content (pathOf turn.filename) = some content ∧
        opens sha256sum turn.filename = true ∧
          turn.expectedChecksum = marked turn.filename (sha256sum.digest content) := by
    intro turn member reads
    obtain ⟨content, read, expected⟩ := (passes_iff_of_readsFile files reads).mp (passes turn member)
    obtain ⟨openable, inFiles⟩ := read_eq_some.mp read
    exact ⟨content, inFiles, openable, expected⟩
  have present : ∀ path, NamedPath sha256sum text path → (files.content path).isSome := by
    rintro path (rfl | ⟨turn, member, reads, rfl⟩)
    · rw [holds]
      rfl
    · obtain ⟨content, inFiles, _⟩ := found turn member reads
      rw [inFiles]
      rfl
  constructor
  · intro turn member isInput
    refine ((passes_iff_of_not_readsFile files ?_).mp (passes turn member)).1 isInput
    exact fun reads => namesFile_ne_dash reads.2 isInput
  · intro turn member named notInput isOption
    refine ((passes_iff_of_not_readsFile files ?_).mp (passes turn member)).2 named notInput isOption
    intro reads
    rw [reads.2] at isOption
    cases isOption
  · intro turn member reads
    obtain ⟨_, _, openable, _⟩ := found turn member reads
    exact openable
  · intro turn member reads
    obtain ⟨content, _, _, expected⟩ := found turn member reads
    exact ⟨content, expected⟩
  · intro turn member reads same
    obtain ⟨content, inFiles, _, expected⟩ := found turn member reads
    rw [same, holds] at inFiles
    cases inFiles
    exact expected
  · intro turn member other otherMember reads otherReads same digest isDigest
    obtain ⟨content, inFiles, _, expected⟩ := found turn member reads
    obtain ⟨content', inFiles', _, expected'⟩ := found other otherMember otherReads
    rw [same, inFiles'] at inFiles
    cases inFiles
    rw [marked_injective _ (isDigest.symm.trans expected)]
    exact expected'
  · intro path other named otherNamed
    exact files.apart path other (present path named) (present other otherNamed)

variable (sha256sum) in
/-- A line expects the digest of this content at a path. -/
def Expects (text : Bytes) (path : Path) (content : Bytes) : Prop :=
  ∃ turn ∈ scriptTurns sha256sum text, turn.ReadsFile ∧ path = pathOf turn.filename ∧
    turn.expectedChecksum = marked turn.filename (sha256sum.digest content)

variable (sha256sum) in
open Classical in
noncomputable def expectedContent (text : Bytes) (path : Path) : Option Bytes :=
  if path = pathOf listName then some text
  else if expects : ∃ content, Expects sha256sum text path content then some expects.choose
  else none

theorem namedPath_of_expectedContent {text : Bytes} {path : Path}
    (present : (expectedContent sha256sum text path).isSome) : NamedPath sha256sum text path := by
  unfold expectedContent at present
  split at present
  · exact .inl ‹_›
  · split at present
    · rename_i expects
      obtain ⟨_, turn, member, reads, same, _⟩ := expects
      exact .inr ⟨turn, member, reads, same⟩
    · cases present

/-- Files with the digests that the lines expect. -/
noncomputable def expectedFiles {text : Bytes} (consistent : Consistent sha256sum text) : Files where
  content := expectedContent sha256sum text
  apart := fun path other present otherPresent =>
    consistent.apart path other (namedPath_of_expectedContent present)
      (namedPath_of_expectedContent otherPresent)

theorem expectedFiles_list {text : Bytes} (consistent : Consistent sha256sum text) :
    (expectedFiles consistent).content (pathOf listName) = some text := by
  simp [expectedFiles, expectedContent]

theorem expectedFiles_exit {text : Bytes} (consistent : Consistent sha256sum text) :
    checkChecksums sha256sum (expectedFiles consistent) = 0 := by
  rw [exit_zero_iff (expectedFiles_list consistent)]
  intro turn member
  by_cases reads : turn.ReadsFile
  · rw [passes_iff_of_readsFile _ reads]
    have openable := consistent.opens turn member reads
    by_cases isList : pathOf turn.filename = pathOf listName
    · refine ⟨text, read_eq_some.mpr ⟨openable, ?_⟩, consistent.itself turn member reads isList⟩
      rw [isList]
      exact expectedFiles_list consistent
    · have expects : ∃ content, Expects sha256sum text (pathOf turn.filename) content := by
        obtain ⟨content, expected⟩ := consistent.digests turn member reads
        exact ⟨content, turn, member, reads, rfl, expected⟩
      obtain ⟨other, otherMember, otherReads, same, expected⟩ := expects.choose_spec
      refine ⟨expects.choose, read_eq_some.mpr ⟨openable, ?_⟩, ?_⟩
      · simp [expectedFiles, expectedContent, isList, expects]
      · exact consistent.agree other otherMember turn member otherReads reads same.symm _ expected
  · rw [passes_iff_of_not_readsFile _ reads]
    exact ⟨consistent.input turn member, consistent.options turn member⟩

/-! ### When the script is sound -/

theorem verified_of_covered {files : Files} {text line : Bytes}
    (holds : files.content (pathOf listName) = some text)
    (exits : checkChecksums sha256sum files = 0) (covered : Covered sha256sum text line) :
    Verified sha256sum files line := by
  obtain ⟨turn, member, reads, digest, name, expected, named, openable, same, form⟩ := covered
  have passes := (exit_zero_iff holds).mp exits turn member
  obtain ⟨content, read, found⟩ := (passes_iff_of_readsFile files reads).mp passes
  have digests := marked_injective turn.filename (expected.symm.trans found)
  refine ⟨content, name, named, read_eq_some.mpr ⟨openable, ?_⟩, ?_⟩
  · rw [same]
    exact (read_eq_some.mp read).2
  · rw [form, digests]

open Classical in
noncomputable def Files.remove (files : Files) (path : Path) : Files where
  content := Function.update files.content path none
  apart := by
    have present : ∀ other, (Function.update files.content path none other).isSome →
        (files.content other).isSome := by
      intro other isThere
      by_cases same : other = path
      · rw [same, Function.update_self] at isThere
        cases isThere
      · rwa [Function.update_of_ne same] at isThere
    exact fun first second isThere isThere' =>
      files.apart first second (present first isThere) (present second isThere')

theorem remove_of_ne (files : Files) {path other : Path} (ne : other ≠ path) :
    (files.remove path).content other = files.content other :=
  Function.update_of_ne ne _ _

theorem remove_self (files : Files) (path : Path) : (files.remove path).content path = none :=
  Function.update_self _ _ _

/-- Only turns on a file notice that it is gone. -/
theorem passes_remove (files : Files) {turn : Turn} {path : Path}
    (other : turn.ReadsFile → pathOf turn.filename ≠ path)
    (passes : verdict sha256sum files turn ≠ .failed) :
    verdict sha256sum (files.remove path) turn ≠ .failed := by
  by_cases reads : turn.ReadsFile
  · rw [passes_iff_of_readsFile _ reads] at passes ⊢
    obtain ⟨content, read, expected⟩ := passes
    obtain ⟨openable, found⟩ := read_eq_some.mp read
    refine ⟨content, read_eq_some.mpr ⟨openable, ?_⟩, expected⟩
    rw [remove_of_ne files (other reads), found]
  · rwa [passes_iff_of_not_readsFile _ reads] at passes ⊢

theorem line_parts {first second firstName secondName : Bytes} (firstPlain : space ∉ first)
    (secondPlain : space ∉ second)
    (same : first ++ space :: space :: firstName = second ++ space :: space :: secondName) :
    firstName = secondName :=
  (List.cons.inj (Texts.field_injective firstPlain secondPlain same).2).2

theorem sound_iff_covered (sha256sum : Sha256sum) (text : Bytes) :
    Sound sha256sum text ↔ (Consistent sha256sum text →
      ∀ line ∈ text.splitOn newline, isBlank line = false →
        Covered sha256sum text line ∨ OfItself sha256sum text line) := by
  constructor
  · intro sound consistent line member notBlank
    have holds := expectedFiles_list consistent
    have exits := expectedFiles_exit consistent
    generalize expectedFiles consistent = files at holds exits
    obtain ⟨content, name, named, read, form⟩ := sound files holds exits line member notBlank
    obtain ⟨openable, found⟩ := read_eq_some.mp read
    by_cases isList : pathOf name = pathOf listName
    · rw [isList, holds] at found
      cases found
      exact .inr ⟨name, named, openable, isList, form⟩
    · left
      by_contra notCovered
      -- no turn looks at the file, so the script does not notice when it is gone
      have unread : ∀ turn ∈ scriptTurns sha256sum text, turn.ReadsFile →
          pathOf turn.filename ≠ pathOf name := by
        intro turn isTurn reads same
        have passes := (exit_zero_iff holds).mp exits turn isTurn
        obtain ⟨other, otherRead, expected⟩ := (passes_iff_of_readsFile files reads).mp passes
        have otherFound := (read_eq_some.mp otherRead).2
        rw [same, found] at otherFound
        cases otherFound
        exact notCovered ⟨turn, isTurn, reads, _, name, expected, named, openable, same.symm, form⟩
      have stillHolds : (files.remove (pathOf name)).content (pathOf listName) = some text := by
        rw [remove_of_ne files (Ne.symm isList), holds]
      have stillExits : checkChecksums sha256sum (files.remove (pathOf name)) = 0 := by
        rw [exit_zero_iff stillHolds]
        intro turn isTurn
        exact passes_remove files (unread turn isTurn) ((exit_zero_iff holds).mp exits turn isTurn)
      obtain ⟨other, otherName, _, otherRead, otherForm⟩ :=
        sound _ stillHolds stillExits line member notBlank
      have names : name = otherName :=
        line_parts (sha256sum.noSpace content) (sha256sum.noSpace other) (form.symm.trans otherForm)
      have gone := (read_eq_some.mp otherRead).2
      rw [← names, remove_self] at gone
      cases gone
  · intro condition files holds exits line member notBlank
    have consistent := consistent_of_exit holds exits
    rcases condition consistent line member notBlank with covered | ⟨name, named, openable, same, form⟩
    · exact verified_of_covered holds exits covered
    · refine ⟨text, name, named, read_eq_some.mpr ⟨openable, ?_⟩, form⟩
      rw [same, holds]

/-! ### Contents on which the script is sound -/

/-- The line is its two fields with two spaces between them, and the name needs no care. -/
structure Plain (line : Bytes) : Prop where
  form : line = (fields line).1 ++ space :: space :: (fields line).2
  named : (fields line).2 ≠ []
  isFile : namesFile (fields line).2 = true
  unmarked : ∀ digest, marked (fields line).2 digest = digest
  noNewline : newline ∉ line

def terminated (lines : List Bytes) : Bytes := lines.flatMap fun line => line ++ [newline]

theorem readLine_append (line rest : Bytes) (noNewline : newline ∉ line) :
    readLine (line ++ newline :: rest) = some (line, rest) := by
  induction line with
  | nil => rfl
  | cons byte line ih =>
    rw [List.mem_cons, not_or] at noNewline
    show readLine (byte :: (line ++ newline :: rest)) = _
    rw [readLine, if_neg (Ne.symm noNewline.1), ih noNewline.2]
    rfl

theorem terminated_cons (line : Bytes) (lines : List Bytes) :
    terminated (line :: lines) = line ++ newline :: terminated lines := by
  simp [terminated]

variable (sha256sum)

/-- The loop takes every plain line in its turn. -/
theorem turns_terminated (lines : List Bytes) (plain : ∀ line ∈ lines, Plain line) :
    (turns sha256sum (terminated lines)).map Turn.line = lines := by
  induction lines with
  | nil =>
    rw [terminated, List.flatMap_nil, turns]
    rfl
  | cons line lines ih =>
    have isPlain := plain line List.mem_cons_self
    have read : readLine (terminated (line :: lines)) = some (line, terminated lines) := by
      rw [terminated_cons, readLine_append line _ isPlain.noNewline]
    have next : readNext sha256sum ⟨line, terminated lines⟩ = terminated lines := by
      have notInput := namesFile_ne_dash isPlain.isFile
      simp [readNext, leftOver, Turn.filename, isPlain.named, isPlain.isFile, notInput]
    rw [turns]
    split
    · rename_i other
      rw [read] at other
      cases other
    · rename_i other
      rw [read] at other
      cases other
      rw [List.map_cons, next, ih fun other member => plain other (List.mem_cons_of_mem _ member)]

theorem splitOn_terminated (lines : List Bytes) (plain : ∀ line ∈ lines, Plain line) :
    (terminated lines).splitOn newline = lines ++ [[]] := by
  induction lines with
  | nil => rfl
  | cons line lines ih =>
    rw [terminated_cons, List.splitOn_append_cons_self,
      List.splitOn_eq_singleton (plain line List.mem_cons_self).noNewline,
      ih fun other member => plain other (List.mem_cons_of_mem _ member)]
    rfl

theorem fields_noNul (line : Bytes) : 0 ∉ (fields line).1 ∧ 0 ∉ (fields line).2 := by
  have whole : 0 ∉ (line.filter (· ≠ 0)).dropWhile (· = space) := by
    intro member
    have isKept := List.mem_filter.mp ((List.dropWhile_sublist _).subset member)
    simp at isKept
  constructor
  · intro member
    exact whole ((List.takeWhile_sublist _).subset member)
  · intro member
    have inRest := (List.dropWhile_sublist _).subset (List.mem_reverse.mp member)
    have inText := (List.dropWhile_sublist _).subset (List.mem_reverse.mp inRest)
    exact whole ((List.dropWhile_sublist _).subset inText)

theorem Plain.noNul {line : Bytes} (plain : Plain line) : 0 ∉ line := by
  obtain ⟨first, second⟩ := fields_noNul line
  rw [plain.form]
  simp [first, second, space]

theorem scriptTurns_of_line {lines : List Bytes} {line : Bytes} (member : line ∈ lines)
    (plain : Plain line) (notBlank : isBlank line = false) :
    scriptTurns sha256sum (terminated lines) = turns sha256sum (terminated lines) := by
  obtain ⟨byte, inLine, notSpace⟩ := List.all_eq_false.mp notBlank
  have inText : byte ∈ terminated lines :=
    List.mem_flatMap.mpr ⟨line, member, List.mem_append_left _ inLine⟩
  have notNul : byte ≠ 0 := fun nul => plain.noNul (nul ▸ inLine)
  apply if_neg
  intro all
  have bad := List.all_eq_true.mp all byte inText
  simp [notSpace, notNul] at bad

theorem sound_of_plain (lines : List Bytes) (plain : ∀ line ∈ lines, Plain line) :
    Sound sha256sum (terminated lines) := by
  intro files holds exits line member notBlank
  rw [splitOn_terminated lines plain, List.mem_append] at member
  cases member with
  | inr nothing =>
    rw [List.mem_singleton.mp nothing] at notBlank
    cases notBlank
  | inl member =>
    have isPlain := plain line member
    have isTurn : line ∈ (turns sha256sum (terminated lines)).map Turn.line := by
      rw [turns_terminated sha256sum lines plain]
      exact member
    obtain ⟨turn, inTurns, same⟩ := List.mem_map.mp isTurn
    subst same
    rw [← scriptTurns_of_line sha256sum member isPlain notBlank] at inTurns
    have passes := (exit_zero_iff holds).mp exits turn inTurns
    obtain ⟨content, read, expected⟩ :=
      (passes_iff_of_readsFile files ⟨isPlain.named, isPlain.isFile⟩).mp passes
    refine ⟨content, turn.filename, isPlain.named, read, ?_⟩
    have isDigest : turn.expectedChecksum = sha256sum.digest content :=
      expected.trans (isPlain.unmarked _)
    rw [← isDigest]
    exact isPlain.form

/-- The digest of the empty content, as a stand-in for all digests. -/
def emptyDigest : Bytes :=
  "e3b0c44298fc1c149afbf4c8996fb92427ae41e4649b934ca495991b7852b855".toList.map fun char =>
    UInt8.ofNat char.toNat

def sampleSum : Sha256sum where
  digest := fun _ => emptyDigest
  noSpace := fun _ => by decide
  accepts := fun _ => true
  options := fun _ _ => []
  consumed := fun _ _ => 0

/-- `bad  release.tar` without a newline at its end. -/
def unterminated : Bytes := [98, 97, 100, 32, 32, 114, 101, 108, 101, 97, 115, 101, 46, 116, 97, 114]

theorem turns_unterminated : scriptTurns sampleSum unterminated = [] := by
  rw [scriptTurns, if_neg (by decide), turns]
  split
  · rfl
  · rename_i read
    cases read

/-- A directory with only the list in it. -/
def onlyList (text : Bytes) : Files where
  content := fun path => if path = pathOf listName then some text else none
  apart := by
    intro path other present otherPresent below
    apply below.2.2
    have isList : ∀ path : Path, (if path = pathOf listName then some text else none).isSome →
        path = pathOf listName := by
      intro path present
      by_contra ne
      rw [if_neg ne] at present
      cases present
    rw [isList path present, isList other otherPresent]

end EzSdk.Devkit.Checksums
