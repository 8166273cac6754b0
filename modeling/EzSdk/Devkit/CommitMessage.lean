import EzSdk.Foundation.LineFolding
import EzSdk.Foundation.Texts
import EzSdk.Proto
import Mathlib.Data.List.DropRight

/-! `wrap_commit_message` of the commit hook on the lines of a message, and for which messages a
second run changes nothing and the footers stay as they are. -/

namespace EzSdk.Devkit.CommitMessage

open LineFolding Texts

/-! ### The script -/

/-- A line of a file, without its newline. -/
abbrev Line := Bytes

def ascii (text : String) : Line := text.toList.map fun char => UInt8.ofNat char.toNat

/-- The text that `$(...)` takes from a command that prints the lines, by its lines: without NUL
bytes, and without the newlines at the end. -/
def substitution (lines : List Line) : List Line :=
  (lines.map fun line => line.filter (· ≠ 0)).rdropWhile (· = [])

/-- How long a subject is, and which lines are text in the encoding. -/
structure Locale where
  length : Line → Nat
  decodes : Line → Bool

/-- `^(Change-Id:|Bug:)`. -/
def isFooter (line : Line) : Bool :=
  (ascii "Change-Id:").isPrefixOf line || (ascii "Bug:").isPrefixOf line

def subjectCharLimit : Nat := 72
def bodyWrapLimit : Nat := 80

/-- `$(head -n 1 file)`. -/
def firstLine (file : List Line) : Line := (substitution (file.take 1)).headD []

/-- `$(tail -n +2 file)`. -/
def restOfMessage (file : List Line) : List Line := substitution (file.drop 1)

variable (locale : Locale)

/-- Whether `grep -n -m 1` prints a line number. It stops at the first line that matches, and prints
nothing for a line that it cannot decode. -/
def findsFooter (rest : List Line) : Bool := (rest.find? isFooter).any locale.decodes

def bodyToWrap (rest : List Line) : List Line :=
  if findsFooter locale rest then substitution (rest.takeWhile fun line => !isFooter line) else rest

def footersToKeep (rest : List Line) : List Line :=
  if findsFooter locale rest then substitution (rest.dropWhile fun line => !isFooter line) else []

/-- What is written after the subject. -/
def wrappedRest (rest : List Line) : List Line :=
  let body := bodyToWrap locale rest
  let footers := footersToKeep locale rest
  (if body = [] then [] else [] :: body.flatMap (foldLine bodyWrapLimit)) ++
    (if footers = [] then [] else (if body = [] then [] else [[]]) ++ footers)

def subjectError (length : Nat) (subject : Line) : List Line :=
  [ascii "Error: Commit subject line exceeds 72 characters.",
    ascii "Please shorten the subject line to 72 characters or less.",
    ascii ("Current length: " ++ toString length),
    ascii "Subject: \"" ++ subject ++ ascii "\""]

/-- `wrap_commit_message`: the lines of the file afterwards, or the error. -/
def wrapCommitMessage (file : List Line) : Except (List Line) (List Line) :=
  if subjectCharLimit < locale.length (firstLine file) then
    .error (subjectError (locale.length (firstLine file)) (firstLine file))
  else
    .ok (firstLine file ::
      if restOfMessage file = [] then [] else wrappedRest locale (restOfMessage file))

/-! ### Command substitutions -/

theorem substitution_noNul {lines : List Line} {line : Line} (member : line ∈ substitution lines) :
    0 ∉ line := by
  have inMapped := (List.rdropWhile_prefix _ _).subset member
  obtain ⟨original, _, rfl⟩ := List.mem_map.mp inMapped
  simp

theorem substitution_last (lines : List Line) : (substitution lines).getLast? ≠ some [] := by
  intro last
  have something : substitution lines ≠ [] := by
    intro nothing
    rw [nothing] at last
    cases last
  have notEmpty := List.rdropWhile_last_not _ _ something
  rw [List.getLast?_eq_some_getLast something] at last
  exact notEmpty (decide_eq_true (Option.some.inj last))

theorem getLast_of_suffix {ending lines : List Line} (suffix : ending <:+ lines)
    (something : ending ≠ []) : lines.getLast? = ending.getLast? := by
  obtain ⟨front, rfl⟩ := suffix
  exact List.getLast?_append_of_ne_nil _ something

theorem filter_of_noNul {line : Line} (noNul : 0 ∉ line) : line.filter (· ≠ 0) = line := by
  apply List.filter_eq_self.mpr
  intro byte inLine
  exact decide_eq_true fun nul => noNul (nul ▸ inLine)

theorem substitution_of_noNul {lines : List Line} (noNul : ∀ line ∈ lines, 0 ∉ line) :
    substitution lines = lines.rdropWhile (· = []) := by
  have same : lines.map (fun line => line.filter (· ≠ 0)) = lines :=
    (List.map_congr_left fun line member => filter_of_noNul (noNul line member)).trans
      (List.map_id lines)
  rw [substitution, same]

/-- Lines without NUL bytes of which the last is not empty are kept. -/
theorem substitution_eq_self {lines : List Line} (noNul : ∀ line ∈ lines, 0 ∉ line)
    (last : lines.getLast? ≠ some []) : substitution lines = lines := by
  rw [substitution_of_noNul noNul, List.rdropWhile_eq_self_iff]
  intro something isEmpty
  apply last
  rw [List.getLast?_eq_some_getLast something, of_decide_eq_true isEmpty]

theorem substitution_suffix {lines ending : List Line} (suffix : ending <:+ substitution lines) :
    substitution ending = ending := by
  apply substitution_eq_self
  · intro line member
    exact substitution_noNul (suffix.subset member)
  · intro last
    have something : ending ≠ [] := by
      intro nothing
      rw [nothing] at last
      cases last
    exact substitution_last lines ((getLast_of_suffix suffix something).trans last)

variable {locale}

theorem footersToKeep_eq (file : List Line) :
    footersToKeep locale (restOfMessage file) =
      if findsFooter locale (restOfMessage file) then
        (restOfMessage file).dropWhile fun line => !isFooter line
      else [] := by
  rw [footersToKeep]
  split
  · exact substitution_suffix (List.dropWhile_suffix _)
  · rfl

/-! ### A body gains an empty line in every run -/

/-- So many empty lines, and then text. -/
def Starts (count : Nat) (lines : List Line) : Prop :=
  ∃ line later, lines = List.replicate count [] ++ line :: later ∧ line ≠ [] ∧ 0 ∉ line

theorem isFooter_nil : isFooter [] = false := by decide

theorem starts_unique {first second : Nat} {lines : List Line} (startsFirst : Starts first lines)
    (startsSecond : Starts second lines) : first = second := by
  obtain ⟨line, later, split, something, _⟩ := startsFirst
  obtain ⟨other, otherLater, otherSplit, otherSomething, _⟩ := startsSecond
  have counts : (lines.takeWhile (· = [])).length = first := by
    rw [split, List.takeWhile_append_of_pos (by simp)]
    simp [something]
  have otherCounts : (lines.takeWhile (· = [])).length = second := by
    rw [otherSplit, List.takeWhile_append_of_pos (by simp)]
    simp [otherSomething]
  exact counts.symm.trans otherCounts

theorem starts_append {count : Nat} {lines : List Line} (starts : Starts count lines)
    (more : List Line) : Starts count (lines ++ more) := by
  obtain ⟨line, later, rfl, text⟩ := starts
  exact ⟨line, later ++ more, by simp, text⟩

theorem starts_cons {count : Nat} {lines : List Line} (starts : Starts count lines) :
    Starts (count + 1) ([] :: lines) := by
  obtain ⟨line, later, rfl, text⟩ := starts
  exact ⟨line, later, rfl, text⟩

theorem starts_substitution {count : Nat} {lines : List Line} (starts : Starts count lines) :
    Starts count (substitution lines) := by
  obtain ⟨line, later, rfl, something, noNul⟩ := starts
  refine ⟨line, (later.map fun other => other.filter (· ≠ 0)).rdropWhile (· = []), ?_, something,
    noNul⟩
  rw [substitution, List.map_append, List.map_replicate, List.map_cons, filter_of_noNul noNul]
  exact rdropWhile_append_of_last _ _ (decide_eq_false something)

theorem starts_fold {count : Nat} {lines : List Line} (starts : Starts count lines) :
    Starts count (lines.flatMap (foldLine bodyWrapLimit)) := by
  obtain ⟨line, later, rfl, something, noNul⟩ := starts
  obtain ⟨piece, pieces, folded, pieceSome, isPrefix⟩ :=
    foldLine_cons (by decide : 8 ≤ bodyWrapLimit) line something
  have emptyLines : (List.replicate count ([] : Line)).flatMap (foldLine bodyWrapLimit) =
      List.replicate count [] := by
    induction count with
    | zero => rfl
    | succ count ih => exact congrArg ([] :: ·) ih
  refine ⟨piece, pieces ++ later.flatMap (foldLine bodyWrapLimit), ?_, pieceSome, ?_⟩
  · rw [List.flatMap_append, emptyLines, List.flatMap_cons, folded]
    rfl
  · exact fun nul => noNul (isPrefix.subset nul)

theorem starts_wrappedRest {count : Nat} {rest : List Line}
    (starts : Starts count (bodyToWrap locale rest)) :
    Starts (count + 1) (wrappedRest locale rest) := by
  have something : bodyToWrap locale rest ≠ [] := by
    obtain ⟨line, later, split, _⟩ := starts
    rw [split]
    simp
  rw [wrappedRest, if_neg something]
  exact starts_append (starts_cons (starts_fold starts)) _

/-- Text that does not end in an empty line starts after some empty lines. -/
theorem starts_of_text {lines : List Line} (something : lines ≠ []) (last : lines.getLast? ≠ some [])
    (noNul : ∀ line ∈ lines, 0 ∉ line) : ∃ count, Starts count lines := by
  induction lines with
  | nil => exact absurd rfl something
  | cons line lines ih =>
    by_cases isEmpty : line = []
    · subst isEmpty
      have more : lines ≠ [] := by
        intro nothing
        rw [nothing] at last
        exact last rfl
      have lastLater : lines.getLast? ≠ some [] := by
        intro ends
        apply last
        rw [← List.singleton_append, List.getLast?_append_of_ne_nil _ more, ends]
      obtain ⟨count, starts⟩ :=
        ih more lastLater fun other member => noNul other (List.mem_cons_of_mem _ member)
      exact ⟨count + 1, starts_cons starts⟩
    · exact ⟨0, line, lines, rfl, isEmpty, noNul line List.mem_cons_self⟩

theorem body_substituted (locale : Locale) (file : List Line) :
    ∃ lines, bodyToWrap locale (restOfMessage file) = substitution lines := by
  rw [bodyToWrap]
  split
  · exact ⟨_, rfl⟩
  · exact ⟨_, rfl⟩

theorem wrappedRest_nil : wrappedRest locale [] = [] := by
  have none : findsFooter locale [] = false := rfl
  simp [wrappedRest, bodyToWrap, footersToKeep, none]

theorem wrappedRest_of_noBody {rest : List Line} (noBody : bodyToWrap locale rest = []) :
    wrappedRest locale rest = footersToKeep locale rest := by
  simp [wrappedRest, noBody]

/-- A run on lines that start with empty ones adds another, or takes all of them away because a
footer follows. -/
theorem wrappedRest_changes (locale : Locale) {count : Nat} {rest : List Line}
    (starts : Starts (count + 1) rest) :
    Starts (count + 2) (wrappedRest locale rest) ∨ Starts 0 (wrappedRest locale rest) := by
  by_cases found : findsFooter locale rest = true
  · obtain ⟨line, later, rfl, something, noNul⟩ := starts
    have emptyLines : ∀ line ∈ List.replicate (count + 1) ([] : Line), (!isFooter line) = true := by
      simp [isFooter_nil]
    by_cases footer : isFooter line = true
    · right
      have noBody : bodyToWrap locale (List.replicate (count + 1) [] ++ line :: later) = [] := by
        rw [bodyToWrap, if_pos found, List.takeWhile_append_of_pos emptyLines]
        simp [footer, substitution]
      rw [wrappedRest_of_noBody noBody, footersToKeep, if_pos found,
        List.dropWhile_append_of_pos emptyLines]
      apply starts_substitution
      exact ⟨line, later, by simp [footer], something, noNul⟩
    · left
      apply starts_wrappedRest
      rw [bodyToWrap, if_pos found, List.takeWhile_append_of_pos emptyLines]
      apply starts_substitution
      exact ⟨line, later.takeWhile fun line => !isFooter line, by simp [footer], something, noNul⟩
  · left
    apply starts_wrappedRest
    rw [bodyToWrap, if_neg found]
    exact starts

theorem wrap_ok {file : List Line} (within : locale.length (firstLine file) ≤ subjectCharLimit) :
    wrapCommitMessage locale file = .ok (firstLine file :: wrappedRest locale (restOfMessage file)) := by
  rw [wrapCommitMessage, if_neg (Nat.not_lt.mpr within)]
  split
  · rename_i nothing
    rw [nothing, wrappedRest_nil]
  · rfl

theorem firstLine_noNul (file : List Line) : 0 ∉ firstLine file := by
  rw [firstLine]
  cases lines : substitution (file.take 1) with
  | nil => exact List.not_mem_nil
  | cons line later => exact substitution_noNul (lines ▸ List.mem_cons_self)

theorem firstLine_firstLine (file later : List Line) :
    firstLine (firstLine file :: later) = firstLine file := by
  have noNul := firstLine_noNul file
  generalize firstLine file = line at noNul
  show (substitution [line]).headD [] = line
  have lines : substitution [line] = [line].rdropWhile (· = []) :=
    substitution_of_noNul fun other member => by
      rw [List.mem_singleton.mp member]
      exact noNul
  rw [lines, List.rdropWhile_singleton]
  by_cases isEmpty : line = []
  · simp [isEmpty]
  · simp [isEmpty]

theorem rewrap {file : List Line} (within : locale.length (firstLine file) ≤ subjectCharLimit)
    (later : List Line) :
    wrapCommitMessage locale (firstLine file :: later) =
      .ok (firstLine file :: wrappedRest locale (substitution later)) := by
  have same := firstLine_firstLine file later
  have stillWithin : locale.length (firstLine (firstLine file :: later)) ≤ subjectCharLimit := by
    rw [same]
    exact within
  rw [wrap_ok stillWithin, same]
  rfl

theorem rewrap_body_ne {file : List Line}
    (within : locale.length (firstLine file) ≤ subjectCharLimit)
    (something : bodyToWrap locale (restOfMessage file) ≠ []) :
    wrapCommitMessage locale (firstLine file :: wrappedRest locale (restOfMessage file)) ≠
      .ok (firstLine file :: wrappedRest locale (restOfMessage file)) := by
  have body : ∃ count, Starts count (bodyToWrap locale (restOfMessage file)) := by
    obtain ⟨lines, substituted⟩ := body_substituted locale file
    rw [substituted] at something ⊢
    exact starts_of_text something (substitution_last lines) fun line member =>
      substitution_noNul member
  obtain ⟨count, starts⟩ := body
  have once := starts_wrappedRest starts
  rw [rewrap within]
  intro same
  have twice := wrappedRest_changes locale (starts_substitution once)
  rw [(List.cons.inj (Except.ok.inj same)).2] at twice
  rcases twice with more | none
  · exact absurd (starts_unique more once) (by omega)
  · exact absurd (starts_unique none once) (by omega)

/-! ### What is written -/

theorem footersToKeep_cases (locale : Locale) (file : List Line) :
    footersToKeep locale (restOfMessage file) = [] ∨
      ∃ footer later, footersToKeep locale (restOfMessage file) = footer :: later ∧
        isFooter footer = true ∧ locale.decodes footer = true := by
  rw [footersToKeep_eq]
  split
  · rename_i found
    obtain ⟨footer, first, decodes⟩ := (Option.any_eq_true _ _).mp found
    have head : ((restOfMessage file).dropWhile fun line => !isFooter line).head? = some footer := by
      rw [← List.find?_eq_head?_dropWhile_not, first]
    obtain ⟨later, shape⟩ := List.head?_eq_some_iff.mp head
    exact .inr ⟨footer, later, shape, List.find?_some first, decodes⟩
  · exact .inl rfl

theorem footersToKeep_suffix (file : List Line) :
    footersToKeep locale (restOfMessage file) <:+ restOfMessage file := by
  rw [footersToKeep_eq]
  split
  · exact List.dropWhile_suffix _
  · exact List.nil_suffix

/-- The lines before the first footer are those of the body, with empty lines around them. -/
theorem takeWhile_subset {front later : List Line} {footer : Line} (ends : isFooter footer = true) :
    (front ++ footer :: later).takeWhile (fun line => !isFooter line) ⊆ front := by
  intro line member
  rw [List.takeWhile_append] at member
  split at member
  · simpa [ends] using member
  · exact (List.takeWhile_prefix _).subset member

theorem written_body_fits (locale : Locale) (file : List Line) :
    ∀ line ∈ (wrappedRest locale (restOfMessage file)).takeWhile fun line => !isFooter line,
      columns line ≤ bodyWrapLimit := by
  have emptyFits : columns ([] : Line) ≤ bodyWrapLimit := by decide
  have foldedFits : ∀ line ∈ ([] :: (bodyToWrap locale (restOfMessage file)).flatMap
      (foldLine bodyWrapLimit)) ++ [[]], columns line ≤ bodyWrapLimit := by
    intro line member
    simp only [List.cons_append, List.mem_cons, List.mem_append, List.mem_flatMap,
      List.not_mem_nil, or_false] at member
    rcases member with rfl | ⟨original, _, isPiece⟩ | rfl
    · exact emptyFits
    · exact foldLine_fits (by decide) original line isPiece
    · exact emptyFits
  intro line member
  apply foldedFits
  by_cases noBody : bodyToWrap locale (restOfMessage file) = []
  · rw [wrappedRest_of_noBody noBody] at member
    rcases footersToKeep_cases locale file with nothing | ⟨footer, later, shape, ends, _⟩
    · rw [nothing] at member
      cases member
    · rw [shape] at member
      have impossible : line ∈ ([] : List Line) := takeWhile_subset ends member
      cases impossible
  · rw [wrappedRest, if_neg noBody] at member
    rcases footersToKeep_cases locale file with nothing | ⟨footer, later, shape, ends, _⟩
    · rw [nothing, if_pos rfl, List.append_nil] at member
      exact List.mem_append_left _ ((List.takeWhile_prefix _).subset member)
    · rw [shape, if_neg (List.cons_ne_nil _ _), if_neg noBody, ← List.append_assoc] at member
      exact takeWhile_subset ends member

theorem rewrap_footers (file : List Line) :
    wrappedRest locale (substitution (footersToKeep locale (restOfMessage file))) =
      footersToKeep locale (restOfMessage file) := by
  have kept : substitution (footersToKeep locale (restOfMessage file)) =
      footersToKeep locale (restOfMessage file) :=
    substitution_suffix (footersToKeep_suffix file)
  rw [kept]
  rcases footersToKeep_cases locale file with
    nothing | ⟨footer, later, shape, ends, decodes⟩
  · rw [nothing]
    exact wrappedRest_nil
  · have found : findsFooter locale (footer :: later) = true := by
      simpa [findsFooter, ends] using decodes
    rw [shape] at kept ⊢
    have noBody : bodyToWrap locale (footer :: later) = [] := by
      simp [bodyToWrap, found, ends, substitution]
    rw [wrappedRest_of_noBody noBody]
    simp [footersToKeep, found, ends, kept]

/-! ### When a message is wrapped well -/

/-- The lines from the first footer after the subject on. -/
def footersOf (file : List Line) : List Line := (file.drop 1).dropWhile fun line => !isFooter line

/-- The lines after the subject, without their NUL bytes. -/
def laterLines (file : List Line) : List Line := (file.drop 1).map fun line => line.filter (· ≠ 0)

/-- Only empty lines come before the first footer, and it can be decoded, or there is no footer and
all lines are empty. -/
structure NoBody (locale : Locale) (file : List Line) : Prop where
  blank : ∀ line ∈ (laterLines file).takeWhile fun line => !isFooter line, line = []
  decodes : ((laterLines file).find? isFooter).all locale.decodes = true

/-- A second run changes nothing, every line before the footers fits, and the footers are still the
last lines. -/
structure WrapsWell (locale : Locale) (file : List Line) : Prop where
  idempotent : ∀ once, wrapCommitMessage locale file = .ok once →
    wrapCommitMessage locale once = .ok once
  bodyFits : ∀ once, wrapCommitMessage locale file = .ok once →
    ∀ line ∈ (once.drop 1).takeWhile fun line => !isFooter line, columns line ≤ bodyWrapLimit
  footersKept : ∀ once, wrapCommitMessage locale file = .ok once → footersOf file <:+ once

/-- The substitution that reads the rest of the message only drops empty lines at the end. -/
theorem laterLines_split (file : List Line) :
    ∃ blanks, laterLines file = restOfMessage file ++ blanks ∧ ∀ line ∈ blanks, line = [] := by
  refine ⟨(laterLines file).rtakeWhile (· = []), List.rdropWhile_append_rtakeWhile.symm, ?_⟩
  intro line member
  have isBlank := List.mem_rtakeWhile_imp member
  exact of_decide_eq_true isBlank

theorem restOfMessage_eq_nil_iff (file : List Line) :
    restOfMessage file = [] ↔ ∀ line ∈ laterLines file, line = [] := by
  rw [restOfMessage, substitution, List.rdropWhile_eq_nil_iff]
  simp [laterLines]

theorem find?_laterLines (file : List Line) :
    (laterLines file).find? isFooter = (restOfMessage file).find? isFooter := by
  obtain ⟨blanks, split, allBlank⟩ := laterLines_split file
  have noneLater : blanks.find? isFooter = none := by
    rw [List.find?_eq_none]
    intro line member
    rw [allBlank line member, isFooter_nil]
    exact Bool.false_ne_true
  rw [split, List.find?_append, noneLater, Option.or_none]

theorem takeWhile_laterLines {file : List Line} {footer : Line}
    (first : (restOfMessage file).find? isFooter = some footer) :
    (laterLines file).takeWhile (fun line => !isFooter line) =
      (restOfMessage file).takeWhile fun line => !isFooter line := by
  obtain ⟨blanks, split, _⟩ := laterLines_split file
  obtain ⟨isOne, front, later, shape, before⟩ := List.find?_eq_some_iff_append.mp first
  rw [split, shape, List.append_assoc, List.takeWhile_append_of_pos before,
    List.takeWhile_append_of_pos before]
  simp [isOne]

/-- A message without a footer is its own body. -/
theorem restOfMessage_eq_nil_iff_noBody (locale : Locale) {file : List Line}
    (first : (restOfMessage file).find? isFooter = none) :
    restOfMessage file = [] ↔ NoBody locale file := by
  have sameFirst := (find?_laterLines file).trans first
  have noFooter : ∀ line ∈ laterLines file, (!isFooter line) = true := by
    rw [List.find?_eq_none] at sameFirst
    simpa using sameFirst
  rw [restOfMessage_eq_nil_iff]
  constructor
  · intro blank
    refine ⟨fun line member => blank line ((List.takeWhile_prefix _).subset member), ?_⟩
    rw [sameFirst]
    rfl
  · intro noBody
    have blank := noBody.blank
    rwa [List.takeWhile_eq_self_iff.mpr noFooter] at blank

theorem bodyToWrap_eq_nil_iff (locale : Locale) (file : List Line) :
    bodyToWrap locale (restOfMessage file) = [] ↔ NoBody locale file := by
  cases first : (restOfMessage file).find? isFooter with
  | none =>
    have unfound : findsFooter locale (restOfMessage file) = false := by
      rw [findsFooter, first]
      rfl
    rw [bodyToWrap, if_neg (by simp [unfound]), restOfMessage_eq_nil_iff_noBody locale first]
  | some footer =>
    have sameFirst := (find?_laterLines file).trans first
    by_cases decodes : locale.decodes footer = true
    · have found : findsFooter locale (restOfMessage file) = true := by
        rw [findsFooter, first]
        exact decodes
      have sameBody := takeWhile_laterLines first
      have clean : ∀ line ∈ (restOfMessage file).takeWhile fun line => !isFooter line, 0 ∉ line :=
        fun line member => substitution_noNul ((List.takeWhile_prefix _).subset member)
      rw [bodyToWrap, if_pos found, substitution_of_noNul clean, List.rdropWhile_eq_nil_iff]
      constructor
      · intro blank
        refine ⟨?_, ?_⟩
        · rw [sameBody]
          exact fun line member => of_decide_eq_true (blank line member)
        · rw [sameFirst]
          exact decodes
      · intro noBody line member
        exact decide_eq_true (noBody.blank line (sameBody ▸ member))
    · have unfound : findsFooter locale (restOfMessage file) = false := by
        rw [findsFooter, first]
        exact Bool.eq_false_iff.mpr decodes
      rw [bodyToWrap, if_neg (by simp [unfound])]
      constructor
      · intro nothing
        rw [nothing] at first
        cases first
      · intro noBody
        have able := noBody.decodes
        rw [sameFirst] at able
        exact absurd able decodes

theorem suffix_dropWhile {footer : Line} {later lines : List Line} (ends : isFooter footer = true)
    (suffix : footer :: later <:+ lines) :
    footer :: later <:+ lines.dropWhile fun line => !isFooter line := by
  obtain ⟨front, rfl⟩ := suffix
  rw [List.dropWhile_append]
  split
  · simp [ends]
  · exact List.suffix_append _ _

theorem isFooter_of_footersOf {file later : List Line} {footer : Line}
    (lines : footersOf file = footer :: later) : isFooter footer = true := by
  have first := List.head?_dropWhile_not (fun line => !isFooter line) (file.drop 1)
  unfold footersOf at lines
  rw [lines] at first
  simpa using first

theorem footersOf_suffix {file : List Line} (noBody : bodyToWrap locale (restOfMessage file) = [])
    (noNul : ∀ line ∈ footersOf file, 0 ∉ line)
    (last : (footersOf file).getLast? ≠ some []) :
    footersOf file <:+ footersToKeep locale (restOfMessage file) := by
  cases lines : footersOf file with
  | nil => exact List.nil_suffix
  | cons footer later =>
    -- nothing of the footers is lost in the substitution that reads the rest of the message
    obtain ⟨front, whole⟩ : footersOf file <:+ file.drop 1 := List.dropWhile_suffix _
    rw [lines] at noNul last whole
    have mapped : (footer :: later).map (fun line => line.filter (· ≠ 0)) = footer :: later :=
      (List.map_congr_left fun line member => filter_of_noNul (noNul line member)).trans
        (List.map_id _)
    have kept : restOfMessage file =
        front.map (fun line => line.filter (· ≠ 0)) ++ footer :: later := by
      rw [restOfMessage, substitution, ← whole, List.map_append, mapped,
        List.rdropWhile_eq_self_iff]
      intro something isEmpty
      apply last
      rw [← List.getLast?_append_of_ne_nil (front.map fun line => line.filter (· ≠ 0))
        (List.cons_ne_nil footer later), List.getLast?_eq_some_getLast something,
        of_decide_eq_true isEmpty]
    have found : findsFooter locale (restOfMessage file) = true := by
      by_contra unfound
      rw [bodyToWrap, if_neg unfound, kept] at noBody
      simp at noBody
    rw [footersToKeep_eq, if_pos found]
    apply suffix_dropWhile (isFooter_of_footersOf lines)
    rw [kept]
    exact List.suffix_append _ _

/-- The footers that are written have no NUL bytes and do not end in an empty line. -/
theorem footers_of_suffix {file : List Line}
    (suffix : footersOf file <:+ firstLine file :: footersToKeep locale (restOfMessage file)) :
    (∀ line ∈ footersOf file, 0 ∉ line) ∧ (footersOf file).getLast? ≠ some [] := by
  constructor
  · intro line member
    cases List.mem_cons.mp (suffix.subset member) with
    | inl isFirst =>
      rw [isFirst]
      exact firstLine_noNul file
    | inr isKept => exact substitution_noNul ((footersToKeep_suffix file).subset isKept)
  · intro last
    cases lines : footersOf file with
    | nil =>
      rw [lines] at last
      cases last
    | cons footer later =>
      have ends := isFooter_of_footersOf lines
      have written := (getLast_of_suffix suffix (by simp [lines])).trans last
      rcases footersToKeep_cases locale file with nothing | ⟨first, others, shape, _, _⟩
      · rw [nothing] at written suffix
        have emptySubject : firstLine file = [] := Option.some.inj written
        have inSubject : footer ∈ [firstLine file] := suffix.subset (by simp [lines])
        rw [List.mem_singleton.mp inSubject, emptySubject, isFooter_nil] at ends
        cases ends
      · have something : footersToKeep locale (restOfMessage file) ≠ [] := by simp [shape]
        rw [getLast_of_suffix (List.suffix_cons _ _) something] at written
        apply substitution_last (file.drop 1)
        exact (getLast_of_suffix (footersToKeep_suffix file) something).trans written

/-- A message is wrapped well exactly when it has no body, and its footers have no NUL bytes and do
not end in an empty line. -/
theorem wraps_well_iff (locale : Locale) (file : List Line)
    (within : locale.length (firstLine file) ≤ subjectCharLimit) :
    WrapsWell locale file ↔ NoBody locale file ∧
      (∀ line ∈ footersOf file, 0 ∉ line) ∧ (footersOf file).getLast? ≠ some [] := by
  have run := wrap_ok within
  rw [← bodyToWrap_eq_nil_iff]
  constructor
  · intro well
    have noBody : bodyToWrap locale (restOfMessage file) = [] := by
      by_contra something
      exact rewrap_body_ne within something (well.idempotent _ run)
    rw [wrappedRest_of_noBody noBody] at run
    exact ⟨noBody, footers_of_suffix (well.footersKept _ run)⟩
  · rintro ⟨noBody, noNul, last⟩
    have fits := written_body_fits locale file
    rw [wrappedRest_of_noBody noBody] at run fits
    constructor
    · intro once ran
      rw [← Except.ok.inj (run.symm.trans ran), rewrap within, rewrap_footers]
    · intro once ran
      rw [← Except.ok.inj (run.symm.trans ran)]
      exact fits
    · intro once ran
      rw [← Except.ok.inj (run.symm.trans ran)]
      exact (footersOf_suffix noBody noNul last).trans (List.suffix_cons _ _)

/-- A locale in which only ASCII is text. -/
def asciiOnly : Locale := ⟨List.length, fun line => line.all (· < 128)⟩

/-- A subject and footers, without a body. -/
def footersOnly : List Line := [ascii "Fix build", [], ascii "Bug: 1", ascii "Change-Id: I2"]

theorem footersOnly_wraps_well :
    asciiOnly.length (firstLine footersOnly) ≤ subjectCharLimit ∧ WrapsWell asciiOnly footersOnly :=
  ⟨by decide, (wraps_well_iff asciiOnly footersOnly (by decide)).mpr
    ⟨⟨by decide, by decide⟩, by decide, by decide⟩⟩

/-- A subject, an empty line and a body. -/
def withBody : List Line := [ascii "Fix build", [], ascii "The flag was wrong."]

/-- The second run adds another empty line. -/
theorem second_run_adds_line :
    asciiOnly.length (firstLine withBody) ≤ subjectCharLimit ∧
      wrapCommitMessage asciiOnly withBody =
        .ok [ascii "Fix build", [], [], ascii "The flag was wrong."] ∧
      wrapCommitMessage asciiOnly [ascii "Fix build", [], [], ascii "The flag was wrong."] =
        .ok [ascii "Fix build", [], [], [], ascii "The flag was wrong."] ∧
      ¬ WrapsWell asciiOnly withBody := by
  have once : wrapCommitMessage asciiOnly withBody =
      .ok [ascii "Fix build", [], [], ascii "The flag was wrong."] := by
    decide +kernel
  have twice : wrapCommitMessage asciiOnly [ascii "Fix build", [], [], ascii "The flag was wrong."] =
      .ok [ascii "Fix build", [], [], [], ascii "The flag was wrong."] := by
    decide +kernel
  refine ⟨by decide, once, twice, fun well => ?_⟩
  have same := well.idempotent _ once
  rw [twice] at same
  exact absurd (Except.ok.inj same) (by decide)

end EzSdk.Devkit.CommitMessage
