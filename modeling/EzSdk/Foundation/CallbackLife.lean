import Mathlib.Data.Bool.Basic
import Mathlib.Order.Basic

/-! The life of an object that serves one call through callbacks. The object reads
messages, may start one handler that runs beside the callbacks and keeps a raw
pointer to it, reports completion with `finish`, and is told once by `done` that
nothing is outstanding any more. A message or the end of the messages is supported
or not; what the callbacks do depends on it. -/

namespace EzSdk.CallbackLife

inductive Handler where
  | absent
  | active
  | returned
  deriving DecidableEq, Repr

structure Life where
  started : Bool
  handler : Handler
  reading : Bool
  writes : Nat
  closed : Bool
  finishes : Nat
  done : Bool
  freed : Bool
  supported : Bool
  deriving DecidableEq, Repr

def newLife (supported : Bool) : Life :=
  ⟨false, .absent, true, 0, false, 0, false, false, supported⟩

inductive LifeEvent where
  | idle
  | rejected
  | notReady
  | refused
  | opened
  | continued
  | endRejected
  | ended
  | writeStarted
  | writeDone (ok : Bool)
  | done
  | returned
  deriving DecidableEq, Repr

inductive LifeStep (life : Life) : LifeEvent → Life → Prop where
  | idle : LifeStep life .idle life
  | rejected (reading : life.reading = true) :
      LifeStep life .rejected
        { life with supported := false, reading := false, finishes := life.finishes + 1 }
  | notReady (reading : life.reading = true) (first : life.started = false) :
      LifeStep life .notReady
        { life with supported := true, reading := false, finishes := life.finishes + 1 }
  | refused (reading : life.reading = true) (first : life.started = false) :
      LifeStep life .refused { life with supported := true, started := true, handler := .absent }
  | opened (reading : life.reading = true) (first : life.started = false) :
      LifeStep life .opened { life with supported := true, started := true, handler := .active }
  | continued (reading : life.reading = true) (started : life.started = true) :
      LifeStep life .continued { life with supported := true }
  | endRejected (reading : life.reading = true) (unsupported : life.supported = false) :
      LifeStep life .endRejected
        { life with closed := true, reading := false, finishes := life.finishes + 1 }
  | ended (reading : life.reading = true) (supported : life.supported = true) :
      LifeStep life .ended { life with closed := true, reading := false }
  | writeStarted (active : life.handler = .active) (alive : life.freed = false) :
      LifeStep life .writeStarted { life with writes := life.writes + 1 }
  | writeDone (ok : Bool) (writing : 0 < life.writes) :
      LifeStep life (.writeDone ok)
        { life with
          writes := life.writes - 1
          finishes := if ok then life.finishes else life.finishes + 1 }
  | done (finished : 0 < life.finishes) (reads : life.reading = false) (writes : life.writes = 0)
      (once : life.done = false) :
      LifeStep life .done { life with done := true, freed := life.freed || life.supported }
  | returned (active : life.handler = .active) (alive : life.freed = false) :
      LifeStep life .returned { life with handler := .returned, finishes := life.finishes + 1 }
  | returnedFreed (active : life.handler = .active) (freed : life.freed = true) :
      LifeStep life .returned { life with handler := .returned }

/-- What holds throughout every life. -/
structure Sound (life : Life) : Prop where
  handler_started : life.started = false → life.handler = .absent
  writes_handler : life.handler = .absent → life.writes = 0
  reading_unfinished : life.handler = .absent → life.reading = true → life.finishes = 0
  reading_open : life.reading = true → life.closed = false ∧ life.done = false
  unsupported_reading : life.started = true → life.supported = false → life.reading = false
  done_finished : life.done = true → 0 < life.finishes
  done_freed : life.done = true → life.reading = false ∧ life.freed = life.supported
  freed_done : life.freed = true → life.done = true
  returned_finished : life.handler = .returned → 0 < life.finishes
  closed_finished : life.closed = true → life.supported = false → 0 < life.finishes
  finished_why : 0 < life.finishes → life.closed = true →
    life.handler ≠ .absent ∨ life.supported = false

theorem sound_new (supported : Bool) : Sound (newLife supported) := by
  constructor <;> simp [newLife]

theorem undone_of_reading (life : Life) (sound : Sound life) (reading : life.reading = true) :
    life.done ≠ true :=
  fun done => absurd (done.symm.trans (sound.reading_open reading).2) (by decide)

/-- A read may change what is supported, start the call and set its handler, as long
as the object is not left waiting with an unsupported message. -/
theorem sound_read (life : Life) (sound : Sound life) (reading : life.reading = true)
    (started : Bool) (handler : Handler)
    (consistent : started = false → handler = .absent)
    (unwritten : handler = .absent → life.writes = 0)
    (unfinished : handler = .absent → life.finishes = 0)
    (running : handler ≠ .returned ∨ 0 < life.finishes) :
    Sound { life with supported := true, started := started, handler := handler } := by
  have undone := undone_of_reading life sound reading
  have unclosed : life.closed ≠ true :=
    fun closed => absurd (closed.symm.trans (sound.reading_open reading).1) (by decide)
  constructor
  · exact consistent
  · exact unwritten
  · exact fun absent _ => unfinished absent
  · exact sound.reading_open
  · intro _ unsupported
    cases unsupported
  · exact sound.done_finished
  · exact fun done => absurd done undone
  · exact sound.freed_done
  · intro returned
    exact running.resolve_left (fun different => different returned)
  · exact fun closed => absurd closed unclosed
  · exact fun _ closed => absurd closed unclosed

/-- The last read may finish the call. -/
theorem sound_last_read (life : Life) (sound : Sound life) (reading : life.reading = true)
    (supported closed : Bool) (finishes : Nat) (more : life.finishes ≤ finishes)
    (failed : supported = false → 0 < finishes)
    (why : 0 < finishes → closed = true → life.handler ≠ .absent ∨ supported = false) :
    Sound { life with
      supported := supported, reading := false, closed := closed, finishes := finishes } := by
  have undone := undone_of_reading life sound reading
  constructor
  · exact sound.handler_started
  · exact sound.writes_handler
  · intro _ again
    cases again
  · intro again
    cases again
  · exact fun _ _ => rfl
  · exact fun done => absurd done undone
  · exact fun done => absurd done undone
  · exact sound.freed_done
  · exact fun returned => Nat.lt_of_lt_of_le (sound.returned_finished returned) more
  · exact fun _ => failed
  · exact why

/-- Once there is a handler, completed writes and its return only add to `finishes`. -/
theorem sound_handler (life : Life) (sound : Sound life) (handler : Handler) (writes finishes : Nat)
    (had : life.handler ≠ .absent) (present : handler ≠ .absent) (more : life.finishes ≤ finishes)
    (returned : handler = .returned → 0 < finishes) :
    Sound { life with handler := handler, writes := writes, finishes := finishes } := by
  constructor
  · exact fun unstarted => absurd (sound.handler_started unstarted) had
  · exact fun absent => absurd absent present
  · exact fun absent => absurd absent present
  · exact sound.reading_open
  · exact sound.unsupported_reading
  · exact fun done => Nat.lt_of_lt_of_le (sound.done_finished done) more
  · exact sound.done_freed
  · exact sound.freed_done
  · exact returned
  · exact fun closed unsupported =>
      Nat.lt_of_lt_of_le (sound.closed_finished closed unsupported) more
  · exact fun _ _ => .inl present

theorem sound_done (life : Life) (sound : Sound life) (finished : 0 < life.finishes)
    (reads : life.reading = false) (once : life.done = false) :
    Sound { life with done := true, freed := life.freed || life.supported } := by
  have unfreed : life.freed = false := by
    by_contra freed
    have done := sound.freed_done (by simpa using freed)
    exact absurd (done.symm.trans once) (by decide)
  constructor
  · exact sound.handler_started
  · exact sound.writes_handler
  · exact sound.reading_unfinished
  · exact fun reading => absurd (reading.symm.trans reads) (by decide)
  · exact sound.unsupported_reading
  · exact fun _ => finished
  · exact fun _ => ⟨reads, by simp [unfreed]⟩
  · exact fun _ => rfl
  · exact sound.returned_finished
  · exact sound.closed_finished
  · exact sound.finished_why

theorem sound_step (life next : Life) (event : LifeEvent) (sound : Sound life)
    (taken : LifeStep life event next) : Sound next := by
  cases taken with
  | idle => exact sound
  | rejected reading =>
    exact sound_last_read life sound reading false life.closed _ (Nat.le_succ _)
      (fun _ => Nat.succ_pos _) (fun _ _ => .inr rfl)
  | notReady reading first =>
    refine sound_last_read life sound reading true life.closed _ (Nat.le_succ _)
      (fun _ => Nat.succ_pos _) (fun _ closed => ?_)
    exact absurd (closed.symm.trans (sound.reading_open reading).1) (by decide)
  | refused reading first =>
    have absent := sound.handler_started first
    exact sound_read life sound reading true .absent (fun _ => rfl)
      (fun _ => sound.writes_handler absent) (fun _ => sound.reading_unfinished absent reading)
      (.inl (by decide))
  | opened reading first =>
    exact sound_read life sound reading true .active (by decide) (fun absent => by cases absent)
      (fun absent => by cases absent) (.inl (by decide))
  | continued reading started =>
    refine sound_read life sound reading life.started life.handler sound.handler_started
      sound.writes_handler (fun absent => sound.reading_unfinished absent reading) ?_
    by_cases returned : life.handler = .returned
    · exact .inr (sound.returned_finished returned)
    · exact .inl returned
  | endRejected reading unsupported =>
    exact sound_last_read life sound reading life.supported true _ (Nat.le_succ _)
      (fun _ => Nat.succ_pos _) (fun _ _ => .inr unsupported)
  | ended reading supported =>
    refine sound_last_read life sound reading life.supported true _ (Nat.le_refl _)
      (fun unsupported => absurd (supported.symm.trans unsupported) (by decide))
      (fun finished _ => .inl (fun absent => ?_))
    have unfinished := sound.reading_unfinished absent reading
    omega
  | writeStarted active alive =>
    exact sound_handler life sound life.handler _ life.finishes (by simp [active])
      (by simp [active]) (Nat.le_refl _) sound.returned_finished
  | writeDone ok writing =>
    have present : life.handler ≠ .absent := by
      intro absent
      have none_written := sound.writes_handler absent
      omega
    have more : life.finishes ≤ if ok then life.finishes else life.finishes + 1 := by
      cases ok <;> simp
    exact sound_handler life sound life.handler _ _ present present more
      (fun returned => Nat.lt_of_lt_of_le (sound.returned_finished returned) more)
  | done finished reads writes once => exact sound_done life sound finished reads once
  | returned active alive =>
    exact sound_handler life sound .returned life.writes _ (by simp [active]) (by decide)
      (Nat.le_succ _) (fun _ => Nat.succ_pos _)
  | returnedFreed active freed =>
    exact sound_handler life sound .returned life.writes life.finishes (by simp [active])
      (by decide) (Nat.le_refl _) (fun _ => sound.done_finished (sound.freed_done freed))

/-- The object is not freed under a running handler: as long as the handler runs,
`finish` has been called only if the last message was unsupported, and such an
object `done` does not free. -/
structure Guarded (life : Life) : Prop where
  finished_unsupported : life.handler = .active → 0 < life.finishes →
    life.supported = false ∧ life.reading = false
  freed_inactive : life.freed = true → life.handler ≠ .active

theorem guarded_new (supported : Bool) : Guarded (newLife supported) := by
  constructor <;> simp [newLife]

theorem guarded_step (life next : Life) (event : LifeEvent) (sound : Sound life)
    (guarded : Guarded life) (taken : LifeStep life event next)
    (writes : event = .writeDone false → life.handler ≠ .active ∨ life.supported = false) :
    Guarded next := by
  cases taken with
  | idle => exact guarded
  | rejected reading => exact ⟨fun _ _ => ⟨rfl, rfl⟩, guarded.freed_inactive⟩
  | notReady reading first =>
    have absent := sound.handler_started first
    constructor <;> simp [absent]
  | refused reading first => constructor <;> simp
  | opened reading first =>
    have unfinished := sound.reading_unfinished (sound.handler_started first) reading
    have unfreed : life.freed ≠ true := by
      intro freed
      have finished := sound.done_finished (sound.freed_done freed)
      omega
    exact ⟨fun _ finished => absurd finished (by simp [unfinished]), fun freed => absurd freed unfreed⟩
  | continued reading started =>
    refine ⟨fun active finished => ?_, guarded.freed_inactive⟩
    have quiet := (guarded.finished_unsupported active finished).2
    exact absurd (reading.symm.trans quiet) (by decide)
  | endRejected reading unsupported =>
    exact ⟨fun _ _ => ⟨unsupported, rfl⟩, guarded.freed_inactive⟩
  | ended reading supported =>
    refine ⟨fun active finished => ?_, guarded.freed_inactive⟩
    have quiet := (guarded.finished_unsupported active finished).2
    exact absurd (reading.symm.trans quiet) (by decide)
  | writeStarted active alive => exact ⟨guarded.finished_unsupported, guarded.freed_inactive⟩
  | writeDone ok writing =>
    cases ok with
    | true => exact ⟨guarded.finished_unsupported, guarded.freed_inactive⟩
    | false =>
      refine ⟨fun active _ => ?_, guarded.freed_inactive⟩
      have started : life.started = true := by
        by_contra unstarted
        have absent := sound.handler_started (Bool.eq_false_iff.mpr unstarted)
        exact absurd (active.symm.trans absent) (by decide)
      have unsupported := (writes rfl).resolve_left (fun inactive => inactive active)
      exact ⟨unsupported, sound.unsupported_reading started unsupported⟩
  | done finished reads idle once =>
    refine ⟨guarded.finished_unsupported, ?_⟩
    intro freed active
    have unsupported := (guarded.finished_unsupported active finished).1
    have before : life.freed = true := by simpa [unsupported] using freed
    exact guarded.freed_inactive before active
  | returned active alive => constructor <;> simp
  | returnedFreed active freed => constructor <;> simp

/-- `finish` has been called at most once, and a handler that has not returned
will be the one to call it. -/
structure FinishedOnce (life : Life) : Prop where
  once : life.finishes ≤ 1
  handler_supported : life.handler ≠ .absent → life.supported = true
  active_unfinished : life.handler = .active → life.finishes = 0

theorem finishedOnce_new (supported : Bool) : FinishedOnce (newLife supported) := by
  constructor <;> simp [newLife]

theorem finishedOnce_step (life next : Life) (event : LifeEvent) (sound : Sound life)
    (single : FinishedOnce life) (taken : LifeStep life event next)
    (rejects : event = .rejected → life.handler = .absent)
    (writes : event ≠ .writeDone false) : FinishedOnce next := by
  cases taken with
  | idle => exact single
  | rejected reading =>
    have absent := rejects rfl
    have unfinished := sound.reading_unfinished absent reading
    constructor <;> simp [absent, unfinished]
  | notReady reading first =>
    have absent := sound.handler_started first
    have unfinished := sound.reading_unfinished absent reading
    constructor <;> simp [absent, unfinished]
  | refused reading first => exact ⟨single.once, fun _ => rfl, fun active => by cases active⟩
  | opened reading first =>
    have unfinished := sound.reading_unfinished (sound.handler_started first) reading
    exact ⟨single.once, fun _ => rfl, fun _ => unfinished⟩
  | continued reading started => exact ⟨single.once, fun _ => rfl, single.active_unfinished⟩
  | endRejected reading unsupported =>
    have absent : life.handler = .absent := by
      by_contra present
      exact absurd (single.handler_supported present) (by simp [unsupported])
    have unfinished := sound.reading_unfinished absent reading
    constructor <;> simp [absent, unfinished]
  | ended reading supported =>
    exact ⟨single.once, single.handler_supported, single.active_unfinished⟩
  | writeStarted active alive =>
    exact ⟨single.once, single.handler_supported, single.active_unfinished⟩
  | writeDone ok writing =>
    cases ok with
    | true => exact ⟨single.once, single.handler_supported, single.active_unfinished⟩
    | false => exact absurd rfl writes
  | done finished reads idle once =>
    exact ⟨single.once, single.handler_supported, single.active_unfinished⟩
  | returned active alive =>
    have unfinished := single.active_unfinished active
    have supported := single.handler_supported (by simp [active])
    constructor <;> simp [unfinished, supported]
  | returnedFreed active freed =>
    have unfinished := single.active_unfinished active
    have finished := sound.done_finished (sound.freed_done freed)
    omega

/-- Every started call has a handler to finish it, and whatever was read last is
supported, so that `done` frees the object. -/
structure Completing (life : Life) : Prop where
  started_handler : life.started = true → life.handler ≠ .absent ∧ life.supported = true
  finished_supported : 0 < life.finishes → life.supported = true
  closed_started : life.closed = true → life.started = true

theorem completing_new (supported : Bool) : Completing (newLife supported) := by
  constructor <;> simp [newLife]

theorem completing_step (life next : Life) (event : LifeEvent) (sound : Sound life)
    (completing : Completing life) (taken : LifeStep life event next)
    (rejects : event ≠ .rejected) (refuses : event ≠ .refused)
    (ends : event = .endRejected ∨ event = .ended → life.started = true) : Completing next := by
  cases taken with
  | idle => exact completing
  | rejected reading => exact absurd rfl rejects
  | notReady reading first =>
    exact ⟨fun started => absurd started (by simp [first]), fun _ => rfl, completing.closed_started⟩
  | refused reading first => exact absurd rfl refuses
  | opened reading first =>
    exact ⟨fun _ => ⟨by simp, rfl⟩, fun _ => rfl, fun _ => rfl⟩
  | continued reading started =>
    exact ⟨fun _ => ⟨(completing.started_handler started).1, rfl⟩, fun _ => rfl,
      completing.closed_started⟩
  | endRejected reading unsupported =>
    have supported := (completing.started_handler (ends (.inl rfl))).2
    exact absurd supported (by simp [unsupported])
  | ended reading supported =>
    exact ⟨completing.started_handler, completing.finished_supported, fun _ => ends (.inr rfl)⟩
  | writeStarted active alive =>
    exact ⟨completing.started_handler, completing.finished_supported, completing.closed_started⟩
  | writeDone ok writing =>
    have started : life.started = true := by
      by_contra unstarted
      have none_written := sound.writes_handler
        (sound.handler_started (Bool.eq_false_iff.mpr unstarted))
      omega
    exact ⟨completing.started_handler, fun _ => (completing.started_handler started).2,
      completing.closed_started⟩
  | done finished reads idle once =>
    exact ⟨completing.started_handler, completing.finished_supported, completing.closed_started⟩
  | returned active alive =>
    have started : life.started = true := by
      by_contra unstarted
      have absent := sound.handler_started (Bool.eq_false_iff.mpr unstarted)
      simp [active] at absent
    exact ⟨fun _ => ⟨by simp, (completing.started_handler started).2⟩,
      fun _ => (completing.started_handler started).2, completing.closed_started⟩
  | returnedFreed active freed =>
    exact ⟨fun started => ⟨by simp, (completing.started_handler started).2⟩,
      completing.finished_supported, completing.closed_started⟩

/-- Nothing more can happen by itself: the messages have ended, no handler is
queued or running, and nothing is outstanding. -/
def Quiescent (life : Life) : Prop :=
  life.closed = true ∧ life.handler ≠ .active ∧ life.reading = false ∧ life.writes = 0

/-- Exactly when a quiescent object has called `finish`. -/
theorem quiescent_finished_iff (life : Life) (sound : Sound life) (quiescent : Quiescent life) :
    0 < life.finishes ↔ life.handler ≠ .absent ∨ life.supported = false := by
  obtain ⟨closed, inactive, _, _⟩ := quiescent
  constructor
  · intro finished
    exact sound.finished_why finished closed
  · rintro (present | unsupported)
    · apply sound.returned_finished
      cases handler : life.handler with
      | absent => exact absurd handler present
      | active => exact absurd handler inactive
      | returned => rfl
    · exact sound.closed_finished closed unsupported

end EzSdk.CallbackLife
