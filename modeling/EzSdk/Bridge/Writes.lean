import EzSdk.Bridge.Reactor
import EzSdk.Foundation.HeapLists
import Mathlib.Data.List.Range

/-! `WriteResponse` and `OnWriteDone` of the Reactor, one atomic operation at a time: any
number of threads write while gRPC completes the started writes in order. -/

namespace EzSdk.Bridge

/-- Where a thread is in `WriteResponse`. The response belongs to its `response_ptr` until
the push, which moves it to `pending_writes_`. -/
inductive WriterPhase where
  | idle
  | waiting (response : Nat)
  | passed (response : Nat)
  | stored (response : Nat)
  | started (response : Nat)
  deriving DecidableEq

/-- Where gRPC is in `OnWriteDone`: before the flag is cleared, before the pop, or not in it. -/
inductive DonePhase where
  | idle
  | entered
  | cleared
  deriving DecidableEq

/-- Responses are numbered by the calls of `WriteResponse` that bring them. -/
structure Writes where
  writers : List WriterPhase
  callback : DonePhase
  writingInProgress : Bool
  pendingWrites : List Nat
  calls : Nat
  /-- The responses given to `StartWrite`, in order. -/
  started : List Nat
  /-- How many of them gRPC has completed by calling `OnWriteDone`. -/
  completed : Nat
  /-- The responses that `OnWriteDone` has freed, in order. -/
  popped : List Nat

def newWrites (threads : Nat) : Writes where
  writers := List.replicate threads .idle
  callback := .idle
  writingInProgress := false
  pendingWrites := []
  calls := 0
  started := []
  completed := 0
  popped := []

/-- `notify_one` changes no member; a thread passes `wait(true)` whenever the flag is false. -/
inductive WriteEvent where
  | call (thread : Nat)
  | pass (thread : Nat)
  | store (thread : Nat)
  | startWrite (thread : Nat)
  | pushBack (thread : Nat)
  | complete
  | clear
  | popFront
  deriving DecidableEq

namespace Writes

def step (writes : Writes) : WriteEvent → Option Writes
  | .call thread =>
    match writes.writers[thread]? with
    | some .idle =>
      some { writes with
        writers := writes.writers.set thread (.waiting writes.calls)
        calls := writes.calls + 1 }
    | _ => none
  | .pass thread =>
    match writes.writers[thread]? with
    | some (.waiting response) =>
      if writes.writingInProgress then none
      else some { writes with writers := writes.writers.set thread (.passed response) }
    | _ => none
  | .store thread =>
    match writes.writers[thread]? with
    | some (.passed response) =>
      some { writes with
        writers := writes.writers.set thread (.stored response)
        writingInProgress := true }
    | _ => none
  | .startWrite thread =>
    match writes.writers[thread]? with
    | some (.stored response) =>
      some { writes with
        writers := writes.writers.set thread (.started response)
        started := writes.started ++ [response] }
    | _ => none
  | .pushBack thread =>
    match writes.writers[thread]? with
    | some (.started response) =>
      some { writes with
        writers := writes.writers.set thread .idle
        pendingWrites := writes.pendingWrites ++ [response] }
    | _ => none
  | .complete =>
    if writes.callback = .idle ∧ writes.completed < writes.started.length then
      some { writes with callback := .entered, completed := writes.completed + 1 }
    else none
  | .clear =>
    if writes.callback = .entered then
      some { writes with callback := .cleared, writingInProgress := false }
    else none
  | .popFront =>
    if writes.callback = .cleared then
      some { writes with
        callback := .idle
        pendingWrites := writes.pendingWrites.tail
        popped := writes.popped ++ writes.pendingWrites.take 1 }
    else none

/-- The cases of a step. -/
inductive Turn (writes : Writes) : WriteEvent → Writes → Prop where
  | call (thread : Nat) (idle : writes.writers[thread]? = some .idle) :
      Turn writes (.call thread)
        { writes with
          writers := writes.writers.set thread (.waiting writes.calls)
          calls := writes.calls + 1 }
  | pass (thread response : Nat) (waiting : writes.writers[thread]? = some (.waiting response))
      (free : writes.writingInProgress = false) :
      Turn writes (.pass thread)
        { writes with writers := writes.writers.set thread (.passed response) }
  | store (thread response : Nat) (passed : writes.writers[thread]? = some (.passed response)) :
      Turn writes (.store thread)
        { writes with
          writers := writes.writers.set thread (.stored response)
          writingInProgress := true }
  | startWrite (thread response : Nat) (stored : writes.writers[thread]? = some (.stored response)) :
      Turn writes (.startWrite thread)
        { writes with
          writers := writes.writers.set thread (.started response)
          started := writes.started ++ [response] }
  | pushBack (thread response : Nat) (started : writes.writers[thread]? = some (.started response)) :
      Turn writes (.pushBack thread)
        { writes with
          writers := writes.writers.set thread .idle
          pendingWrites := writes.pendingWrites ++ [response] }
  | complete (idle : writes.callback = .idle) (outstanding : writes.completed < writes.started.length) :
      Turn writes .complete
        { writes with callback := .entered, completed := writes.completed + 1 }
  | clear (entered : writes.callback = .entered) :
      Turn writes .clear { writes with callback := .cleared, writingInProgress := false }
  | popFront (cleared : writes.callback = .cleared) :
      Turn writes .popFront
        { writes with
          callback := .idle
          pendingWrites := writes.pendingWrites.tail
          popped := writes.popped ++ writes.pendingWrites.take 1 }

variable {writes next : Writes} {event : WriteEvent} {thread pushed : Nat} {phase : WriterPhase}

theorem step_turn (taken : writes.step event = some next) : Turn writes event next := by
  cases event with
  | call thread =>
    simp only [step] at taken
    split at taken
    · rename_i idle
      cases taken
      exact .call thread idle
    · cases taken
  | pass thread =>
    simp only [step] at taken
    split at taken
    · rename_i response waiting
      simp only [Option.ite_none_left_eq_some, Bool.not_eq_true] at taken
      obtain ⟨free, same⟩ := taken
      cases same
      exact .pass thread response waiting free
    · cases taken
  | store thread =>
    simp only [step] at taken
    split at taken
    · rename_i response passed
      cases taken
      exact .store thread response passed
    · cases taken
  | startWrite thread =>
    simp only [step] at taken
    split at taken
    · rename_i response stored
      cases taken
      exact .startWrite thread response stored
    · cases taken
  | pushBack thread =>
    simp only [step] at taken
    split at taken
    · rename_i response started
      cases taken
      exact .pushBack thread response started
    · cases taken
  | complete =>
    simp only [step, Option.ite_none_right_eq_some] at taken
    obtain ⟨⟨idle, outstanding⟩, same⟩ := taken
    cases same
    exact .complete idle outstanding
  | clear =>
    simp only [step, Option.ite_none_right_eq_some] at taken
    obtain ⟨entered, same⟩ := taken
    cases same
    exact .clear entered
  | popFront =>
    simp only [step, Option.ite_none_right_eq_some] at taken
    obtain ⟨cleared, same⟩ := taken
    cases same
    exact .popFront cleared

/-! ### The Reactor's own steps -/

/-- The Reactor of a stream, between two of its callbacks, as a state of this module. -/
structure Matches {Msg : Type} (writes : Writes) (stream : Stream Msg) : Prop where
  flag : writes.writingInProgress = stream.writingInProgress
  outstanding : writes.started.length = writes.completed + stream.writesOutstanding
  pending : writes.pendingWrites.length = stream.pendingWrites.length
  outside : writes.callback = .idle

/-- The Reactor's `writeResponse` is the four operations of `WriteResponse` in a row. -/
theorem writeResponse_matches {Msg : Type} (stream : Stream Msg) (matching : Matches writes stream)
    (number : Nat) (response : InvokeIsolateResponse)
    (waiting : writes.writers[thread]? = some (.waiting number))
    (free : stream.writingInProgress = false) :
    ∃ next, Runs.run step writes [.pass thread, .store thread, .startWrite thread, .pushBack thread] =
        some next ∧ Matches next (writeResponse response stream) := by
  have bound : thread < writes.writers.length := (List.getElem?_eq_some_iff.mp waiting).1
  have unlocked : writes.writingInProgress = false := matching.flag.trans free
  have seen (phase : WriterPhase) : (writes.writers.set thread phase)[thread]? = some phase :=
    List.getElem?_set_self bound
  refine ⟨
    { writes with
      writers := writes.writers.set thread .idle
      writingInProgress := true
      pendingWrites := writes.pendingWrites ++ [number]
      started := writes.started ++ [number] }, ?_, rfl, ?_, ?_, matching.outside⟩
  · simp only [Runs.run, step, waiting, unlocked, seen, List.set_set, Bool.false_eq_true, if_false,
      Option.bind_some]
  · have before := matching.outstanding
    simp only [writeResponse, List.length_append, List.length_singleton]
    omega
  · simp [writeResponse, matching.pending]

theorem onWriteDone_matches {Msg : Type} (stream : Stream Msg) (matching : Matches writes stream)
    (ok : Bool) (writing : 0 < stream.writesOutstanding) :
    ∃ next, Runs.run step writes [.complete, .clear, .popFront] = some next ∧
      Matches next
        (onWriteDone ok { stream with writesOutstanding := stream.writesOutstanding - 1 }) := by
  have before := matching.outstanding
  have outstanding : writes.completed < writes.started.length := by omega
  refine ⟨
    { writes with
      callback := .idle
      writingInProgress := false
      completed := writes.completed + 1
      pendingWrites := writes.pendingWrites.tail
      popped := writes.popped ++ writes.pendingWrites.take 1 },
    by simp [Runs.run, step, matching.outside, outstanding], ?_⟩
  cases ok with
  | true =>
    exact ⟨rfl, by simp only [onWriteDone, if_true]; omega,
      by simp [onWriteDone, matching.pending], rfl⟩
  | false =>
    exact ⟨rfl, by simp only [onWriteDone, Bool.false_eq_true, if_false, Stream.finish]; omega,
      by simp [onWriteDone, Stream.finish, matching.pending], rfl⟩

/-! ### One thread: a response outlives its write -/

/-- The response that a thread has brought and not yet pushed. -/
def held : WriterPhase → Option Nat
  | .idle => none
  | .waiting response => some response
  | .passed response => some response
  | .stored response => some response
  | .started response => some response

/-- The write that a thread has started before its push. -/
def ahead : WriterPhase → Nat
  | .started _ => 1
  | _ => 0

/-- A single thread in `phase` after `pushed` calls. Starts run ahead of pushes by at most
one, and every pop is paid for by a completion. -/
structure Lagging (writes : Writes) (phase : WriterPhase) (pushed : Nat) : Prop where
  single : writes.writers = [phase]
  pushes : writes.popped ++ writes.pendingWrites = List.range pushed
  starts : writes.started = List.range (pushed + ahead phase)
  current : ∀ response ∈ held phase, response = pushed
  calls : writes.calls = pushed + (held phase).toList.length
  pops : writes.popped.length + (if writes.callback = .idle then 0 else 1) ≤ writes.completed

theorem lagging_new : Lagging (newWrites 1) .idle 0 :=
  ⟨rfl, rfl, rfl, by simp [held], rfl, Nat.le_refl _⟩

theorem single_phase (writers : List WriterPhase) (found : WriterPhase) (single : writers = [phase])
    (present : writers[thread]? = some found) :
    thread = 0 ∧ phase = found := by
  subst single
  cases thread with
  | zero => exact ⟨rfl, by simpa using present⟩
  | succ thread => simp at present

/-- The thread moves on without a start or a push. -/
theorem lagging_move (becomes : WriterPhase) (flag : Bool) (lagging : Lagging writes phase pushed)
    (same : held becomes = held phase) (level : ahead becomes = ahead phase) :
    Lagging { writes with writers := [becomes], writingInProgress := flag } becomes pushed where
  single := rfl
  pushes := lagging.pushes
  starts := level ▸ lagging.starts
  current := same ▸ lagging.current
  calls := same ▸ lagging.calls
  pops := lagging.pops

theorem lagging_popFront (lagging : Lagging writes phase pushed) (cleared : writes.callback = .cleared) :
    Lagging { writes with
      callback := .idle
      pendingWrites := writes.pendingWrites.tail
      popped := writes.popped ++ writes.pendingWrites.take 1 } phase pushed where
  single := lagging.single
  pushes := by
    rw [← lagging.pushes, List.append_assoc, ← List.drop_one, List.take_append_drop]
  starts := lagging.starts
  current := lagging.current
  calls := lagging.calls
  pops := by
    have paid := lagging.pops
    have one : (writes.pendingWrites.take 1).length ≤ 1 := List.length_take_le 1 _
    simp only [cleared, reduceCtorEq, if_false] at paid
    simp only [List.length_append, if_true]
    omega

theorem step_lagging (writes : Writes) (event : WriteEvent) (next : Writes)
    (lagging : ∃ phase pushed, Lagging writes phase pushed) (taken : writes.step event = some next) :
    ∃ phase pushed, Lagging next phase pushed := by
  obtain ⟨phase, pushed, before⟩ := lagging
  cases step_turn taken with
  | call thread idle =>
    obtain ⟨first, is⟩ := single_phase _ _ before.single idle
    subst first is
    have fresh : writes.calls = pushed := before.calls
    refine ⟨.waiting writes.calls, pushed, ?_, before.pushes, before.starts, ?_, ?_, before.pops⟩
    · simp [before.single]
    · simp [held, fresh]
    · simp [held, fresh]
  | pass thread response waiting free =>
    obtain ⟨first, is⟩ := single_phase _ _ before.single waiting
    subst first is
    refine ⟨.passed response, pushed, ?_⟩
    simpa [before.single] using
      lagging_move (.passed response) writes.writingInProgress before rfl rfl
  | store thread response passed =>
    obtain ⟨first, is⟩ := single_phase _ _ before.single passed
    subst first is
    refine ⟨.stored response, pushed, ?_⟩
    simpa [before.single] using
      lagging_move (.stored response) true before rfl rfl
  | startWrite thread response stored =>
    obtain ⟨first, is⟩ := single_phase _ _ before.single stored
    subst first is
    have number : response = pushed := before.current response rfl
    refine ⟨.started response, pushed, ?_, before.pushes, ?_, before.current, before.calls,
      before.pops⟩
    · simp [before.single]
    · simp [before.starts, ahead, List.range_succ, number]
  | pushBack thread response started =>
    obtain ⟨first, is⟩ := single_phase _ _ before.single started
    subst first is
    have number : response = pushed := before.current response rfl
    refine ⟨.idle, pushed + 1, ?_, ?_, before.starts, ?_, before.calls, before.pops⟩
    · simp [before.single]
    · rw [← List.append_assoc, before.pushes, number, List.range_succ]
    · simp [held]
  | complete idle outstanding =>
    have paid := before.pops
    simp only [idle, if_true] at paid
    refine ⟨phase, pushed, before.single, before.pushes, before.starts, before.current,
      before.calls, ?_⟩
    simp only [reduceCtorEq, if_false]
    omega
  | clear entered =>
    have paid := before.pops
    simp only [entered, reduceCtorEq, if_false] at paid
    exact ⟨phase, pushed, before.single, before.pushes, before.starts, before.current,
      before.calls, by simpa using paid⟩
  | popFront cleared => exact ⟨phase, pushed, lagging_popFront before cleared⟩

/-- The write of a response has been started and not completed. -/
def InFlight (writes : Writes) (response : Nat) : Prop :=
  response ∈ writes.started.drop writes.completed

/-- A response in flight is owned by its thread or by `pending_writes_`, and what
`OnWriteDone` has freed was written to the end. -/
structure Outlives (writes : Writes) : Prop where
  owned : ∀ response, writes.InFlight response →
    response ∈ writes.pendingWrites ∨ .started response ∈ writes.writers
  freed : ∀ response ∈ writes.popped, response ∈ writes.started.take writes.completed

theorem popped_lt (lagging : Lagging writes phase pushed) (response : Nat)
    (member : response ∈ writes.popped) :
    response < writes.completed ∧ response < pushed := by
  have prefixed : writes.popped = List.range writes.popped.length := by
    have taken := congrArg (List.take writes.popped.length) lagging.pushes
    have bound : writes.popped.length ≤ pushed := by
      have lengths := congrArg List.length lagging.pushes
      simp only [List.length_append, List.length_range] at lengths
      omega
    simpa [List.take_range, Nat.min_eq_left bound] using taken
  have paid := lagging.pops
  have early : response < writes.popped.length := by
    rw [prefixed] at member
    exact List.mem_range.mp member
  have known : response ∈ List.range pushed := by
    rw [← lagging.pushes]
    exact List.mem_append_left _ member
  exact ⟨by omega, List.mem_range.mp known⟩

theorem lagging_outlives (lagging : Lagging writes phase pushed) : Outlives writes where
  owned := by
    intro response inFlight
    rw [InFlight, lagging.starts, List.mem_drop_iff_getElem] at inFlight
    obtain ⟨index, bound, is⟩ := inFlight
    simp only [List.getElem_range] at is
    simp only [List.length_range] at bound
    by_cases before : response < pushed
    · -- pushed already, and not among the freed ones since its write has not completed
      left
      have known : response ∈ writes.popped ++ writes.pendingWrites := by
        rw [lagging.pushes]
        exact List.mem_range.mpr before
      rcases List.mem_append.mp known with gone | pending
      · have completed := (popped_lt lagging response gone).1
        omega
      · exact pending
    · -- the one response whose start has run ahead of its push
      right
      rw [lagging.single]
      cases phase with
      | started current =>
        have number : current = pushed := lagging.current current rfl
        simp only [ahead] at bound
        simp only [List.mem_singleton, WriterPhase.started.injEq]
        omega
      | _ =>
        simp only [ahead] at bound
        omega
  freed := by
    intro response member
    obtain ⟨completed, known⟩ := popped_lt lagging response member
    rw [lagging.starts, List.take_range, List.mem_range]
    omega

theorem response_outlives_write (events : List WriteEvent) (final : Writes)
    (reached : Runs.run step (newWrites 1) events = some final) : Outlives final := by
  obtain ⟨phase, pushed, lagging⟩ :=
    Runs.run_preserves (fun writes => ∃ phase pushed, Lagging writes phase pushed) step_lagging
      (newWrites 1) final events ⟨.idle, 0, lagging_new⟩ reached
  exact lagging_outlives lagging

/-- The completion of the first write overtakes its push, so every later pop frees the
response of the call before. -/
def overtaken : List WriteEvent :=
  [.call 0, .pass 0, .store 0, .startWrite 0, .complete, .clear, .popFront, .pushBack 0,
    .call 0, .pass 0, .store 0, .startWrite 0, .pushBack 0, .complete, .clear, .popFront,
    .call 0, .pass 0, .store 0, .startWrite 0]

theorem response_outlives_write_overtaken :
    ∃ final, Runs.run step (newWrites 1) overtaken = some final ∧
      final.popped = [0] ∧ final.completed = 2 ∧ Outlives final :=
  ⟨_, rfl, rfl, rfl, response_outlives_write overtaken _ rfl⟩

/-! ### Several threads: one write at a time -/

/-- What matters for the exclusion of a thread that is between the wait and the start. -/
inductive Stage where
  | outside
  | passed
  | stored
  deriving DecidableEq

def stage : WriterPhase → Stage
  | .passed _ => .passed
  | .stored _ => .stored
  | _ => .outside

/-- A thread passes the wait only while no other thread is between its wait and its store. -/
def PassesAlone (writes : Writes) : WriteEvent → Prop
  | .pass _ => Stage.passed ∉ writes.writers.map stage
  | _ => True

instance (writes : Writes) : (event : WriteEvent) → Decidable (PassesAlone writes event)
  | .pass _ => inferInstanceAs (Decidable (Stage.passed ∉ writes.writers.map stage))
  | .call _ => isTrue trivial
  | .store _ => isTrue trivial
  | .startWrite _ => isTrue trivial
  | .pushBack _ => isTrue trivial
  | .complete => isTrue trivial
  | .clear => isTrue trivial
  | .popFront => isTrue trivial

/-- At most one of these exists: a thread between wait and start, a write that gRPC has not
completed, an `OnWriteDone` that has not cleared the flag. -/
structure Exclusive (writes : Writes) : Prop where
  ordered : writes.completed ≤ writes.started.length
  alone : (writes.writers.map stage).count .passed + (writes.writers.map stage).count .stored +
    writes.started.length + (if writes.callback = .entered then 1 else 0) ≤ writes.completed + 1
  free : writes.writingInProgress = false → (writes.writers.map stage).count .stored = 0 ∧
    writes.started.length = writes.completed ∧ writes.callback ≠ .entered

theorem exclusive_new (threads : Nat) : Exclusive (newWrites threads) := by
  constructor <;> simp [newWrites, List.map_replicate, List.count_replicate, stage]

/-- A thread that stays outside the section between wait and start changes nothing. -/
theorem exclusive_outside (exclusive : Exclusive writes) (calls : Nat) (becomes : WriterPhase)
    (pendingWrites : List Nat) (present : writes.writers[thread]? = some phase)
    (before : stage phase = .outside) (after : stage becomes = .outside) :
    Exclusive { writes with
      writers := writes.writers.set thread becomes
      calls := calls
      pendingWrites := pendingWrites } := by
  have unmoved := HeapLists.map_set_same stage writes.writers thread phase becomes present
    (after.trans before.symm)
  refine ⟨exclusive.ordered, ?_, ?_⟩
  · rw [unmoved]
    exact exclusive.alone
  · rw [unmoved]
    exact exclusive.free

theorem step_exclusive (writes : Writes) (event : WriteEvent) (next : Writes)
    (exclusive : Exclusive writes) (allowed : PassesAlone writes event)
    (taken : writes.step event = some next) : Exclusive next := by
  have ⟨ordered, alone, free⟩ := exclusive
  cases step_turn taken with
  | call thread idle =>
    exact exclusive_outside exclusive (writes.calls + 1) _ writes.pendingWrites idle rfl rfl
  | pass thread response waiting clear =>
    have passed := HeapLists.count_map_set stage _ _ _ (.passed response) .passed waiting
    have stored := HeapLists.count_map_set stage _ _ _ (.passed response) .stored waiting
    have nobody : (writes.writers.map stage).count .passed = 0 := List.count_eq_zero.mpr allowed
    obtain ⟨unstored, level, outside⟩ := free clear
    simp only [stage, reduceCtorEq, if_false, if_true] at passed stored
    refine ⟨ordered, ?_, fun _ => ⟨stored.trans unstored, level, outside⟩⟩
    simp only [outside, if_false]
    omega
  | store thread response isPassed =>
    have passed := HeapLists.count_map_set stage _ _ _ (.stored response) .passed isPassed
    have stored := HeapLists.count_map_set stage _ _ _ (.stored response) .stored isPassed
    simp only [stage, reduceCtorEq, if_false, if_true] at passed stored
    refine ⟨ordered, ?_, fun clear => nomatch clear⟩
    dsimp only
    omega
  | startWrite thread response isStored =>
    have passed := HeapLists.count_map_set stage _ _ _ (.started response) .passed isStored
    have stored := HeapLists.count_map_set stage _ _ _ (.started response) .stored isStored
    simp only [stage, reduceCtorEq, if_false, if_true] at passed stored
    refine ⟨?_, ?_, ?_⟩
    · simp only [List.length_append, List.length_singleton]
      omega
    · simp only [List.length_append, List.length_singleton]
      omega
    · intro clear
      have nobody := (free clear).1
      omega
  | pushBack thread response started =>
    exact exclusive_outside exclusive writes.calls .idle _ started rfl rfl
  | complete idle outstanding =>
    simp only [idle, reduceCtorEq, if_false] at alone
    refine ⟨outstanding, ?_, ?_⟩
    · simp only [if_true]
      omega
    · intro clear
      have level := (free clear).2.1
      omega
  | clear entered =>
    simp only [entered, if_true] at alone
    refine ⟨ordered, ?_, fun _ => ⟨?_, ?_, by simp⟩⟩
    · simp only [reduceCtorEq, if_false]
      omega
    · dsimp only
      omega
    · dsimp only
      omega
  | popFront cleared =>
    simp only [cleared, reduceCtorEq, if_false] at alone
    refine ⟨ordered, ?_, fun clear => ⟨(free clear).1, (free clear).2.1, by simp⟩⟩
    simp only [reduceCtorEq, if_false]
    omega

/-- Between two calls of `StartWrite` there is an `OnWriteDone`. -/
def OneOutstanding (writes : Writes) : Prop :=
  writes.started.length ≤ writes.completed + 1

theorem exclusive_outstanding (exclusive : Exclusive writes) :
    OneOutstanding writes := by
  have bound := exclusive.alone
  unfold OneOutstanding
  omega

theorem one_write_outstanding (threads : Nat) (events : List WriteEvent) (final : Writes)
    (alone : Runs.EveryStep step PassesAlone (newWrites threads) events)
    (reached : Runs.run step (newWrites threads) events = some final) : OneOutstanding final := by
  have exclusive : Exclusive final :=
    Runs.run_preserves_allowed Exclusive PassesAlone step_exclusive (newWrites threads) final events
      (exclusive_new threads) alone reached
  exact exclusive_outstanding exclusive

/-- Two threads whose calls overlap, but not between wait and store. -/
def takingTurns : List WriteEvent :=
  [.call 0, .call 1, .pass 0, .store 0, .startWrite 0, .complete, .clear, .pass 1, .popFront,
    .store 1, .pushBack 0, .startWrite 1]

theorem one_write_outstanding_turns :
    Runs.EveryStep step PassesAlone (newWrites 2) takingTurns ∧
      ∃ final, Runs.run step (newWrites 2) takingTurns = some final ∧ OneOutstanding final :=
  ⟨by decide, _, rfl, one_write_outstanding 2 takingTurns _ (by decide) rfl⟩

/-- Two threads see the flag clear before either of them sets it. -/
def bothPass : List WriteEvent :=
  [.call 0, .call 1, .pass 0, .pass 1, .store 0, .startWrite 0, .store 1, .startWrite 1]

theorem two_writes_outstanding :
    ∃ final, Runs.run step (newWrites 2) bothPass = some final ∧
      final.started = [0, 1] ∧ final.completed = 0 ∧ ¬ OneOutstanding final :=
  ⟨_, rfl, rfl, rfl, by unfold OneOutstanding; decide⟩

end Writes

end EzSdk.Bridge
