import EzSdk.Foundation.HeapLists
import EzSdk.Foundation.Runs

/-! A queue behind a mutex and a condition variable. Producers put items in and signal,
consumers take items, sleep while there is nothing to take, and give up once the queue is
closed and empty. -/

namespace EzSdk.BlockingQueue

variable {Item : Type}

/-- Where a consumer is: away from the queue, about to take the lock, or asleep. -/
inductive Consumer where
  | away
  | ready
  | asleep
  deriving DecidableEq

structure Queue (Item : Type) where
  items : List Item
  closed : Bool
  /-- All sleepers have been woken since the queue was closed. -/
  notified : Bool
  consumers : List Consumer
  /-- Signals of puts that have not been given yet. -/
  owed : Nat
  /-- Everything that was ever put in, in order. -/
  put : List Item
  /-- Everything that was ever taken out, in order, with its consumer. -/
  taken : List (Nat × Item)

/-- A sleeper may also wake without a signal. -/
inductive Act (Item : Type) where
  | put (item : Item)
  | signal (woken : Option Nat)
  | arrive (consumer : Nat)
  | take (consumer : Nat)
  | sleep (consumer : Nat)
  | giveUp (consumer : Nat)
  | wake (consumer : Nat)
  | close
  | signalAll

def wakeAll (consumers : List Consumer) : List Consumer :=
  consumers.map (fun consumer => if consumer = .asleep then .ready else consumer)

def step (queue : Queue Item) : Act Item → Option (Queue Item)
  | .put item =>
    some { queue with
      items := queue.items ++ [item]
      owed := queue.owed + 1
      put := queue.put ++ [item] }
  | .signal none =>
    if 0 < queue.owed ∧ Consumer.asleep ∉ queue.consumers then
      some { queue with owed := queue.owed - 1 }
    else none
  | .signal (some consumer) =>
    if 0 < queue.owed ∧ queue.consumers[consumer]? = some .asleep then
      some { queue with
        owed := queue.owed - 1
        consumers := queue.consumers.set consumer .ready }
    else none
  | .arrive consumer =>
    if queue.consumers[consumer]? = some .away then
      some { queue with consumers := queue.consumers.set consumer .ready }
    else none
  | .take consumer =>
    match queue.items with
    | [] => none
    | item :: rest =>
      if queue.consumers[consumer]? = some .ready then
        some { queue with
          items := rest
          consumers := queue.consumers.set consumer .away
          taken := queue.taken ++ [(consumer, item)] }
      else none
  | .sleep consumer =>
    if queue.consumers[consumer]? = some .ready ∧ queue.items = [] ∧ queue.closed = false then
      some { queue with consumers := queue.consumers.set consumer .asleep }
    else none
  | .giveUp consumer =>
    if queue.consumers[consumer]? = some .ready ∧ queue.items = [] ∧ queue.closed = true then
      some { queue with consumers := queue.consumers.set consumer .away }
    else none
  | .wake consumer =>
    if queue.consumers[consumer]? = some .asleep then
      some { queue with consumers := queue.consumers.set consumer .ready }
    else none
  | .close => some { queue with closed := true }
  | .signalAll =>
    if queue.closed then
      some { queue with notified := true, consumers := wakeAll queue.consumers }
    else none

def newQueue (consumers : List Consumer) : Queue Item where
  items := []
  closed := false
  notified := false
  consumers := consumers
  owed := 0
  put := []
  taken := []

/-- Nothing is lost, duplicated or reordered, and no consumer sleeps on without a
reason: for every item a consumer is on its way or a signal is still to come. -/
structure Sound (queue : Queue Item) : Prop where
  accounted : queue.put = queue.taken.map Prod.snd ++ queue.items
  covered : Consumer.asleep ∈ queue.consumers →
    queue.items.length ≤ queue.consumers.count .ready + queue.owed
  closing : queue.notified = true → queue.closed = true
  roused : queue.notified = true → Consumer.asleep ∉ queue.consumers

theorem sound_new (consumers : List Consumer) : Sound (newQueue consumers : Queue Item) where
  accounted := rfl
  covered := fun _ => Nat.zero_le _
  closing := by simp [newQueue]
  roused := by simp [newQueue]

theorem asleep_not_mem_wakeAll (consumers : List Consumer) :
    Consumer.asleep ∉ wakeAll consumers := by
  intro member
  obtain ⟨consumer, _, becomes⟩ := List.mem_map.mp member
  by_cases asleep : consumer = .asleep
  · simp [asleep] at becomes
  · simp [asleep] at becomes

/-- Only a consumer that goes to sleep adds to the sleepers. -/
theorem asleep_of_set (consumers : List Consumer) (index : Nat) (becomes : Consumer)
    (awake : becomes ≠ .asleep) (member : Consumer.asleep ∈ consumers.set index becomes) :
    Consumer.asleep ∈ consumers := by
  rcases List.mem_or_eq_of_mem_set member with before | same
  · exact before
  · exact absurd same.symm awake

/-- A consumer that wakes or arrives covers one item more. -/
theorem sound_ready (queue : Queue Item) (sound : Sound queue) (index owed : Nat)
    (consumer : Consumer) (present : queue.consumers[index]? = some consumer)
    (unready : consumer ≠ .ready) (signals : queue.owed ≤ owed + 1) :
    Sound { queue with owed := owed, consumers := queue.consumers.set index .ready } where
  accounted := sound.accounted
  covered := by
    intro asleep
    have before := sound.covered (asleep_of_set _ index .ready (by decide) asleep)
    have counts := HeapLists.count_set queue.consumers index consumer .ready .ready present
    simp only [unready, if_false, if_true] at counts
    show queue.items.length ≤ (queue.consumers.set index .ready).count .ready + owed
    omega
  closing := sound.closing
  roused := fun notified asleep =>
    sound.roused notified (asleep_of_set _ index .ready (by decide) asleep)

theorem sound_take (queue : Queue Item) (sound : Sound queue) (index : Nat) (item : Item)
    (rest : List Item) (waiting : queue.items = item :: rest)
    (ready : queue.consumers[index]? = some .ready) :
    Sound { queue with
      items := rest
      consumers := queue.consumers.set index .away
      taken := queue.taken ++ [(index, item)] } where
  accounted := by simp [sound.accounted, waiting]
  covered := by
    intro asleep
    have before := sound.covered (asleep_of_set _ index .away (by decide) asleep)
    have counts := HeapLists.count_set queue.consumers index .ready .away .ready ready
    simp only [waiting, List.length_cons] at before
    simp only [if_true, reduceCtorEq, if_false] at counts
    show rest.length ≤ (queue.consumers.set index .away).count .ready + queue.owed
    omega
  closing := sound.closing
  roused := fun notified asleep =>
    sound.roused notified (asleep_of_set _ index .away (by decide) asleep)

/-- A consumer that finds nothing may do as it likes, as long as it does not fall asleep
after the last wake-up. -/
theorem sound_idle (queue : Queue Item) (sound : Sound queue) (index : Nat) (becomes : Consumer)
    (nothing : queue.items = []) (stays : becomes = .asleep → queue.closed = false) :
    Sound { queue with consumers := queue.consumers.set index becomes } where
  accounted := sound.accounted
  covered := by
    intro _
    simp [nothing]
  closing := sound.closing
  roused := by
    intro notified asleep
    rcases List.mem_or_eq_of_mem_set asleep with before | same
    · exact sound.roused notified before
    · have closed := sound.closing notified
      rw [stays same.symm] at closed
      cases closed

theorem step_sound (queue : Queue Item) (act : Act Item) (next : Queue Item) (sound : Sound queue)
    (taken : step queue act = some next) : Sound next := by
  cases act with
  | put item =>
    cases taken
    refine ⟨?_, ?_, sound.closing, sound.roused⟩
    · simp [sound.accounted]
    · intro asleep
      have before := sound.covered asleep
      simp only [List.length_append, List.length_singleton]
      omega
  | signal woken =>
    cases woken with
    | none =>
      simp only [step, Option.ite_none_right_eq_some] at taken
      obtain ⟨⟨_, none⟩, same⟩ := taken
      cases same
      exact ⟨sound.accounted, fun asleep => absurd asleep none, sound.closing, sound.roused⟩
    | some consumer =>
      simp only [step, Option.ite_none_right_eq_some] at taken
      obtain ⟨⟨owing, asleep⟩, same⟩ := taken
      cases same
      exact sound_ready queue sound consumer (queue.owed - 1) .asleep asleep (by decide) (by omega)
  | arrive consumer =>
    simp only [step, Option.ite_none_right_eq_some] at taken
    obtain ⟨away, same⟩ := taken
    cases same
    exact sound_ready queue sound consumer queue.owed .away away (by decide) (by omega)
  | take consumer =>
    simp only [step] at taken
    split at taken
    · cases taken
    · rename_i item rest waiting
      simp only [Option.ite_none_right_eq_some] at taken
      obtain ⟨ready, same⟩ := taken
      cases same
      exact sound_take queue sound consumer item rest waiting ready
  | sleep consumer =>
    simp only [step, Option.ite_none_right_eq_some] at taken
    obtain ⟨⟨_, nothing, opened⟩, same⟩ := taken
    cases same
    exact sound_idle queue sound consumer .asleep nothing (fun _ => opened)
  | giveUp consumer =>
    simp only [step, Option.ite_none_right_eq_some] at taken
    obtain ⟨⟨_, nothing, _⟩, same⟩ := taken
    cases same
    exact sound_idle queue sound consumer .away nothing (fun same => nomatch same)
  | wake consumer =>
    simp only [step, Option.ite_none_right_eq_some] at taken
    obtain ⟨asleep, same⟩ := taken
    cases same
    exact sound_ready queue sound consumer queue.owed .asleep asleep (by decide) (by omega)
  | close =>
    cases taken
    exact ⟨sound.accounted, sound.covered, fun _ => rfl, sound.roused⟩
  | signalAll =>
    simp only [step, Option.ite_none_right_eq_some] at taken
    obtain ⟨closed, same⟩ := taken
    cases same
    exact ⟨sound.accounted, fun asleep => absurd asleep (asleep_not_mem_wakeAll _),
      fun _ => closed, fun _ => asleep_not_mem_wakeAll _⟩

/-- The rule for a system that is such a queue when seen through `view`. -/
theorem sound_of_refines {State Event : Type} {move : State → Event → Option State}
    (view : State → Queue Item)
    (each : ∀ state event next, move state event = some next →
      ∃ acts, Runs.run step (view state) acts = some (view next))
    (start final : State) (events : List Event) (initially : Sound (view start))
    (reached : Runs.run move start events = some final) : Sound (view final) := by
  obtain ⟨acts, abstractRun⟩ := Runs.run_refines view each start final events reached
  exact Runs.run_preserves Sound step_sound (view start) (view final) acts initially abstractRun

/-- While an item waits, a consumer is ready, a signal is owed, or nobody sleeps. -/
theorem waiting_item_covered (queue : Queue Item) (sound : Sound queue) (waiting : queue.items ≠ []) :
    Consumer.ready ∈ queue.consumers ∨ 0 < queue.owed ∨ Consumer.asleep ∉ queue.consumers := by
  by_cases asleep : Consumer.asleep ∈ queue.consumers
  · have some_item : 0 < queue.items.length := List.length_pos_iff.mpr waiting
    have covered := sound.covered asleep
    by_cases ready : Consumer.ready ∈ queue.consumers
    · exact .inl ready
    · have unready : queue.consumers.count .ready = 0 := List.count_eq_zero.mpr ready
      exact .inr (.inl (by omega))
  · exact .inr (.inr asleep)

end EzSdk.BlockingQueue
