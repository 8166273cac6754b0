import EzSdk.Foundation.BlockingQueue
import Mathlib.Data.List.Nodup
import Mathlib.Data.List.Count

/-! The `ThreadPool` of `grpc.pb.h.jinja2`: its workers, the calls of `enqueue` and the
destructor. A step is one critical section of `queue_mutex_`, a signal of `condition_`, or
the return of a task. -/

namespace EzSdk.Bridge

open BlockingQueue (Consumer)

/-- A worker is about to take the lock, asleep in `Wait`, outside the lock with its task, or
has left its loop. -/
inductive WorkerPhase where
  | ready
  | asleep
  | executing (task : Nat)
  | exited
  deriving DecidableEq

/-- A call of `enqueue` after its critical section: it still has to signal, or has returned. -/
inductive EnqueuePhase where
  | signalling
  | returned (accepted : Bool)
  deriving DecidableEq

/-- Calls of `enqueue` are listed in the order in which they take the lock, and a task is
named by the position of its call. -/
structure ThreadPool where
  stop : Bool
  tasks : List Nat
  workers : List WorkerPhase
  calls : List EnqueuePhase
  /-- The destructor has called `SignalAll`. -/
  notified : Bool
  /-- The destructor has joined all workers. -/
  joined : Bool
  /-- The tasks that were put on the queue, in order. -/
  accepted : List Nat
  /-- Which worker took which task, in order. -/
  dequeued : List (Nat × Nat)
  /-- The tasks that have run to their end, in order. -/
  executed : List Nat

/-- The constructor; a pool has at least one worker. -/
def newThreadPool (numThreads : Nat) : ThreadPool where
  stop := false
  tasks := []
  workers := List.replicate (if numThreads = 0 then 1 else numThreads) .ready
  calls := []
  notified := false
  joined := false
  accepted := []
  dequeued := []
  executed := []

/-- `stop`, `signalAll` and `join` are the three parts of the destructor. -/
inductive PoolEvent where
  | enqueue
  | signal (call : Nat) (woken : Option Nat)
  | lock (worker : Nat)
  | finish (worker : Nat)
  | wakeUp (worker : Nat)
  | stop
  | signalAll
  | join
  deriving DecidableEq

namespace ThreadPool

/-- `Signal` wakes one sleeper, or nobody when nobody sleeps. -/
def signal (workers : List WorkerPhase) : Option Nat → Option (List WorkerPhase)
  | some worker =>
    if workers[worker]? = some .asleep then some (workers.set worker .ready) else none
  | none => if WorkerPhase.asleep ∉ workers then some workers else none

/-- The loop of a worker from the moment it holds the lock. -/
def lock (pool : ThreadPool) (worker : Nat) : ThreadPool :=
  match pool.tasks with
  | [] =>
    if pool.stop then { pool with workers := pool.workers.set worker .exited }
    else { pool with workers := pool.workers.set worker .asleep }
  | task :: rest =>
    { pool with
      tasks := rest
      workers := pool.workers.set worker (.executing task)
      dequeued := pool.dequeued ++ [(worker, task)] }

def enqueue (pool : ThreadPool) : ThreadPool :=
  if pool.stop then { pool with calls := pool.calls ++ [.returned false] }
  else
    { pool with
      tasks := pool.tasks ++ [pool.calls.length]
      calls := pool.calls ++ [.signalling]
      accepted := pool.accepted ++ [pool.calls.length] }

def step (pool : ThreadPool) : PoolEvent → Option ThreadPool
  | .enqueue => some pool.enqueue
  | .signal call woken =>
    if pool.calls[call]? = some .signalling then
      (signal pool.workers woken).map (fun workers =>
        { pool with workers, calls := pool.calls.set call (.returned true) })
    else none
  | .lock worker => if pool.workers[worker]? = some .ready then some (pool.lock worker) else none
  | .finish worker =>
    match pool.workers[worker]? with
    | some (.executing task) =>
      some { pool with
        workers := pool.workers.set worker .ready
        executed := pool.executed ++ [task] }
    | _ => none
  | .wakeUp worker =>
    if pool.workers[worker]? = some .asleep then
      some { pool with workers := pool.workers.set worker .ready }
    else none
  | .stop => if pool.stop then none else some { pool with stop := true }
  | .signalAll =>
    if pool.stop = true ∧ pool.notified = false then
      some { pool with
        notified := true
        workers := pool.workers.map (fun phase => if phase = .asleep then .ready else phase) }
    else none
  | .join =>
    if pool.notified = true ∧ ∀ phase ∈ pool.workers, phase = .exited then
      some { pool with joined := true }
    else none

/-- The cases of a step; each names what the thread finds under the lock. -/
inductive Turn (pool : ThreadPool) : PoolEvent → ThreadPool → Prop where
  | accepted (running : pool.stop = false) :
      Turn pool .enqueue
        { pool with
          tasks := pool.tasks ++ [pool.calls.length]
          calls := pool.calls ++ [.signalling]
          accepted := pool.accepted ++ [pool.calls.length] }
  | rejected (stopped : pool.stop = true) :
      Turn pool .enqueue { pool with calls := pool.calls ++ [.returned false] }
  | signalled (call : Nat) (woken : Option Nat) (workers : List WorkerPhase)
      (owing : pool.calls[call]? = some .signalling)
      (wakes : signal pool.workers woken = some workers) :
      Turn pool (.signal call woken)
        { pool with workers := workers, calls := pool.calls.set call (.returned true) }
  | took (worker task : Nat) (rest : List Nat) (ready : pool.workers[worker]? = some .ready)
      (queue : pool.tasks = task :: rest) :
      Turn pool (.lock worker)
        { pool with
          tasks := rest
          workers := pool.workers.set worker (.executing task)
          dequeued := pool.dequeued ++ [(worker, task)] }
  | left (worker : Nat) (ready : pool.workers[worker]? = some .ready) (queue : pool.tasks = [])
      (stopped : pool.stop = true) :
      Turn pool (.lock worker) { pool with workers := pool.workers.set worker .exited }
  | slept (worker : Nat) (ready : pool.workers[worker]? = some .ready) (queue : pool.tasks = [])
      (running : pool.stop = false) :
      Turn pool (.lock worker) { pool with workers := pool.workers.set worker .asleep }
  | finished (worker task : Nat) (executing : pool.workers[worker]? = some (.executing task)) :
      Turn pool (.finish worker)
        { pool with
          workers := pool.workers.set worker .ready
          executed := pool.executed ++ [task] }
  | woke (worker : Nat) (asleep : pool.workers[worker]? = some .asleep) :
      Turn pool (.wakeUp worker) { pool with workers := pool.workers.set worker .ready }
  | stopped (running : pool.stop = false) : Turn pool .stop { pool with stop := true }
  | notified (stopped : pool.stop = true) :
      Turn pool .signalAll
        { pool with
          notified := true
          workers := pool.workers.map (fun phase => if phase = .asleep then .ready else phase) }
  | joined (idle : ∀ phase ∈ pool.workers, phase = .exited) :
      Turn pool .join { pool with joined := true }

variable {pool next : ThreadPool} {event : PoolEvent} {call worker task : Nat}

theorem step_turn (taken : pool.step event = some next) : Turn pool event next := by
  cases event with
  | enqueue =>
    cases taken
    cases stop : pool.stop with
    | true => simpa [enqueue, stop] using Turn.rejected stop
    | false => simpa [enqueue, stop] using Turn.accepted stop
  | signal call woken =>
    simp only [step, Option.ite_none_right_eq_some, Option.map_eq_some_iff] at taken
    obtain ⟨owing, workers, wakes, same⟩ := taken
    cases same
    exact .signalled call woken workers owing wakes
  | lock worker =>
    simp only [step, Runs.guarded] at taken
    obtain ⟨ready, same⟩ := taken
    subst same
    cases queue : pool.tasks with
    | cons task rest => simpa [lock, queue] using Turn.took worker task rest ready queue
    | nil =>
      cases stop : pool.stop with
      | true => simpa [lock, queue, stop] using Turn.left worker ready queue stop
      | false => simpa [lock, queue, stop] using Turn.slept worker ready queue stop
  | finish worker =>
    simp only [step] at taken
    split at taken
    · rename_i task executing
      cases taken
      exact .finished worker task executing
    · cases taken
  | wakeUp worker =>
    simp only [step, Option.ite_none_right_eq_some] at taken
    obtain ⟨asleep, same⟩ := taken
    cases same
    exact .woke worker asleep
  | stop =>
    simp only [step, Option.ite_none_left_eq_some, Bool.not_eq_true] at taken
    obtain ⟨running, same⟩ := taken
    cases same
    exact .stopped running
  | signalAll =>
    simp only [step, Option.ite_none_right_eq_some] at taken
    obtain ⟨⟨stopped, _⟩, same⟩ := taken
    cases same
    exact .notified stopped
  | join =>
    simp only [step, Option.ite_none_right_eq_some] at taken
    obtain ⟨⟨_, idle⟩, same⟩ := taken
    cases same
    exact .joined idle

theorem signal_cases (workers next : List WorkerPhase) (woken : Option Nat)
    (wakes : signal workers woken = some next) :
    (woken = none ∧ .asleep ∉ workers ∧ next = workers) ∨
      ∃ worker, woken = some worker ∧ workers[worker]? = some .asleep ∧
        next = workers.set worker .ready := by
  cases woken with
  | none =>
    simp only [signal, Runs.guarded] at wakes
    exact .inl ⟨rfl, wakes.1, wakes.2.symm⟩
  | some worker =>
    simp only [signal, Runs.guarded] at wakes
    exact .inr ⟨worker, rfl, wakes.1, wakes.2.symm⟩

/-! ### The pool as a blocking queue -/

def consumer : WorkerPhase → Consumer
  | .ready => .ready
  | .asleep => .asleep
  | .executing _ => .away
  | .exited => .away

def view (pool : ThreadPool) : BlockingQueue.Queue Nat where
  items := pool.tasks
  closed := pool.stop
  notified := pool.notified
  consumers := pool.workers.map consumer
  owed := pool.calls.count .signalling
  put := pool.accepted
  taken := pool.dequeued

theorem consumer_eq_asleep (phase : WorkerPhase) : consumer phase = .asleep ↔ phase = .asleep := by
  cases phase <;> simp [consumer]

theorem consumer_eq_ready (phase : WorkerPhase) : consumer phase = .ready ↔ phase = .ready := by
  cases phase <;> simp [consumer]

theorem asleep_mem_consumers (workers : List WorkerPhase) :
    Consumer.asleep ∈ workers.map consumer ↔ WorkerPhase.asleep ∈ workers := by
  simp only [List.mem_map, consumer_eq_asleep, exists_eq_right]

theorem ready_mem_consumers (workers : List WorkerPhase) :
    Consumer.ready ∈ workers.map consumer ↔ WorkerPhase.ready ∈ workers := by
  simp only [List.mem_map, consumer_eq_ready, exists_eq_right]

theorem wakeAll_consumers (workers : List WorkerPhase) :
    (workers.map (fun phase => if phase = .asleep then .ready else phase)).map consumer =
      BlockingQueue.wakeAll (workers.map consumer) := by
  simp only [BlockingQueue.wakeAll, List.map_map]
  congr 1
  funext phase
  cases phase <;> rfl

theorem signal_refines (woken : Option Nat) (workers : List WorkerPhase)
    (owing : pool.calls[call]? = some .signalling) (wakes : signal pool.workers woken = some workers) :
    BlockingQueue.step pool.view (.signal woken) =
      some (view { pool with workers := workers, calls := pool.calls.set call (.returned true) }) := by
  have counts := HeapLists.count_set pool.calls call .signalling (.returned true) .signalling owing
  simp only [if_true, reduceCtorEq, if_false] at counts
  have some_owed : 0 < pool.calls.count .signalling :=
    List.count_pos_iff.mpr (List.mem_of_getElem? owing)
  have left : (pool.calls.set call (.returned true)).count .signalling =
      pool.calls.count .signalling - 1 := by omega
  rcases signal_cases pool.workers workers woken wakes with
    ⟨rfl, nobody, rfl⟩ | ⟨worker, rfl, asleep, rfl⟩
  · simp only [← asleep_mem_consumers] at nobody
    simp only [BlockingQueue.step, view, some_owed, nobody, not_false_eq_true, and_self, if_true, left]
  · simp [BlockingQueue.step, view, some_owed, asleep, left, consumer]

theorem step_refines (pool : ThreadPool) (event : PoolEvent) (next : ThreadPool)
    (taken : pool.step event = some next) :
    ∃ acts, Runs.run BlockingQueue.step pool.view acts = some next.view := by
  cases step_turn taken with
  | accepted running =>
    exact ⟨[.put pool.calls.length], by simp [Runs.run, BlockingQueue.step, view]⟩
  | rejected stopped => exact ⟨[], by simp [Runs.run, view]⟩
  | signalled call woken workers owing wakes =>
    exact ⟨[.signal woken], by
      rw [Runs.run, signal_refines woken workers owing wakes]
      rfl⟩
  | took worker task rest ready queue =>
    exact ⟨[.take worker], by
      simp [Runs.run, BlockingQueue.step, view, ready, queue, consumer]⟩
  | left worker ready queue stopped =>
    exact ⟨[.giveUp worker], by
      simp [Runs.run, BlockingQueue.step, view, ready, queue, stopped, consumer]⟩
  | slept worker ready queue running =>
    exact ⟨[.sleep worker], by
      simp [Runs.run, BlockingQueue.step, view, ready, queue, running, consumer]⟩
  | finished worker task executing =>
    exact ⟨[.arrive worker], by
      simp [Runs.run, BlockingQueue.step, view, executing, consumer]⟩
  | woke worker asleep =>
    exact ⟨[.wake worker], by simp [Runs.run, BlockingQueue.step, view, asleep, consumer]⟩
  | stopped running => exact ⟨[.close], by simp [Runs.run, BlockingQueue.step, view]⟩
  | notified stopped =>
    exact ⟨[.signalAll], by
      simp only [Runs.run, BlockingQueue.step, view, stopped, if_true, wakeAll_consumers,
        Option.bind_some]⟩
  | joined idle => exact ⟨[], by simp [Runs.run, view]⟩

/-! ### Tasks and workers -/

/-- What is true of the calls, the tasks and the workers after any run. -/
structure Ledger (pool : ThreadPool) : Prop where
  increasing : pool.accepted.Pairwise (· < ·)
  calls : ∀ call, call ∈ pool.accepted ↔
    pool.calls[call]? = some .signalling ∨ pool.calls[call]? = some (.returned true)
  counted : ∀ task, pool.executed.count task + pool.workers.count (.executing task) =
    (pool.dequeued.map Prod.snd).count task
  exitedLast : .exited ∈ pool.workers → pool.stop = true ∧ pool.tasks = []

theorem ledger_new (numThreads : Nat) : Ledger (newThreadPool numThreads) where
  increasing := List.Pairwise.nil
  calls := by simp [newThreadPool]
  counted := by simp [newThreadPool, List.count_replicate]
  exitedLast := by simp [newThreadPool]

/-- A worker that changes between phases without a task changes nothing for the tasks. -/
theorem ledger_set (ledger : Ledger pool) (phase becomes : WorkerPhase)
    (present : pool.workers[worker]? = some phase) (idle : ∀ task, phase ≠ .executing task)
    (stays : ∀ task, becomes ≠ .executing task)
    (last : becomes = .exited → pool.stop = true ∧ pool.tasks = []) :
    Ledger { pool with workers := pool.workers.set worker becomes } where
  increasing := ledger.increasing
  calls := ledger.calls
  counted := by
    intro task
    have counts := HeapLists.count_set pool.workers worker phase becomes (.executing task) present
    simp only [idle task, stays task, if_false] at counts
    have before := ledger.counted task
    show pool.executed.count task + (pool.workers.set worker becomes).count (.executing task) =
      (pool.dequeued.map Prod.snd).count task
    omega
  exitedLast := by
    intro exited
    rcases List.mem_or_eq_of_mem_set exited with before | same
    · exact ledger.exitedLast before
    · exact last same.symm

theorem ledger_calls (ledger : Ledger pool) (owing : pool.calls[call]? = some .signalling) :
    Ledger { pool with calls := pool.calls.set call (.returned true) } where
  increasing := ledger.increasing
  calls := by
    intro other
    rw [ledger.calls other]
    simp only [HeapLists.getElem?_set_some pool.calls call other .signalling (.returned true) _ owing]
    by_cases same : other = call
    · simp [same, owing]
    · simp [same]
  counted := ledger.counted
  exitedLast := ledger.exitedLast

theorem ledger_accepted (ledger : Ledger pool) (running : pool.stop = false) :
    Ledger { pool with
      tasks := pool.tasks ++ [pool.calls.length]
      calls := pool.calls ++ [.signalling]
      accepted := pool.accepted ++ [pool.calls.length] } where
  increasing := by
    refine List.pairwise_append.mpr ⟨ledger.increasing, List.pairwise_singleton _ _, ?_⟩
    intro earlier member last isLast
    rw [List.mem_singleton.mp isLast]
    rcases (ledger.calls earlier).mp member with known | known
    · exact (List.getElem?_eq_some_iff.mp known).1
    · exact (List.getElem?_eq_some_iff.mp known).1
  calls := by
    intro call
    simp only [List.mem_append, List.mem_singleton, HeapLists.getElem?_append_one, ledger.calls call,
      and_true, reduceCtorEq, and_false, or_false]
    exact or_right_comm
  counted := ledger.counted
  exitedLast := by
    intro exited
    have stopped := (ledger.exitedLast exited).1
    rw [running] at stopped
    cases stopped

theorem ledger_rejected (ledger : Ledger pool) :
    Ledger { pool with calls := pool.calls ++ [.returned false] } where
  increasing := ledger.increasing
  calls := by
    intro call
    simp only [HeapLists.getElem?_append_one, ledger.calls call]
    simp
  counted := ledger.counted
  exitedLast := ledger.exitedLast

theorem ledger_took (ledger : Ledger pool) (rest : List Nat)
    (ready : pool.workers[worker]? = some .ready) (queue : pool.tasks = task :: rest) :
    Ledger { pool with
      tasks := rest
      workers := pool.workers.set worker (.executing task)
      dequeued := pool.dequeued ++ [(worker, task)] } where
  increasing := ledger.increasing
  calls := ledger.calls
  counted := by
    intro other
    have counts := HeapLists.count_set pool.workers worker .ready (.executing task)
      (.executing other) ready
    have before := ledger.counted other
    simp only [reduceCtorEq, if_false, WorkerPhase.executing.injEq] at counts
    simp only [List.map_append, List.map_cons, List.map_nil, List.count_append, List.count_singleton,
      beq_iff_eq]
    omega
  exitedLast := by
    intro exited
    rcases List.mem_or_eq_of_mem_set exited with before | same
    · have empty := (ledger.exitedLast before).2
      rw [queue] at empty
      cases empty
    · cases same

theorem ledger_finished (ledger : Ledger pool)
    (executing : pool.workers[worker]? = some (.executing task)) :
    Ledger { pool with
      workers := pool.workers.set worker .ready
      executed := pool.executed ++ [task] } where
  increasing := ledger.increasing
  calls := ledger.calls
  counted := by
    intro other
    have counts := HeapLists.count_set pool.workers worker (.executing task) .ready
      (.executing other) executing
    have before := ledger.counted other
    simp only [reduceCtorEq, if_false, WorkerPhase.executing.injEq] at counts
    simp only [List.count_append, List.count_singleton, beq_iff_eq]
    omega
  exitedLast := by
    intro exited
    rcases List.mem_or_eq_of_mem_set exited with before | same
    · exact ledger.exitedLast before
    · cases same

theorem ledger_notified (ledger : Ledger pool) :
    Ledger { pool with
      notified := true
      workers := pool.workers.map (fun phase => if phase = .asleep then .ready else phase) } where
  increasing := ledger.increasing
  calls := ledger.calls
  counted := by
    intro task
    have unmoved : (pool.workers.map (fun phase => if phase = .asleep then .ready else phase)).count
        (.executing task) = pool.workers.count (.executing task) := by
      rw [List.count_eq_countP, List.countP_map, List.count_eq_countP]
      congr 1
      funext phase
      cases phase <;> rfl
    show pool.executed.count task + List.count _ _ = _
    rw [unmoved]
    exact ledger.counted task
  exitedLast := by
    intro exited
    obtain ⟨phase, member, becomes⟩ := List.mem_map.mp exited
    by_cases asleep : phase = .asleep
    · simp [asleep] at becomes
    · simp only [asleep, if_false] at becomes
      exact ledger.exitedLast (becomes ▸ member)

theorem step_ledger (ledger : Ledger pool) (taken : pool.step event = some next) : Ledger next := by
  cases step_turn taken with
  | accepted running => exact ledger_accepted ledger running
  | rejected stopped => exact ledger_rejected ledger
  | signalled call woken workers owing wakes =>
    rcases signal_cases pool.workers workers woken wakes with
      ⟨_, _, rfl⟩ | ⟨worker, _, asleep, rfl⟩
    · exact ledger_calls ledger owing
    · have awake := ledger_set ledger .asleep .ready asleep (by simp) (by simp) (by simp)
      exact ledger_calls awake owing
  | took worker task rest ready queue => exact ledger_took ledger rest ready queue
  | left worker ready queue stopped =>
    exact ledger_set ledger .ready .exited ready (by simp) (by simp) (fun _ => ⟨stopped, queue⟩)
  | slept worker ready queue running =>
    exact ledger_set ledger .ready .asleep ready (by simp) (by simp) (by simp)
  | finished worker task executing => exact ledger_finished ledger executing
  | woke worker asleep =>
    exact ledger_set ledger .asleep .ready asleep (by simp) (by simp) (by simp)
  | stopped running =>
    exact ⟨ledger.increasing, ledger.calls, ledger.counted,
      fun exited => ⟨rfl, (ledger.exitedLast exited).2⟩⟩
  | notified stopped => exact ledger_notified ledger
  | joined idle => exact ⟨ledger.increasing, ledger.calls, ledger.counted, ledger.exitedLast⟩

/-! ### Draining -/

/-- Steps that the pool's own threads and the calls in progress take. -/
def internal : PoolEvent → Bool
  | .signal _ _ => true
  | .lock _ => true
  | .finish _ => true
  | _ => false

/-- How much is left to do before the queue can be empty. -/
def weight (pool : ThreadPool) : Nat :=
  2 * pool.tasks.length + pool.calls.count .signalling + (pool.workers.map consumer).count .away

theorem lock_lighter (ready : pool.workers[worker]? = some .ready) (waiting : pool.tasks ≠ []) :
    ∃ next, pool.step (.lock worker) = some next ∧ next.weight < pool.weight := by
  obtain ⟨task, rest, queue⟩ := List.exists_cons_of_ne_nil waiting
  refine ⟨pool.lock worker, by simp [step, ready], ?_⟩
  have counts := HeapLists.count_map_set consumer pool.workers worker .ready (.executing task) .away
    ready
  simp only [consumer, reduceCtorEq, if_false, if_true] at counts
  simp only [weight, lock, queue, List.length_cons]
  omega

theorem finish_lighter (executing : pool.workers[worker]? = some (.executing task)) :
    ∃ next, pool.step (.finish worker) = some next ∧ next.weight < pool.weight := by
  refine ⟨_, by rw [step, executing], ?_⟩
  have counts := HeapLists.count_map_set consumer pool.workers worker (.executing task) .ready .away
    executing
  simp only [consumer, reduceCtorEq, if_false, if_true] at counts
  simp only [weight]
  omega

theorem signal_lighter (owing : pool.calls[call]? = some .signalling) :
    ∃ woken next, pool.step (.signal call woken) = some next ∧ next.weight < pool.weight := by
  have calls := HeapLists.count_set pool.calls call .signalling (.returned true) .signalling owing
  simp only [if_true, reduceCtorEq, if_false] at calls
  by_cases sleeper : WorkerPhase.asleep ∈ pool.workers
  · obtain ⟨worker, asleep⟩ := List.mem_iff_getElem?.mp sleeper
    refine ⟨some worker,
      { pool with
        workers := pool.workers.set worker .ready
        calls := pool.calls.set call (.returned true) }, by simp [step, owing, signal, asleep], ?_⟩
    have counts := HeapLists.count_map_set consumer pool.workers worker .asleep .ready .away asleep
    simp only [consumer, reduceCtorEq, if_false] at counts
    simp only [weight]
    omega
  · refine ⟨none, { pool with calls := pool.calls.set call (.returned true) },
      by simp [step, owing, signal, sleeper], ?_⟩
    simp only [weight]
    omega

/-- A waiting task is never stuck: some thread of the pool, or a call that still has to
signal, can go on. -/
theorem waiting_task_moves (sound : BlockingQueue.Sound pool.view) (ledger : Ledger pool)
    (staffed : pool.workers ≠ []) (waiting : pool.tasks ≠ []) :
    ∃ event next, internal event = true ∧ pool.step event = some next ∧ next.weight < pool.weight := by
  rcases BlockingQueue.waiting_item_covered pool.view sound waiting with ready | owed | rested
  · obtain ⟨worker, present⟩ := List.mem_iff_getElem?.mp ((ready_mem_consumers _).mp ready)
    obtain ⟨next, taken, lighter⟩ := lock_lighter present waiting
    exact ⟨.lock worker, next, rfl, taken, lighter⟩
  · obtain ⟨call, owing⟩ := List.mem_iff_getElem?.mp (List.count_pos_iff.mp owed)
    obtain ⟨woken, next, taken, lighter⟩ := signal_lighter owing
    exact ⟨.signal call woken, next, rfl, taken, lighter⟩
  · -- nobody sleeps, and nobody has left since a task is there
    obtain ⟨phase, others, split⟩ := List.exists_cons_of_ne_nil staffed
    have first : pool.workers[0]? = some phase := by simp [split]
    have member := List.mem_of_getElem? first
    cases phase with
    | ready =>
      obtain ⟨next, taken, lighter⟩ := lock_lighter first waiting
      exact ⟨.lock 0, next, rfl, taken, lighter⟩
    | asleep => exact absurd ((asleep_mem_consumers _).mpr member) rested
    | executing task =>
      obtain ⟨next, taken, lighter⟩ := finish_lighter first
      exact ⟨.finish 0, next, rfl, taken, lighter⟩
    | exited => exact absurd (ledger.exitedLast member).2 waiting

theorem step_workers_length (taken : pool.step event = some next) : next.workers.length = pool.workers.length := by
  cases step_turn taken with
  | signalled call woken workers owing wakes =>
    rcases signal_cases pool.workers workers woken wakes with
      ⟨_, _, rfl⟩ | ⟨worker, _, _, rfl⟩
    · rfl
    · exact List.length_set
  | _ => simp

/-- A pool that has a worker and in which nothing has gone wrong. -/
structure Healthy (pool : ThreadPool) : Prop where
  sound : BlockingQueue.Sound pool.view
  ledger : Ledger pool
  staffed : 0 < pool.workers.length

/-- What was accepted has been taken, in order, or is still queued. -/
theorem Healthy.accounted (healthy : Healthy pool) :
    pool.accepted = pool.dequeued.map Prod.snd ++ pool.tasks :=
  healthy.sound.accounted

theorem healthy_new (numThreads : Nat) : Healthy (newThreadPool numThreads) where
  sound := by
    have new : BlockingQueue.Sound (BlockingQueue.newQueue _ : BlockingQueue.Queue Nat) :=
      BlockingQueue.sound_new ((newThreadPool numThreads).workers.map consumer)
    simpa [view, newThreadPool, BlockingQueue.newQueue] using new
  ledger := ledger_new numThreads
  staffed := by
    simp only [newThreadPool, List.length_replicate]
    split <;> omega

theorem step_healthy (pool : ThreadPool) (event : PoolEvent) (next : ThreadPool)
    (healthy : Healthy pool) (taken : pool.step event = some next) : Healthy next where
  sound := by
    obtain ⟨acts, abstractRun⟩ := step_refines pool event next taken
    exact Runs.run_preserves BlockingQueue.Sound BlockingQueue.step_sound pool.view next.view acts
      healthy.sound abstractRun
  ledger := step_ledger healthy.ledger taken
  staffed := (step_workers_length taken) ▸ healthy.staffed

/-- Without any new call, the pool can go on until every accepted task has been taken. -/
theorem healthy_drains (pool : ThreadPool) (healthy : Healthy pool) :
    ∃ events final, (∀ event ∈ events, internal event = true) ∧
      Runs.run step pool events = some final ∧ final.tasks = [] := by
  induction size : pool.weight using Nat.strongRecOn generalizing pool with
  | ind size ih =>
    by_cases empty : pool.tasks = []
    · exact ⟨[], pool, by simp, rfl, empty⟩
    · obtain ⟨event, next, own, taken, lighter⟩ := waiting_task_moves healthy.sound healthy.ledger
        (List.length_pos_iff.mp healthy.staffed) empty
      obtain ⟨events, final, owns, reached, drained⟩ :=
        ih next.weight (size ▸ lighter) next (step_healthy pool event next healthy taken) rfl
      refine ⟨event :: events, final, ?_, ?_, drained⟩
      · simpa [own] using owns
      · exact (Runs.run_cons pool final event events).mpr ⟨next, taken, reached⟩

/-- Every accepted task runs exactly once. -/
structure RunsOnce (pool : ThreadPool) : Prop where
  /-- Tasks leave the queue in the order in which their calls took the lock. -/
  inOrder : pool.accepted.Pairwise (· < ·) ∧ pool.dequeued.map Prod.snd <+: pool.accepted
  /-- An accepted task is still queued, or was taken by one worker once. -/
  takenOnce : ∀ call, pool.calls[call]? = some (.returned true) →
    (call ∈ pool.tasks ∧ (pool.dequeued.map Prod.snd).count call = 0) ∨
      (call ∉ pool.tasks ∧ (pool.dequeued.map Prod.snd).count call = 1)
  /-- A rejected task is nowhere. -/
  rejectedNever : ∀ call, pool.calls[call]? = some (.returned false) →
    call ∉ pool.tasks ∧ call ∉ pool.dequeued.map Prod.snd ∧
      .executing call ∉ pool.workers ∧ call ∉ pool.executed
  /-- A queued task can always be reached. -/
  neverStuck : ∃ events final, (∀ event ∈ events, internal event = true) ∧
    Runs.run step pool events = some final ∧ final.tasks = []
  /-- Shutdown drains the queue. -/
  drained : (∀ phase ∈ pool.workers, phase = .exited) →
    pool.tasks = [] ∧ pool.executed.Perm pool.accepted

theorem healthy_takenOnce (healthy : Healthy pool) (accepted : call ∈ pool.accepted) :
    (call ∈ pool.tasks ∧ (pool.dequeued.map Prod.snd).count call = 0) ∨
      (call ∉ pool.tasks ∧ (pool.dequeued.map Prod.snd).count call = 1) := by
  have distinct : pool.accepted.Nodup := healthy.ledger.increasing.imp Nat.ne_of_lt
  have total : (pool.dequeued.map Prod.snd).count call + pool.tasks.count call = 1 := by
    rw [← List.count_append, ← healthy.accounted]
    exact List.count_eq_one_of_mem distinct accepted
  by_cases queued : call ∈ pool.tasks
  · have counted : 0 < pool.tasks.count call := List.count_pos_iff.mpr queued
    exact .inl ⟨queued, by omega⟩
  · have counted : pool.tasks.count call = 0 := List.count_eq_zero.mpr queued
    exact .inr ⟨queued, by omega⟩

theorem healthy_rejected (pool : ThreadPool) (healthy : Healthy pool) (call : Nat)
    (rejected : pool.calls[call]? = some (.returned false)) :
    call ∉ pool.tasks ∧ call ∉ pool.dequeued.map Prod.snd ∧
      .executing call ∉ pool.workers ∧ call ∉ pool.executed := by
  have unaccepted : call ∉ pool.accepted := by
    rw [healthy.ledger.calls call, rejected]
    simp
  rw [healthy.accounted, List.mem_append, not_or] at unaccepted
  have counted := healthy.ledger.counted call
  rw [List.count_eq_zero.mpr unaccepted.1] at counted
  exact ⟨unaccepted.2, unaccepted.1, List.count_eq_zero.mp (by omega),
    List.count_eq_zero.mp (by omega)⟩

theorem healthy_drained (pool : ThreadPool) (healthy : Healthy pool)
    (idle : ∀ phase ∈ pool.workers, phase = .exited) :
    pool.tasks = [] ∧ pool.executed.Perm pool.accepted := by
  obtain ⟨phase, member⟩ := List.exists_mem_of_length_pos healthy.staffed
  have empty := (healthy.ledger.exitedLast (idle phase member ▸ member)).2
  refine ⟨empty, List.perm_iff_count.mpr ?_⟩
  intro task
  have nobody : pool.workers.count (.executing task) = 0 := by
    refine List.count_eq_zero.mpr fun busy => ?_
    cases idle _ busy
  have counted := healthy.ledger.counted task
  rw [healthy.accounted, empty, List.append_nil]
  omega

theorem tasks_run_exactly_once (numThreads : Nat) (events : List PoolEvent) (final : ThreadPool)
    (reached : Runs.run step (newThreadPool numThreads) events = some final) : RunsOnce final := by
  have healthy : Healthy final := Runs.run_preserves Healthy step_healthy _ final events
    (healthy_new numThreads) reached
  refine ⟨⟨healthy.ledger.increasing, ⟨final.tasks, ?_⟩⟩, ?_, healthy_rejected final healthy,
    healthy_drains final healthy, healthy_drained final healthy⟩
  · exact healthy.accounted.symm
  · intro call returned
    exact healthy_takenOnce healthy ((healthy.ledger.calls call).mpr (.inr returned))

/-- Two workers, a call that signals late, a stop that races with it, and a call that comes
too late. -/
def racingShutdown : List PoolEvent :=
  [.lock 0, .enqueue, .lock 1, .enqueue, .stop, .signal 1 (some 0), .enqueue, .finish 1, .lock 1,
    .lock 0, .signal 0 none, .signalAll, .finish 1, .lock 1, .join]

theorem tasks_run_exactly_once_racing :
    ∃ final, Runs.run step (newThreadPool 2) racingShutdown = some final ∧
      final.executed = [0, 1] ∧ final.joined = true ∧ RunsOnce final :=
  ⟨_, rfl, rfl, rfl, tasks_run_exactly_once 2 racingShutdown _ rfl⟩

end ThreadPool

end EzSdk.Bridge
