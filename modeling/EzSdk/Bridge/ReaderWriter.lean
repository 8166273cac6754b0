import EzSdk.Bridge.Reactor
import EzSdk.Foundation.BlockingQueue

/-! A `ServerReaderWriter` shared by the reactor, which forwards messages and signals the
end, and any number of handler threads that call `Read`. A step is one critical section of
`mu_`, or a wake-up of `cv_`. -/

namespace EzSdk.Bridge

open BlockingQueue (Consumer)

variable {Msg : Type}

/-- What a call of `Read` finds once it holds the lock. -/
inductive ReadTurn (Msg : Type) where
  | message (message : Msg)
  | finished
  | wait
  deriving DecidableEq

/-- The body of `Read`, from the moment the lock is taken to its release. -/
def Adapter.read (adapter : Adapter Msg) : ReadTurn Msg × Adapter Msg :=
  match adapter.requestQueue with
  | [] => if adapter.isDone then (.finished, adapter) else (.wait, adapter)
  | message :: rest => (.message message, { adapter with requestQueue := rest })

/-- The `Read` of a handler task is the turn of this module, taken when it does not wait. -/
theorem taskRead_eq_read (task : Task Msg) (stream : Stream Msg) (objects : Objects Msg)
    (adapter : Adapter Msg) (stored : objects.adapters[task.adapter]? = some adapter) :
    taskRead task stream objects =
      match adapter.read with
      | (.message message, changed) =>
        some ⟨{ stream with task := some { task with reads := task.reads ++ [message] } },
          { objects with adapters := objects.adapters.set task.adapter changed }, []⟩
      | (.finished, _) =>
        some ⟨{ stream with task := some { task with sawEnd := true } }, objects, []⟩
      | (.wait, _) => none := by
  simp only [taskRead, stored, Adapter.read]
  cases adapter.requestQueue with
  | nil => cases adapter.isDone <;> rfl
  | cons message rest => rfl

/-- The adapter with its handler threads. `reads` are the calls of `Read` that have
returned, in the order in which they took the lock; `none` stands for false. -/
structure ReaderWriter (Msg : Type) where
  adapter : Adapter Msg
  readers : List Consumer
  forwarded : List InvokeIsolateRequest
  reads : List (Nat × Option Msg)

def newReaderWriter (adapter : Adapter Msg) (readers : Nat) : ReaderWriter Msg where
  adapter := adapter
  readers := List.replicate readers .away
  forwarded := []
  reads := []

/-- `woken` is the reader that the `Signal` of `FeedRequest` wakes, if any sleeps. -/
inductive ReaderWriterEvent where
  | forwardRequest (request : InvokeIsolateRequest) (woken : Option Nat)
  | signalDone
  | callRead (reader : Nat)
  | lockRead (reader : Nat)
  | wakeUp (reader : Nat)
  deriving DecidableEq

namespace ReaderWriter

/-- `Signal` wakes one sleeper, or nobody when nobody sleeps. -/
def signal (readers : List Consumer) : Option Nat → Option (List Consumer)
  | some reader =>
    if readers[reader]? = some .asleep then some (readers.set reader .ready) else none
  | none => if Consumer.asleep ∉ readers then some readers else none

def step (state : ReaderWriter Msg) : ReaderWriterEvent → Option (ReaderWriter Msg)
  | .forwardRequest request woken =>
    let changed := { state with
      adapter := (state.adapter.forwardRequest request).2
      forwarded := state.forwarded ++ [request] }
    match state.adapter.parse request with
    | none => if woken = none then some changed else none
    | some _ => (signal state.readers woken).map (fun readers => { changed with readers })
  | .signalDone =>
    some { state with
      adapter := state.adapter.signalDone
      readers := BlockingQueue.wakeAll state.readers }
  | .callRead reader =>
    if state.readers[reader]? = some .away then
      some { state with readers := state.readers.set reader .ready }
    else none
  | .lockRead reader =>
    if state.readers[reader]? = some .ready then
      match state.adapter.read with
      | (.message message, adapter) =>
        some { state with
          adapter
          readers := state.readers.set reader .away
          reads := state.reads ++ [(reader, some message)] }
      | (.finished, adapter) =>
        some { state with
          adapter
          readers := state.readers.set reader .away
          reads := state.reads ++ [(reader, none)] }
      | (.wait, adapter) =>
        some { state with adapter, readers := state.readers.set reader .asleep }
    else none
  | .wakeUp reader =>
    if state.readers[reader]? = some .asleep then
      some { state with readers := state.readers.set reader .ready }
    else none

/-- The cases of a step; each names what the thread finds under the lock. -/
inductive Turn (state : ReaderWriter Msg) : ReaderWriterEvent → ReaderWriter Msg → Prop where
  | garbled (request : InvokeIsolateRequest) (unparsed : state.adapter.parse request = none) :
      Turn state (.forwardRequest request none)
        { state with forwarded := state.forwarded ++ [request] }
  | fed (request : InvokeIsolateRequest) (message : Msg) (woken : Option Nat)
      (readers : List Consumer) (parses : state.adapter.parse request = some message)
      (signalled : signal state.readers woken = some readers) :
      Turn state (.forwardRequest request woken)
        { state with
          adapter := state.adapter.feedRequest message
          readers := readers
          forwarded := state.forwarded ++ [request] }
  | done :
      Turn state .signalDone
        { state with
          adapter := state.adapter.signalDone
          readers := BlockingQueue.wakeAll state.readers }
  | called (reader : Nat) (away : state.readers[reader]? = some .away) :
      Turn state (.callRead reader) { state with readers := state.readers.set reader .ready }
  | took (reader : Nat) (message : Msg) (rest : List Msg)
      (ready : state.readers[reader]? = some .ready)
      (queue : state.adapter.requestQueue = message :: rest) :
      Turn state (.lockRead reader)
        { state with
          adapter := { state.adapter with requestQueue := rest }
          readers := state.readers.set reader .away
          reads := state.reads ++ [(reader, some message)] }
  | ended (reader : Nat) (ready : state.readers[reader]? = some .ready)
      (queue : state.adapter.requestQueue = []) (finished : state.adapter.isDone = true) :
      Turn state (.lockRead reader)
        { state with
          readers := state.readers.set reader .away
          reads := state.reads ++ [(reader, none)] }
  | slept (reader : Nat) (ready : state.readers[reader]? = some .ready)
      (queue : state.adapter.requestQueue = []) (unfinished : state.adapter.isDone = false) :
      Turn state (.lockRead reader) { state with readers := state.readers.set reader .asleep }
  | woke (reader : Nat) (asleep : state.readers[reader]? = some .asleep) :
      Turn state (.wakeUp reader) { state with readers := state.readers.set reader .ready }

theorem forward_turn (state next : ReaderWriter Msg) (request : InvokeIsolateRequest)
    (woken : Option Nat) (taken : state.step (.forwardRequest request woken) = some next) :
    Turn state (.forwardRequest request woken) next := by
  simp only [step, Adapter.forwardRequest] at taken
  cases parses : state.adapter.parse request with
  | none =>
    simp only [parses, Option.ite_none_right_eq_some] at taken
    obtain ⟨nobody, same⟩ := taken
    cases same
    subst nobody
    exact .garbled request parses
  | some message =>
    simp only [parses, Option.map_eq_some_iff] at taken
    obtain ⟨readers, signalled, same⟩ := taken
    cases same
    exact .fed request message woken readers parses signalled

theorem lock_turn (state next : ReaderWriter Msg) (reader : Nat)
    (taken : state.step (.lockRead reader) = some next) : Turn state (.lockRead reader) next := by
  simp only [step, Option.ite_none_right_eq_some] at taken
  obtain ⟨ready, turn⟩ := taken
  cases queue : state.adapter.requestQueue with
  | cons message rest =>
    simp only [Adapter.read, queue, Option.some.injEq] at turn
    subst turn
    exact .took reader message rest ready queue
  | nil =>
    cases finished : state.adapter.isDone with
    | true =>
      simp only [Adapter.read, queue, finished, if_true, Option.some.injEq] at turn
      subst turn
      exact .ended reader ready queue finished
    | false =>
      simp only [Adapter.read, queue, finished, Bool.false_eq_true, if_false,
        Option.some.injEq] at turn
      subst turn
      exact .slept reader ready queue finished

theorem step_turn (state : ReaderWriter Msg) (event : ReaderWriterEvent) (next : ReaderWriter Msg)
    (taken : state.step event = some next) : Turn state event next := by
  cases event with
  | forwardRequest request woken => exact forward_turn state next request woken taken
  | signalDone =>
    cases taken
    exact .done
  | callRead reader =>
    simp only [step, Option.ite_none_right_eq_some] at taken
    obtain ⟨away, same⟩ := taken
    cases same
    exact .called reader away
  | lockRead reader => exact lock_turn state next reader taken
  | wakeUp reader =>
    simp only [step, Option.ite_none_right_eq_some] at taken
    obtain ⟨asleep, same⟩ := taken
    cases same
    exact .woke reader asleep

/-- The forwarded messages that could be parsed. -/
def parsed (state : ReaderWriter Msg) : List Msg :=
  state.forwarded.filterMap
    (fun request => mergeProtobin state.adapter.method request.datagrams)

/-- The successful reads with their readers. -/
def successes (state : ReaderWriter Msg) : List (Nat × Msg) :=
  state.reads.filterMap (fun read => read.2.map (fun message => (read.1, message)))

/-- The messages that successful reads returned. -/
def returned (state : ReaderWriter Msg) : List Msg :=
  state.reads.filterMap Prod.snd

/-- The adapter as a blocking queue. -/
def view (state : ReaderWriter Msg) : BlockingQueue.Queue Msg where
  items := state.adapter.requestQueue
  closed := state.adapter.isDone
  notified := state.adapter.isDone
  consumers := state.readers
  owed := 0
  put := state.parsed
  taken := state.successes

theorem successes_messages (state : ReaderWriter Msg) :
    state.successes.map Prod.snd = state.returned := by
  simp only [successes, returned, List.map_filterMap]
  congr 1
  funext read
  cases read.2 <;> rfl

/-- `FeedRequest` puts the message in and signals under one lock. -/
theorem feed_refines (state : ReaderWriter Msg) (request : InvokeIsolateRequest) (message : Msg)
    (woken : Option Nat) (readers : List Consumer)
    (parses : state.adapter.parse request = some message)
    (signalled : signal state.readers woken = some readers) :
    Runs.run BlockingQueue.step state.view [.put message, .signal woken] =
      some (view { state with
        adapter := state.adapter.feedRequest message
        readers := readers
        forwarded := state.forwarded ++ [request] }) := by
  have merged : mergeProtobin state.adapter.method request.datagrams = some message := parses
  cases woken with
  | none =>
    simp only [signal, Runs.guarded] at signalled
    obtain ⟨nobody, same⟩ := signalled
    subst same
    simp [Runs.run, BlockingQueue.step, view, parsed, successes, merged, nobody,
      Adapter.feedRequest]
  | some reader =>
    simp only [signal, Runs.guarded] at signalled
    obtain ⟨asleep, same⟩ := signalled
    subst same
    simp [Runs.run, BlockingQueue.step, view, parsed, successes, merged, asleep,
      Adapter.feedRequest]

theorem step_refines (state : ReaderWriter Msg) (event : ReaderWriterEvent)
    (next : ReaderWriter Msg) (taken : state.step event = some next) :
    ∃ acts, Runs.run BlockingQueue.step state.view acts = some next.view := by
  cases step_turn state event next taken with
  | garbled request unparsed =>
    have merged : mergeProtobin state.adapter.method request.datagrams = none := unparsed
    exact ⟨[], by simp [Runs.run, view, parsed, successes, merged]⟩
  | fed request message woken readers parses signalled =>
    exact ⟨_, feed_refines state request message woken readers parses signalled⟩
  | done =>
    exact ⟨[.close, .signalAll], by
      simp [Runs.run, BlockingQueue.step, view, parsed, successes, Adapter.signalDone]⟩
  | called reader away =>
    exact ⟨[.arrive reader], by
      simp [Runs.run, BlockingQueue.step, view, parsed, successes, away]⟩
  | took reader message rest ready queue =>
    exact ⟨[.take reader], by
      simp [Runs.run, BlockingQueue.step, view, parsed, successes, ready, queue]⟩
  | ended reader ready queue finished =>
    exact ⟨[.giveUp reader], by
      simp [Runs.run, BlockingQueue.step, view, parsed, successes, ready, queue, finished]⟩
  | slept reader ready queue unfinished =>
    exact ⟨[.sleep reader], by
      simp [Runs.run, BlockingQueue.step, view, parsed, successes, ready, queue, unfinished]⟩
  | woke reader asleep =>
    exact ⟨[.wake reader], by
      simp [Runs.run, BlockingQueue.step, view, parsed, successes, asleep]⟩

end ReaderWriter

/-- The message that an event forwards. -/
def ReaderWriterEvent.request : ReaderWriterEvent → Option InvokeIsolateRequest
  | .forwardRequest request _ => some request
  | _ => none

namespace ReaderWriter

theorem step_forwarded (state : ReaderWriter Msg) (event : ReaderWriterEvent)
    (next : ReaderWriter Msg) (taken : state.step event = some next) :
    next.forwarded = state.forwarded ++ event.request.toList := by
  cases step_turn state event next taken <;> simp [ReaderWriterEvent.request]

theorem step_method (state : ReaderWriter Msg) (event : ReaderWriterEvent)
    (next : ReaderWriter Msg) (taken : state.step event = some next) :
    next.adapter.method = state.adapter.method := by
  cases step_turn state event next taken <;> rfl

/-- Only the reactor ends the messages. -/
theorem step_isDone (state : ReaderWriter Msg) (event : ReaderWriterEvent)
    (next : ReaderWriter Msg) (taken : state.step event = some next)
    (other : event ≠ .signalDone) : next.adapter.isDone = state.adapter.isDone := by
  cases step_turn state event next taken with
  | done => exact absurd rfl other
  | _ => rfl

theorem run_isDone (start final : ReaderWriter Msg) (events : List ReaderWriterEvent)
    (reached : Runs.run step start events = some final) (unfinished : start.adapter.isDone = false)
    (finished : final.adapter.isDone = true) : .signalDone ∈ events := by
  induction events generalizing start with
  | nil =>
    have same : start = final := Option.some.inj reached
    rw [same, finished] at unfinished
    cases unfinished
  | cons event events ih =>
    obtain ⟨next, taken, rest⟩ := (Runs.run_cons start final event events).mp reached
    by_cases done : event = .signalDone
    · simp [done]
    · have kept := step_isDone start event next taken done
      exact List.mem_cons_of_mem _ (ih next rest (kept.trans unfinished))

/-- A loss-free queue between the reactor and the readers: the reads return the messages in
order and each once, and a read is false only when there is nothing more to return. -/
structure LossFree (sent : List Msg) (events : List ReaderWriterEvent)
    (state : ReaderWriter Msg) : Prop where
  inOrder : state.returned <+: sent
  once : sent.Nodup → state.returned.Nodup
  falseAtEnd : ∀ reader next, state.step (.lockRead reader) = some next →
    next.reads = state.reads ++ [(reader, none)] →
      .signalDone ∈ events ∧ state.returned = sent

theorem run_sound (adapter : Adapter Msg) (readers : Nat) (events : List ReaderWriterEvent)
    (final : ReaderWriter Msg) (unused : adapter.requestQueue = []) (unfinished : adapter.isDone = false)
    (reached : Runs.run step (newReaderWriter adapter readers) events = some final) :
    BlockingQueue.Sound final.view := by
  have initially : BlockingQueue.Sound (newReaderWriter adapter readers).view := by
    have new : BlockingQueue.Sound (BlockingQueue.newQueue _ : BlockingQueue.Queue Msg) :=
      BlockingQueue.sound_new (List.replicate readers .away)
    simpa [view, newReaderWriter, BlockingQueue.newQueue, parsed, successes, unused, unfinished]
      using new
  exact BlockingQueue.sound_of_refines view step_refines _ final events initially reached

theorem reads_are_loss_free (service : Service Msg) (method : Method Msg) (writer : Nat)
    (request : InvokeIsolateRequest) (readers : Nat) (events : List ReaderWriterEvent)
    (final : ReaderWriter Msg)
    (reached : Runs.run step (newReaderWriter (newAdapter service method writer request) readers)
      events = some final) :
    LossFree
      ((events.filterMap ReaderWriterEvent.request).filterMap
        (newAdapter service method writer request).parse) events final := by
  have sound := run_sound _ readers events final rfl rfl reached
  have forwarded : final.forwarded = events.filterMap ReaderWriterEvent.request := by
    simpa [newReaderWriter] using
      Runs.run_log ReaderWriter.forwarded ReaderWriterEvent.request step_forwarded _ final events reached
  have sameMethod : final.adapter.method = method :=
    Runs.run_preserves (fun state => state.adapter.method = method)
      (fun state event next same taken => (step_method state event next taken).trans same)
      _ final events rfl reached
  have sent : final.parsed = (events.filterMap ReaderWriterEvent.request).filterMap
      (newAdapter service method writer request).parse := by
    rw [parsed, forwarded, sameMethod]
    rfl
  have accounted : final.parsed = final.returned ++ final.adapter.requestQueue := by
    rw [← successes_messages]
    exact sound.accounted
  rw [← sent]
  refine ⟨⟨_, accounted.symm⟩, ?_, ?_⟩
  · intro distinct
    rw [accounted] at distinct
    exact distinct.of_append_left
  · intro reader next taken isFalse
    cases step_turn final (.lockRead reader) next taken with
    | took _ message rest ready queue => simp at isFalse
    | slept _ ready queue unfinished => simp at isFalse
    | ended _ ready queue finished =>
      refine ⟨run_isDone _ final events reached rfl finished, ?_⟩
      rw [accounted, queue, List.append_nil]

/-- Two readers of a stream of greetings. The first sleeps, is woken by a message that the
second takes, sleeps again, and the end comes while a message is still queued. -/
def twoReaders : List ReaderWriterEvent :=
  [.callRead 0, .lockRead 0,
    .forwardRequest (bridgeMessage "Greeter" "StreamingSayHello" [10, 1, 65]) (some 0),
    .callRead 1, .lockRead 1, .lockRead 0,
    .forwardRequest (bridgeMessage "Greeter" "StreamingSayHello" [7]) none,
    .forwardRequest (bridgeMessage "Greeter" "StreamingSayHello" [10, 1, 66]) (some 0),
    .signalDone, .lockRead 0, .callRead 1, .lockRead 1]

def streamingSayHello : Method Bytes := ⟨"StreamingSayHello", true, true, [], mergeHelloRequest⟩

def greeterAdapter : Adapter Bytes :=
  newAdapter greeter streamingSayHello 0 (bridgeMessage "Greeter" "StreamingSayHello" [])

theorem reads_are_loss_free_twoReaders :
    ∃ final, Runs.run step (newReaderWriter greeterAdapter 2) twoReaders = some final ∧
      final.reads = [(1, some [65]), (0, some [66]), (1, none)] ∧
      LossFree [[65], [66]] twoReaders final :=
  ⟨_, rfl, rfl, reads_are_loss_free greeter streamingSayHello 0
    (bridgeMessage "Greeter" "StreamingSayHello" []) 2 twoReaders _ rfl⟩

end ReaderWriter

end EzSdk.Bridge
