import EzSdk.Devkit.Python
import EzSdk.Foundation.Runs
import EzSdk.Proto

/-! The listener of `container_event_handler.py`: what it makes of the payload of a connection, and
which payloads end it. -/

namespace EzSdk.Devkit.EventListener

open Runs

/-- The exceptions that a conversion to a time can raise. -/
inductive ConversionError where
  | valueError
  | overflowError
  | osError
  deriving DecidableEq

/-- What the handler uses of Python and of its environment. `int` has no value where it raises a
`ValueError`; `fromMilliseconds` is `fromtimestamp(ts / 1000, utc).isoformat()`, with the exceptions
of the division. -/
structure Python where
  decode : Bytes → Chars
  strip : Chars → Chars
  int : Chars → Option Int
  fromMilliseconds : Nat → Except ConversionError Chars
  devkitStartTimeMs : Option Chars

/-- What is logged. -/
inductive Record where
  | received
  | eventData (text : Chars)
  | endTime (date : Chars)
  | latency (ms : Int)
  | startTimeInvalid (text : Chars)
  | startTimeMissing
  | parseFailed
  | unknownEvent (name : Chars)
  | malformed (text : Chars)
  | listenerError
  | unexpectedError
  deriving DecidableEq

variable (python : Python)

/-- The records about the time since the start. An empty variable counts as none. -/
def logLatency (tsEnd : Int) : List Record :=
  match python.devkitStartTimeMs with
  | none => [.startTimeMissing]
  | some text =>
    if text = [] then [.startTimeMissing]
    else
      match python.int text with
      | none => [.startTimeInvalid text]
      | some tsStart => [.latency (tsEnd - tsStart)]

/-- `handle_entrypoint_end_time_ms`: its records, and the exception that leaves it. Only a
`ValueError` is caught. -/
def handleEntrypointEndTimeMs (value : Chars) : List Record × Option ConversionError :=
  match python.int (python.strip value) with
  | none => ([.parseFailed], none)
  | some tsEnd =>
    if tsEnd < 0 then ([.parseFailed], none)
    else
      match python.fromMilliseconds tsEnd.toNat with
      | .ok date => (.endTime date :: logLatency python tsEnd, none)
      | .error .valueError => ([.parseFailed], none)
      | .error error => ([], some error)

def entrypointEndTimeMs : Chars := "entrypoint_end_time_ms".toList

/-- `text.split(":", 1)`, where there is a colon. -/
def splitEvent (text : Chars) : Option (Chars × Chars) :=
  if ':' ∈ text then some (text.takeWhile (· ≠ ':'), (text.dropWhile (· ≠ ':')).tail) else none

/-- `process_container_event`. -/
def processContainerEvent (data : Bytes) : List Record × Option ConversionError :=
  let decodedData := python.strip (python.decode data)
  let (records, raised) :=
    match splitEvent decodedData with
    | none => ([.malformed decodedData], none)
    | some (eventName, eventValue) =>
      if eventName = entrypointEndTimeMs then handleEntrypointEndTimeMs python eventValue
      else ([.unknownEvent eventName], none)
  (.eventData decodedData :: records, raised)

/-- What one `recv(1024)` returns. -/
structure Payload where
  data : Bytes
  short : data.length ≤ 1024

inductive Phase where
  | accepting
  | ended
  deriving DecidableEq

structure Listener where
  phase : Phase
  log : List Record
  deriving DecidableEq

def listening : Listener := ⟨.accepting, []⟩

/-- One turn of `container_event_listener` without cancellation. A listener that has left its loop
accepts no connection. -/
def turn (listener : Listener) (payload : Payload) : Option Listener :=
  match listener.phase with
  | .ended => none
  | .accepting =>
    if payload.data = [] then some listener
    else
      let (records, raised) := processContainerEvent python payload.data
      let log := listener.log ++ .received :: records
      match raised with
      | none => some ⟨.accepting, log⟩
      | some .osError => some ⟨.ended, log ++ [.listenerError]⟩
      | some _ => some ⟨.ended, log ++ [.unexpectedError]⟩

/-! ### Which payloads end the listener -/

/-- The payload is an event with an end time that is a number. -/
def EndTimeEvent (payload : Payload) (tsEnd : Nat) : Prop :=
  payload.data ≠ [] ∧ ∃ value,
    splitEvent (python.strip (python.decode payload.data)) = some (entrypointEndTimeMs, value) ∧
      python.int (python.strip value) = some (tsEnd : Int)

/-- An end time whose conversion raises something else than a `ValueError`. -/
def Deadly (payload : Payload) : Prop :=
  ∃ tsEnd, EndTimeEvent python payload tsEnd ∧
    (python.fromMilliseconds tsEnd = .error .overflowError ∨
      python.fromMilliseconds tsEnd = .error .osError)

theorem handler_raises_iff (value : Chars) :
    (handleEntrypointEndTimeMs python value).2 ≠ none ↔
      ∃ tsEnd : Nat, python.int (python.strip value) = some (tsEnd : Int) ∧
        (python.fromMilliseconds tsEnd = .error .overflowError ∨
          python.fromMilliseconds tsEnd = .error .osError) := by
  unfold handleEntrypointEndTimeMs
  cases python.int (python.strip value) with
  | none => simp
  | some number =>
    cases number with
    | negSucc below => simp
    | ofNat tsEnd =>
      have natural : ¬ (tsEnd : Int) < 0 := Int.not_lt.mpr (Int.natCast_nonneg tsEnd)
      simp only [Int.ofNat_eq_natCast, natural, if_false, Int.toNat_natCast, Option.some.injEq,
        Int.natCast_inj, exists_eq_left']
      cases python.fromMilliseconds tsEnd with
      | ok date => simp
      | error error => cases error <;> simp

/-- An exception leaves the processing of a payload exactly where the payload is deadly. -/
theorem process_raises_iff (payload : Payload) (something : payload.data ≠ []) :
    (processContainerEvent python payload.data).2 ≠ none ↔ Deadly python payload := by
  unfold Deadly EndTimeEvent processContainerEvent
  cases split : splitEvent (python.strip (python.decode payload.data)) with
  | none => simp [split]
  | some event =>
    cases event with
    | mk name value =>
      by_cases endTime : name = entrypointEndTimeMs
      · subst endTime
        simp only [split, if_true, handler_raises_iff]
        simp [something]
      · simp [split, endTime]

theorem turn_accepting_iff (log : List Record) (payload : Payload) :
    (∃ after, turn python ⟨.accepting, log⟩ payload = some ⟨.accepting, after⟩) ↔
      ¬ Deadly python payload := by
  by_cases nothing : payload.data = []
  · have harmless : ¬ Deadly python payload := by
      rintro ⟨_, ⟨something, _⟩, _⟩
      exact something nothing
    simp [turn, nothing, harmless]
  · rw [← process_raises_iff python payload nothing, not_not]
    cases processed : processContainerEvent python payload.data with
    | mk records raised =>
      cases raised with
      | none => simp [turn, nothing, processed]
      | some error => cases error <;> simp [turn, nothing, processed]

theorem run_ended (log : List Record) (payloads : List Payload) (final : Listener)
    (reached : run (turn python) ⟨.ended, log⟩ payloads = some final) : final.phase = .ended := by
  cases payloads with
  | nil =>
    cases reached
    rfl
  | cons payload payloads => cases reached

/-! ### Whole runs -/

theorem run_accepting_iff (log : List Record) (payloads : List Payload) :
    (∃ after, run (turn python) ⟨.accepting, log⟩ payloads = some ⟨.accepting, after⟩) ↔
      ∀ payload ∈ payloads, ¬ Deadly python payload := by
  induction payloads generalizing log with
  | nil => simp [run]
  | cons payload payloads ih =>
    rw [List.forall_mem_cons]
    constructor
    · rintro ⟨after, reached⟩
      obtain ⟨next, taken, rest⟩ := (run_cons _ _ _ _).mp reached
      cases next with
      | mk phase middle =>
        cases phase with
        | ended =>
          have stopped := run_ended python middle payloads _ rest
          cases stopped
        | accepting =>
          exact ⟨(turn_accepting_iff python log payload).mp ⟨middle, taken⟩,
            (ih middle).mp ⟨after, rest⟩⟩
    · rintro ⟨harmless, later⟩
      obtain ⟨middle, taken⟩ := (turn_accepting_iff python log payload).mpr harmless
      obtain ⟨after, rest⟩ := (ih middle).mpr later
      exact ⟨after, (run_cons _ _ _ _).mpr ⟨_, taken, rest⟩⟩

/-- The listener is back in `accept` after the payloads, and then handles every well-formed end time:
it logs the time and goes back again. -/
def Outlives (payloads : List Payload) : Prop :=
  ∃ after, run (turn python) listening payloads = some ⟨.accepting, after⟩ ∧
    ∀ payload tsEnd date, EndTimeEvent python payload tsEnd →
      python.fromMilliseconds tsEnd = .ok date →
        ∃ text, turn python ⟨.accepting, after⟩ payload =
          some ⟨.accepting, after ++ .received :: .eventData text :: .endTime date ::
            logLatency python tsEnd⟩

theorem turn_endTime (log : List Record) (payload : Payload) (tsEnd : Nat) (date : Chars)
    (event : EndTimeEvent python payload tsEnd)
    (converted : python.fromMilliseconds tsEnd = .ok date) :
    turn python ⟨.accepting, log⟩ payload =
      some ⟨.accepting, log ++ .received :: .eventData (python.strip (python.decode payload.data)) ::
        .endTime date :: logLatency python tsEnd⟩ := by
  obtain ⟨something, value, split, number⟩ := event
  have natural : ¬ (tsEnd : Int) < 0 := Int.not_lt.mpr (Int.natCast_nonneg tsEnd)
  have handled : handleEntrypointEndTimeMs python value =
      (.endTime date :: logLatency python tsEnd, none) := by
    simp [handleEntrypointEndTimeMs, number, natural, converted]
  have processed : processContainerEvent python payload.data =
      (.eventData (python.strip (python.decode payload.data)) :: .endTime date ::
        logLatency python tsEnd, none) := by
    simp [processContainerEvent, split, handled]
  simp [turn, something, processed]

/-- The listener outlives just the payloads of which none is an end time that is too large to be
converted without an `OverflowError` or an `OSError`. -/
theorem listener_outlives_iff (payloads : List Payload) :
    Outlives python payloads ↔ ∀ payload ∈ payloads, ¬ Deadly python payload := by
  constructor
  · rintro ⟨after, reached, _⟩
    exact (run_accepting_iff python [] payloads).mp ⟨after, reached⟩
  · intro harmless
    obtain ⟨after, reached⟩ := (run_accepting_iff python [] payloads).mpr harmless
    refine ⟨after, reached, ?_⟩
    intro payload tsEnd date event converted
    exact ⟨_, turn_endTime python after payload tsEnd date event converted⟩

/-! ### A payload that ends the listener -/

def digit (char : Char) : Option Nat :=
  if '0' ≤ char ∧ char ≤ '9' then some (char.toNat - '0'.toNat) else none

/-- A numeral of ASCII digits. -/
def asciiInt (text : Chars) : Option Int :=
  if text = [] then none
  else (text.foldlM (fun number char => (digit char).map (number * 10 + ·)) 0).map Int.ofNat

/-- Python on ASCII payloads and a system with 64-bit times: years end with 9999, and seconds that do
not fit raise an `OverflowError`. -/
def python64 : Python where
  decode := fun data => data.map fun byte => Char.ofNat byte.toNat
  strip := fun text => ((text.dropWhile Char.isWhitespace).reverse.dropWhile Char.isWhitespace).reverse
  int := asciiInt
  fromMilliseconds := fun ts =>
    if ts < 253402300800000 then .ok "a date".toList
    else if ts < 9223372036854775808000 then .error .valueError
    else .error .overflowError
  devkitStartTimeMs := none

def payload (text : String) (short : (text.toList.map fun char => UInt8.ofNat char.toNat).length ≤ 1024) :
    Payload :=
  ⟨text.toList.map fun char => UInt8.ofNat char.toNat, short⟩

def hugeTime : Payload := payload "entrypoint_end_time_ms:99999999999999999999999" (by decide)
def goodTime : Payload := payload "entrypoint_end_time_ms:1700000000000" (by decide)

/-- A time that is too large ends the listener, and a good one after it is not taken. -/
theorem huge_time_ends_listener :
    run (turn python64) listening [hugeTime] = some ⟨.ended,
        [.received, .eventData "entrypoint_end_time_ms:99999999999999999999999".toList,
          .unexpectedError]⟩ ∧
      run (turn python64) listening [hugeTime, goodTime] = none ∧
      ¬ Outlives python64 [hugeTime] := by
  have ended : run (turn python64) listening [hugeTime] = some ⟨.ended,
      [.received, .eventData "entrypoint_end_time_ms:99999999999999999999999".toList,
        .unexpectedError]⟩ := by
    decide +kernel
  refine ⟨ended, by decide +kernel, ?_⟩
  rintro ⟨after, reached, _⟩
  rw [ended] at reached
  cases reached

end EzSdk.Devkit.EventListener
