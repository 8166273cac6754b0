import EzSdk.Client.Model
import EzSdk.Foundation.Serials

/-! The message ids of an isolate's requests. Unary calls draw them from the client's
counter and every stream from a counter of its own. -/

namespace EzSdk.Client

open Serials

inductive Counter where
  | shared
  | own (stream : Nat)
  deriving DecidableEq

def Sent.counter (sent : Sent) : Counter :=
  match sent.rpc with
  | .unary _ => .shared
  | .stream stream => .own stream

/-- The counter from which an event draws an id. -/
def Event.counter : Event → Option Counter
  | .asyncIsolateRpcCall _ _ _ => some .shared
  | .write stream _ => some (.own stream)
  | _ => none

def State.counterValue (state : State) : Counter → UInt64
  | .shared => state.ipcMessageId
  | .own stream => (state.streams[stream]?.map ClientReaderWriter.ipcMessageId).getD 0

theorem counterValue_open (state : State) (stream : ClientReaderWriter) (fresh : stream.ipcMessageId = 0) :
    { state with streams := state.streams ++ [stream] }.counterValue = state.counterValue := by
  funext counter
  cases counter with
  | shared => rfl
  | own index =>
    rcases Nat.lt_trichotomy index state.streams.length with before | same | after
    · simp [State.counterValue, List.getElem?_append_left before]
    · simp [State.counterValue, same, fresh]
    · have absent : state.streams[index]? = none := List.getElem?_eq_none (by omega)
      have still_absent : (state.streams ++ [stream])[index]? = none := by
        apply List.getElem?_eq_none
        rw [List.length_append, List.length_singleton]
        omega
      simp only [State.counterValue, absent, still_absent]

theorem counterValue_write (state : State) (index : Nat) (stream : ClientReaderWriter) (id : UInt64)
    (present : state.streams[index]? = some stream) (wire : List Sent) :
    { state with
      streams := state.streams.set index { stream with ipcMessageId := id }
      wire := wire }.counterValue =
      Function.update state.counterValue (.own index) id := by
  have bound := (List.getElem?_eq_some_iff.mp present).1
  funext counter
  cases counter with
  | shared => simp [State.counterValue]
  | own other =>
    by_cases same : other = index
    · subst same
      simp [State.counterValue, bound]
    · have different : Counter.own other ≠ Counter.own index := by simpa using same
      rw [Function.update_of_ne different]
      simp [State.counterValue, Ne.symm same]

/-- An event sends nothing, or one request with the next id of its counter. -/
theorem step_wire (state next : State) (event : Event) (taken : step state event = some next) :
    (event.counter = none ∧ next.wire = state.wire ∧ next.counterValue = state.counterValue) ∨
      ∃ sent : Sent, event.counter = some sent.counter ∧ next.wire = state.wire ++ [sent] ∧
        sent.id = state.counterValue sent.counter + 1 ∧
        next.counterValue = Function.update state.counterValue sent.counter sent.id := by
  cases event with
  | registerLocalHandler serviceName handler =>
    cases taken
    exact .inl ⟨rfl, rfl, rfl⟩
  | asyncIsolateRpcCall target requestBytes responseBytes =>
    cases taken
    refine .inr ⟨_, rfl, rfl, rfl, ?_⟩
    funext counter
    cases counter with
    | shared => rfl
    | own stream => rfl
  | invokeEzDone index completion =>
    obtain ⟨call, _, _, rfl⟩ := step_invokeEzDone taken
    exact .inl ⟨rfl, rfl, rfl⟩
  | isolateStreamRpcCall operatorDomain serviceName methodName =>
    cases taken
    exact .inl ⟨rfl, rfl, counterValue_open state _ rfl⟩
  | write index payload =>
    obtain ⟨stream, present, rfl⟩ := step_write taken
    refine .inr ⟨⟨.stream index, stream.request (stream.ipcMessageId + 1) payload⟩, rfl, rfl, ?_,
      counterValue_write state index stream _ present _⟩
    simp [Sent.id, Sent.counter, State.counterValue, present, ClientReaderWriter.request,
      InvokeEzRequest.metadata]

theorem run_numbered (events : List Event) (final : State) (reached : run events = some final) :
    Numbered Sent.counter Sent.id final.wire final.counterValue := by
  apply Runs.run_preserves (fun state => Numbered Sent.counter Sent.id state.wire state.counterValue)
    ?_ newState final events ?_ reached
  · intro state event next numbered taken
    rcases step_wire state next event taken with ⟨_, wire, values⟩ | ⟨sent, _, wire, fresh, values⟩
    · rw [wire, values]
      exact numbered
    · rw [wire, values]
      exact numbered_append Sent.counter Sent.id state.wire state.counterValue sent numbered fresh
  · have initially : newState.counterValue = fun _ => 0 := by
      funext counter
      cases counter with
      | shared => rfl
      | own stream => rfl
    rw [initially]
    exact numbered_nil Sent.counter Sent.id

theorem run_counters (events : List Event) (final : State) (reached : run events = some final) :
    final.wire.map Sent.counter = events.filterMap Event.counter := by
  apply Runs.run_log (fun state => state.wire.map Sent.counter) Event.counter ?_ newState final events
    reached
  intro state event next taken
  rcases step_wire state next event taken with ⟨drawn, wire, _⟩ | ⟨sent, drawn, wire, _⟩
  · rw [drawn, wire]
    exact (List.append_nil _).symm
  · rw [drawn, wire, List.map_append]
    rfl

/-- All requests of the run draw their ids from one counter: there is no write on a
stream, or there is no unary call and all writes are on one stream. -/
def OneCounter (events : List Event) : Prop :=
  ∀ first ∈ events.filterMap Event.counter, ∀ second ∈ events.filterMap Event.counter, first = second

instance (events : List Event) : Decidable (OneCounter events) :=
  inferInstanceAs (Decidable (∀ first ∈ _, ∀ second ∈ _, first = second))

/-- In every run that sends fewer than 2^64 requests, different rpcs use different ids
exactly when all requests draw their ids from one counter. -/
theorem fresh_ids_iff (events : List Event) (final : State) (reached : run events = some final)
    (few : final.wire.length < 2 ^ 64) :
    (∀ first ∈ final.wire, ∀ second ∈ final.wire, first.rpc ≠ second.rpc → first.id ≠ second.id) ↔
      OneCounter events := by
  have numbered := run_numbered events final reached
  unfold OneCounter
  rw [← run_counters events final reached]
  constructor
  · intro fresh left leftIn right rightIn
    obtain ⟨first, firstIn, rfl⟩ := List.mem_map.mp leftIn
    obtain ⟨second, secondIn, rfl⟩ := List.mem_map.mp rightIn
    by_contra different
    -- The first requests drawn from two counters both have id 1.
    obtain ⟨one, oneIn, oneKey, oneId⟩ :=
      exists_first Sent.counter Sent.id _ _ first numbered firstIn
    obtain ⟨other, otherIn, otherKey, otherId⟩ :=
      exists_first Sent.counter Sent.id _ _ second numbered secondIn
    have rpcs : one.rpc ≠ other.rpc := by
      intro same
      apply different
      rw [← oneKey, ← otherKey, Sent.counter, Sent.counter, same]
    exact fresh one oneIn other otherIn rpcs (oneId.trans otherId.symm)
  · intro single first firstIn second secondIn rpcs ids
    have keys := single _ (List.mem_map_of_mem firstIn) _ (List.mem_map_of_mem secondIn)
    have same := entry_of_id Sent.counter Sent.id _ _ first second numbered (Nat.le_of_lt few)
      firstIn secondIn keys ids
    exact rpcs (congrArg Sent.rpc same)

def twoUnaryCalls : List Event := [greeting, greeting]

theorem fresh_ids_twoUnaryCalls :
    ∃ final, run twoUnaryCalls = some final ∧ final.wire.length = 2 ∧
      ∀ first ∈ final.wire, ∀ second ∈ final.wire, first.rpc ≠ second.rpc → first.id ≠ second.id :=
  ⟨_, rfl, rfl, (fresh_ids_iff twoUnaryCalls _ rfl (by decide)).mpr (by decide)⟩

/-- A unary call and the first write of a stream. -/
def callAndWrite : List Event :=
  [greeting, .isolateStreamRpcCall "example.com" "Greeter" "StreamingSayHello", .write 0 [10, 0]]

theorem call_and_write_collide :
    ∃ final, run callAndWrite = some final ∧
      ∃ first ∈ final.wire, ∃ second ∈ final.wire,
        first.rpc ≠ second.rpc ∧ first.id = 1 ∧ second.id = 1 :=
  ⟨_, rfl, by decide⟩

end EzSdk.Client
