import EzSdk.Bridge.Ownership
import Mathlib.Data.List.Perm.Subperm

/-! The size of `active_streams_`. A service object adds an adapter for every stream that
opens an rpc and drops none, so the table is as small as the set of open streams only
while the streams that opened one stay open. -/

namespace EzSdk.Bridge

open CallbackLife HeapLists

variable {Msg : Type}

/-- The streams whose OnDone has not run. -/
def Isolate.openStreams (isolate : Isolate Msg) : List (Stream Msg) :=
  isolate.streams.filter (fun stream => !stream.doneRun)

/-- No service object holds more adapters than there are open streams. -/
def Isolate.Bounded (isolate : Isolate Msg) : Prop :=
  ∀ service, (isolate.objects.state service).activeStreams.keys.length ≤ isolate.openStreams.length

variable {services : ServiceMap Msg} {isolate : Isolate Msg} {currentState : Int} {index : Nat}
  {event : StreamEvent} {streams : List (Stream Msg)} {stream changed : Stream Msg}
  {objects after : Objects Msg} {calls : List WriterCall}

theorem entry_opened (housed : Housed services isolate) (service : String) (address : Nat)
    (entry : address ∈ (isolate.objects.state service).activeStreams.keys) :
    ∃ stream ∈ isolate.streams, stream.address = address ∧
      stream.task.map Task.service = some service := by
  obtain ⟨handle, found⟩ :=
    Option.isSome_iff_exists.mp (AList.lookup_isSome.mpr (AList.mem_keys.mpr entry))
  obtain ⟨owner, resident, stored, present, at_address⟩ :=
    housed.owned.entry service address handle found
  obtain ⟨holder, holderAt, holds⟩ := (housed.owned.claimed handle owner service).mp stored
  cases Option.some.inj (present.symm.trans holderAt)
  simp only [heapOf, List.getElem?_map, Option.map_eq_some_iff] at present
  obtain ⟨stream, streamAt, rfl⟩ := present
  refine ⟨stream, List.mem_of_getElem? streamAt, at_address, ?_⟩
  cases has : stream.task with
  | none => simp [Stream.resident, has] at holds
  | some task =>
    simp only [Stream.resident, has, Option.map_some, Option.some.injEq, Prod.mk.injEq] at holds
    simp [holds.1]

/-- Wherever a stream has opened an rpc, a stream is still open at its address. -/
def Attended (streams : List (Stream Msg)) : Prop :=
  ∀ stream ∈ streams, stream.task.isSome = true →
    ∃ other ∈ streams, other.doneRun = false ∧ other.address = stream.address

theorem bounded_of_attended (housed : Housed services isolate) (attended : Attended isolate.streams) :
    isolate.Bounded := by
  intro service
  have distinct := (isolate.objects.state service).activeStreams.keys_nodup
  have open_addresses : (isolate.objects.state service).activeStreams.keys ⊆
      isolate.openStreams.map Stream.address := by
    intro address entry
    obtain ⟨stream, member, rfl, opened⟩ := entry_opened housed service address entry
    have has : stream.task.isSome = true := by
      cases task : stream.task with
      | none => simp [task] at opened
      | some _ => rfl
    obtain ⟨other, otherMember, running, same⟩ := attended stream member has
    rw [← same]
    exact List.mem_map_of_mem (List.mem_filter.mpr ⟨otherMember, by simp [running]⟩)
  calc (isolate.objects.state service).activeStreams.keys.length
      ≤ (isolate.openStreams.map Stream.address).length :=
        (List.subperm_of_subset distinct open_addresses).length_le
    _ = isolate.openStreams.length := List.length_map _

/-- A stream that completes is at an address at which no stream has opened an rpc. -/
def CompletesUnopened (isolate : Isolate Msg) : Event → Prop
  | .onStream index .onDone =>
    ∀ stream ∈ isolate.streams[index]?, ∀ other ∈ isolate.streams,
      other.address = stream.address → other.task.isNone = true
  | _ => True

instance (isolate : Isolate Msg) (event : Event) : Decidable (CompletesUnopened isolate event) := by
  rcases event with _ | _ | _ | _ | ⟨index, event⟩
  case onStream => rcases event <;> (unfold CompletesUnopened; infer_instance)
  all_goals exact isTrue trivial

/-- What an event can do to the fields that matter here: it keeps the address, only an
open stream gets a task, and only OnDone closes a stream. -/
theorem outcome_open (sound : Sound (stream.life services))
    (outcome : Outcome services currentState index stream objects event changed after calls) :
    changed.address = stream.address ∧
      (changed.task.isSome = true → stream.task.isSome = true ∨ stream.doneRun = false) ∧
      (event ≠ .onDone → changed.doneRun = stream.doneRun) := by
  cases outcome with
  | readOpened message service method reading next found first state declared pool =>
    exact ⟨rfl, fun _ => .inr (sound.reading_open reading).2, fun _ => rfl⟩
  | readRefused message service reading next found first state cannot =>
    exact ⟨rfl, fun has => absurd has (by simp [Stream.startRead]), fun _ => rfl⟩
  | writeDone ok writing =>
    cases ok with
    | false => exact ⟨rfl, fun has => .inl has, fun _ => rfl⟩
    | true => exact ⟨rfl, fun has => .inl has, fun _ => rfl⟩
  | done finished reads writes once =>
    rw [onDone_eq]
    exact ⟨rfl, fun has => .inl has, fun other => absurd rfl other⟩
  | taskStart task has queued
  | taskRead task adapter message rest has running stored queue
  | taskEnd task adapter has running stored queue signalled
  | taskWrite task adapter payload has running stored alive
  | taskResume task response has waiting alive idle
  | taskResumeFreed task response has waiting freed
  | taskReturn task status has running alive
  | taskReturnFreed task status has running freed =>
    exact ⟨rfl, fun _ => .inl (by simp [has]), fun _ => rfl⟩
  | _ => exact ⟨rfl, fun has => .inl has, fun _ => rfl⟩

theorem open_at_set (other : Stream Msg) (present : streams[index]? = some stream)
    (address : changed.address = stream.address) (done : changed.doneRun = stream.doneRun)
    (member : other ∈ streams) (running : other.doneRun = false) :
    ∃ kept ∈ streams.set index changed, kept.doneRun = false ∧ kept.address = other.address := by
  rcases eq_or_mem_set streams index stream changed other present member with rfl | same
  · exact ⟨changed, mem_set_of_present streams index other changed present, done.trans running, address⟩
  · exact ⟨other, same, running, rfl⟩

theorem attended_event (present : streams[index]? = some stream)
    (address : changed.address = stream.address)
    (opens : changed.task.isSome = true → stream.task.isSome = true ∨ stream.doneRun = false)
    (done : changed.doneRun = stream.doneRun) (attended : Attended streams) :
    Attended (streams.set index changed) := by
  have streamMember := List.mem_of_getElem? present
  -- Of the changed stream itself only the case in which it has just opened is new.
  have found : ∀ other ∈ streams.set index changed, other.task.isSome = true →
      ∃ running ∈ streams, running.doneRun = false ∧ running.address = other.address := by
    intro other member has
    rcases List.mem_or_eq_of_mem_set member with old | rfl
    · exact attended other old has
    · rw [address]
      rcases opens has with before | running
      · exact attended stream streamMember before
      · exact ⟨stream, streamMember, running, rfl⟩
  intro other member has
  obtain ⟨running, runningMember, isOpen, same⟩ := found other member has
  obtain ⟨kept, keptMember, keptOpen, keptAddress⟩ :=
    open_at_set running present address done runningMember isOpen
  exact ⟨kept, keptMember, keptOpen, keptAddress.trans same⟩

theorem attended_done (present : streams[index]? = some stream) (sameTask : changed.task = stream.task)
    (unopened : ∀ other ∈ streams, other.address = stream.address → other.task.isNone = true)
    (attended : Attended streams) : Attended (streams.set index changed) := by
  intro other member has
  rcases List.mem_or_eq_of_mem_set member with old | rfl
  · have different : other.address ≠ stream.address := by
      intro same
      have absent := unopened other old same
      rw [Option.isNone_iff_eq_none] at absent
      simp [absent] at has
    obtain ⟨running, runningMember, isOpen, same⟩ := attended other old has
    rcases eq_or_mem_set streams index stream changed running present runningMember with rfl | kept
    · exact absurd same.symm different
    · exact ⟨running, kept, isOpen, same⟩
  · have absent := unopened stream (List.mem_of_getElem? present) rfl
    rw [Option.isNone_iff_eq_none] at absent
    simp [sameTask, absent] at has

theorem attended_step (services : ServiceMap Msg) (isolate : Isolate Msg) (event : Event)
    (next : Isolate Msg) (housed : Housed services isolate) (attended : Attended isolate.streams)
    (unopened : CompletesUnopened isolate event)
    (taken : step services isolate event = some next) : Attended next.streams := by
  cases event with
  | setIsolateReady => cases taken; exact attended
  | updateIsolateState moveToState => cases taken; exact attended
  | stopPool name => cases taken; exact attended
  | streamInvokeIsolate address =>
    simp only [step, Runs.guarded] at taken
    rw [← taken.2]
    intro stream member has
    rcases List.mem_append.mp member with old | new
    · obtain ⟨running, runningMember, rest⟩ := attended stream old has
      exact ⟨running, List.mem_append_left _ runningMember, rest⟩
    · rw [List.mem_singleton.mp new] at has
      simp [newStream] at has
  | onStream index event =>
    obtain ⟨stream, changed, objects, calls, present, outcome, rfl⟩ :=
      onStream_cases taken
    obtain ⟨address, opens, stays⟩ := outcome_open (housed.sound stream (List.mem_of_getElem? present))
      outcome
    by_cases completes : event = .onDone
    · subst completes
      have sameTask : changed.task = stream.task := by
        cases outcome
        rw [onDone_eq]
      exact attended_done present sameTask (unopened stream present) attended
    · exact attended_event present address opens (stays completes) attended

/-- In every run in which only streams complete at whose addresses no rpc was opened, no
service object ever holds more adapters than there are open streams. -/
theorem active_streams_bounded (services : ServiceMap Msg) (events : List Event)
    (final : Isolate Msg)
    (every : Runs.EveryStep (step services) CompletesUnopened newIsolate events)
    (reached : run services events = some final) : final.Bounded := by
  have result := Runs.run_preserves_allowed
    (fun isolate => Housed services isolate ∧ Attended isolate.streams) CompletesUnopened ?_
    newIsolate final events ⟨housed_new services, by simp [newIsolate, Attended]⟩ every reached
  · exact bounded_of_attended result.1 result.2
  · intro isolate event next holds unopened taken
    exact ⟨housed_step services isolate event next holds.1 taken,
      attended_step services isolate event next holds.1 holds.2 unopened taken⟩

/-- While a stream on the greeter is open, another one is refused and completes. -/
def refusedBesideRun : List Event :=
  let stray := bridgeMessage "Unknown" "StreamingSayHello" [10, 0]
  writingRun ++ [.streamInvokeIsolate 8192, .onStream 1 (.clientWrite stray),
    .onStream 1 (.readDone stray), .onStream 1 .onDone]

theorem active_streams_bounded_refusedBeside :
    ∃ final, run [greeter] refusedBesideRun = some final ∧ final.streams.length = 2 ∧
      final.openStreams.length = 1 ∧ final.Bounded :=
  ⟨_, rfl, rfl, rfl, active_streams_bounded [greeter] refusedBesideRun _ (by decide) rfl⟩

/-- One stream opens an rpc, is served in order and completes: its adapter stays. -/
theorem adapter_kept_after_done :
    ∃ final, run [greeter] orderlyRun = some final ∧ final.openStreams = [] ∧
      (final.objects.state "Greeter").activeStreams.keys = [4096] ∧ ¬ final.Bounded := by
  refine ⟨_, rfl, rfl, rfl, ?_⟩
  intro bounded
  exact absurd (bounded "Greeter") (by decide)

end EzSdk.Bridge
