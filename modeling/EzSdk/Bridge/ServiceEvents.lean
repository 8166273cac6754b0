import EzSdk.Client.FileshareEvents

/-! How often a fileshare event reaches a service. The handler of a service is registered
by `AddIsolateRpcService` of the bridge, which runs inside several constructors. -/

namespace EzSdk.Bridge.ServiceEvents

open Client.FileshareEvents HeapLists

/-- The handlers that `EzIsolateBridgeImpl::AddIsolateRpcService` registers. -/
def addToBridge (service : Nat) : List Nat := [service]

def ezIsolateBridgeImpl (service : Nat) : List Nat := addToBridge service

/-- The constructor of `IsolateRpcServer`. -/
def isolateRpcServer (service : Nat) : List Nat := ezIsolateBridgeImpl service

/-- `IsolateRpcServer::AddIsolateRpcService`. -/
def addIsolateRpcService (service : Nat) : List Nat := addToBridge service

/-- The constructor of a generated `Service`, which makes a server for itself. -/
def serviceConstructor (service : Nat) : List Nat := isolateRpcServer service

/-- What a program does with its services. -/
inductive MainAction where
  | construct (service : Nat)
  | newServer (service : Nat)
  | addService (service : Nat)
  deriving DecidableEq

def MainAction.registers : MainAction → List Nat
  | .construct service => serviceConstructor service
  | .newServer service => isolateRpcServer service
  | .addService service => addIsolateRpcService service

/-- The action passes the service to an `IsolateRpcServer`. -/
def MainAction.passes (service : Nat) : MainAction → Bool
  | .construct _ => false
  | .newServer passed => passed == service
  | .addService passed => passed == service

/-- A program that constructs each of its services, and then passes it on, once. -/
structure Program (services : List Nat) where
  actions : List MainAction
  constructedOnce : ∀ service ∈ services, actions.count (.construct service) = 1
  passedOnce : ∀ service ∈ services, actions.countP (MainAction.passes service) = 1
  constructedFirst : ∀ executed, executed <+: actions → ∀ service ∈ services,
    0 < executed.countP (MainAction.passes service) → .construct service ∈ executed

/-- The handler that an event appends. -/
def appended : Event → Option Nat
  | .append service => some service
  | _ => none

/-- A program under way: the part of it that has been executed, and a run of the client in
which that part has registered its handlers. -/
structure Execution {services : List Nat} (program : Program services) where
  executed : List MainAction
  part : executed <+: program.actions
  events : List Event
  state : State
  reached : run events = some state
  kept : .clear ∉ events
  registered : events.filterMap appended = executed.flatMap MainAction.registers

/-- The calls of `OnFileshareEvent` that a service has had. -/
def callsTo (service : Nat) (state : State) : Nat :=
  state.calls.countP (fun call => call.service == service)

/-- The message is an event of the fileshare topic. -/
def IsFileshare (response : StreamSubscribeToResponse) : Prop :=
  response.topic = eventTopicFileshare ∧ response.fileshareEvent.isSome = true

theorem registrations_log (state : State) (event : Event) (next : State)
    (taken : step state event = some next) :
    next.registrations.map Registration.service =
      state.registrations.map Registration.service ++ (appended event).toList := by
  cases turn_of_step state next event taken with
  | append service => simp [appended]
  | exchange index registration present phase =>
    have same := map_set_same Registration.service state.registrations index registration
      (state.exchanged registration) present rfl
    simpa [appended] using same
  | start index registration present phase joined =>
    have same := map_set_same Registration.service state.registrations index registration
      { registration with phase := .returned } present rfl
    simpa [appended] using same
  | receive index response reading => simp [appended]
  | endLoop index reading => simp [appended]
  | reset index ended => simp [appended]
  | clear => simp [appended]

/-- Unless they are cleared, the handlers are those of all registrations. -/
theorem handlers_step (state : State) (event : Event) (next : State)
    (all : state.handlers = state.registrations.map Registration.service) (kept : event ≠ .clear)
    (taken : step state event = some next) :
    next.handlers = next.registrations.map Registration.service := by
  rw [registrations_log state event next taken, ← all]
  cases turn_of_step state next event taken with
  | append service => simp [appended]
  | clear => exact absurd rfl kept
  | exchange index registration present phase => simp [appended]
  | start index registration present phase joined => simp [appended]
  | receive index response reading => simp [appended]
  | endLoop index reading => simp [appended]
  | reset index ended => simp [appended]

/-- The client's handlers are those that the executed part of the program registered. -/
theorem Execution.handlers {services : List Nat} {program : Program services}
    (execution : Execution program) :
    execution.state.handlers = execution.executed.flatMap MainAction.registers := by
  have unclear : Runs.EveryStep step (fun _ event => event ≠ .clear) newState execution.events := by
    apply Runs.everyStep_of_mem
    intro event member _ same
    exact execution.kept (same ▸ member)
  have all := Runs.run_preserves_allowed
    (fun state : State => state.handlers = state.registrations.map Registration.service)
    (fun _ event => event ≠ .clear)
    (fun state event next holds kept taken => handlers_step state event next holds kept taken)
    newState execution.state execution.events rfl unclear execution.reached
  have logged := Runs.run_log (fun state : State => state.registrations.map Registration.service)
    appended registrations_log newState execution.state execution.events execution.reached
  exact all.trans (logged.trans execution.registered)

theorem count_registers (service : Nat) (actions : List MainAction) :
    (actions.flatMap MainAction.registers).count service =
      actions.count (.construct service) + actions.countP (MainAction.passes service) := by
  induction actions with
  | nil => rfl
  | cons action actions ih =>
    rw [List.flatMap_cons, List.count_append, ih, List.count_cons, List.countP_cons]
    cases action with
    | construct other =>
      simp only [MainAction.registers, serviceConstructor, isolateRpcServer, ezIsolateBridgeImpl,
        addToBridge, MainAction.passes, List.count_singleton, beq_iff_eq, MainAction.construct.injEq,
        Bool.false_eq_true, if_false]
      omega
    | newServer other =>
      simp only [MainAction.registers, isolateRpcServer, ezIsolateBridgeImpl, addToBridge,
        MainAction.passes, List.count_singleton, beq_iff_eq, reduceCtorEq, if_false]
      omega
    | addService other =>
      simp only [MainAction.registers, addIsolateRpcService, addToBridge, MainAction.passes,
        List.count_singleton, beq_iff_eq, reduceCtorEq, if_false]
      omega

theorem callsTo_receive (state next : State) (thread : Nat) (response : StreamSubscribeToResponse)
    (service : Nat) (fileshare : IsFileshare response)
    (received : step state (.receive thread response) = some next) :
    callsTo service next = callsTo service state + state.handlers.count service := by
  obtain ⟨topic, carried⟩ := fileshare
  obtain ⟨eventType, present⟩ := Option.isSome_iff_exists.mp carried
  cases turn_of_step state next _ received with
  | receive index response reading =>
    simp [callsTo, handlerCalls, topic, present, List.count, List.countP_map, Function.comp_def]

theorem callsTo_event {services : List Nat} {program : Program services}
    (execution : Execution program) (next : State) (thread : Nat)
    (response : StreamSubscribeToResponse) (service : Nat) (fileshare : IsFileshare response)
    (received : step execution.state (.receive thread response) = some next) :
    callsTo service next = callsTo service execution.state +
      (execution.executed.count (.construct service) +
        execution.executed.countP (MainAction.passes service)) := by
  rw [callsTo_receive execution.state next thread response service fileshare received,
    execution.handlers, count_registers]

/-- An event that is received while a program runs reaches each of its services once
exactly if all of them have been constructed and none has been passed to a server. Once
the program has passed them all on, it reaches each of them twice. -/
theorem event_reaches_services_once_iff {services : List Nat} (program : Program services)
    (execution : Execution program) (next : State) (thread : Nat)
    (response : StreamSubscribeToResponse) (fileshare : IsFileshare response)
    (received : step execution.state (.receive thread response) = some next) :
    ((∀ service ∈ services, callsTo service next = callsTo service execution.state + 1) ↔
        ∀ service ∈ services, .construct service ∈ execution.executed ∧
          execution.executed.countP (MainAction.passes service) = 0) ∧
      (execution.executed = program.actions →
        ∀ service ∈ services, callsTo service next = callsTo service execution.state + 2) := by
  have calls (service : Nat) :=
    callsTo_event execution next thread response service fileshare received
  constructor
  · refine forall₂_congr (fun service member => ?_)
    have once : execution.executed.count (.construct service) ≤ 1 :=
      program.constructedOnce service member ▸ execution.part.sublist.count_le _
    have first := program.constructedFirst execution.executed execution.part service member
    have constructed : .construct service ∈ execution.executed ↔
        0 < execution.executed.count (.construct service) := List.count_pos_iff.symm
    rw [calls service, constructed]
    rw [constructed] at first
    omega
  · intro complete service member
    rw [calls service, complete, program.constructedOnce service member,
      program.passedOnce service member]

/-- The main function of `get-started.md`. -/
def getStarted : Program [0] where
  actions := [.construct 0, .newServer 0]
  constructedOnce := by decide
  passedOnce := by decide
  constructedFirst := by
    rintro executed ⟨rest, whole⟩ service member passed
    cases executed with
    | nil => cases passed
    | cons action actions =>
      have first : action = .construct 0 := (List.cons.inj whole).1
      rw [first, List.mem_singleton.mp member]
      exact List.mem_cons_self

def fileUpdated : StreamSubscribeToResponse := ⟨eventTopicFileshare, "share", some 1⟩

/-- The main function has made its server, and the event stream is being read. -/
def getStartedRunning : Execution getStarted where
  executed := [.construct 0, .newServer 0]
  part := List.prefix_rfl
  events := [.append 0, .exchange 0, .start 0, .append 0, .exchange 1]
  state := ⟨[0, 0], true,
    [⟨0, .returned, 0, false, false, false⟩, ⟨0, .returned, 1, true, false, false⟩], [.reading], []⟩
  reached := by decide
  kept := by decide
  registered := by decide

theorem getStarted_event_calls :
    ∃ next, step getStartedRunning.state (.receive 0 fileUpdated) = some next ∧
      callsTo 0 next = callsTo 0 getStartedRunning.state + 2 := by
  refine ⟨_, rfl, ?_⟩
  exact (event_reaches_services_once_iff getStarted getStartedRunning _ 0 fileUpdated
    ⟨rfl, rfl⟩ rfl).2 rfl 0 List.mem_cons_self

/-- One event, one service, two calls. -/
theorem getStarted_event_twice :
    (run [.append 0, .exchange 0, .start 0, .append 0, .exchange 1, .receive 0 fileUpdated]).map
        State.calls = some [⟨0, "share", 1⟩, ⟨0, "share", 1⟩] ∧
      getStarted.actions.flatMap MainAction.registers = [0, 0] := by
  decide

end EzSdk.Bridge.ServiceEvents
