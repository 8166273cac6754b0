import EzSdk.Bridge.Unary
import EzSdk.Foundation.HeapLists

/-! Start-up against the enforcer. `StartIsolateRpcServer` stores READY after its server
has begun to accept rpcs, so the store races with `UpdateIsolateState`. -/

namespace EzSdk.Bridge

open HeapLists

variable {Msg : Type}

/-- How far `StartIsolateRpcServer` has come. -/
inductive StartPhase where
  | building
  | accepting
  | ready
  | notified
  deriving DecidableEq

/-- An `UpdateIsolateState` request with the times of its store and of its answer. -/
structure Update where
  moveToState : Int
  storedAt : Option Nat
  answeredAt : Option Nat
  deriving DecidableEq

/-- The update moves the isolate to READY or STARTING. -/
def Update.Admits (update : Update) : Prop :=
  update.moveToState = isolateStateReady ∨ update.moveToState = isolateStateStarting

instance (update : Update) : Decidable update.Admits :=
  inferInstanceAs (Decidable (_ ∨ _))

/-- An `InvokeIsolate` request, or the first message of a new stream: when it arrived,
the state it loaded, and what was decided when. -/
structure Invocation (Msg : Type) where
  streaming : Bool
  request : InvokeIsolateRequest
  arrivedAt : Nat
  loaded : Option Int
  decided : Option (Nat × Decision (Service Msg))

def decision (services : ServiceMap Msg) (currentState : Int) (streaming : Bool)
    (request : InvokeIsolateRequest) : Decision (Service Msg) :=
  if streaming then admitFirstMessage services currentState request
  else admitUnary services currentState request

/-- The clock counts the steps of all threads. -/
structure Server (Msg : Type) where
  clock : Nat
  phase : StartPhase
  currentState : Int
  updates : List Update
  invocations : List (Invocation Msg)

def newServer : Server Msg where
  clock := 0
  phase := .building
  currentState := isolateStateUnspecified
  updates := []
  invocations := []

/-- The steps of the start-up thread and of the threads that gRPC runs the entry
points on. -/
inductive ServerEvent where
  | buildAndStart
  | setIsolateReady
  | newIsolateState
  | updateArrives (moveToState : Int)
  | updateStores (update : Nat)
  | updateAnswers (update : Nat)
  | arrives (streaming : Bool) (request : InvokeIsolateRequest)
  | loads (invocation : Nat)
  | decides (invocation : Nat)
  deriving DecidableEq

def serverStep (services : ServiceMap Msg) (server : Server Msg) :
    ServerEvent → Option (Server Msg)
  | .buildAndStart =>
    if server.phase = .building then
      some { server with clock := server.clock + 1, phase := .accepting }
    else none
  | .setIsolateReady =>
    if server.phase = .accepting then
      some { server with
        clock := server.clock + 1
        phase := .ready
        currentState := isolateStateReady }
    else none
  | .newIsolateState =>
    if server.phase = .ready then
      some { server with clock := server.clock + 1, phase := .notified }
    else none
  | .updateArrives moveToState =>
    if server.phase = .building then none
    else
      some { server with
        clock := server.clock + 1
        updates := server.updates ++ [⟨moveToState, none, none⟩] }
  | .updateStores index =>
    match server.updates[index]? with
    | none => none
    | some update =>
      if update.storedAt = none then
        some { server with
          clock := server.clock + 1
          currentState := updateIsolateState update.moveToState
          updates := server.updates.set index { update with storedAt := some server.clock } }
      else none
  | .updateAnswers index =>
    match server.updates[index]? with
    | none => none
    | some update =>
      if update.storedAt ≠ none ∧ update.answeredAt = none then
        some { server with
          clock := server.clock + 1
          updates := server.updates.set index { update with answeredAt := some server.clock } }
      else none
  | .arrives streaming request =>
    if server.phase = .building then none
    else
      some { server with
        clock := server.clock + 1
        invocations := server.invocations ++ [⟨streaming, request, server.clock, none, none⟩] }
  | .loads index =>
    match server.invocations[index]? with
    | none => none
    | some invocation =>
      if invocation.loaded = none then
        some { server with
          clock := server.clock + 1
          invocations := server.invocations.set index
            { invocation with loaded := some server.currentState } }
      else none
  | .decides index =>
    match server.invocations[index]? with
    | none => none
    | some invocation =>
      match invocation.loaded, invocation.decided with
      | some state, none =>
        some { server with
          clock := server.clock + 1
          invocations := server.invocations.set index
            { invocation with
              decided := some (server.clock,
                decision services state invocation.streaming invocation.request) } }
      | _, _ => none

def serverRun (services : ServiceMap Msg) (events : List ServerEvent) : Option (Server Msg) :=
  Runs.run (serverStep services) newServer events

/-- By the given time an update to READY or STARTING was stored, later than an update
that was itself stored at the time `own`. -/
def Superseded (updates : List Update) (own : Option Nat) (bound : Nat) : Prop :=
  ∃ later ∈ updates, later.Admits ∧
    ∃ stored ∈ later.storedAt, stored < bound ∧ ∀ time ∈ own, time < stored

/-- No invocation that arrived after the answer to an update to another state was
dispatched, unless a later update to READY or STARTING came in between. -/
def Server.NotUndone (server : Server Msg) : Prop :=
  ∀ invocation ∈ server.invocations, ∀ decidedAt service,
    invocation.decided = some (decidedAt, .dispatch service) →
    ∀ update ∈ server.updates, ¬ update.Admits → ∀ answered ∈ update.answeredAt,
      answered < invocation.arrivedAt → Superseded server.updates update.storedAt decidedAt

/-- Whatever the first list has stored is stored in the second. -/
def KeepsStores (before after : List Update) : Prop :=
  ∀ update ∈ before, ∀ stored ∈ update.storedAt,
    ∃ same ∈ after, same.moveToState = update.moveToState ∧ same.storedAt = some stored

theorem keepsStores_refl (updates : List Update) : KeepsStores updates updates :=
  fun update member _ isStored => ⟨update, member, rfl, isStored⟩

theorem keepsStores_append (before added : List Update) : KeepsStores before (before ++ added) :=
  fun update member _ stored => ⟨update, List.mem_append_left _ member, rfl, stored⟩

theorem keepsStores_set (before : List Update) (index : Nat) (old new : Update)
    (present : before[index]? = some old)
    (kept : ∀ stored ∈ old.storedAt, new.moveToState = old.moveToState ∧ new.storedAt = some stored) :
    KeepsStores before (before.set index new) := by
  intro update member stored isStored
  rcases eq_or_mem_set before index old new update present member with rfl | same
  · exact ⟨new, mem_set_of_present before index update new present, kept stored isStored⟩
  · exact ⟨update, same, rfl, isStored⟩

theorem superseded_mono (before after : List Update) (own : Option Nat) (bound higher : Nat)
    (kept : KeepsStores before after) (le : bound ≤ higher)
    (superseded : Superseded before own bound) : Superseded after own higher := by
  obtain ⟨later, member, admits, stored, isStored, inTime, isLater⟩ := superseded
  obtain ⟨same, sameMember, sameState, sameStored⟩ := kept later member stored isStored
  refine ⟨same, sameMember, ?_, stored, sameStored, Nat.lt_of_lt_of_le inTime le, isLater⟩
  rw [Update.Admits, sameState]
  exact admits

theorem superseded_succ (updates : List Update) (own : Option Nat) (bound : Nat)
    (superseded : Superseded updates own bound) : Superseded updates own (bound + 1) :=
  superseded_mono _ _ own _ _ (keepsStores_refl updates) (Nat.le_succ bound) superseded

theorem updateIsolateState_ready_iff (update : Update) :
    updateIsolateState update.moveToState = isolateStateReady ↔ update.Admits := by
  unfold updateIsolateState Update.Admits
  by_cases starting : update.moveToState = isolateStateStarting
  · simp [starting]
  · simp [starting]

/-- Only a ready state admits an invocation, whichever way it came. -/
theorem decision_ready (services : ServiceMap Msg) (currentState : Int) (streaming : Bool)
    (request : InvokeIsolateRequest) (service : Service Msg)
    (dispatched : decision services currentState streaming request = .dispatch service) :
    currentState = isolateStateReady := by
  by_contra other
  cases streaming with
  | false => simp [decision, admitUnary, other] at dispatched
  | true =>
    simp only [decision, admitFirstMessage, if_true] at dispatched
    cases found : findService services request.metadata.destinationServiceName with
    | none => simp [found] at dispatched
    | some service => simp [found, other] at dispatched

/-- What holds of the times, the state and the invocations of every server whose
start-up store came in time. -/
structure Stamped (server : Server Msg) : Prop where
  stored : ∀ update ∈ server.updates, ∀ time ∈ update.storedAt, time < server.clock
  answered : ∀ update ∈ server.updates, ∀ time ∈ update.answeredAt, update.storedAt ≠ none
  arrived : ∀ invocation ∈ server.invocations, invocation.arrivedAt < server.clock
  current : server.currentState = isolateStateReady → ∀ update ∈ server.updates, ¬ update.Admits →
    update.storedAt ≠ none → Superseded server.updates update.storedAt server.clock
  loaded : ∀ invocation ∈ server.invocations, invocation.loaded = some isolateStateReady →
    ∀ update ∈ server.updates, ¬ update.Admits → ∀ answered ∈ update.answeredAt,
      answered < invocation.arrivedAt → Superseded server.updates update.storedAt server.clock
  decided : server.NotUndone

theorem stamped_new : Stamped (newServer : Server Msg) := by
  constructor <;> simp [newServer, Server.NotUndone]

/-- Steps that leave updates and invocations alone. -/
theorem stamped_state (server : Server Msg) (phase : StartPhase) (state : Int)
    (stamped : Stamped server)
    (current : state = isolateStateReady → ∀ update ∈ server.updates, ¬ update.Admits →
      update.storedAt ≠ none → Superseded server.updates update.storedAt server.clock) :
    Stamped { server with clock := server.clock + 1, phase := phase, currentState := state } := by
  constructor
  · intro update member time isStored
    exact Nat.lt_succ_of_lt (stamped.stored update member time isStored)
  · exact stamped.answered
  · intro invocation member
    exact Nat.lt_succ_of_lt (stamped.arrived invocation member)
  · intro ready update member restricts isStored
    exact superseded_succ _ _ _ (current ready update member restricts isStored)
  · intro invocation member ready update updateMember restricts answered isAnswered before
    exact superseded_succ _ _ _
      (stamped.loaded invocation member ready update updateMember restricts answered isAnswered before)
  · exact stamped.decided

/-- Steps of updates: all but one in the new list are old ones, and that one was not
answered before now. -/
theorem stamped_updates (server : Server Msg) (updates : List Update) (new : Update) (state : Int)
    (stamped : Stamped server) (kept : KeepsStores server.updates updates)
    (members : ∀ update ∈ updates, update ∈ server.updates ∨ update = new)
    (stored : ∀ time ∈ new.storedAt, time < server.clock + 1)
    (answered : ∀ time ∈ new.answeredAt, new.storedAt ≠ none ∧ server.clock ≤ time)
    (current : state = isolateStateReady → ∀ update ∈ updates, ¬ update.Admits →
      update.storedAt ≠ none → Superseded updates update.storedAt (server.clock + 1)) :
    Stamped { server with
      clock := server.clock + 1, updates := updates, currentState := state } := by
  -- An update that was answered before an invocation arrived was already there.
  have earlier : ∀ invocation ∈ server.invocations, ∀ update ∈ updates,
      ∀ time ∈ update.answeredAt, time < invocation.arrivedAt → update ∈ server.updates := by
    intro invocation member update updateMember time isAnswered before
    have inTime := Nat.lt_trans before (stamped.arrived invocation member)
    rcases members update updateMember with old | rfl
    · exact old
    · exact absurd (answered time isAnswered).2 (Nat.not_le_of_lt inTime)
  constructor
  · intro update member time isStored
    rcases members update member with old | rfl
    · exact Nat.lt_succ_of_lt (stamped.stored update old time isStored)
    · exact stored time isStored
  · intro update member time isAnswered
    rcases members update member with old | rfl
    · exact stamped.answered update old time isAnswered
    · exact (answered time isAnswered).1
  · intro invocation member
    exact Nat.lt_succ_of_lt (stamped.arrived invocation member)
  · exact current
  · intro invocation member ready update updateMember restricts time isAnswered before
    have old := earlier invocation member update updateMember time isAnswered before
    exact superseded_mono _ _ _ _ _ kept (Nat.le_succ _)
      (stamped.loaded invocation member ready update old restricts time isAnswered before)
  · intro invocation member decidedAt service isDecided update updateMember restricts time isAnswered
      before
    have old := earlier invocation member update updateMember time isAnswered before
    exact superseded_mono _ _ _ _ _ kept (Nat.le_refl _)
      (stamped.decided invocation member decidedAt service isDecided update old restricts time
        isAnswered before)

/-- Steps of invocations: all but one in the new list are old ones, and that one is new,
or loads or decides now. -/
theorem stamped_invocations (server : Server Msg) (invocations : List (Invocation Msg))
    (new : Invocation Msg) (stamped : Stamped server)
    (members : ∀ invocation ∈ invocations, invocation ∈ server.invocations ∨ invocation = new)
    (arrived : new.arrivedAt < server.clock + 1)
    (loaded : new.loaded = some isolateStateReady →
      server.currentState = isolateStateReady ∨ ∃ old ∈ server.invocations,
        old.loaded = some isolateStateReady ∧ old.arrivedAt = new.arrivedAt)
    (decided : ∀ time service, new.decided = some (time, .dispatch service) →
      ∃ old ∈ server.invocations, old.arrivedAt = new.arrivedAt ∧
        (old.decided = some (time, .dispatch service) ∨
          time = server.clock ∧ old.loaded = some isolateStateReady)) :
    Stamped { server with clock := server.clock + 1, invocations := invocations } := by
  constructor
  · intro update member time isStored
    exact Nat.lt_succ_of_lt (stamped.stored update member time isStored)
  · exact stamped.answered
  · intro invocation member
    rcases members invocation member with old | rfl
    · exact Nat.lt_succ_of_lt (stamped.arrived invocation old)
    · exact arrived
  · intro ready update member restricts isStored
    exact superseded_succ _ _ _ (stamped.current ready update member restricts isStored)
  · intro invocation member ready update updateMember restricts time isAnswered before
    apply superseded_succ
    rcases members invocation member with same | rfl
    · exact stamped.loaded invocation same ready update updateMember restricts time isAnswered before
    · rcases loaded ready with now | ⟨old, oldMember, oldLoaded, sameArrival⟩
      · exact stamped.current now update updateMember restricts
          (stamped.answered update updateMember time isAnswered)
      · exact stamped.loaded old oldMember oldLoaded update updateMember restricts time isAnswered
          (sameArrival ▸ before)
  · intro invocation member time service isDecided update updateMember restricts answered isAnswered
      before
    rcases members invocation member with same | rfl
    · exact stamped.decided invocation same time service isDecided update updateMember restricts
        answered isAnswered before
    · obtain ⟨old, oldMember, sameArrival, oldDecided | ⟨now, oldLoaded⟩⟩ :=
        decided time service isDecided
      · exact stamped.decided old oldMember time service oldDecided update updateMember restricts
          answered isAnswered (sameArrival ▸ before)
      · rw [now]
        exact stamped.loaded old oldMember oldLoaded update updateMember restricts answered isAnswered
          (sameArrival ▸ before)

/-- The start-up store finds no stored update to another state in force. -/
def StoresInTime (server : Server Msg) : ServerEvent → Prop
  | .setIsolateReady => ∀ update ∈ server.updates, ¬ update.Admits → update.storedAt ≠ none →
      Superseded server.updates update.storedAt server.clock
  | _ => True

theorem stamped_updateArrives (server : Server Msg) (moveToState : Int) (stamped : Stamped server) :
    Stamped { server with
      clock := server.clock + 1
      updates := server.updates ++ [⟨moveToState, none, none⟩] } := by
  have kept := keepsStores_append server.updates [⟨moveToState, none, none⟩]
  have members : ∀ update ∈ server.updates ++ [⟨moveToState, none, none⟩],
      update ∈ server.updates ∨ update = ⟨moveToState, none, none⟩ := by
    simp
  apply stamped_updates server _ _ server.currentState stamped kept members
  · simp
  · simp
  · intro ready update member restricts isStored
    rcases members update member with old | rfl
    · exact superseded_mono _ _ _ _ _ kept (Nat.le_succ _)
        (stamped.current ready update old restricts isStored)
    · exact absurd rfl isStored

theorem stamped_updateStores (server : Server Msg) (index : Nat) (update : Update)
    (stamped : Stamped server) (present : server.updates[index]? = some update)
    (unstored : update.storedAt = none) :
    Stamped { server with
      clock := server.clock + 1
      currentState := updateIsolateState update.moveToState
      updates := server.updates.set index { update with storedAt := some server.clock } } := by
  have kept : KeepsStores server.updates
      (server.updates.set index { update with storedAt := some server.clock }) := by
    apply keepsStores_set _ _ _ _ present
    simp [unstored]
  have unanswered : ∀ time, time ∉ update.answeredAt := fun time isAnswered =>
    stamped.answered update (List.mem_of_getElem? present) time isAnswered unstored
  apply stamped_updates server _ _ _ stamped kept (fun _ member => List.mem_or_eq_of_mem_set member)
  · simp
  · exact fun time isAnswered => absurd isAnswered (unanswered time)
  · intro ready other member restricts isStored
    -- An update that makes the state READY supersedes everything stored before it.
    have admits := (updateIsolateState_ready_iff update).mp ready
    rcases List.mem_or_eq_of_mem_set member with old | rfl
    · exact ⟨_, mem_set_of_present _ _ _ _ present, admits, server.clock, rfl, Nat.lt_succ_self _,
        fun time stored => stamped.stored other old time stored⟩
    · exact absurd admits restricts

theorem stamped_updateAnswers (server : Server Msg) (index : Nat) (update : Update)
    (stamped : Stamped server) (present : server.updates[index]? = some update)
    (isStored : update.storedAt ≠ none) :
    Stamped { server with
      clock := server.clock + 1
      updates := server.updates.set index { update with answeredAt := some server.clock } } := by
  have updateMember := List.mem_of_getElem? present
  have kept : KeepsStores server.updates
      (server.updates.set index { update with answeredAt := some server.clock }) :=
    keepsStores_set _ _ _ _ present (fun _ stored => ⟨rfl, stored⟩)
  apply stamped_updates server _ _ server.currentState stamped kept
    (fun _ member => List.mem_or_eq_of_mem_set member)
  · intro time stored
    exact Nat.lt_succ_of_lt (stamped.stored update updateMember time stored)
  · intro time now
    exact ⟨isStored, Nat.le_of_eq (Option.some.inj now)⟩
  · intro ready other member restricts stored
    apply superseded_mono _ _ _ _ _ kept (Nat.le_succ _)
    rcases List.mem_or_eq_of_mem_set member with old | rfl
    · exact stamped.current ready other old restricts stored
    · exact stamped.current ready update updateMember restricts isStored

/-- Steps that change one invocation and not its time of arrival. -/
theorem stamped_invocation (server : Server Msg) (index : Nat) (old new : Invocation Msg)
    (stamped : Stamped server) (present : server.invocations[index]? = some old)
    (sameArrival : old.arrivedAt = new.arrivedAt)
    (loaded : new.loaded = some isolateStateReady →
      server.currentState = isolateStateReady ∨ old.loaded = some isolateStateReady)
    (decided : ∀ time service, new.decided = some (time, .dispatch service) →
      old.decided = some (time, .dispatch service) ∨
        (time = server.clock ∧ old.loaded = some isolateStateReady)) :
    Stamped { server with
      clock := server.clock + 1, invocations := server.invocations.set index new } := by
  have oldMember := List.mem_of_getElem? present
  apply stamped_invocations server _ new stamped
    (fun _ member => List.mem_or_eq_of_mem_set member)
  · rw [← sameArrival]
    exact Nat.lt_succ_of_lt (stamped.arrived old oldMember)
  · intro ready
    exact (loaded ready).imp_right (fun was => ⟨old, oldMember, was, sameArrival⟩)
  · intro time service isDecided
    exact ⟨old, oldMember, sameArrival, decided time service isDecided⟩

theorem stamped_arrives (server : Server Msg) (streaming : Bool) (request : InvokeIsolateRequest)
    (stamped : Stamped server) :
    Stamped { server with
      clock := server.clock + 1
      invocations := server.invocations ++ [⟨streaming, request, server.clock, none, none⟩] } := by
  apply stamped_invocations server _ ⟨streaming, request, server.clock, none, none⟩ stamped
  · simp
  · exact Nat.lt_succ_self _
  · simp
  · simp

theorem stamped_step (services : ServiceMap Msg) (server : Server Msg) (event : ServerEvent)
    (next : Server Msg) (stamped : Stamped server) (inTime : StoresInTime server event)
    (taken : serverStep services server event = some next) : Stamped next := by
  cases event with
  | buildAndStart | newIsolateState =>
    simp only [serverStep, Runs.guarded] at taken
    rw [← taken.2]
    exact stamped_state server _ server.currentState stamped stamped.current
  | setIsolateReady =>
    simp only [serverStep, Runs.guarded] at taken
    rw [← taken.2]
    exact stamped_state server _ _ stamped (fun _ => inTime)
  | updateArrives moveToState =>
    simp only [serverStep, Option.ite_none_left_eq_some, Option.some.injEq] at taken
    rw [← taken.2]
    exact stamped_updateArrives server moveToState stamped
  | updateStores index =>
    cases present : server.updates[index]? with
    | none => simp [serverStep, present] at taken
    | some update =>
      simp only [serverStep, present, Runs.guarded] at taken
      rw [← taken.2]
      exact stamped_updateStores server index update stamped present taken.1
  | updateAnswers index =>
    cases present : server.updates[index]? with
    | none => simp [serverStep, present] at taken
    | some update =>
      simp only [serverStep, present, Runs.guarded] at taken
      rw [← taken.2]
      exact stamped_updateAnswers server index update stamped present taken.1.1
  | arrives streaming request =>
    simp only [serverStep, Option.ite_none_left_eq_some, Option.some.injEq] at taken
    rw [← taken.2]
    exact stamped_arrives server streaming request stamped
  | loads index =>
    cases present : server.invocations[index]? with
    | none => simp [serverStep, present] at taken
    | some invocation =>
      simp only [serverStep, present, Runs.guarded] at taken
      rw [← taken.2]
      refine stamped_invocation server index invocation _ stamped present ?_ ?_ ?_
      · rfl
      · exact fun ready => .inl (Option.some.inj ready)
      · exact fun _ _ isDecided => .inl isDecided
  | decides index =>
    cases present : server.invocations[index]? with
    | none => simp [serverStep, present] at taken
    | some invocation =>
      cases isLoaded : invocation.loaded with
      | none => simp [serverStep, present, isLoaded] at taken
      | some state =>
        cases isDecided : invocation.decided with
        | some decided => simp [serverStep, present, isLoaded, isDecided] at taken
        | none =>
          simp only [serverStep, present, isLoaded, isDecided, Option.some.injEq] at taken
          rw [← taken]
          refine stamped_invocation server index invocation _ stamped present ?_ ?_ ?_
          · rfl
          · intro ready
            exact .inr (isLoaded.trans ready)
          · intro time service now
            simp only [Option.some.injEq, Prod.mk.injEq] at now
            have ready := decision_ready services state _ _ service now.2
            exact .inr ⟨now.1.symm, by rw [isLoaded, ready]⟩

/-- An answered update to RETIRING, or to any other state that is not ready, stays in
force for every invocation that arrives after the answer, in every run in which the
start-up store finds no such update already stored. -/
theorem retiring_not_undone (services : ServiceMap Msg) (events : List ServerEvent)
    (server : Server Msg)
    (inTime : Runs.EveryStep (serverStep services) StoresInTime newServer events)
    (reached : serverRun services events = some server) : server.NotUndone :=
  (Runs.run_preserves_allowed Stamped StoresInTime (stamped_step services) newServer server events
    stamped_new inTime reached).decided

def sayHello : InvokeIsolateRequest := bridgeMessage "Greeter" "SayHello" [10, 2, 72, 105]

/-- The isolate starts, serves a call, retires, and is called again. -/
def retiringRun : List ServerEvent :=
  [.buildAndStart, .setIsolateReady, .newIsolateState, .arrives false sayHello, .loads 0, .decides 0,
    .updateArrives isolateStateRetiring, .updateStores 0, .updateAnswers 0,
    .arrives true sayHello, .loads 1, .decides 1]

theorem retiringRun_not_undone :
    ∃ server, serverRun [greeter] retiringRun = some server ∧ server.invocations.length = 2 ∧
      server.NotUndone := by
  refine ⟨_, rfl, rfl, retiring_not_undone [greeter] retiringRun _ ?_ rfl⟩
  simp [retiringRun, Runs.EveryStep, serverStep, newServer, StoresInTime]

/-- The enforcer retires the isolate as soon as the server accepts rpcs; then the
start-up thread stores READY. -/
def undoneRun : List ServerEvent :=
  [.buildAndStart, .updateArrives isolateStateRetiring, .updateStores 0, .updateAnswers 0,
    .setIsolateReady, .newIsolateState, .arrives false sayHello, .loads 0, .decides 0]

theorem undoneRun_undone :
    ∃ server, serverRun [greeter] undoneRun = some server ∧ ¬ server.NotUndone := by
  refine ⟨_, rfl, ?_⟩
  intro notUndone
  obtain ⟨later, member, admits, _⟩ := notUndone _ (List.mem_singleton.mpr rfl) 8 greeter rfl _
    (List.mem_singleton.mpr rfl) (by decide) 3 rfl (by decide)
  rw [List.mem_singleton.mp member] at admits
  exact absurd admits (by decide)

end EzSdk.Bridge
