import EzSdk.Parity.Decoding
import EzSdk.Parity.Registration

/-! Which requests the bridges of the two SDKs let through to a service, in every state
that the enforcer can set. -/

namespace EzSdk.Parity

open Tables

variable {Msg : Type}

/-- The same services, under distinct names, registered in both SDKs. -/
structure Deployment (Msg : Type) where
  first : Registration Msg
  rest : List (Registration Msg)
  distinct : ((first :: rest).map Registration.name).Nodup

namespace Deployment

variable (deployment : Deployment Msg)

def registrations : List (Registration Msg) := deployment.first :: deployment.rest

def names : List String := deployment.registrations.map Registration.name

def services : Bridge.ServiceMap Msg :=
  deployment.registrations.map (fun registration => registration.cpp.service)

def dispatcher : Rust.RpcDispatcher := rustDispatcher deployment.first deployment.rest

end Deployment

/-- What an entry point does with a request, as the enforcer sees it. -/
inductive Verdict where
  | dispatch (serviceName : String)
  | reject (code : StatusCode)
  deriving DecidableEq

def cppVerdict : Bridge.Decision (Bridge.Service Msg) → Verdict
  | .dispatch service => .dispatch service.serviceName
  | .reject status => .reject status.code

/-- The error of `resolve_service` is the answer; as a response it would be an OK. -/
def rustVerdict {Resolved : Type} (service : Resolved → Rust.IsolateRpcService) :
    Except (Except Status InvokeIsolateResponse) Resolved → Verdict
  | .ok resolved => .dispatch (service resolved).serviceName
  | .error (.error status) => .reject status.code
  | .error (.ok _) => .reject .ok

/-- The reports of a sequence of updates and the state after it. -/
def cppUpdates : Int → List Int → List Int × Int
  | state, [] => ([], state)
  | _, moveToState :: updates =>
    let newState := Bridge.updateIsolateState moveToState
    let later := cppUpdates newState updates
    (newState :: later.1, later.2)

def rustUpdates : Rust.RpcDispatcher → List Int → List Int × Rust.RpcDispatcher
  | dispatcher, [] => ([], dispatcher)
  | dispatcher, moveToState :: updates =>
    let updated := dispatcher.updateIsolateState moveToState
    let later := rustUpdates updated.2 updates
    (updated.1 :: later.1, later.2)

/-- The four decisions on a request after the updates: unary and streaming in C++, then
unary and streaming in Rust. -/
def verdicts (deployment : Deployment Msg) (updates : List Int) (request : InvokeIsolateRequest) :
    List Verdict :=
  let state := (cppUpdates isolateStateReady updates).2
  let dispatcher := (rustUpdates deployment.dispatcher updates).2
  [cppVerdict (Bridge.admitUnary deployment.services state request),
    cppVerdict (Bridge.admitFirstMessage deployment.services state request),
    rustVerdict (fun resolved => resolved.2.1) (dispatcher.resolveUnary request),
    rustVerdict Prod.snd (dispatcher.resolveService request.controlPlaneMetadata)]

/-- The same reports, and one decision. -/
def AdmitAlike (deployment : Deployment Msg) (updates : List Int)
    (request : InvokeIsolateRequest) : Prop :=
  (cppUpdates isolateStateReady updates).1 = (rustUpdates deployment.dispatcher updates).1 ∧
    ∃ verdict, ∀ made ∈ verdicts deployment updates request, made = verdict

section Lookup

variable (deployment : Deployment Msg) (name : String)

theorem findService_registered (registered : name ∈ deployment.names) :
    ∃ service, Bridge.findService deployment.services name = some service ∧
      service.serviceName = name := by
  cases found : Bridge.findService deployment.services name with
  | some service => exact ⟨service, rfl, Bridge.findService_name _ _ _ found⟩
  | none =>
    have absent := (firstOf_eq_none_iff Bridge.Service.serviceName deployment.services name).mp found
    simp only [Deployment.services, List.map_map] at absent
    exact absurd registered absent

theorem findService_unregistered (unregistered : name ∉ deployment.names) :
    Bridge.findService deployment.services name = none := by
  apply (firstOf_eq_none_iff Bridge.Service.serviceName deployment.services name).mpr
  simp only [Deployment.services, List.map_map]
  exact unregistered

theorem dispatcher_lookup :
    deployment.dispatcher.serviceMap.lookup name =
      (firstOf Registration.name deployment.registrations name).map Registration.rust := by
  rw [Deployment.dispatcher, lookup_serviceMap, lastOf_eq_firstOf _ _ deployment.distinct]
  rfl

theorem lookup_registered (registered : name ∈ deployment.names) :
    ∃ service, deployment.dispatcher.serviceMap.lookup name = some service ∧
      service.serviceName = name := by
  cases found : firstOf Registration.name deployment.registrations name with
  | none => exact absurd registered ((firstOf_eq_none_iff _ _ _).mp found)
  | some registration =>
    refine ⟨registration.rust, ?_, ?_⟩
    · rw [dispatcher_lookup, found, Option.map_some]
    · rw [registration.sameName]
      exact (firstOf_mem _ _ _ _ found).2

theorem lookup_unregistered (unregistered : name ∉ deployment.names) :
    deployment.dispatcher.serviceMap.lookup name = none := by
  rw [dispatcher_lookup, (firstOf_eq_none_iff _ _ _).mpr unregistered, Option.map_none]

end Lookup

/-- The state that the Rust dispatcher makes of a request to move. -/
def rustNewState (moveToState : Int) : Int :=
  Bridge.updateIsolateState ((Rust.isolateStateTryFrom moveToState).getD isolateStateUnspecified)

theorem cppUpdates_eq (state : Int) (updates : List Int) :
    cppUpdates state updates =
      (updates.map Bridge.updateIsolateState,
        (updates.map Bridge.updateIsolateState).getLastD state) := by
  induction updates generalizing state with
  | nil => rfl
  | cons moveToState updates ih => simp only [cppUpdates, ih, List.map_cons, List.getLastD_cons]

theorem rustUpdates_eq (dispatcher : Rust.RpcDispatcher) (updates : List Int) :
    rustUpdates dispatcher updates =
      (updates.map rustNewState,
        { dispatcher with
          currentState := (updates.map rustNewState).getLastD dispatcher.currentState }) := by
  induction updates generalizing dispatcher with
  | nil => rfl
  | cons moveToState updates ih =>
    have updated : dispatcher.updateIsolateState moveToState =
        (rustNewState moveToState, { dispatcher with currentState := rustNewState moveToState }) :=
      rfl
    simp only [rustUpdates, updated, ih, List.map_cons, List.getLastD_cons]

/-- Only for a number outside the enum do the SDKs differ: C++ keeps it, Rust reads it as
UNSPECIFIED. -/
theorem newState_eq_iff (moveToState : Int) :
    Bridge.updateIsolateState moveToState = rustNewState moveToState ↔
      moveToState ∈ Rust.knownIsolateStates := by
  unfold rustNewState Rust.isolateStateTryFrom
  by_cases known : moveToState ∈ Rust.knownIsolateStates
  · simp [known]
  · have notStarting : moveToState ≠ isolateStateStarting := by
      rintro rfl
      exact known (by decide)
    have notUnspecified : moveToState ≠ isolateStateUnspecified := by
      rintro rfl
      exact known (by decide)
    have kept : Bridge.updateIsolateState moveToState = moveToState := if_neg notStarting
    have unspecified : Bridge.updateIsolateState isolateStateUnspecified = isolateStateUnspecified :=
      rfl
    simp [known, kept, unspecified, notUnspecified]

theorem reports_eq_iff (updates : List Int) :
    updates.map Bridge.updateIsolateState = updates.map rustNewState ↔
      ∀ moveToState ∈ updates, moveToState ∈ Rust.knownIsolateStates := by
  rw [List.map_inj_left]
  simp only [newState_eq_iff]

/-- The last update, if there is one, makes the isolate ready. -/
def LeavesReady (updates : List Int) : Prop :=
  ∀ last ∈ updates.getLast?, last = isolateStateReady ∨ last = isolateStateStarting

theorem leavesReady_iff (updates : List Int) :
    (updates.map Bridge.updateIsolateState).getLastD isolateStateReady = isolateStateReady ↔
      LeavesReady updates := by
  unfold LeavesReady
  rw [List.getLastD_eq_getLast?, List.getLast?_map]
  cases updates.getLast? with
  | none => simp
  | some last =>
    by_cases starting : last = isolateStateStarting
    · simp [Bridge.updateIsolateState, starting]
    · simp [Bridge.updateIsolateState, starting]

section Verdicts

variable (deployment : Deployment Msg) (request : InvokeIsolateRequest)

theorem admitUnary_verdict (state : Int) :
    cppVerdict (Bridge.admitUnary deployment.services state request) =
      if state ≠ isolateStateReady then .reject .failedPrecondition
      else if request.metadata.destinationServiceName ∉ deployment.names then .reject .unknown
      else if request.datagrams = [] then .reject .invalidArgument
      else .dispatch request.metadata.destinationServiceName := by
  rw [Bridge.admitUnary_eq]
  by_cases ready : state = isolateStateReady
  · by_cases registered : request.metadata.destinationServiceName ∈ deployment.names
    · obtain ⟨service, found, name⟩ := findService_registered deployment _ registered
      by_cases empty : request.datagrams = []
      · simp [ready, registered, found, empty, cppVerdict]
      · simp [ready, registered, found, empty, cppVerdict, name]
    · simp [ready, registered, findService_unregistered deployment _ registered, cppVerdict,
        Bridge.unsupported]
  · simp [ready, cppVerdict, Bridge.notReady]

theorem admitFirstMessage_verdict (state : Int) :
    cppVerdict (Bridge.admitFirstMessage deployment.services state request) =
      if request.metadata.destinationServiceName ∉ deployment.names then .reject .unknown
      else if state ≠ isolateStateReady then .reject .failedPrecondition
      else .dispatch request.metadata.destinationServiceName := by
  unfold Bridge.admitFirstMessage
  by_cases registered : request.metadata.destinationServiceName ∈ deployment.names
  · obtain ⟨service, found, name⟩ := findService_registered deployment _ registered
    by_cases ready : state = isolateStateReady
    · simp [ready, registered, found, cppVerdict, name]
    · simp [ready, registered, found, cppVerdict, Bridge.notReady]
  · simp [registered, findService_unregistered deployment _ registered, cppVerdict,
      Bridge.unsupported]

theorem resolveService_verdict (metadata : ControlPlaneMetadata) (state : Int) :
    rustVerdict Prod.snd
        ({ deployment.dispatcher with currentState := state }.resolveService (some metadata)) =
      if state ≠ isolateStateReady then .reject .failedPrecondition
      else if metadata.destinationServiceName ∉ deployment.names then .reject .notFound
      else .dispatch metadata.destinationServiceName := by
  unfold Rust.RpcDispatcher.resolveService
  by_cases ready : state = isolateStateReady
  · by_cases registered : metadata.destinationServiceName ∈ deployment.names
    · obtain ⟨service, found, name⟩ := lookup_registered deployment _ registered
      simp [ready, registered, found, rustVerdict, name]
    · simp [ready, registered, lookup_unregistered deployment _ registered, rustVerdict]
  · simp [ready, rustVerdict]

theorem resolveUnary_verdict (metadata : ControlPlaneMetadata)
    (present : request.controlPlaneMetadata = some metadata) (state : Int) :
    rustVerdict (fun resolved => resolved.2.1)
        ({ deployment.dispatcher with currentState := state }.resolveUnary request) =
      if state ≠ isolateStateReady then .reject .failedPrecondition
      else if metadata.destinationServiceName ∉ deployment.names then .reject .notFound
      else if request.datagrams = [] then .reject .invalidArgument
      else .dispatch metadata.destinationServiceName := by
  have first : request.isolateInput.bind (fun input => input.datagrams.head?) =
      request.datagrams.head? := by
    unfold InvokeIsolateRequest.datagrams
    cases request.isolateInput <;> rfl
  unfold Rust.RpcDispatcher.resolveUnary Rust.RpcDispatcher.resolveService
  rw [present, first]
  by_cases ready : state = isolateStateReady
  · by_cases registered : metadata.destinationServiceName ∈ deployment.names
    · obtain ⟨service, found, name⟩ := lookup_registered deployment _ registered
      cases carried : request.datagrams with
      | nil => simp [ready, registered, found, rustVerdict]
      | cons datagram datagrams => simp [ready, registered, found, rustVerdict, name]
    · simp [ready, registered, lookup_unregistered deployment _ registered, rustVerdict]
  · simp [ready, rustVerdict]

/-- The four decisions when both bridges are in the same state. -/
def verdictsIn (state : Int) : List Verdict :=
  [cppVerdict (Bridge.admitUnary deployment.services state request),
    cppVerdict (Bridge.admitFirstMessage deployment.services state request),
    rustVerdict (fun resolved => resolved.2.1)
      ({ deployment.dispatcher with currentState := state }.resolveUnary request),
    rustVerdict Prod.snd
      ({ deployment.dispatcher with currentState := state }.resolveService
        request.controlPlaneMetadata)]

theorem verdicts_eq (updates : List Int)
    (known : ∀ moveToState ∈ updates, moveToState ∈ Rust.knownIsolateStates) :
    verdicts deployment updates request =
      verdictsIn deployment request
        ((updates.map Bridge.updateIsolateState).getLastD isolateStateReady) := by
  have ready : deployment.dispatcher.currentState = isolateStateReady := by
    rw [Deployment.dispatcher, rustDispatcher, foldl_addService]
    rfl
  unfold verdicts
  rw [cppUpdates_eq, rustUpdates_eq, ← (reports_eq_iff updates).mpr known, ready]
  rfl

theorem verdictsIn_missing (state : Int) (missing : request.controlPlaneMetadata = none) :
    ¬ ∃ verdict, ∀ made ∈ verdictsIn deployment request state, made = verdict := by
  have resolved : rustVerdict Prod.snd
      ({ deployment.dispatcher with currentState := state }.resolveService
        request.controlPlaneMetadata) = .reject .invalidArgument := by
    rw [missing]
    rfl
  rintro ⟨verdict, same⟩
  have stream := same _ (List.mem_cons_of_mem _ List.mem_cons_self)
  have rust := same (.reject .invalidArgument) (by simp [verdictsIn, resolved])
  rw [← rust, admitFirstMessage_verdict] at stream
  by_cases registered : request.metadata.destinationServiceName ∈ deployment.names
  · by_cases ready : state = isolateStateReady
    · simp [registered, ready] at stream
    · simp [registered, ready] at stream
  · simp [registered] at stream

theorem verdictsIn_alike_iff (state : Int) :
    (∃ verdict, ∀ made ∈ verdictsIn deployment request state, made = verdict) ↔
      (∃ metadata, request.controlPlaneMetadata = some metadata ∧
        metadata.destinationServiceName ∈ deployment.names) ∧
      (state = isolateStateReady → request.datagrams ≠ []) := by
  cases present : request.controlPlaneMetadata with
  | none => simp [verdictsIn_missing deployment request state present]
  | some metadata =>
    have named : request.metadata = metadata := by
      simp [InvokeIsolateRequest.metadata, present]
    unfold verdictsIn
    rw [one_value_iff (fun made : Verdict => made), present]
    simp only [List.mem_cons, List.not_mem_nil, or_false, forall_eq_or_imp, forall_eq,
      admitUnary_verdict, admitFirstMessage_verdict, resolveService_verdict,
      resolveUnary_verdict deployment request metadata present, named]
    by_cases ready : state = isolateStateReady
    · by_cases registered : metadata.destinationServiceName ∈ deployment.names
      · by_cases empty : request.datagrams = []
        · simp [ready, registered, empty]
        · simp [ready, registered, empty]
      · simp [ready, registered]
    · by_cases registered : metadata.destinationServiceName ∈ deployment.names
      · simp [ready, registered]
      · simp [ready, registered]

/-- The request and the updates before it avoid everything that the entry points treat
differently. -/
structure Uncontested (updates : List Int) : Prop where
  known : ∀ moveToState ∈ updates, moveToState ∈ Rust.knownIsolateStates
  addressed : ∃ metadata, request.controlPlaneMetadata = some metadata ∧
    metadata.destinationServiceName ∈ deployment.names
  carries : LeavesReady updates → request.datagrams ≠ []

/-- The bridges report the same states and make one decision on a request exactly when
the enforcer moves them to states of the enum only, the request has metadata that names a
registered service, and it has a datagram if the isolate is ready. -/
theorem bridges_admit_alike_iff (updates : List Int) :
    AdmitAlike deployment updates request ↔ Uncontested deployment request updates := by
  have reports : (cppUpdates isolateStateReady updates).1 =
      (rustUpdates deployment.dispatcher updates).1 ↔
        ∀ moveToState ∈ updates, moveToState ∈ Rust.knownIsolateStates := by
    rw [cppUpdates_eq, rustUpdates_eq]
    exact reports_eq_iff updates
  have decisions := verdictsIn_alike_iff deployment request
    ((updates.map Bridge.updateIsolateState).getLastD isolateStateReady)
  rw [leavesReady_iff] at decisions
  constructor
  · rintro ⟨sameReports, oneVerdict⟩
    have known := reports.mp sameReports
    rw [verdicts_eq deployment request updates known] at oneVerdict
    obtain ⟨addressed, carries⟩ := decisions.mp oneVerdict
    exact ⟨known, addressed, carries⟩
  · intro uncontested
    refine ⟨reports.mpr uncontested.known, ?_⟩
    rw [verdicts_eq deployment request updates uncontested.known]
    exact decisions.mpr ⟨uncontested.addressed, uncontested.carries⟩

end Verdicts

def greeterDeployment : Deployment Bytes := ⟨greeterAt 1, [], by decide⟩

/-- A request for a service that nobody registered, to an isolate that is ready and to
one that retires; and a state that is not in the enum. -/
theorem bridges_admit_differently :
    verdicts greeterDeployment [] (Bridge.bridgeMessage "Unknown" "SayHello" [10, 0]) =
        [.reject .unknown, .reject .unknown, .reject .notFound, .reject .notFound] ∧
      verdicts greeterDeployment [isolateStateRetiring]
          (Bridge.bridgeMessage "Unknown" "SayHello" [10, 0]) =
        [.reject .failedPrecondition, .reject .unknown, .reject .failedPrecondition,
          .reject .failedPrecondition] ∧
      (cppUpdates isolateStateReady [2]).1 = [2] ∧
      (rustUpdates greeterDeployment.dispatcher [2]).1 = [0] ∧
      ¬ AdmitAlike greeterDeployment [] (Bridge.bridgeMessage "Unknown" "SayHello" [10, 0]) ∧
      ¬ AdmitAlike greeterDeployment [2] (Bridge.bridgeMessage "Greeter" "SayHello" [10, 0]) := by
  refine ⟨by decide, by decide, rfl, rfl, ?_, ?_⟩
  · rintro ⟨_, verdict, same⟩
    have cpp := same (.reject .unknown) (by decide)
    have rust := same (.reject .notFound) (by decide)
    exact absurd (cpp.trans rust.symm) (by decide)
  · rintro ⟨sameReports, _⟩
    exact absurd sameReports (by decide)

end EzSdk.Parity
