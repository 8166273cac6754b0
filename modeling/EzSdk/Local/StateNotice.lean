import EzSdk.Foundation.Runs

/-! NotifyIsolateState in the local test environment: `SendNewIsolateState` of
`isolate_ez_bridge_client.cpp` or `new_isolate_state` of `isolate_ez_bridge_client.rs` at one end of the
stream, the `NotifyStateReactor` of `mock_enforcer.cc` at the other, and a connection that can break. -/

namespace EzSdk.Local.StateNotice

inductive Sdk where
  | cpp
  | rust
  deriving DecidableEq

/-- The call that the client is in. The Rust client sends its one message and the end of the stream
while it waits for the answer of the enforcer. -/
inductive Client where
  | write
  | writesDone
  | read
  | finish
  | response
  | returned (success : Bool)
  deriving DecidableEq

/-- The operation of the reactor that is outstanding. -/
inductive Reactor where
  | absent
  | read
  | write
  | finish
  | deleted
  deriving DecidableEq

structure Notice where
  client : Client
  reactor : Reactor
  /-- The connection is broken, or the client has cancelled the call. -/
  broken : Bool
  /-- The message of the client is on its way. -/
  sent : Bool
  halfClosed : Bool
  /-- `request_` of the reactor, once it was read. -/
  received : Option Int
  /-- The response of the reactor is on its way. -/
  responded : Bool
  /-- The OK of Finish is on its way. -/
  trailers : Bool
  /-- The calls of Finish. -/
  finishes : Nat
  deriving DecidableEq

def start : Notice where
  client := .write
  reactor := .absent
  broken := false
  sent := false
  halfClosed := false
  received := none
  responded := false
  trailers := false
  finishes := 0

inductive Event where
  | breaks
  /-- `NotifyIsolateState` of the enforcer makes the reactor, which starts to read. -/
  | notifyIsolateState
  | onReadDone (ok : Bool)
  | onWriteDone (ok : Bool)
  | onDone
  | writeReturns (ok : Bool)
  | writesDoneReturns (ok : Bool)
  | readReturns (ok : Bool)
  | finishReturns (ok : Bool)
  /-- The Rust client has the head of the response, or an error. -/
  | responseReturns (ok : Bool)
  deriving DecidableEq

namespace Notice

/-- `Finish(Status::OK)`. -/
def finishOk (notice : Notice) : Notice :=
  { notice with
    reactor := .finish
    finishes := notice.finishes + 1
    trailers := !notice.broken }

/-- `SendNewIsolateState` returns before Finish, so that the context cancels the call. -/
def giveUp (notice : Notice) : Notice :=
  { notice with client := .returned false, broken := true }

end Notice

def step (sdk : Sdk) (newState : Int) (notice : Notice) : Event → Option Notice
  | .breaks => if notice.broken then none else some { notice with broken := true }
  | .notifyIsolateState =>
    if notice.reactor = .absent ∧ notice.broken = false then some { notice with reactor := .read }
    else none
  | .onReadDone true =>
    if notice.reactor = .read ∧ notice.sent then
      some { notice with reactor := .write, received := some newState }
    else none
  | .onReadDone false =>
    if notice.reactor = .read ∧ (notice.broken ∨ notice.halfClosed ∧ notice.sent = false) then
      some notice.finishOk
    else none
  | .onWriteDone ok =>
    if notice.reactor = .write ∧ (ok ∨ notice.broken) then
      some { notice with responded := ok && !notice.broken }.finishOk
    else none
  | .onDone => if notice.reactor = .finish then some { notice with reactor := .deleted } else none
  | .writeReturns true =>
    if notice.client = .write then
      some { notice with client := .writesDone, sent := !notice.broken }
    else none
  | .writeReturns false =>
    if sdk = .cpp ∧ notice.client = .write ∧ (notice.broken ∨ notice.trailers) then some notice.giveUp
    else none
  | .writesDoneReturns true =>
    if notice.client = .writesDone then
      some { notice with
        client := if sdk = .cpp then .read else .response
        halfClosed := true }
    else none
  -- The enforcer does not wait for the half-close, so its OK can be there already.
  | .writesDoneReturns false =>
    if sdk = .cpp ∧ notice.client = .writesDone ∧ (notice.broken ∨ notice.trailers) then
      some notice.giveUp
    else none
  | .readReturns ok =>
    if notice.client = .read ∧
        (if ok then notice.responded = true
          else notice.broken = true ∨ notice.trailers = true ∧ notice.responded = false) then
      some { notice with client := .finish }
    else none
  | .finishReturns ok =>
    if notice.client = .finish ∧ (if ok then notice.trailers else notice.broken) then
      some { notice with client := .returned ok }
    else none
  | .responseReturns ok =>
    if sdk = .rust ∧ (notice.client = .write ∨ notice.client = .writesDone ∨ notice.client = .response) ∧
        (if ok then notice.responded || notice.trailers else notice.broken) then
      some { notice with client := .returned ok }
    else none

def run (sdk : Sdk) (newState : Int) (events : List Event) : Option Notice :=
  Runs.run (step sdk newState) start events

/-- What each event does, and when it can happen. -/
inductive Steps (sdk : Sdk) (newState : Int) (notice : Notice) : Event → Notice → Prop where
  | breaks (whole : notice.broken = false) :
      Steps sdk newState notice .breaks { notice with broken := true }
  | notifyIsolateState (absent : notice.reactor = .absent) (whole : notice.broken = false) :
      Steps sdk newState notice .notifyIsolateState { notice with reactor := .read }
  | reads (reading : notice.reactor = .read) (sent : notice.sent = true) :
      Steps sdk newState notice (.onReadDone true)
        { notice with reactor := .write, received := some newState }
  | readFails (reading : notice.reactor = .read)
      (ended : notice.broken = true ∨ notice.halfClosed = true ∧ notice.sent = false) :
      Steps sdk newState notice (.onReadDone false) notice.finishOk
  | writes (ok : Bool) (writing : notice.reactor = .write) (allowed : ok = true ∨ notice.broken = true) :
      Steps sdk newState notice (.onWriteDone ok)
        { notice with responded := ok && !notice.broken }.finishOk
  | onDone (finished : notice.reactor = .finish) :
      Steps sdk newState notice .onDone { notice with reactor := .deleted }
  | written (calling : notice.client = .write) :
      Steps sdk newState notice (.writeReturns true)
        { notice with client := .writesDone, sent := !notice.broken }
  | writeFails (cpp : sdk = .cpp) (calling : notice.client = .write)
      (ending : notice.broken = true ∨ notice.trailers = true) :
      Steps sdk newState notice (.writeReturns false) notice.giveUp
  | halfCloses (calling : notice.client = .writesDone) :
      Steps sdk newState notice (.writesDoneReturns true)
        { notice with client := if sdk = .cpp then .read else .response, halfClosed := true }
  | halfCloseFails (cpp : sdk = .cpp) (calling : notice.client = .writesDone)
      (ending : notice.broken = true ∨ notice.trailers = true) :
      Steps sdk newState notice (.writesDoneReturns false) notice.giveUp
  | readReturns (ok : Bool) (calling : notice.client = .read) :
      Steps sdk newState notice (.readReturns ok) { notice with client := .finish }
  | succeeds (event : Event) (active : ∀ success, notice.client ≠ .returned success)
      (told : notice.responded = true ∨ notice.trailers = true) :
      Steps sdk newState notice event { notice with client := .returned true }
  | fails (event : Event) (active : ∀ success, notice.client ≠ .returned success)
      (broken : notice.broken = true) :
      Steps sdk newState notice event { notice with client := .returned false }

theorem step_spec {sdk : Sdk} {newState : Int} {notice next : Notice} {event : Event}
    (taken : step sdk newState notice event = some next) : Steps sdk newState notice event next := by
  cases event with
  | breaks =>
    simp only [step] at taken
    split at taken
    · cases taken
    · rename_i whole
      cases taken
      exact .breaks (Bool.eq_false_iff.mpr whole)
  | notifyIsolateState =>
    simp only [step, Runs.guarded] at taken
    rcases taken with ⟨⟨absent, whole⟩, rfl⟩
    exact .notifyIsolateState absent whole
  | onReadDone ok =>
    cases ok with
    | true =>
      simp only [step, Runs.guarded] at taken
      rcases taken with ⟨⟨reading, sent⟩, rfl⟩
      exact .reads reading sent
    | false =>
      simp only [step, Runs.guarded] at taken
      rcases taken with ⟨⟨reading, ended⟩, rfl⟩
      exact .readFails reading ended
  | onWriteDone ok =>
    simp only [step, Runs.guarded] at taken
    rcases taken with ⟨⟨writing, allowed⟩, rfl⟩
    exact .writes ok writing allowed
  | onDone =>
    simp only [step, Runs.guarded] at taken
    rcases taken with ⟨finished, rfl⟩
    exact .onDone finished
  | writeReturns ok =>
    cases ok with
    | true =>
      simp only [step, Runs.guarded] at taken
      rcases taken with ⟨calling, rfl⟩
      exact .written calling
    | false =>
      simp only [step, Runs.guarded] at taken
      rcases taken with ⟨⟨cpp, calling, ending⟩, rfl⟩
      exact .writeFails cpp calling ending
  | writesDoneReturns ok =>
    cases ok with
    | true =>
      simp only [step, Runs.guarded] at taken
      rcases taken with ⟨calling, rfl⟩
      exact .halfCloses calling
    | false =>
      simp only [step, Runs.guarded] at taken
      rcases taken with ⟨⟨cpp, calling, ending⟩, rfl⟩
      exact .halfCloseFails cpp calling ending
  | readReturns ok =>
    simp only [step, Runs.guarded] at taken
    rcases taken with ⟨⟨calling, _⟩, rfl⟩
    exact .readReturns ok calling
  | finishReturns ok =>
    cases ok with
    | true =>
      simp only [step, Runs.guarded] at taken
      rcases taken with ⟨⟨calling, trailers⟩, rfl⟩
      exact .succeeds _ (by simp [calling]) (.inr trailers)
    | false =>
      simp only [step, Runs.guarded] at taken
      rcases taken with ⟨⟨calling, broken⟩, rfl⟩
      exact .fails _ (by simp [calling]) broken
  | responseReturns ok =>
    cases ok with
    | true =>
      simp only [step, Runs.guarded] at taken
      rcases taken with ⟨⟨_, calling, told⟩, rfl⟩
      exact .succeeds _ (by rcases calling with same | same | same <;> simp [same])
        (by simpa using told)
    | false =>
      simp only [step, Runs.guarded] at taken
      rcases taken with ⟨⟨_, calling, broken⟩, rfl⟩
      exact .fails _ (by rcases calling with same | same | same <;> simp [same]) broken

/-! ### What holds of every state -/

/-- How far the reactor has come with what the client has sent. -/
structure Serves (newState : Int) (notice : Notice) : Prop where
  /-- Finish is called once, and only when no other operation is left. -/
  finishes : notice.finishes = if notice.reactor = .finish ∨ notice.reactor = .deleted then 1 else 0
  ended : notice.reactor = .finish ∨ notice.reactor = .deleted →
    notice.trailers = true ∨ notice.broken = true
  before : notice.reactor = .absent ∨ notice.reactor = .read → notice.received = none
  writing : notice.reactor = .write → notice.received = some newState
  received : notice.received = none ∨ notice.received = some newState ∧ notice.sent = true
  told : notice.responded = true ∨ notice.trailers = true → notice.received = some newState

/-- What the client has sent, and what it can know. -/
structure Reports (sdk : Sdk) (newState : Int) (notice : Notice) : Prop where
  unsent : notice.client = .write → notice.sent = false ∧ notice.halfClosed = false
  sent : notice.client ≠ .write → (∀ success, notice.client ≠ .returned success) →
    notice.sent = true ∨ notice.broken = true
  halfClosed : notice.halfClosed = true → notice.sent = true ∨ notice.broken = true
  succeeded : notice.client = .returned true → notice.received = some newState
  failed : notice.client = .returned false → notice.broken = true
  rust : notice.client = .response → sdk = .rust

structure Sound (sdk : Sdk) (newState : Int) (notice : Notice) : Prop extends
  Serves newState notice, Reports sdk newState notice

theorem sound_start (sdk : Sdk) (newState : Int) : Sound sdk newState start := by
  constructor <;> constructor <;> simp [start]

/-- Finish of an operation, after which the client is told of nothing that was not received. -/
theorem serves_finishOk {newState : Int} {notice : Notice} (serves : Serves newState notice)
    (unfinished : ¬ (notice.reactor = .finish ∨ notice.reactor = .deleted))
    (told : notice.responded = true ∨ notice.broken = false → notice.received = some newState) :
    Serves newState notice.finishOk where
  finishes := by simp [Notice.finishOk, serves.finishes, unfinished]
  ended := by simp [Notice.finishOk]
  before := by simp [Notice.finishOk]
  writing := by simp [Notice.finishOk]
  received := serves.received
  told := by simpa [Notice.finishOk] using told

theorem reports_giveUp (sdk : Sdk) (newState : Int) (notice : Notice) :
    Reports sdk newState notice.giveUp where
  unsent := nofun
  sent _ active := absurd rfl (active false)
  halfClosed _ := .inr rfl
  succeeded := nofun
  failed _ := rfl
  rust := nofun

/-- A client in a call after its write has sent its message, unless the connection broke. -/
theorem reports_calls {sdk : Sdk} {newState : Int} (notice : Notice) (client : Client)
    (sent : notice.sent = true ∨ notice.broken = true) (later : client ≠ .write)
    (active : ∀ success, client ≠ .returned success) (rust : client = .response → sdk = .rust) (half : Bool) :
    Reports sdk newState { notice with client := client, halfClosed := half } where
  unsent first := absurd first later
  sent _ _ := sent
  halfClosed _ := sent
  succeeded ended := absurd ended (active true)
  failed ended := absurd ended (active false)
  rust := rust

section Step

variable {sdk : Sdk} {newState : Int} {notice next : Notice} {event : Event}
  (sound : Sound sdk newState notice) (taken : step sdk newState notice event = some next)

include sound taken

theorem serves_step : Serves newState next := by
  have serves := sound.toServes
  cases step_spec taken with
  | breaks whole => exact { serves with ended := fun _ => .inr rfl }
  | notifyIsolateState absent whole =>
    have nothing := serves.before (.inl absent)
    exact { serves with
      finishes := by simp [serves.finishes, absent]
      ended := by simp
      before := fun _ => nothing
      writing := nofun }
  | reads reading arrived =>
    exact {
      finishes := by simp [serves.finishes, reading]
      ended := by simp
      before := by simp
      writing := fun _ => rfl
      received := .inr ⟨rfl, arrived⟩
      told := fun _ => rfl }
  | readFails reading ending =>
    -- a half-closed stream has its message, so that nothing more to read means a broken connection
    have broken : notice.broken = true := by
      rcases ending with broken | ⟨half, unsent⟩
      · exact broken
      · exact (sound.halfClosed half).resolve_left (by simp [unsent])
    apply serves_finishOk serves (by simp [reading])
    rintro (responded | whole)
    · exact serves.told (.inl responded)
    · rw [broken] at whole
      cases whole
  | writes ok outstanding allowed =>
    have received := serves.writing outstanding
    exact serves_finishOk { serves with told := fun _ => received } (by simp [outstanding])
      fun _ => received
  | onDone finished =>
    have ended := serves.ended (.inl finished)
    exact { serves with
      finishes := by simp [serves.finishes, finished]
      ended := fun _ => ended
      before := by simp
      writing := nofun }
  | written calling =>
    -- before its write the client has sent nothing that could have been received
    have nothing : notice.received = none := by
      rcases serves.received with nothing | ⟨_, sent⟩
      · exact nothing
      · rw [(sound.unsent calling).1] at sent
        cases sent
    exact { serves with received := .inl nothing }
  | writeFails _ calling ending => exact { serves with ended := fun _ => .inr rfl }
  | halfCloses calling => exact { serves with }
  | halfCloseFails _ calling ending => exact { serves with ended := fun _ => .inr rfl }
  | readReturns ok calling => exact { serves with }
  | succeeds _ active heard => exact { serves with }
  | fails _ active broken => exact { serves with }

theorem reports_step : Reports sdk newState next := by
  have reports := sound.toReports
  cases step_spec taken with
  | breaks whole =>
    exact { reports with
      sent := fun _ _ => .inr rfl
      halfClosed := fun _ => .inr rfl
      failed := fun _ => rfl }
  | notifyIsolateState absent whole => exact { reports with }
  | reads reading arrived => exact { reports with succeeded := fun _ => rfl }
  | readFails reading ending => exact { reports with }
  | writes ok outstanding allowed => exact { reports with }
  | onDone finished => exact { reports with }
  | written calling =>
    have sent : (!notice.broken) = true ∨ notice.broken = true := by
      cases notice.broken <;> simp
    exact reports_calls { notice with sent := !notice.broken } .writesDone sent nofun nofun nofun
      notice.halfClosed
  | writeFails _ calling ending => exact reports_giveUp sdk newState notice
  | halfCloses calling =>
    have sent := reports.sent (by simp [calling]) (by simp [calling])
    cases sdk with
    | cpp => exact reports_calls notice .read sent nofun nofun nofun true
    | rust => exact reports_calls notice .response sent nofun nofun (fun _ => rfl) true
  | halfCloseFails _ calling ending => exact reports_giveUp sdk newState notice
  | readReturns ok calling =>
    have sent := reports.sent (by simp [calling]) (by simp [calling])
    exact reports_calls notice .finish sent nofun nofun nofun notice.halfClosed
  | succeeds _ active heard =>
    have received := sound.told heard
    exact { reports with
      unsent := nofun
      sent := fun _ active => absurd rfl (active true)
      succeeded := fun _ => received
      failed := nofun
      rust := nofun }
  | fails _ active broken =>
    exact { reports with
      unsent := nofun
      sent := fun _ active => absurd rfl (active false)
      succeeded := nofun
      failed := fun _ => broken
      rust := nofun }

theorem sound_step : Sound sdk newState next := ⟨serves_step sound taken, reports_step sound taken⟩

end Step

theorem run_sound {sdk : Sdk} {newState : Int} {events : List Event} {final : Notice}
    (reached : run sdk newState events = some final) : Sound sdk newState final :=
  Runs.run_preserves (Sound sdk newState) (fun _ _ _ sound taken => sound_step sound taken) start final
    events (sound_start sdk newState) reached

/-- In every run, over every connection, the reactor calls Finish at most once and the enforcer gets
no other state than the one that was sent; and a client that reports success has been heard. -/
theorem reported_state_received (sdk : Sdk) (newState : Int) (events : List Event) (final : Notice)
    (reached : run sdk newState events = some final) :
    final.finishes ≤ 1 ∧ (∀ state ∈ final.received, state = newState) ∧
      (final.client = .returned true → final.received = some newState) := by
  have sound := run_sound reached
  refine ⟨?_, ?_, sound.succeeded⟩
  · rw [sound.finishes]
    split <;> omega
  · intro state present
    rcases sound.received with absent | ⟨same, _⟩
    · rw [absent] at present
      cases present
    · rw [same] at present
      exact (Option.some.inj present).symm

/-- A C++ client half-closes after the enforcer has finished the call. -/
def lateHalfClose : List Event :=
  [.notifyIsolateState, .writeReturns true, .onReadDone true, .onWriteDone true, .onDone,
    .writesDoneReturns true, .readReturns true, .finishReturns true]

theorem late_half_close_received : ∃ final, run .cpp 7 lateHalfClose = some final ∧
    final.client = .returned true ∧ final.received = some 7 :=
  ⟨_, rfl, rfl, (reported_state_received .cpp 7 lateHalfClose _ rfl).2.2 rfl⟩

/-! ### Completion -/

def Client.rank : Client → Nat
  | .write => 4
  | .writesDone => 3
  | .read => 2
  | .response => 2
  | .finish => 1
  | .returned _ => 0

def Reactor.rank : Reactor → Nat
  | .absent => 4
  | .read => 3
  | .write => 2
  | .finish => 1
  | .deleted => 0

def Notice.rank (notice : Notice) : Nat :=
  notice.client.rank + notice.reactor.rank + (!notice.broken).toNat

theorem rank_returned (success : Bool) : (Client.returned success).rank = 0 := rfl

theorem rank_active {client : Client} (active : ∀ success, client ≠ .returned success) :
    0 < client.rank := by
  cases client with
  | returned success => exact absurd rfl (active success)
  | _ => simp [Client.rank]

theorem rank_lower {sdk : Sdk} {newState : Int} {notice next : Notice} {event : Event}
    (taken : step sdk newState notice event = some next) : next.rank < notice.rank := by
  have gaveUp (calling : 0 < notice.client.rank) : notice.giveUp.rank < notice.rank := by
    simp only [Notice.rank, Notice.giveUp, rank_returned, Bool.not_true, Bool.toNat_false]
    omega
  have returned (success : Bool) (active : ∀ success, notice.client ≠ .returned success) :
      { notice with client := .returned success }.rank < notice.rank := by
    have positive := rank_active active
    simp only [Notice.rank, rank_returned]
    omega
  cases step_spec taken with
  | breaks whole => simp [Notice.rank, whole]
  | notifyIsolateState absent _ => simp [Notice.rank, absent, Reactor.rank]
  | reads reading _ => simp [Notice.rank, reading, Reactor.rank]
  | readFails reading _ =>
    simp only [Notice.rank, Notice.finishOk, reading, Reactor.rank]
    omega
  | writes _ writing _ =>
    simp only [Notice.rank, Notice.finishOk, writing, Reactor.rank]
    omega
  | onDone finished => simp [Notice.rank, finished, Reactor.rank]
  | written calling => simp [Notice.rank, calling, Client.rank]
  | writeFails _ calling _ => exact gaveUp (by simp [calling, Client.rank])
  | halfCloses calling => cases sdk <;> simp [Notice.rank, calling, Client.rank]
  | halfCloseFails _ calling _ => exact gaveUp (by simp [calling, Client.rank])
  | readReturns _ calling => simp [Notice.rank, calling, Client.rank]
  | succeeds _ active _ => exact returned true active
  | fails _ active _ => exact returned false active

/-- The client has returned, and there is no reactor, or none any more. -/
def Over (notice : Notice) : Prop :=
  (∃ success, notice.client = .returned success) ∧
    (notice.reactor = .absent ∨ notice.reactor = .deleted)

theorem client_progress {sdk : Sdk} {newState : Int} {notice : Notice} (sound : Sound sdk newState notice)
    (ending : notice.trailers = true ∨ notice.broken = true) :
    (∃ success, notice.client = .returned success) ∨
      ∃ event next, step sdk newState notice event = some next := by
  cases client : notice.client with
  | write => exact .inr ⟨.writeReturns true, _, by simp only [step, client, if_true]; rfl⟩
  | writesDone => exact .inr ⟨.writesDoneReturns true, _, by simp only [step, client, if_true]; rfl⟩
  | read =>
    cases responded : notice.responded with
    | true => exact .inr ⟨.readReturns true, _, by simp [step, client, responded]; rfl⟩
    | false => exact .inr ⟨.readReturns false, _, by simp [step, client, responded, ending.symm]; rfl⟩
  | finish =>
    rcases ending with trailers | broken
    · exact .inr ⟨.finishReturns true, _, by simp [step, client, trailers]; rfl⟩
    · exact .inr ⟨.finishReturns false, _, by simp [step, client, broken]; rfl⟩
  | response =>
    have rust := sound.rust client
    rcases ending with trailers | broken
    · exact .inr ⟨.responseReturns true, _, by simp [step, client, rust, trailers]; rfl⟩
    · exact .inr ⟨.responseReturns false, _, by simp [step, client, rust, broken]; rfl⟩
  | returned success => exact .inl ⟨success, rfl⟩

theorem notice_progress {sdk : Sdk} {newState : Int} {notice : Notice}
    (sound : Sound sdk newState notice) :
    Over notice ∨ ∃ event next, step sdk newState notice event = some next := by
  cases reactor : notice.reactor with
  | absent =>
    cases broken : notice.broken with
    | false => exact .inr ⟨.notifyIsolateState, _, by simp only [step, reactor, broken, and_self, if_true]; rfl⟩
    | true =>
      rcases client_progress sound (.inr broken) with returned | enabled
      · exact .inl ⟨returned, .inl reactor⟩
      · exact .inr enabled
  | read =>
    cases sent : notice.sent with
    | true => exact .inr ⟨.onReadDone true, _, by simp only [step, reactor, sent, and_self, if_true]; rfl⟩
    | false =>
      cases broken : notice.broken with
      | true => exact .inr ⟨.onReadDone false, _, by simp [step, reactor, broken]; rfl⟩
      | false =>
        -- Nothing was sent over a whole connection: the client is still in Write.
        cases client : notice.client with
        | write => exact .inr ⟨.writeReturns true, _, by simp only [step, client, if_true]; rfl⟩
        | returned success =>
          cases success with
          | true =>
            have none_yet := sound.before (.inr reactor)
            rw [sound.succeeded client] at none_yet
            cases none_yet
          | false => exact absurd (sound.failed client) (by simp [broken])
        | _ =>
          have underway := sound.sent (by simp [client]) (by simp [client])
          simp [sent, broken] at underway
  | write => exact .inr ⟨.onWriteDone true, _, by simp [step, reactor]; rfl⟩
  | finish => exact .inr ⟨.onDone, _, by simp only [step, reactor, if_true]; rfl⟩
  | deleted =>
    rcases client_progress sound (sound.ended (.inr reactor)) with returned | enabled
    · exact .inl ⟨returned, .inr reactor⟩
    · exact .inr enabled

/-! ### Whole connections -/

/-- The event is not that the connection breaks. -/
def Calm (_ : Notice) (event : Event) : Prop := event ≠ .breaks

/-- Over a connection that does not break, the client gives up only what has arrived. -/
structure Unharmed (sdk : Sdk) (newState : Int) (notice : Notice) : Prop where
  sound : Sound sdk newState notice
  arrived : notice.broken = true → notice.received = some newState

theorem unharmed_step {sdk : Sdk} {newState : Int} {notice next : Notice} {event : Event}
    (unharmed : Unharmed sdk newState notice) (calm : Calm notice event)
    (taken : step sdk newState notice event = some next) : Unharmed sdk newState next := by
  refine ⟨sound_step unharmed.sound taken, ?_⟩
  have arrived := unharmed.arrived
  have heard (ending : notice.broken = true ∨ notice.trailers = true) : notice.received = some newState := by
    rcases ending with broken | trailers
    · exact arrived broken
    · exact unharmed.sound.told (.inr trailers)
  cases step_spec taken with
  | breaks _ => exact absurd rfl calm
  | reads _ _ => exact fun _ => rfl
  | writeFails _ _ ending => exact fun _ => heard ending
  | halfCloseFails _ _ ending => exact fun _ => heard ending
  | _ => exact arrived

/-- The connection is whole, and the client has not failed. -/
structure Smooth (sdk : Sdk) (newState : Int) (notice : Notice) : Prop where
  sound : Sound sdk newState notice
  whole : notice.broken = false

theorem smooth_step {sdk : Sdk} {newState : Int} {notice next : Notice} {event : Event}
    (smooth : Smooth sdk newState notice)
    (calm : event ≠ .breaks ∧ event ≠ .writesDoneReturns false)
    (taken : step sdk newState notice event = some next) : Smooth sdk newState next := by
  refine ⟨sound_step smooth.sound taken, ?_⟩
  have whole := smooth.whole
  cases step_spec taken with
  | breaks _ => exact absurd rfl calm.1
  | halfCloseFails _ _ _ => exact absurd rfl calm.2
  | writeFails _ calling ending =>
    -- The enforcer cannot have finished a call of which it has read nothing.
    rcases ending with broken | trailers
    · exact absurd (whole.symm.trans broken) (by decide)
    · have heard := smooth.sound.told (.inr trailers)
      rcases smooth.sound.received with absent | ⟨_, sent⟩
      · rw [absent] at heard
        cases heard
      · exact absurd ((smooth.sound.unsent calling).1.symm.trans sent) (by decide)
  | _ => exact whole

/-- Whatever the order of events, a notification takes at most nine steps, and at every point of it
something can happen until the client has returned and the reactor is deleted. If the connection does
not break, the enforcer then has the state; and if no half-close fails either, as it may when the
enforcer is done before it, the client reports success. -/
theorem notice_completes (sdk : Sdk) (newState : Int) (events : List Event) (final : Notice)
    (reached : run sdk newState events = some final) :
    events.length ≤ 9 ∧
      (∃ later ending, Runs.run (step sdk newState) final later = some ending ∧ Over ending) ∧
      (Over final → .breaks ∉ events →
        final.received = some newState ∧ final.reactor = .deleted ∧
          (.writesDoneReturns false ∉ events → final.client = .returned true)) := by
  have keeps (notice : Notice) (event : Event) (next : Notice) (sound : Sound sdk newState notice)
      (taken : step sdk newState notice event = some next) : Sound sdk newState next :=
    sound_step sound taken
  have lowers (notice : Notice) (event : Event) (next : Notice) (_ : Sound sdk newState notice)
      (taken : step sdk newState notice event = some next) : next.rank < notice.rank :=
    rank_lower taken
  have sound := run_sound reached
  refine ⟨?_, ?_, ?_⟩
  · have bounded := Runs.run_length_le (Sound sdk newState) Notice.rank keeps lowers start final events
      (sound_start sdk newState) reached
    have atStart : start.rank = 9 := rfl
    omega
  · exact Runs.run_completes (Sound sdk newState) Notice.rank keeps lowers Over
      (fun _ sound => notice_progress sound) final sound
  · intro ending unbroken
    rcases ending with ⟨⟨success, returned⟩, ended⟩
    have unharmed : Unharmed sdk newState final := by
      apply Runs.run_preserves_allowed (Unharmed sdk newState) Calm
        (fun _ _ _ unharmed calm taken => unharmed_step unharmed calm taken) start final events
        ⟨sound_start sdk newState, (nomatch ·)⟩ ?_ reached
      apply Runs.everyStep_of_mem
      intro event member _ same
      exact unbroken (same ▸ member)
    have heard : final.received = some newState := by
      cases success with
      | true => exact sound.succeeded returned
      | false => exact unharmed.arrived (sound.failed returned)
    refine ⟨heard, ?_, ?_⟩
    · rcases ended with absent | deleted
      · have none_yet := sound.before (.inl absent)
        rw [heard] at none_yet
        cases none_yet
      · exact deleted
    · intro kept
      have smooth : Smooth sdk newState final := by
        apply Runs.run_preserves_allowed (Smooth sdk newState)
          (fun _ event => event ≠ .breaks ∧ event ≠ .writesDoneReturns false)
          (fun _ _ _ smooth calm taken => smooth_step smooth calm taken) start final events
          ⟨sound_start sdk newState, rfl⟩ ?_ reached
        apply Runs.everyStep_of_mem
        intro event member _
        exact ⟨fun same => unbroken (same ▸ member), fun same => kept (same ▸ member)⟩
      cases success with
      | true => exact returned
      | false => exact absurd (smooth.whole.symm.trans (sound.failed returned)) (by decide)

theorem late_half_close_completes : ∃ final, run .cpp 7 lateHalfClose = some final ∧
    lateHalfClose.length ≤ 9 ∧ final.client = .returned true := by
  have completes := notice_completes .cpp 7 lateHalfClose _ rfl
  exact ⟨_, rfl, completes.1, (completes.2.2 ⟨⟨true, rfl⟩, .inr rfl⟩ (by decide)).2.2 (by decide)⟩

end EzSdk.Local.StateNotice
