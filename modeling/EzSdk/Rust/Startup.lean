import EzSdk.Foundation.Runs

/-! The start of a Rust isolate: `create_isolate_server_with_client!`, `IsolateRpcServer::start` and the
client that all share, against the enforcer and other tasks of the isolate. -/

namespace EzSdk.Rust.Startup

/-- What the main task does, one after the other. A logic is named by its `Arc`. -/
inductive Action where
  | getClient
  | setClient (logic : Nat)
  | removeFile
  | bind
  | notifyReady
  | serve
  deriving DecidableEq

/-- `create_isolate_server_with_client!`, after it has made the dispatcher. -/
def createIsolateServerWithClient (logics : List Nat) : List Action :=
  .getClient :: logics.map .setClient

/-- `IsolateRpcServer::start` -/
def start : List Action := [.removeFile, .bind, .getClient, .notifyReady, .serve]

def program (logics : List Nat) : List Action := createIsolateServerWithClient logics ++ start

inductive Task where
  | main
  | user (index : Nat)
  deriving DecidableEq

/-- The `OnceCell` of the server. Only the task with the permit runs `init_client`. -/
inductive Cell where
  | empty
  | initializing (task : Task)
  | full (client : Nat)
  deriving DecidableEq

/-- How `start` ends: with a panic, or because its `shutdown_rx` has received a message or was closed. -/
inductive Ending where
  | panicked
  | shutDown
  deriving DecidableEq

/-- A request over the socket, for the service with this logic. -/
structure Invocation where
  id : Nat
  logic : Nat
  deriving DecidableEq

/-- `client` is that of `start`, `clients` are those of the logics, `got` those of the user's tasks.
Clients are numbered as they are made. -/
structure Isolate where
  todo : List Action
  done : List Action
  ended : Option Ending
  pipeOpen : Bool
  cell : Cell
  made : Nat
  client : Option Nat
  clients : Nat → Option Nat
  got : List Nat
  refused : List Invocation
  backlog : List Invocation
  /-- With what `get_client` of the logic gives; there is none if it panics. -/
  handled : List (Invocation × Option Nat)

def begin (logics : List Nat) : Isolate where
  todo := program logics
  done := []
  ended := none
  pipeOpen := false
  cell := .empty
  made := 0
  client := none
  clients := fun _ => none
  got := []
  refused := []
  backlog := []
  handled := []

inductive Event where
  /-- The enforcer opens the ready pipe for writing. -/
  | opensPipe
  /-- Someone connects to the socket of the isolate. -/
  | invokes (invocation : Invocation)
  /-- The main task takes its next action, other than to get the client. -/
  | acts (ok : Bool)
  /-- A task calls `get_or_init` and gets the permit, or finds the client. -/
  | asks (task : Task)
  /-- `init_client` of the task with the permit has connected, or panics. -/
  | connects (ok : Bool)
  /-- A task of the user that has the permit is dropped. -/
  | drops (index : Nat)
  /-- The server accepts the next connection. -/
  | handles
  /-- The server stops: it is told to by the receiver that was passed to `start`, or fails, which is a
  panic. -/
  | stops (ending : Ending)

/-- The request that an event brings. -/
def invocationOf : Event → Option Invocation
  | .invokes invocation => some invocation
  | _ => none

namespace Isolate

/-- The main task goes on behind the first action. -/
def advance (isolate : Isolate) : Isolate :=
  match isolate.todo with
  | [] => isolate
  | action :: rest => { isolate with todo := rest, done := isolate.done ++ [action] }

/-- `set_client` of the logic. -/
def setClient (isolate : Isolate) (logic client : Nat) : Isolate :=
  { isolate with clients := fun other => if other = logic then some client else isolate.clients other }

/-- `get_isolate_ez_bridge_client` returns. -/
def give (isolate : Isolate) (client : Nat) : Task → Isolate
  | .main => { isolate with client := some client }.advance
  | .user _ => { isolate with got := isolate.got ++ [client] }

/-- The task can call `get_isolate_ez_bridge_client`. -/
def Calls (isolate : Isolate) : Task → Prop
  | .main => isolate.todo.head? = some .getClient ∧ isolate.ended = none
  | .user _ => True

instance (isolate : Isolate) (task : Task) : Decidable (isolate.Calls task) := by
  cases task <;> simp only [Calls] <;> infer_instance

/-- What has become of the requests over the socket. -/
def traffic (isolate : Isolate) : List Invocation × List (Invocation × Option Nat) × List Invocation :=
  (isolate.refused, isolate.handled, isolate.backlog)

@[simp] theorem advance_cell (isolate : Isolate) : isolate.advance.cell = isolate.cell := by
  unfold advance
  split <;> rfl

@[simp] theorem advance_traffic (isolate : Isolate) : isolate.advance.traffic = isolate.traffic := by
  unfold advance
  split <;> rfl

@[simp] theorem advance_ended (isolate : Isolate) : isolate.advance.ended = isolate.ended := by
  unfold advance
  split <;> rfl

theorem advance_done (isolate : Isolate) : isolate.done ⊆ isolate.advance.done := by
  unfold advance
  split
  · exact List.Subset.refl _
  · exact List.subset_append_left _ _

@[simp] theorem give_cell (isolate : Isolate) (client : Nat) (task : Task) :
    (isolate.give client task).cell = isolate.cell := by
  cases task <;> simp [give]

@[simp] theorem give_traffic (isolate : Isolate) (client : Nat) (task : Task) :
    (isolate.give client task).traffic = isolate.traffic := by
  cases task with
  | main => exact advance_traffic _
  | user index => rfl

@[simp] theorem give_ended (isolate : Isolate) (client : Nat) (task : Task) :
    (isolate.give client task).ended = isolate.ended := by
  cases task <;> simp [give]

theorem give_done (isolate : Isolate) (client : Nat) (task : Task) :
    isolate.done ⊆ (isolate.give client task).done := by
  cases task with
  | main => exact advance_done { isolate with client := some client }
  | user index => exact List.Subset.refl _

def listening (isolate : Isolate) : Bool := isolate.done.contains .bind && isolate.ended.isNone

def serving (isolate : Isolate) : Bool := isolate.done.contains .serve && isolate.ended.isNone

end Isolate

def step (isolate : Isolate) : Event → Option Isolate
  | .opensPipe => some { isolate with pipeOpen := true }
  | .invokes invocation =>
    if isolate.listening then some { isolate with backlog := isolate.backlog ++ [invocation] }
    else some { isolate with refused := isolate.refused ++ [invocation] }
  | .acts ok =>
    if isolate.ended.isSome then none
    else
      match isolate.todo with
      | .setClient logic :: _ =>
        match isolate.client with
        | none => none
        | some client =>
          if (isolate.clients logic).isSome then some { isolate with ended := some .panicked }
          else some (isolate.setClient logic client).advance
      | .removeFile :: _ => if ok then some isolate.advance else some { isolate with ended := some .panicked }
      | .bind :: _ => if ok then some isolate.advance else some { isolate with ended := some .panicked }
      | .notifyReady :: _ => if ok then some isolate.advance else some { isolate with ended := some .panicked }
      | .serve :: _ => some isolate.advance
      | _ => none
  | .asks task =>
    if isolate.Calls task then
      match isolate.cell with
      | .empty => some { isolate with cell := .initializing task }
      | .initializing _ => none
      | .full client => some (isolate.give client task)
    else none
  | .connects ok =>
    match isolate.cell with
    | .initializing task =>
      if ok = false then
        some { isolate with cell := .empty, ended := if task = .main then some .panicked else isolate.ended }
      else if isolate.pipeOpen then
        some ({ isolate with cell := .full isolate.made, made := isolate.made + 1 }.give isolate.made task)
      else none
    | _ => none
  | .drops index =>
    if isolate.cell = .initializing (.user index) then some { isolate with cell := .empty } else none
  | .handles =>
    match isolate.serving, isolate.backlog with
    | true, invocation :: rest =>
      some { isolate with
        backlog := rest
        handled := isolate.handled ++ [(invocation, isolate.clients invocation.logic)] }
    | _, _ => none
  | .stops ending => if isolate.serving then some { isolate with ended := some ending } else none

def run (logics : List Nat) (events : List Event) : Option Isolate := Runs.run step (begin logics) events

/-! ### What a step does -/

/-- What each event does, and when it can happen. -/
inductive Steps (isolate : Isolate) : Event → Isolate → Prop where
  | opensPipe : Steps isolate .opensPipe { isolate with pipeOpen := true }
  | arrives (invocation : Invocation) (listening : isolate.listening = true) :
      Steps isolate (.invokes invocation) { isolate with backlog := isolate.backlog ++ [invocation] }
  | refuses (invocation : Invocation) (deaf : isolate.listening = false) :
      Steps isolate (.invokes invocation) { isolate with refused := isolate.refused ++ [invocation] }
  | sets (ok : Bool) (logic client : Nat) (rest : List Action) (calm : isolate.ended = none)
      (next : isolate.todo = .setClient logic :: rest) (held : isolate.client = some client)
      (unset : isolate.clients logic = none) :
      Steps isolate (.acts ok) (isolate.setClient logic client).advance
  | acts (ok : Bool) (action : Action) (rest : List Action) (calm : isolate.ended = none)
      (next : isolate.todo = action :: rest) (plain : action ≠ .getClient ∧ ∀ logic, action ≠ .setClient logic) :
      Steps isolate (.acts ok) isolate.advance
  | panics (ok : Bool) (action : Action) (rest : List Action) (next : isolate.todo = action :: rest)
      (plain : action ≠ .getClient) : Steps isolate (.acts ok) { isolate with ended := some .panicked }
  | takesPermit (task : Task) (calls : isolate.Calls task) (empty : isolate.cell = .empty) :
      Steps isolate (.asks task) { isolate with cell := .initializing task }
  | finds (task : Task) (client : Nat) (calls : isolate.Calls task) (full : isolate.cell = .full client) :
      Steps isolate (.asks task) (isolate.give client task)
  | connects (task : Task) (permit : isolate.cell = .initializing task) (pipe : isolate.pipeOpen = true) :
      Steps isolate (.connects true)
        ({ isolate with cell := .full isolate.made, made := isolate.made + 1 }.give isolate.made task)
  | loses (event : Event) (task : Task) (ended : Option Ending) (permit : isolate.cell = .initializing task)
      (silent : invocationOf event = none) (grows : ended = none → isolate.ended = none) :
      Steps isolate event { isolate with cell := .empty, ended := ended }
  | handles (invocation : Invocation) (rest : List Invocation) (serving : isolate.serving = true)
      (waiting : isolate.backlog = invocation :: rest) :
      Steps isolate .handles { isolate with
        backlog := rest
        handled := isolate.handled ++ [(invocation, isolate.clients invocation.logic)] }
  | stops (ending : Ending) (serving : isolate.serving = true) :
      Steps isolate (.stops ending) { isolate with ended := some ending }

theorem step_spec {isolate next : Isolate} {event : Event} (taken : step isolate event = some next) :
    Steps isolate event next := by
  cases event with
  | opensPipe =>
    cases taken
    exact .opensPipe
  | invokes invocation =>
    simp only [step] at taken
    split at taken
    · rename_i listening
      cases taken
      exact .arrives invocation listening
    · rename_i deaf
      cases taken
      exact .refuses invocation (Bool.eq_false_iff.mpr deaf)
  | acts ok =>
    simp only [step] at taken
    split at taken
    · cases taken
    · rename_i calm
      have calm := Option.not_isSome_iff_eq_none.mp calm
      split at taken
      · rename_i logic rest front
        split at taken
        · cases taken
        · rename_i client held
          split at taken
          · cases taken
            exact .panics ok _ rest front (by simp)
          · rename_i unset
            cases taken
            exact .sets ok logic client rest calm front held (Option.not_isSome_iff_eq_none.mp unset)
      all_goals first
        | (split at taken <;> cases taken
           · rename_i rest front _
             exact .acts ok _ rest calm front (by simp)
           · rename_i rest front _
             exact .panics ok _ rest front (by simp))
        | (cases taken
           rename_i rest front
           exact .acts ok _ rest calm front (by simp))
        | cases taken
  | asks task =>
    simp only [step] at taken
    split at taken
    · rename_i calls
      split at taken
      · rename_i empty
        cases taken
        exact .takesPermit task calls empty
      · cases taken
      · rename_i client full
        cases taken
        exact .finds task client calls full
    · cases taken
  | connects ok =>
    simp only [step] at taken
    split at taken
    · rename_i task permit
      split at taken
      · cases taken
        refine .loses _ task _ permit rfl ?_
        split
        · exact nofun
        · exact id
      · rename_i succeeded
        split at taken
        · rename_i pipe
          cases taken
          rw [(Bool.not_eq_false ok).mp succeeded]
          exact .connects task permit pipe
        · cases taken
    · cases taken
  | drops index =>
    simp only [step] at taken
    split at taken
    · rename_i permit
      cases taken
      exact .loses _ _ _ permit rfl id
    · cases taken
  | handles =>
    simp only [step] at taken
    split at taken
    · rename_i invocation rest serving waiting
      cases taken
      exact .handles invocation rest serving waiting
    · cases taken
  | stops ending =>
    simp only [step] at taken
    split at taken
    · rename_i serving
      cases taken
      exact .stops ending serving
    · cases taken

/-! ### The program of the main task -/

def logicOf : Action → Option Nat
  | .setClient logic => some logic
  | _ => none

theorem logicOf_eq {action : Action} {logic : Nat} : logicOf action = some logic ↔ action = .setClient logic := by
  cases action <;> simp [logicOf]

theorem program_logics (logics : List Nat) : (program logics).filterMap logicOf = logics := by
  have sets : (logics.map Action.setClient).filterMap logicOf = logics := by
    rw [List.filterMap_map]
    exact List.filterMap_some
  calc (program logics).filterMap logicOf
      = (logics.map Action.setClient).filterMap logicOf ++ start.filterMap logicOf := by
        rw [program, createIsolateServerWithClient, List.cons_append, List.filterMap_cons_none rfl,
          List.filterMap_append]
    _ = logics := by rw [sets]; exact List.append_nil logics

theorem setClient_mem_program {logics : List Nat} {logic : Nat} :
    .setClient logic ∈ program logics ↔ logic ∈ logics := by
  simp [program, createIsolateServerWithClient, start]

/-- An action that has been done came after all that stand before it. -/
theorem earlier_done {done todo first later : List Action} {action other : Action}
    (order : done ++ todo = first ++ action :: later) (member : other ∈ done)
    (fresh : other ∉ first ++ [action]) : ∀ before ∈ first ++ [action], before ∈ done := by
  have whole : first ++ action :: later = (first ++ [action]) ++ later := by simp
  rw [whole] at order
  rcases List.append_eq_append_iff.mp order with ⟨middle, front, _⟩ | ⟨middle, front, _⟩
  · rw [front] at fresh
    exact absurd (List.mem_append_left middle member) fresh
  · intro before inside
    rw [front]
    exact List.mem_append_left middle inside

theorem ready_done {logics : List Nat} {done todo : List Action} (order : done ++ todo = program logics)
    (ready : .notifyReady ∈ done) : .bind ∈ done := by
  have split : program logics =
      (createIsolateServerWithClient logics ++ [.removeFile]) ++ .bind :: [.getClient, .notifyReady, .serve] := by
    simp [program, start]
  apply earlier_done (order.trans split) ready
  · simp [createIsolateServerWithClient]
  · simp

theorem serve_done {logics : List Nat} {done todo : List Action} (order : done ++ todo = program logics)
    (served : .serve ∈ done) : done = program logics := by
  have split : program logics =
      (createIsolateServerWithClient logics ++ [.removeFile, .bind, .getClient, .notifyReady]) ++ [.serve] := by
    simp [program, start]
  have last : todo = [] := by
    rcases List.append_eq_append_iff.mp (order.trans split) with ⟨middle, front, _⟩ | ⟨middle, front, rest⟩
    · have early : .serve ∈ done ++ middle := List.mem_append_left middle served
      rw [← front] at early
      simp [createIsolateServerWithClient] at early
    · cases middle with
      | nil =>
        rw [front] at served
        simp [createIsolateServerWithClient] at served
      | cons action middle => exact (List.append_eq_nil_iff.mp (List.cons.inj rest).2.symm).2
  rwa [last, List.append_nil] at order

/-! ### What holds of every state -/

theorem serving_served {isolate : Isolate} (serving : isolate.serving = true) : .serve ∈ isolate.done := by
  simp only [Isolate.serving, Bool.and_eq_true, List.contains_iff_mem] at serving
  exact serving.1

/-- How far the main task has come. -/
structure Follows (logics : List Nat) (isolate : Isolate) : Prop where
  order : isolate.done ++ isolate.todo = program logics
  once : (isolate.done.filterMap logicOf).Nodup
  set : ∀ logic, isolate.clients logic ≠ none ↔ .setClient logic ∈ isolate.done
  first : .getClient ∈ isolate.done → isolate.client ≠ none
  blocked : isolate.cell = .initializing .main → isolate.Calls .main

/-- There is one client, and all have it. -/
structure Shares (isolate : Isolate) : Prop where
  made : isolate.made = match isolate.cell with
    | .full _ => 1
    | _ => 0
  client : ∀ client, isolate.client = some client → isolate.cell = .full client
  clients : ∀ logic client, isolate.clients logic = some client → isolate.cell = .full client
  got : ∀ client ∈ isolate.got, isolate.cell = .full client

structure Sound (logics : List Nat) (isolate : Isolate) : Prop extends
  Follows logics isolate, Shares isolate

theorem sound_begin (logics : List Nat) : Sound logics (begin logics) := by
  constructor <;> constructor <;> simp [begin]

section Step

variable {logics : List Nat} {isolate next : Isolate} {event : Event}

/-- The main task has done its first action. -/
theorem follows_done {action : Action} {rest : List Action} (follows : Follows logics isolate)
    (front : isolate.todo = action :: rest) (todo : next.todo = rest) (done : next.done = isolate.done ++ [action])
    (fresh : ∀ logic, action = .setClient logic → isolate.clients logic = none)
    (set : ∀ logic, next.clients logic ≠ none ↔ isolate.clients logic ≠ none ∨ action = .setClient logic)
    (client : isolate.client ≠ none ∨ action = .getClient → next.client ≠ none)
    (free : next.cell ≠ .initializing .main) : Follows logics next where
  order := by simpa [todo, done, front] using follows.order
  once := by
    have single : ([action].filterMap logicOf).Nodup := by
      cases named : logicOf action <;> simp [named]
    rw [done, List.filterMap_append, List.nodup_append]
    refine ⟨follows.once, single, ?_⟩
    intro logic member last inLast same
    rcases List.mem_filterMap.mp member with ⟨earlier, inside, named⟩
    have old : earlier = .setClient logic := logicOf_eq.mp named
    have new : action = .setClient last := logicOf_eq.mp (by simpa using inLast)
    exact (follows.set logic).mpr (old ▸ inside) (same ▸ fresh last new)
  set logic := by rw [set, follows.set, done, List.mem_append, List.mem_singleton, @eq_comm Action]
  first member := by
    rw [done, List.mem_append, List.mem_singleton] at member
    exact client (member.imp follows.first Eq.symm)
  blocked permit := absurd permit free

theorem permit_front {action : Action} {rest : List Action} (follows : Follows logics isolate)
    (front : isolate.todo = action :: rest) (other : action ≠ .getClient) :
    isolate.cell ≠ .initializing .main := by
  intro permit
  have calls := (follows.blocked permit).1
  rw [front] at calls
  exact other (Option.some.inj calls)

theorem follows_advance {action : Action} {rest : List Action} (follows : Follows logics isolate)
    (front : isolate.todo = action :: rest) (plain : action ≠ .getClient ∧ ∀ logic, action ≠ .setClient logic) :
    Follows logics isolate.advance := by
  have free := permit_front follows front plain.1
  apply follows_done follows front <;> simp [Isolate.advance, front, plain, free]

theorem follows_setClient {logic client : Nat} {rest : List Action} (follows : Follows logics isolate)
    (front : isolate.todo = .setClient logic :: rest) (unset : isolate.clients logic = none) :
    Follows logics (isolate.setClient logic client).advance := by
  have free := permit_front follows front nofun
  apply follows_done follows front <;> simp [Isolate.advance, Isolate.setClient, front, unset, free]
  intro other
  by_cases same : other = logic
  · simp [same]
  · simp [same, Ne.symm same]

theorem follows_give {client : Nat} {task : Task} (follows : Follows logics isolate)
    (full : isolate.cell = .full client) (calls : isolate.Calls task) :
    Follows logics (isolate.give client task) := by
  cases task with
  | user index => exact { follows with }
  | main =>
    rcases List.head?_eq_some_iff.mp calls.1 with ⟨rest, front⟩
    apply follows_done follows front <;> simp [Isolate.give, Isolate.advance, front, full]

theorem shares_advance (shares : Shares isolate) : Shares isolate.advance := by
  unfold Isolate.advance
  split
  · exact shares
  · exact ⟨shares.made, shares.client, shares.clients, shares.got⟩

theorem shares_give {client : Nat} (shares : Shares isolate) (full : isolate.cell = .full client)
    (task : Task) : Shares (isolate.give client task) := by
  cases task with
  | main =>
    apply shares_advance
    refine ⟨shares.made, ?_, shares.clients, shares.got⟩
    intro other same
    exact Option.some.inj same ▸ full
  | user index =>
    refine ⟨shares.made, shares.client, shares.clients, ?_⟩
    intro other member
    rcases List.mem_append.mp member with old | new
    · exact shares.got other old
    · exact List.mem_singleton.mp new ▸ full

theorem shares_cell (shares : Shares isolate) (vacant : ∀ client, isolate.cell ≠ .full client)
    (cell : Cell) (made : Nat) (counted : made = match cell with | .full _ => 1 | _ => 0) :
    Shares { isolate with cell := cell, made := made } where
  made := counted
  client client held := absurd (shares.client client held) (vacant client)
  clients logic client held := absurd (shares.clients logic client held) (vacant client)
  got client member := absurd (shares.got client member) (vacant client)

theorem sound_step (sound : Sound logics isolate) (taken : step isolate event = some next) :
    Sound logics next := by
  rcases sound with ⟨follows, shares⟩
  cases step_spec taken with
  | opensPipe => exact ⟨{ follows with }, { shares with }⟩
  | arrives invocation listening => exact ⟨{ follows with }, { shares with }⟩
  | refuses invocation deaf => exact ⟨{ follows with }, { shares with }⟩
  | sets ok logic client rest calm front held unset =>
    refine ⟨follows_setClient follows front unset, shares_advance { shares with clients := ?_ }⟩
    intro other given found
    by_cases same : other = logic
    · simp only [Isolate.setClient, same, if_true] at found
      exact shares.client given (held.trans found)
    · simp only [Isolate.setClient, same, if_false] at found
      exact shares.clients other given found
  | acts ok action rest calm front plain =>
    exact ⟨follows_advance follows front plain, shares_advance shares⟩
  | panics ok action rest front plain =>
    have free := permit_front follows front plain
    exact ⟨{ follows with blocked := fun permit => absurd permit free }, { shares with }⟩
  | takesPermit task calls empty =>
    refine ⟨{ follows with blocked := ?_ }, shares_cell shares (by simp [empty]) _ _ ?_⟩
    · intro permit
      cases permit
      exact calls
    · rw [shares.made, empty]
  | finds task client calls full => exact ⟨follows_give follows full calls, shares_give shares full task⟩
  | connects task permit pipe =>
    have calls : isolate.Calls task := by
      cases task with
      | main => exact follows.blocked permit
      | user index => trivial
    have counted : isolate.made = 0 := by rw [shares.made, permit]
    refine ⟨follows_give { follows with blocked := nofun } rfl calls, shares_give ?_ rfl task⟩
    exact shares_cell shares (by simp [permit]) _ _ (by rw [counted])
  | loses _ task ended permit silent grows =>
    refine ⟨{ follows with blocked := nofun }, ?_⟩
    have lost := shares_cell shares (by simp [permit]) .empty isolate.made
      (by rw [shares.made, permit])
    exact { lost with }
  | handles invocation rest serving waiting => exact ⟨{ follows with }, { shares with }⟩
  | stops ending serving =>
    have all := serve_done follows.order (serving_served serving)
    have last : isolate.todo = [] := by simpa [all] using follows.order
    refine ⟨{ follows with blocked := fun permit => ?_ }, { shares with }⟩
    have calls := (follows.blocked permit).1
    rw [last] at calls
    cases calls

theorem full_stays {client : Nat} (full : isolate.cell = .full client)
    (taken : step isolate event = some next) : next.cell = .full client := by
  cases step_spec taken with
  | sets ok logic client rest calm front held unset => exact (Isolate.advance_cell _).trans full
  | acts ok action rest calm front plain => exact (Isolate.advance_cell _).trans full
  | takesPermit task calls empty => cases empty.symm.trans full
  | finds task other calls same => exact (Isolate.give_cell _ _ _).trans full
  | connects task permit pipe => cases permit.symm.trans full
  | loses _ task ended permit silent grows => cases permit.symm.trans full
  | _ => exact full

/-- The main task does not undo what it has done, and its end is for good. -/
theorem step_grows (taken : step isolate event = some next) :
    isolate.done ⊆ next.done ∧ (next.ended = none → isolate.ended = none) := by
  cases step_spec taken with
  | sets ok logic client rest calm front held unset =>
    exact ⟨Isolate.advance_done (isolate.setClient logic client), fun _ => calm⟩
  | acts ok action rest calm front plain => exact ⟨isolate.advance_done, fun _ => calm⟩
  | panics ok action rest front plain => exact ⟨List.Subset.refl _, nofun⟩
  | finds task client calls full => exact ⟨isolate.give_done client task, fun calm => by simpa using calm⟩
  | connects task permit pipe =>
    refine ⟨?_, fun calm => by simpa using calm⟩
    exact Isolate.give_done { isolate with cell := .full isolate.made, made := isolate.made + 1 } _ task
  | loses _ task ended permit silent grows =>
    exact ⟨List.Subset.refl _, grows⟩
  | stops ending serving => exact ⟨List.Subset.refl _, nofun⟩
  | _ => exact ⟨List.Subset.refl _, id⟩

/-- What an event does to the requests. -/
inductive Moves (isolate : Isolate) : Event → Isolate → Prop where
  | arrives (invocation : Invocation) (listening : isolate.listening = true) :
      Moves isolate (.invokes invocation) { isolate with backlog := isolate.backlog ++ [invocation] }
  | refuses (invocation : Invocation) (deaf : isolate.listening = false) :
      Moves isolate (.invokes invocation) { isolate with refused := isolate.refused ++ [invocation] }
  | handles (invocation : Invocation) (rest : List Invocation) (serving : isolate.serving = true)
      (waiting : isolate.backlog = invocation :: rest) :
      Moves isolate .handles { isolate with
        backlog := rest
        handled := isolate.handled ++ [(invocation, isolate.clients invocation.logic)] }
  | stays (event : Event) (next : Isolate) (none : invocationOf event = none)
      (same : next.traffic = isolate.traffic) : Moves isolate event next

theorem step_moves (taken : step isolate event = some next) : Moves isolate event next := by
  cases step_spec taken with
  | arrives invocation listening => exact .arrives invocation listening
  | refuses invocation deaf => exact .refuses invocation deaf
  | handles invocation rest serving waiting => exact .handles invocation rest serving waiting
  | sets ok logic client rest calm front held unset =>
    exact .stays _ _ rfl (Isolate.advance_traffic (isolate.setClient logic client))
  | acts ok action rest calm front plain => exact .stays _ _ rfl isolate.advance_traffic
  | finds task client calls full => exact .stays _ _ rfl (isolate.give_traffic client task)
  | connects task permit pipe => exact .stays _ _ rfl (Isolate.give_traffic _ isolate.made task)
  | loses _ task ended permit silent grows => exact .stays _ _ silent rfl
  | _ => exact .stays _ _ rfl rfl

end Step

theorem run_sound {logics : List Nat} {events : List Event} {final : Isolate}
    (reached : run logics events = some final) : Sound logics final :=
  Runs.run_preserves (Sound logics) (fun _ _ _ sound taken => sound_step sound taken) (begin logics) final
    events (sound_begin logics) reached

/-! ### Handlers -/

/-- The handlers of the services have found the client. -/
def Found (logics : List Nat) (isolate : Isolate) : Prop :=
  ∀ pair ∈ isolate.handled, pair.1.logic ∈ logics →
    ∃ client, pair.2 = some client ∧ isolate.cell = .full client

theorem serving_sets {logics : List Nat} {isolate : Isolate} (sound : Sound logics isolate)
    (serving : isolate.serving = true) {logic : Nat} (listed : logic ∈ logics) :
    ∃ client, isolate.clients logic = some client ∧ isolate.cell = .full client := by
  have set : .setClient logic ∈ isolate.done := by
    rw [serve_done sound.order (serving_served serving)]
    exact setClient_mem_program.mpr listed
  rcases Option.ne_none_iff_exists'.mp ((sound.set logic).mpr set) with ⟨client, found⟩
  exact ⟨client, found, sound.clients logic client found⟩

theorem found_step {logics : List Nat} {isolate next : Isolate} {event : Event}
    (sound : Sound logics isolate) (found : Found logics isolate)
    (taken : step isolate event = some next) : Found logics next := by
  have kept : ∀ pair ∈ isolate.handled, pair.1.logic ∈ logics →
      ∃ client, pair.2 = some client ∧ next.cell = .full client := by
    intro pair member listed
    rcases found pair member listed with ⟨client, same, full⟩
    exact ⟨client, same, full_stays full taken⟩
  intro pair member listed
  cases step_moves taken with
  | handles invocation rest serving waiting =>
    rcases List.mem_append.mp member with old | new
    · exact kept pair old listed
    · rw [List.mem_singleton.mp new] at listed ⊢
      exact serving_sets sound serving listed
  | stays _ _ silent same =>
    have handled : next.handled = isolate.handled := congrArg (fun traffic => traffic.2.1) same
    exact kept pair (handled ▸ member) listed
  | _ => exact kept pair member listed

/-- In every run of an isolate with these logics, whatever its other tasks and the enforcer do, there is at
most one connection to the enforcer. A handler finds the client in its logic, never an empty cell, and
it is the one that every task has got. -/
theorem handlers_find_client (logics : List Nat) (events : List Event) (final : Isolate)
    (reached : run logics events = some final) :
    final.made ≤ 1 ∧ ∀ pair ∈ final.handled, pair.1.logic ∈ logics →
      ∃ client, pair.2 = some client ∧ ∀ other ∈ final.got, other = client := by
  have sound := run_sound reached
  have found : Sound logics final ∧ Found logics final := by
    apply Runs.run_preserves (fun isolate => Sound logics isolate ∧ Found logics isolate) ?_
      (begin logics) final events ⟨sound_begin logics, fun _ absent => absurd absent List.not_mem_nil⟩ reached
    intro isolate event next held taken
    exact ⟨sound_step held.1 taken, found_step held.1 held.2 taken⟩
  constructor
  · rw [sound.made]
    split <;> omega
  · intro pair member listed
    rcases found.2 pair member listed with ⟨client, same, full⟩
    refine ⟨client, same, ?_⟩
    intro other got
    have twice := (sound.got other got).symm.trans full
    cases twice
    rfl

/-- A task of the user takes the permit and is dropped, and the main task connects. A request comes too
early, and one when the socket is bound. -/
def contested : List Event :=
  [.invokes ⟨0, 4⟩, .asks (.user 0), .opensPipe, .drops 0, .asks .main, .connects true, .asks (.user 1),
    .acts true, .acts true, .acts true, .acts true, .invokes ⟨1, 7⟩, .asks .main, .acts true]

theorem contested_client_found :
    ∃ final, run [4, 7] (contested ++ [.acts true, .handles]) = some final ∧ final.got = [0] ∧
      final.handled = [(⟨1, 7⟩, some 0)] ∧ final.made ≤ 1 ∧
      ∀ pair ∈ final.handled, pair.1.logic ∈ [4, 7] →
        ∃ client, pair.2 = some client ∧ ∀ other ∈ final.got, other = client :=
  ⟨_, rfl, rfl, rfl, handlers_find_client [4, 7] (contested ++ [.acts true, .handles]) _ rfl⟩

/-! ### Requests -/

/-- Before the end, requests are refused until there is a socket, and then answered in order. -/
structure Ordered (isolate : Isolate) (arrived : List Invocation) : Prop where
  all : isolate.refused ++ isolate.handled.map Prod.fst ++ isolate.backlog = arrived
  early : .bind ∉ isolate.done → isolate.handled = [] ∧ isolate.backlog = []

theorem ordered_step {isolate next : Isolate} {event : Event} {arrived : List Invocation}
    (ordered : Ordered isolate arrived) (calm : isolate.ended = none)
    (taken : step isolate event = some next) :
    Ordered next (arrived ++ (invocationOf event).toList) := by
  have grows := (step_grows taken).1
  have early (unbound : .bind ∉ next.done) := ordered.early (fun member => unbound (grows member))
  cases step_moves taken with
  | arrives invocation listening =>
    constructor
    · simp [← ordered.all, invocationOf]
    · intro unbound
      simp [Isolate.listening, unbound] at listening
  | refuses invocation deaf =>
    have unbound : .bind ∉ isolate.done := by simpa [Isolate.listening, calm] using deaf
    refine ⟨?_, early⟩
    have nothing := ordered.early unbound
    simp [← ordered.all, nothing, invocationOf]
  | handles invocation rest serving waiting =>
    constructor
    · simp [← ordered.all, waiting, invocationOf]
    · intro unbound
      cases waiting.symm.trans (early unbound).2
  | stays _ _ silent same =>
    simp only [Isolate.traffic, Prod.mk.injEq] at same
    rw [silent]
    constructor
    · simp [same, ← ordered.all]
    · intro unbound
      rw [same.2.1, same.2.2]
      exact early unbound

theorem run_ordered {logics : List Nat} {events : List Event} {final : Isolate}
    (reached : run logics events = some final) (calm : final.ended = none) :
    Ordered final (events.filterMap invocationOf) := by
  apply Runs.run_history (fun isolate arrived => isolate.ended = none → Ordered isolate arrived)
    invocationOf ?_ (begin logics) final events ?_ reached calm
  · intro isolate arrived event next ordered taken unharmed
    have before := (step_grows taken).2 unharmed
    exact ordered_step (ordered before) before taken
  · intro _
    exact ⟨rfl, fun _ => ⟨rfl, rfl⟩⟩

theorem refused_stays {logics : List Nat} {isolate next : Isolate} {event : Event}
    (sound : Sound logics isolate) (ready : .notifyReady ∈ isolate.done) (calm : isolate.ended = none)
    (taken : step isolate event = some next) : next.refused = isolate.refused := by
  cases step_moves taken with
  | refuses invocation deaf =>
    have bound := ready_done sound.order ready
    simp [Isolate.listening, calm, bound] at deaf
  | stays _ _ silent same => exact congrArg Prod.fst same
  | _ => rfl

/-- As long as the main task neither panics nor is shut down, every request is refused, handled or still
waiting, in the order of arrival. Once the enforcer has been told that the isolate is ready, none is refused any more. -/
theorem ready_isolate_accepts (logics : List Nat) (before after : List Event) (middle final : Isolate)
    (reached : run logics before = some middle) (ready : .notifyReady ∈ middle.done)
    (continued : Runs.run step middle after = some final) (calm : final.ended = none) :
    final.refused ++ final.handled.map Prod.fst ++ final.backlog = (before ++ after).filterMap invocationOf ∧
      final.refused = middle.refused := by
  constructor
  · have whole : run logics (before ++ after) = some final :=
      (Runs.run_append _ final before after).mpr ⟨middle, reached, continued⟩
    exact (run_ordered whole calm).all
  · have kept : Sound logics final ∧ .notifyReady ∈ final.done ∧
        (final.ended = none → final.refused = middle.refused) := by
      apply Runs.run_preserves (fun isolate => Sound logics isolate ∧ .notifyReady ∈ isolate.done ∧
        (isolate.ended = none → isolate.refused = middle.refused)) ?_ middle final after
        ⟨run_sound reached, ready, fun _ => rfl⟩ continued
      intro isolate event next held taken
      rcases held with ⟨sound, member, same⟩
      refine ⟨sound_step sound taken, (step_grows taken).1 member, ?_⟩
      intro unharmed
      have before := (step_grows taken).2 unharmed
      exact (refused_stays sound member before taken).trans (same before)
    exact kept.2.2 calm

theorem contested_ready_accepts :
    ∃ middle final, run [4, 7] contested = some middle ∧
      Runs.run step middle [.invokes ⟨2, 4⟩, .acts true, .handles] = some final ∧ middle.refused = [⟨0, 4⟩] ∧
      final.refused ++ final.handled.map Prod.fst ++ final.backlog = [⟨0, 4⟩, ⟨1, 7⟩, ⟨2, 4⟩] ∧
      final.refused = middle.refused :=
  ⟨_, _, rfl, rfl, rfl, ready_isolate_accepts [4, 7] contested [.invokes ⟨2, 4⟩, .acts true, .handles] _ _ rfl
    (by decide) rfl rfl⟩

/-! ### The isolate comes up -/

section Progress

variable {logics : List Nat} {isolate : Isolate}

theorem asked_first (sound : Sound logics isolate) {action : Action} {rest : List Action}
    (front : isolate.todo = action :: rest) (other : action ≠ .getClient) : .getClient ∈ isolate.done := by
  have order := sound.order
  cases done : isolate.done with
  | nil =>
    rw [done, front] at order
    exact absurd (List.cons.inj order).1 other
  | cons head tail =>
    rw [done] at order
    rw [show head = .getClient from (List.cons.inj order).1]
    exact List.mem_cons_self

/-- Two logics are not the same `Arc`, so none has a client before its turn. -/
theorem unset_before (sound : Sound logics isolate) (distinct : logics.Nodup) {logic : Nat}
    {rest : List Action} (front : isolate.todo = .setClient logic :: rest) : isolate.clients logic = none := by
  have listed : isolate.done.filterMap logicOf ++ logic :: rest.filterMap logicOf = logics := by
    rw [← program_logics logics, ← sound.order, front, List.filterMap_append]
    rfl
  rw [← listed, List.nodup_append] at distinct
  by_contra set
  have member := (sound.set logic).mp set
  exact distinct.2.2 logic (List.mem_filterMap.mpr ⟨_, member, rfl⟩) logic List.mem_cons_self rfl

/-- How far the isolate is from having answered all. -/
def distance (isolate : Isolate) : Nat :=
  isolate.todo.length + isolate.backlog.length + (if isolate.pipeOpen then 0 else 1) +
    match isolate.cell with
    | .empty => 2
    | .initializing _ => 1
    | .full _ => 0

theorem advance_distance (isolate : Isolate) {action : Action} {rest : List Action} (front : isolate.todo = action :: rest) :
    distance isolate.advance < distance isolate := by
  simp only [distance, Isolate.advance, front, List.length_cons]
  omega

theorem give_distance (client : Nat) (task : Task) :
    distance (isolate.give client task) ≤ distance isolate := by
  cases task with
  | user index => exact Nat.le_refl _
  | main =>
    cases front : isolate.todo with
    | nil => simp [distance, Isolate.give, Isolate.advance, front]
    | cons action rest => exact Nat.le_of_lt (advance_distance { isolate with client := some client } front)

/-- Some event brings it nearer, without an end or a refusal. -/
def GoesOn (isolate : Isolate) : Prop :=
  ∃ event next, step isolate event = some next ∧ next.ended = none ∧
    next.refused = isolate.refused ∧ distance next < distance isolate

/-- The main task can go on once there is a client. -/
theorem main_goes_on (sound : Sound logics isolate) (distinct : logics.Nodup) (calm : isolate.ended = none)
    {client : Nat} (full : isolate.cell = .full client) {action : Action} {rest : List Action}
    (front : isolate.todo = action :: rest) : GoesOn isolate := by
  have same (other : Isolate) : other.advance.refused = other.refused :=
    congrArg Prod.fst other.advance_traffic
  have acts (taken : step isolate (.acts true) = some isolate.advance) : GoesOn isolate :=
    ⟨.acts true, isolate.advance, taken, by simp [calm], same isolate, advance_distance isolate front⟩
  cases action with
  | getClient =>
    have calls : isolate.Calls .main := ⟨by rw [front]; rfl, calm⟩
    refine ⟨.asks .main, isolate.give client .main, by simp [step, calls, full], by simp [calm], same _, ?_⟩
    exact advance_distance { isolate with client := some client } front
  | setClient logic =>
    have held := sound.first (asked_first sound front (by simp))
    rcases Option.ne_none_iff_exists'.mp held with ⟨given, has⟩
    refine ⟨.acts true, (isolate.setClient logic given).advance, ?_, ?_, same _, ?_⟩
    · simp [step, calm, front, has, unset_before sound distinct front]
    · exact (Isolate.advance_ended _).trans calm
    · exact advance_distance (isolate.setClient logic given) front
  | removeFile => exact acts (by simp [step, calm, front])
  | bind => exact acts (by simp [step, calm, front])
  | notifyReady => exact acts (by simp [step, calm, front])
  | serve => exact acts (by simp [step, calm, front])

theorem still_first (sound : Sound logics isolate) (vacant : ∀ client, isolate.cell ≠ .full client) :
    isolate.todo.head? = some .getClient := by
  have unasked : .getClient ∉ isolate.done := by
    intro member
    rcases Option.ne_none_iff_exists'.mp (sound.first member) with ⟨client, held⟩
    exact vacant client (sound.client client held)
  have order := sound.order
  cases front : isolate.todo with
  | nil =>
    rw [front, List.append_nil] at order
    exact absurd (order ▸ List.mem_cons_self) unasked
  | cons action rest =>
    by_cases same : action = .getClient
    · rw [same]
      rfl
    · exact absurd (asked_first sound front same) unasked

theorem comes_closer (sound : Sound logics isolate) (distinct : logics.Nodup) (calm : isolate.ended = none) :
    (isolate.serving = true ∧ isolate.backlog = []) ∨ GoesOn isolate := by
  cases pipe : isolate.pipeOpen with
  | false =>
    refine .inr ⟨.opensPipe, { isolate with pipeOpen := true }, rfl, calm, rfl, ?_⟩
    simp [distance, pipe]
  | true =>
    cases cell : isolate.cell with
    | empty =>
      have calls : isolate.Calls .main := ⟨still_first sound (by simp [cell]), calm⟩
      refine .inr ⟨.asks .main, { isolate with cell := .initializing .main }, ?_, calm, rfl, ?_⟩
      · simp [step, calls, cell]
      · simp [distance, cell]
    | initializing task =>
      let filled : Isolate := { isolate with cell := .full isolate.made, made := isolate.made + 1 }
      have closer : distance filled < distance isolate := by simp [filled, distance, cell]
      refine .inr ⟨.connects true, filled.give isolate.made task, ?_, ?_, ?_, ?_⟩
      · simp [step, cell, pipe, filled]
      · simpa [filled] using calm
      · exact congrArg Prod.fst (filled.give_traffic isolate.made task)
      · exact Nat.lt_of_le_of_lt (give_distance isolate.made task) closer
    | full client =>
      cases front : isolate.todo with
      | cons action rest => exact .inr (main_goes_on sound distinct calm cell front)
      | nil =>
        have all : isolate.done = program logics := by simpa [front] using sound.order
        have serving : isolate.serving = true := by simp [Isolate.serving, all, calm, program, start]
        cases waiting : isolate.backlog with
        | nil => exact .inl ⟨serving, rfl⟩
        | cons invocation rest =>
          let handled : Isolate := { isolate with
            backlog := rest
            handled := isolate.handled ++ [(invocation, isolate.clients invocation.logic)] }
          refine .inr ⟨.handles, handled, by simp [step, serving, waiting, handled], calm, rfl, ?_⟩
          simp [distance, waiting, handled]

end Progress

end EzSdk.Rust.Startup
