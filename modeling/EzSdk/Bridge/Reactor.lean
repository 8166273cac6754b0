import EzSdk.Bridge.Service
import EzSdk.Foundation.Runs

/-! The Reactor of `ez_isolate_bridge_server.cpp` and the isolate as a transition
system: streams, their clients, gRPC's callbacks, and the handler tasks. -/

namespace EzSdk.Bridge

variable {Msg : Type}

/-- One stream instance with the Reactor that serves it. -/
structure Stream (Msg : Type) where
  /-- `stream_id_`, the address of the Reactor. -/
  address : Nat
  /-- Messages the client has written, in order. -/
  sent : List InvokeIsolateRequest
  clientClosed : Bool
  cancelled : Bool
  invokeIsolateReq : InvokeIsolateRequest
  isRpcStarted : Bool
  writingInProgress : Bool
  pendingWrites : List InvokeIsolateResponse
  /-- Messages that reads have delivered, in order. -/
  received : List InvokeIsolateRequest
  readOutstanding : Bool
  writesOutstanding : Nat
  /-- `OnReadDone(false)` was delivered. -/
  halfClosed : Bool
  /-- The arguments of all calls of gRPC's `Finish`, in order. -/
  finishes : List Status
  doneRun : Bool
  /-- `delete this` was executed. -/
  freed : Bool
  task : Option (Task Msg)

/-- The constructor of Reactor, which starts the first read. -/
def newStream (address : Nat) : Stream Msg where
  address := address
  sent := []
  clientClosed := false
  cancelled := false
  invokeIsolateReq := {}
  isRpcStarted := false
  writingInProgress := false
  pendingWrites := []
  received := []
  readOutstanding := true
  writesOutstanding := 0
  halfClosed := false
  finishes := []
  doneRun := false
  freed := false
  task := none

def Stream.finish (stream : Stream Msg) (status : Status) : Stream Msg :=
  { stream with finishes := stream.finishes ++ [status] }

def Stream.startRead (stream : Stream Msg) : Stream Msg :=
  { stream with readOutstanding := true }

/-- gRPC stores a message that a read has delivered in `invoke_isolate_req_`. -/
def Stream.accept (stream : Stream Msg) (message : InvokeIsolateRequest) : Stream Msg :=
  { stream with
    invokeIsolateReq := message
    received := stream.received ++ [message]
    readOutstanding := false }

/-- A read that fails leaves `invoke_isolate_req_` as it is. -/
def Stream.endReads (stream : Stream Msg) : Stream Msg :=
  { stream with halfClosed := true, readOutstanding := false }

def Stream.serviceName (stream : Stream Msg) : String :=
  stream.invokeIsolateReq.metadata.destinationServiceName

def Stream.getService (services : ServiceMap Msg) (stream : Stream Msg) : Option (Service Msg) :=
  findService services stream.serviceName

def unsupported (serviceName : String) : Status :=
  ⟨.unknown, "Service not supported by isolate: " ++ serviceName⟩

def notReady (currentState : Int) : Status :=
  ⟨.failedPrecondition, "Isolate is not ready. Current state: " ++ toString currentState⟩

/-- The statuses that the service returns are only logged. -/
def onReadDone (services : ServiceMap Msg) (currentState : Int) (self : Nat) (ok : Bool)
    (stream : Stream Msg) (objects : Objects Msg) : Stream Msg × Objects Msg :=
  match stream.getService services with
  | none => (stream.finish (unsupported stream.serviceName), objects)
  | some service =>
    if ok = false then
      (stream, (requestStreamClosed service stream.address self objects).2)
    else if stream.isRpcStarted = false then
      if currentState ≠ isolateStateReady then
        (stream.finish (notReady currentState), objects)
      else
        let opening := isolateStreamRpcMethodHandler service stream.address self
          stream.invokeIsolateReq objects
        ({ stream with isRpcStarted := true, task := opening.2.1 }.startRead, opening.2.2)
    else
      (stream.startRead,
        (forwardStreamingMessage service stream.address self stream.invokeIsolateReq objects).2)

def onWriteDone (ok : Bool) (stream : Stream Msg) : Stream Msg :=
  let stored := { stream with writingInProgress := false, pendingWrites := stream.pendingWrites.tail }
  if ok then stored else stored.finish ⟨.unknown, "Unexpected failure while writing"⟩

def onDone (services : ServiceMap Msg) (stream : Stream Msg) : Stream Msg :=
  match stream.getService services with
  | none => stream
  | some _ => { stream with freed := true }

/-- What passes `writing_in_progress_.wait(true)` in `WriteResponse`. -/
def writeResponse (response : InvokeIsolateResponse) (stream : Stream Msg) : Stream Msg :=
  { stream with
    writingInProgress := true
    writesOutstanding := stream.writesOutstanding + 1
    pendingWrites := stream.pendingWrites ++ [response] }

inductive WriterOp where
  | writeResponse
  | finishStream
  deriving DecidableEq

/-- A call through the handler side's `ResponseWriter*`; `alive` says that the
Reactor behind the pointer had not been deleted. C++ leaves the effect of a call
on a deleted Reactor undefined; here it is recorded and changes nothing else. -/
structure WriterCall where
  stream : Nat
  op : WriterOp
  alive : Bool
  deriving DecidableEq

/-- What can happen to one stream: its client acts, gRPC runs a callback, or the
handler task takes a step. -/
inductive StreamEvent where
  | clientWrite (message : InvokeIsolateRequest)
  | clientWritesDone
  | clientCancel
  | readDone (message : InvokeIsolateRequest)
  | readFailed
  | writeDone (ok : Bool)
  | onDone
  | taskStart
  | taskRead
  | taskWrite (payload : Bytes)
  | taskResume
  | taskReturn (status : Status)
  deriving DecidableEq

/-- The effect of an event on its stream and on the service objects, with the
calls made through the `ResponseWriter`. -/
structure Effect (Msg : Type) where
  stream : Stream Msg
  objects : Objects Msg
  calls : List WriterCall

/-- One `Read` of the handler. It blocks while the queue is empty and the adapter
has not been signalled. -/
def taskRead (task : Task Msg) (stream : Stream Msg) (objects : Objects Msg) : Option (Effect Msg) :=
  match objects.adapters[task.adapter]? with
  | none => none
  | some adapter =>
    match adapter.requestQueue with
    | message :: rest =>
      some ⟨{ stream with task := some { task with reads := task.reads ++ [message] } },
        { objects with
          adapters := objects.adapters.set task.adapter { adapter with requestQueue := rest } },
        []⟩
    | [] =>
      if adapter.isDone then
        some ⟨{ stream with task := some { task with sawEnd := true } }, objects, []⟩
      else none

/-- `Write` builds the envelope and calls `WriteResponse`. -/
def taskWrite (self : Nat) (task : Task Msg) (payload : Bytes) (stream : Stream Msg)
    (objects : Objects Msg) : Option (Effect Msg) :=
  match objects.adapters[task.adapter]? with
  | none => none
  | some adapter =>
    if stream.freed then some ⟨stream, objects, [⟨self, .writeResponse, false⟩]⟩
    else
      some ⟨{ stream with task := some { task with phase := .writing (adapter.response payload) } },
        objects, [⟨self, .writeResponse, true⟩]⟩

/-- The user's function returns; its status is discarded and the task calls
`FinishStream(Status::OK)`. -/
def taskReturn (self : Nat) (task : Task Msg) (status : Status) (stream : Stream Msg)
    (objects : Objects Msg) : Effect Msg :=
  let returned := { stream with task := some { task with phase := .returned status } }
  ⟨if stream.freed then returned else returned.finish .OK, objects,
    [⟨self, .finishStream, !stream.freed⟩]⟩

/-- Of gRPC this assumes only that messages arrive in order, that a read fails
only at the client's half-close or after a cancellation, and that `OnDone` runs
once, after `Finish` and after all outstanding reads and writes. -/
def streamStep (services : ServiceMap Msg) (currentState : Int) (self : Nat) (event : StreamEvent)
    (stream : Stream Msg) (objects : Objects Msg) : Option (Effect Msg) :=
  match event with
  | .clientWrite message =>
    if stream.clientClosed then none
    else some ⟨{ stream with sent := stream.sent ++ [message] }, objects, []⟩
  | .clientWritesDone => some ⟨{ stream with clientClosed := true }, objects, []⟩
  | .clientCancel => some ⟨{ stream with cancelled := true }, objects, []⟩
  | .readDone message =>
    if stream.readOutstanding ∧ stream.sent[stream.received.length]? = some message then
      let result := onReadDone services currentState self true (stream.accept message) objects
      some ⟨result.1, result.2, []⟩
    else none
  | .readFailed =>
    if stream.readOutstanding ∧ (stream.cancelled ∨
        (stream.clientClosed ∧ stream.received.length = stream.sent.length)) then
      let result := onReadDone services currentState self false stream.endReads objects
      some ⟨result.1, result.2, []⟩
    else none
  | .writeDone ok =>
    if 0 < stream.writesOutstanding then
      some ⟨onWriteDone ok { stream with writesOutstanding := stream.writesOutstanding - 1 },
        objects, []⟩
    else none
  | .onDone =>
    if stream.finishes ≠ [] ∧ stream.readOutstanding = false ∧ stream.writesOutstanding = 0 ∧
        stream.doneRun = false then
      some ⟨onDone services { stream with doneRun := true }, objects, []⟩
    else none
  | .taskStart =>
    match stream.task with
    | some task =>
      if task.phase = .queued then
        some ⟨{ stream with task := some { task with phase := .running } }, objects, []⟩
      else none
    | none => none
  | .taskRead =>
    match stream.task with
    | some task => if task.phase = .running then taskRead task stream objects else none
    | none => none
  | .taskWrite payload =>
    match stream.task with
    | some task =>
      if task.phase = .running then taskWrite self task payload stream objects else none
    | none => none
  | .taskResume =>
    match stream.task with
    | some task =>
      match task.phase with
      | .writing response =>
        let resumed := { stream with task := some { task with phase := .running } }
        if stream.freed then some ⟨resumed, objects, []⟩
        else if stream.writingInProgress then none
        else some ⟨writeResponse response resumed, objects, []⟩
      | _ => none
    | none => none
  | .taskReturn status =>
    match stream.task with
    | some task =>
      if task.phase = .running then some (taskReturn self task status stream objects) else none
    | none => none

/-- The state of one isolate's bridge server. -/
structure Isolate (Msg : Type) where
  currentState : Int
  objects : Objects Msg
  streams : List (Stream Msg)
  writerCalls : List WriterCall

def newIsolate : Isolate Msg where
  currentState := isolateStateUnspecified
  objects := ⟨fun _ => ⟨∅, false⟩, [], []⟩
  streams := []
  writerCalls := []

/-- The new state, which is both stored and reported. -/
def updateIsolateState (moveToState : Int) : Int :=
  if moveToState = isolateStateStarting then isolateStateReady else moveToState

inductive Event where
  | setIsolateReady
  | updateIsolateState (moveToState : Int)
  | stopPool (service : String)
  | streamInvokeIsolate (address : Nat)
  | onStream (stream : Nat) (event : StreamEvent)
  deriving DecidableEq

/-- `new Reactor` returns an address at which no Reactor lives; the address of a
deleted Reactor may come back. -/
def step (services : ServiceMap Msg) (isolate : Isolate Msg) : Event → Option (Isolate Msg)
  | .setIsolateReady => some { isolate with currentState := isolateStateReady }
  | .updateIsolateState moveToState =>
    some { isolate with currentState := updateIsolateState moveToState }
  | .stopPool service =>
    some { isolate with
      objects := { isolate.objects with
        state := Function.update isolate.objects.state service
          { isolate.objects.state service with poolStopped := true } } }
  | .streamInvokeIsolate address =>
    if ∀ stream ∈ isolate.streams, stream.freed = false → stream.address ≠ address then
      some { isolate with streams := isolate.streams ++ [newStream address] }
    else none
  | .onStream index event =>
    match isolate.streams[index]? with
    | none => none
    | some stream =>
      (streamStep services isolate.currentState index event stream isolate.objects).map
        (fun effect =>
          { isolate with
            objects := effect.objects
            streams := isolate.streams.set index effect.stream
            writerCalls := isolate.writerCalls ++ effect.calls })

/-- The state after the given events, if they can happen in that order. -/
def run (services : ServiceMap Msg) (events : List Event) : Option (Isolate Msg) :=
  Runs.run (step services) newIsolate events

end EzSdk.Bridge
