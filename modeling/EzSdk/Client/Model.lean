import EzSdk.Proto
import EzSdk.Foundation.Runs
import Mathlib.Data.List.AList

/-! The client of `isolate_ez_bridge_client.cpp`, with the `ClientReaderWriter` that
`client_reader_writer.h.jinja2` generates, as one isolate uses them: any number of
unary calls and streams over the isolate's one bridge. -/

namespace EzSdk.Client

/-- What absl and libc make of an `errno`. -/
structure Errno where
  codeName : String
  text : String
  deriving DecidableEq

inductive AbslStatus where
  | ok
  | error (codeName message : String)
  deriving DecidableEq

/-- `absl::ErrnoToStatus`. -/
def errnoToStatus (errno : Errno) (message : String) : AbslStatus :=
  .error errno.codeName (message ++ ": " ++ errno.text)

def AbslStatus.toText : AbslStatus → String
  | .ok => "OK"
  | .error codeName message => codeName ++ ": " ++ message

/-- A mapped region, by its first address and its size. -/
structure Region where
  start : Nat
  size : Nat
  deriving DecidableEq

/-- What the system calls `open`, `fstat` and `mmap` do for one handle. -/
inductive MapOutcome where
  | openFailed (errno : Errno)
  | fstatFailed (errno : Errno)
  | mmapFailed (errno : Errno)
  | mapped (region : Region)
  deriving DecidableEq

def MapOutcome.isMapped : MapOutcome → Bool
  | .mapped _ => true
  | _ => false

/-- A mapped region goes on top of the stack of received regions. -/
def processReceivedSharedMemoryHandle (sharedMemoryHandle : String) (outcome : MapOutcome)
    (receivedMemshares : List Region) : AbslStatus × List Region :=
  let filename := "/" ++ sharedMemoryHandle
  match outcome with
  | .openFailed errno =>
    (errnoToStatus errno ("Failed to open mmap file: " ++ filename), receivedMemshares)
  | .fstatFailed errno =>
    (errnoToStatus errno ("fstat failed for mmap file: " ++ filename), receivedMemshares)
  | .mmapFailed errno =>
    (errnoToStatus errno ("mmap failed when mapping shared memory: " ++ filename), receivedMemshares)
  | .mapped region => (.ok, region :: receivedMemshares)

/-- The loop over the handles of a response, which ends at the first that fails. -/
def processHandles (os : Nat → MapOutcome) :
    List String → List Region → AbslStatus × List Region
  | [], receivedMemshares => (.ok, receivedMemshares)
  | handle :: handles, receivedMemshares =>
    match processReceivedSharedMemoryHandle handle (os 0) receivedMemshares with
    | (.ok, regions) => processHandles (fun index => os (index + 1)) handles regions
    | (.error codeName message, regions) => (.error codeName message, regions)

/-- Where a unary call goes. -/
structure Target where
  operatorDomain : String
  serviceName : String
  methodName : String
  ezInstanceId : String
  deriving DecidableEq

def isLocalEzInstanceId (_ezInstanceId : String) : Bool := false

/-- A handler that `RegisterLocalHandler` stores: from the method name, the request
and the content of the response string, the status and the new content. -/
abbrev LocalHandler := String → Bytes → Bytes → Status × Bytes

/-- The request that `AsyncIsolateRpcCall` builds. -/
def unaryRequest (target : Target) (ipcMessageId : UInt64) (requestBytes : Bytes) :
    InvokeEzRequest where
  controlPlaneMetadata := some
    { ipcMessageId := ipcMessageId
      responderIsLocal := true
      destinationOperatorDomain := target.operatorDomain
      destinationServiceName := target.serviceName
      destinationMethodName := target.methodName
      destinationEzInstanceId := target.ezInstanceId }
  isolateRequestIscope := some ⟨[{ scopeType := dataScopeTypeUnspecified }]⟩
  isolateRequestPayload := some ⟨[requestBytes]⟩

/-- What the bridge answered to a call, and what mapping its handles did. -/
structure Completion where
  status : Status
  response : InvokeEzResponse
  os : Nat → MapOutcome

/-- One `AsyncIsolateRpcCall` with its `AsyncCallState`. `responseBytes` is the content
of the caller's string, `untouched` what it was when the call was made, and
`callbacks` the arguments of all invocations of the callback. -/
structure Call where
  request : InvokeEzRequest
  ipcMessageId : UInt64
  untouched : Bytes
  responseBytes : Bytes
  completion : Option Completion
  callbacks : List Status

def Call.callback (call : Call) (status : Status) : Call :=
  { call with callbacks := call.callbacks ++ [status] }

/-- The completion function that `AsyncIsolateRpcCall` passes to `InvokeEz`. -/
def Call.complete (call : Call) (completion : Completion) (receivedMemshares : List Region) :
    Call × List Region :=
  let call := { call with completion := some completion }
  if completion.status.ok = false then
    (call.callback completion.status, receivedMemshares)
  else if completion.response.metadata.ipcMessageId ≠ call.ipcMessageId then
    (call.callback ⟨.internal, "Mismatched IPC message id"⟩, receivedMemshares)
  else
    match processHandles completion.os completion.response.metadata.sharedMemoryHandles
      receivedMemshares with
    | (.error codeName message, regions) =>
      (call.callback ⟨.internal, (AbslStatus.error codeName message).toText⟩, regions)
    | (.ok, regions) =>
      match completion.response.datagrams with
      | [] => (call.callback ⟨.internal, "Missing response payload"⟩, regions)
      | datagram :: _ => ({ call with responseBytes := datagram }.callback .OK, regions)

/-- `IsolateRpcCall` waits for the callback's notification and returns its status. -/
def Call.isolateRpcCall (call : Call) : Option Status := call.callbacks.getLast?

/-- One `ClientReaderWriter`. -/
structure ClientReaderWriter where
  operatorDomain : String
  serviceName : String
  methodName : String
  ipcMessageId : UInt64
  deriving DecidableEq

/-- The request that `Write` builds. -/
def ClientReaderWriter.request (stream : ClientReaderWriter) (ipcMessageId : UInt64)
    (payload : Bytes) : InvokeEzRequest where
  controlPlaneMetadata := some
    { ipcMessageId := ipcMessageId
      responderIsLocal := true
      destinationOperatorDomain := stream.operatorDomain
      destinationServiceName := stream.serviceName
      destinationMethodName := stream.methodName }
  isolateRequestIscope := some ⟨[{ scopeType := dataScopeTypeUnspecified }]⟩
  isolateRequestPayload := some ⟨[payload]⟩

/-- An rpc issued over the bridge: a unary call, or a stream with all its writes. -/
inductive Rpc where
  | unary (call : Nat)
  | stream (stream : Nat)
  deriving DecidableEq

/-- A request as it was given to the bridge's stub. -/
structure Sent where
  rpc : Rpc
  request : InvokeEzRequest
  deriving DecidableEq

def Sent.id (sent : Sent) : UInt64 := sent.request.metadata.ipcMessageId

structure State where
  ipcMessageId : UInt64
  localHandlers : AList (fun _ : String => LocalHandler)
  localAnswers : List (Status × Bytes)
  calls : List Call
  streams : List ClientReaderWriter
  receivedMemshares : List Region
  wire : List Sent

def newState : State where
  ipcMessageId := 0
  localHandlers := ∅
  localAnswers := []
  calls := []
  streams := []
  receivedMemshares := []
  wire := []

/-- The part of `AsyncIsolateRpcCall` up to `InvokeEz`. Only the atomic increment is
shared with other threads, so the calls of all threads are ordered by it. -/
def asyncIsolateRpcCall (target : Target) (requestBytes responseBytes : Bytes) (state : State) :
    State :=
  let handler :=
    if isLocalEzInstanceId target.ezInstanceId then state.localHandlers.lookup target.serviceName
    else none
  match handler with
  | some handler =>
    { state with
      localAnswers := state.localAnswers ++ [handler target.methodName requestBytes responseBytes] }
  | none =>
    let ipcMessageId := state.ipcMessageId + 1
    let request := unaryRequest target ipcMessageId requestBytes
    { state with
      ipcMessageId := ipcMessageId
      calls := state.calls ++ [⟨request, ipcMessageId, responseBytes, responseBytes, none, []⟩]
      wire := state.wire ++ [⟨.unary state.calls.length, request⟩] }

inductive Event where
  | registerLocalHandler (serviceName : String) (handler : LocalHandler)
  | asyncIsolateRpcCall (target : Target) (requestBytes responseBytes : Bytes)
  | invokeEzDone (call : Nat) (completion : Completion)
  | isolateStreamRpcCall (operatorDomain serviceName methodName : String)
  | write (stream : Nat) (payload : Bytes)

/-- The bridge completes each outstanding call once, with any answer. Writes of one
stream exclude each other, as gRPC requires of its callers. -/
def step (state : State) : Event → Option State
  | .registerLocalHandler serviceName handler =>
    some { state with localHandlers := state.localHandlers.insert serviceName handler }
  | .asyncIsolateRpcCall target requestBytes responseBytes =>
    some (asyncIsolateRpcCall target requestBytes responseBytes state)
  | .invokeEzDone index completion =>
    match state.calls[index]? with
    | none => none
    | some call =>
      if call.completion.isNone then
        let result := call.complete completion state.receivedMemshares
        some { state with calls := state.calls.set index result.1, receivedMemshares := result.2 }
      else none
  | .isolateStreamRpcCall operatorDomain serviceName methodName =>
    some { state with
      streams := state.streams ++ [⟨operatorDomain, serviceName, methodName, 0⟩] }
  | .write index payload =>
    match state.streams[index]? with
    | none => none
    | some stream =>
      let ipcMessageId := stream.ipcMessageId + 1
      some { state with
        streams := state.streams.set index { stream with ipcMessageId := ipcMessageId }
        wire := state.wire ++ [⟨.stream index, stream.request ipcMessageId payload⟩] }

def run (events : List Event) : Option State :=
  Runs.run step newState events

/-- What a completion does: the call is there and was pending. -/
theorem step_invokeEzDone {state next : State} {index : Nat} {completion : Completion}
    (taken : step state (.invokeEzDone index completion) = some next) :
    ∃ call, state.calls[index]? = some call ∧ call.completion = none ∧
      next = { state with
        calls := state.calls.set index (call.complete completion state.receivedMemshares).1
        receivedMemshares := (call.complete completion state.receivedMemshares).2 } := by
  cases present : state.calls[index]? with
  | none => simp [step, present] at taken
  | some call =>
    simp only [step, present, Runs.guarded] at taken
    exact ⟨call, rfl, Option.isNone_iff_eq_none.mp taken.1, taken.2.symm⟩

theorem step_write {state next : State} {index : Nat} {payload : Bytes}
    (taken : step state (.write index payload) = some next) :
    ∃ stream, state.streams[index]? = some stream ∧
      next = { state with
        streams := state.streams.set index { stream with ipcMessageId := stream.ipcMessageId + 1 }
        wire := state.wire ++
          [⟨.stream index, stream.request (stream.ipcMessageId + 1) payload⟩] } := by
  cases present : state.streams[index]? with
  | none => simp [step, present] at taken
  | some stream =>
    simp only [step, present, Option.some.injEq] at taken
    exact ⟨stream, rfl, taken.symm⟩

/-- `IsLocalEzInstanceId` is constant, so every call goes to the bridge. -/
theorem asyncIsolateRpcCall_eq (target : Target) (requestBytes responseBytes : Bytes) (state : State) :
    asyncIsolateRpcCall target requestBytes responseBytes state =
      { state with
        ipcMessageId := state.ipcMessageId + 1
        calls := state.calls ++ [⟨unaryRequest target (state.ipcMessageId + 1) requestBytes,
          state.ipcMessageId + 1, responseBytes, responseBytes, none, []⟩]
        wire := state.wire ++ [⟨.unary state.calls.length,
          unaryRequest target (state.ipcMessageId + 1) requestBytes⟩] } := rfl

/-- A unary call of the greeter. -/
def greeting : Event := .asyncIsolateRpcCall ⟨"example.com", "Greeter", "SayHello", ""⟩ [10, 0] []

end EzSdk.Client
