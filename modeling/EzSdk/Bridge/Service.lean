import EzSdk.Proto
import Mathlib.Data.List.AList
import Mathlib.Logic.Function.Basic

/-! The service object that `grpc.pb.h.jinja2` generates, with the stream adapters
of `server_reader_writer.h.jinja2`. Service objects are shared by all streams. -/

namespace EzSdk.Bridge

/-- One rpc of the descriptor. `emptyRequest` and `mergeFromString` are what the
generated code takes from the protobuf runtime for the rpc's request type. -/
structure Method (Msg : Type) where
  name : String
  clientStreaming : Bool
  serverStreaming : Bool
  emptyRequest : Msg
  mergeFromString : Msg → Bytes → Option Msg

def Method.isBidi {Msg : Type} (method : Method Msg) : Bool :=
  method.clientStreaming && method.serverStreaming

/-- A service descriptor; protobuf rejects two methods of one name. -/
structure Service (Msg : Type) where
  serviceName : String
  methods : List (Method Msg)
  distinctNames : (methods.map Method.name).Nodup

variable {Msg : Type}

/-- The chain of `if (method_name == ...)` blocks. Method names are distinct, so
at most one block runs. -/
def Service.bidiMethod (service : Service Msg) (methodName : String) : Option (Method Msg) :=
  service.methods.find? (fun method => method.isBidi && method.name == methodName)

/-- The registered services in registration order. `unordered_map::insert` keeps
the service that is already there, so the first of a name is the one found. -/
abbrev ServiceMap (Msg : Type) := List (Service Msg)

def findService (services : ServiceMap Msg) (serviceName : String) : Option (Service Msg) :=
  services.find? (fun service => service.serviceName == serviceName)

theorem findService_name (services : ServiceMap Msg) (serviceName : String)
    (service : Service Msg) (found : findService services serviceName = some service) :
    service.serviceName = serviceName := by
  simpa using List.find?_some found

def mergeProtobin (method : Method Msg) (data : List Bytes) : Option Msg :=
  data.foldlM method.mergeFromString method.emptyRequest

/-- A `ServerReaderWriter`. `owner` is the stream instance whose Reactor is
`real_writer_`, that is, the instance the adapter was created for. -/
structure Adapter (Msg : Type) where
  owner : Nat
  service : String
  method : Method Msg
  ipcMsgId : UInt64
  responseSharedMemoryHandles : List String
  responseFileshareHandles : List String
  requestQueue : List Msg
  isDone : Bool

/-- What one request message means to the adapter's handler. -/
def Adapter.parse (adapter : Adapter Msg) (request : InvokeIsolateRequest) : Option Msg :=
  mergeProtobin adapter.method request.datagrams

def Adapter.feedRequest (adapter : Adapter Msg) (request : Msg) : Adapter Msg :=
  { adapter with requestQueue := adapter.requestQueue ++ [request] }

def Adapter.forwardRequest (adapter : Adapter Msg) (request : InvokeIsolateRequest) :
    Status × Adapter Msg :=
  match adapter.parse request with
  | some parsed => (.OK, adapter.feedRequest parsed)
  | none => (⟨.invalidArgument, "Unable to parse input"⟩, adapter)

def Adapter.signalDone (adapter : Adapter Msg) : Adapter Msg :=
  { adapter with isDone := true }

/-- The envelope that `Write` puts around a serialized response. -/
def Adapter.response (adapter : Adapter Msg) (payload : Bytes) : InvokeIsolateResponse where
  controlPlaneMetadata := some
    { ipcMessageId := adapter.ipcMsgId
      responderIsLocal := true
      sharedMemoryHandles := adapter.responseSharedMemoryHandles
      fileshareHandles := adapter.responseFileshareHandles }
  isolateOutputIscope := some ⟨[{ scopeType := dataScopeTypeUnspecified }]⟩
  isolateOutput := some ⟨[payload]⟩

/-- The mutable members of one service object that streams use: the table from
stream ids to adapters, and the `stop_` flag of its ThreadPool. -/
structure ServiceState where
  activeStreams : AList (fun _ : Nat => Nat)
  poolStopped : Bool

/-- A message, or with `none` the half-close, of a stream as it was handed to an
adapter. -/
structure Handed where
  stream : Nat
  adapter : Nat
  owner : Nat
  service : String
  message : Option InvokeIsolateRequest
  deriving DecidableEq

/-- All service objects of the isolate. Adapters live on a heap and are named by
their position; the tables and the handler tasks hold such positions. -/
structure Objects (Msg : Type) where
  state : String → ServiceState
  adapters : List (Adapter Msg)
  handed : List Handed

def Objects.activeStream (objects : Objects Msg) (service : String) (streamId : Nat) : Option Nat :=
  (objects.state service).activeStreams.lookup streamId

/-- Run an operation of an adapter on behalf of a stream. -/
def Objects.hand (objects : Objects Msg) (stream index : Nat) (message : Option InvokeIsolateRequest)
    (operation : Adapter Msg → Status × Adapter Msg) : Status × Objects Msg :=
  match objects.adapters[index]? with
  | none => (.OK, objects)
  | some adapter =>
    ((operation adapter).1,
      { objects with
        adapters := objects.adapters.set index (operation adapter).2
        handed := objects.handed ++
          [⟨stream, index, adapter.owner, adapter.service, message⟩] })

/-- What the ThreadPool does with the task of a stream. Inside `Write` the
handler waits in `WriteResponse` until no write is in progress. -/
inductive Phase where
  | queued
  | running
  | writing (response : InvokeIsolateResponse)
  | returned (status : Status)
  deriving DecidableEq

/-- The enqueued task: the user's handler on its adapter. `reads` are the messages
that its calls of `Read` returned, and `sawEnd` says that one returned false. -/
structure Task (Msg : Type) where
  service : String
  adapter : Nat
  phase : Phase
  reads : List Msg
  sawEnd : Bool

/-- The handler task may still use its `ResponseWriter`. -/
def Task.active (task : Task Msg) : Bool :=
  match task.phase with
  | .returned _ => false
  | _ => true

/-- The adapter and the task that a stream's first message creates. The handle
vectors are created empty by the Reactor and nothing adds to them. -/
def newAdapter (service : Service Msg) (method : Method Msg) (writer : Nat)
    (request : InvokeIsolateRequest) : Adapter Msg where
  owner := writer
  service := service.serviceName
  method := method
  ipcMsgId := request.metadata.ipcMessageId
  responseSharedMemoryHandles := []
  responseFileshareHandles := []
  requestQueue := []
  isDone := false

def newTask (service : Service Msg) (adapter : Nat) : Task Msg where
  service := service.serviceName
  adapter := adapter
  phase := .queued
  reads := []
  sawEnd := false

/-- Store a new adapter for a stream under its id. -/
def Objects.install (objects : Objects Msg) (service : String) (streamId : Nat)
    (adapter : Adapter Msg) : Objects Msg where
  state := Function.update objects.state service
    { objects.state service with
      activeStreams := (objects.state service).activeStreams.insert streamId objects.adapters.length }
  adapters := objects.adapters ++ [adapter]
  handed := objects.handed

/-- Called with the first message of a stream; `writer` is the stream instance
whose Reactor is passed as `ResponseWriter`. -/
def isolateStreamRpcMethodHandler (service : Service Msg) (streamId writer : Nat)
    (request : InvokeIsolateRequest) (objects : Objects Msg) :
    Status × Option (Task Msg) × Objects Msg :=
  let methodName := request.metadata.destinationMethodName
  match service.bidiMethod methodName with
  | none =>
    (⟨.unimplemented, "IsolateStreamRpcMethodHandler can not be invoked. Method name: " ++
        methodName ++ " does not match any of the rpc's declared on " ++ service.serviceName⟩,
      none, objects)
  | some method =>
    if (objects.state service.serviceName).poolStopped then
      (⟨.internal, "Cannot start user implementation of " ++ method.name ++ "."⟩, none, objects)
    else
      let index := objects.adapters.length
      let stored := objects.install service.serviceName streamId
        (newAdapter service method writer request)
      let result := stored.hand writer index (some request) (·.forwardRequest request)
      (result.1, some (newTask service index), result.2)

/-- Called with every later message of a stream. -/
def forwardStreamingMessage (service : Service Msg) (streamId stream : Nat)
    (request : InvokeIsolateRequest) (objects : Objects Msg) : Status × Objects Msg :=
  match objects.activeStream service.serviceName streamId with
  | none => (⟨.notFound, "Could not forward request to stream with id: " ++ toString streamId⟩, objects)
  | some index => objects.hand stream index (some request) (·.forwardRequest request)

def requestStreamClosed (service : Service Msg) (streamId stream : Nat) (objects : Objects Msg) :
    Status × Objects Msg :=
  match objects.activeStream service.serviceName streamId with
  | none => (⟨.notFound, "Could not close stream with id: " ++ toString streamId⟩, objects)
  | some index => objects.hand stream index none (fun adapter => (.OK, adapter.signalDone))

/-- `MergeFromString` of the greeter's `HelloRequest`, a message with one string
field, on the encodings that concrete runs use: no field, or one short name. -/
def mergeHelloRequest (name : Bytes) : Bytes → Option Bytes
  | [] => some name
  | tag :: length :: text =>
    if tag = 10 ∧ length < 128 ∧ text.length = length.toNat then some text else none
  | [_] => none

/-- The service of `greeter.proto`. -/
def greeter : Service Bytes where
  serviceName := "Greeter"
  methods :=
    [⟨"SayHello", false, false, [], mergeHelloRequest⟩,
      ⟨"StreamingSayHello", true, true, [], mergeHelloRequest⟩]
  distinctNames := by decide

def bridgeMessage (serviceName methodName : String) (datagram : Bytes) : InvokeIsolateRequest where
  controlPlaneMetadata := some
    { ipcMessageId := 1
      destinationServiceName := serviceName
      destinationMethodName := methodName }
  isolateInput := some ⟨[datagram]⟩

end EzSdk.Bridge
