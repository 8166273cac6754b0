import EzSdk.Foundation.ResultStream
import EzSdk.Rust.Dispatch

/-! A bidirectional rpc between two Rust isolates: the client's `rpc_handler.rs`, the
enforcer between them, the dispatcher, and the service that
`isolate_rpc_service.rs.jinja2` generates on the stream mappers of `utils.rs`. -/

namespace EzSdk.Rust

open ResultStream Stream'

/-- What prost provides for a message type; an error is given by its text. -/
structure Codec (Msg : Type) where
  encodeToVec : Msg → Bytes
  decode : Bytes → Except String Msg
  decode_encode : ∀ message, decode (encodeToVec message) = .ok message

/-- `T::decode` with its error turned into an internal status. -/
def Codec.decodeOrInternal {Msg : Type} (codec : Codec Msg) (bytes : Bytes) : Except Status Msg :=
  match codec.decode bytes with
  | .ok message => .ok message
  | .error text => .error ⟨.internal, text⟩

section Utils

variable {Msg : Type} (codec : Codec Msg)

def messageToInvokeIsolateResponse (message : Msg) (responseScope : Int) : InvokeIsolateResponse where
  controlPlaneMetadata := none
  isolateOutputIscope := some ⟨[{ scopeType := responseScope }]⟩
  isolateOutput := some ⟨[codec.encodeToVec message]⟩

/-- The message that one item of a request stream carries. -/
def requestToMessage : Except Status InvokeIsolateRequest → Except Status Msg
  | .error status => .error status
  | .ok request =>
    match request.isolateInput.bind (fun input => input.datagrams.head?) with
    | some requestBytes => codec.decodeOrInternal requestBytes
    | none => .error ⟨.invalidArgument, "Missing datagram in request payload"⟩

def invokeIsolateStreamToMessageStream (requestStream : ItemStream InvokeIsolateRequest) :
    ItemStream Msg :=
  requestStream.map (requestToMessage codec)

/-- The item that a message, or an error, becomes in a response stream. -/
def messageToItem (requestScope : Int) : Except Status Msg → Except Status InvokeIsolateResponse
  | .error status => .error status
  | .ok message => .ok (messageToInvokeIsolateResponse codec message requestScope)

def messageStreamToInvokeIsolateStream (messageStream : ItemStream Msg) (requestScope : Int) :
    ItemStream InvokeIsolateResponse :=
  messageStream.map (messageToItem codec requestScope)

end Utils

/-- A bidirectional rpc of the user's trait, with its implementation. -/
structure BidiMethod where
  Req : Type
  Resp : Type
  name : String
  request : Codec Req
  response : Codec Resp
  implementation : ItemStream Req → Except Status (ItemStream Resp)

/-- The match arm that is generated for an rpc. -/
def BidiMethod.handle (method : BidiMethod) (responseScope : Int)
    (requestStream : ItemStream InvokeIsolateRequest) :
    Except Status (ItemStream InvokeIsolateResponse) :=
  match method.implementation (invokeIsolateStreamToMessageStream method.request requestStream) with
  | .ok response => .ok (messageStreamToInvokeIsolateStream method.response response responseScope)
  | .error e => .error e

/-- The adapter that is generated for a service. -/
def generatedService (serviceName : String) (methods : List BidiMethod) (responseScope : Int) :
    IsolateRpcService where
  serviceName := serviceName
  streamingRpcHandler := fun methodName requestStream =>
    match methods.find? (fun method => method.name == methodName) with
    | some method => method.handle responseScope requestStream
    | none =>
      .error ⟨.unimplemented, "Method '" ++ methodName ++ "' is not implemented for this service."⟩

structure RpcHandler where
  operatorDomain : String
  serviceName : String
  requestScope : Int

def RpcHandler.createInvokeEzRequest (handler : RpcHandler) (ipcMessageId : UInt64)
    (methodName : String) (requestBytes : Bytes) : InvokeEzRequest where
  controlPlaneMetadata := some
    { ipcMessageId := ipcMessageId
      requesterIsLocal := true
      destinationOperatorDomain := handler.operatorDomain
      destinationServiceName := handler.serviceName
      destinationMethodName := methodName }
  isolateRequestIscope := some ⟨[{ scopeType := handler.requestScope }]⟩
  isolateRequestPayload := some ⟨[requestBytes]⟩

def extractInvokeEzResponse (response : InvokeEzResponse) : Except Status Bytes :=
  match response.ezResponsePayload.bind (fun payload => payload.datagrams.head?) with
  | some responseBytes => .ok responseBytes
  | none => .error ⟨.internal, "Missing response payload"⟩

def decodeInvokeEzResponse {Msg : Type} (codec : Codec Msg) :
    Except Status InvokeEzResponse → Except Status Msg
  | .error status => .error status
  | .ok response =>
    match extractInvokeEzResponse response with
    | .error status => .error status
    | .ok responseBytes => codec.decodeOrInternal responseBytes

/-- `ipcMessageId` is the random id of the call, and `invokeEz` the bridge. -/
def RpcHandler.isolateRpcCallHelper (handler : RpcHandler) (methodName : String)
    (requestBytes : Bytes) (ipcMessageId : UInt64)
    (invokeEz : InvokeEzRequest → Except Status InvokeEzResponse) : Except Status InvokeEzResponse :=
  match invokeEz (handler.createInvokeEzRequest ipcMessageId methodName requestBytes) with
  | .error status => .error status
  | .ok response =>
    if response.metadata.ipcMessageId ≠ ipcMessageId then
      .error ⟨.internal, "Mismatched IPC message id"⟩
    else .ok response

def RpcHandler.isolateRpcCall {Req Resp : Type} (handler : RpcHandler) (request : Codec Req)
    (response : Codec Resp) (methodName : String) (message : Req) (ipcMessageId : UInt64)
    (invokeEz : InvokeEzRequest → Except Status InvokeEzResponse) : Except Status Resp :=
  decodeInvokeEzResponse response
    (handler.isolateRpcCallHelper methodName (request.encodeToVec message) ipcMessageId invokeEz)

/-- `ipcMessageId` is the random id of the call, and `streamInvokeEz` the bridge. -/
def RpcHandler.streamIsolateRpcCall {Req Resp : Type} (handler : RpcHandler) (request : Codec Req)
    (response : Codec Resp) (methodName : String) (ipcMessageId : UInt64) (requestStream : Seq Req)
    (streamInvokeEz : Seq InvokeEzRequest → Except Status (ItemStream InvokeEzResponse)) :
    Except Status (ItemStream Resp) :=
  let invokeEzStream := requestStream.map (fun req =>
    handler.createInvokeEzRequest ipcMessageId methodName (request.encodeToVec req))
  match streamInvokeEz invokeEzStream with
  | .error status => .error status
  | .ok responseStream => .ok (responseStream.map (decodeInvokeEzResponse response))

/-- An enforcer that forwards metadata and payload of every message unchanged; scopes
it may change. -/
structure Enforcer where
  toIsolateRequest : InvokeEzRequest → InvokeIsolateRequest
  toEzResponse : InvokeIsolateResponse → InvokeEzResponse
  request_metadata : ∀ request,
    (toIsolateRequest request).controlPlaneMetadata = request.controlPlaneMetadata
  request_payload : ∀ request,
    (toIsolateRequest request).isolateInput = request.isolateRequestPayload
  response_metadata : ∀ response,
    (toEzResponse response).controlPlaneMetadata = response.controlPlaneMetadata
  response_payload : ∀ response, (toEzResponse response).ezResponsePayload = response.isolateOutput

def Enforcer.requests (enforcer : Enforcer) (requests : Seq InvokeEzRequest) :
    ItemStream InvokeIsolateRequest :=
  requests.map (fun request => .ok (enforcer.toIsolateRequest request))

def Enforcer.forward (enforcer : Enforcer) :
    Except Status InvokeIsolateResponse → Except Status InvokeEzResponse
  | .error status => .error status
  | .ok response => .ok (enforcer.toEzResponse response)

/-- The bridge as the client sees it. The responses pass two gRPC calls, and each ends
its stream at the first error. -/
def Enforcer.streamInvokeEz (enforcer : Enforcer) (dispatcher : RpcDispatcher)
    (requests : Seq InvokeEzRequest) : Except Status (ItemStream InvokeEzResponse) :=
  let output := (dispatcher.streamInvokeIsolate (enforcer.requests requests)).output
  .ok (throughError ((throughError output).map enforcer.forward))

theorem map_ofList {First Second : Type} (change : First → Second) (items : List First) :
    (Seq.ofList items).map change = Seq.ofList (items.map change) := by
  apply Seq.ext
  intro position
  simp [Seq.map_get?, Seq.ofList_get?]

theorem decodeOrInternal_encode {Msg : Type} (codec : Codec Msg) (message : Msg) :
    codec.decodeOrInternal (codec.encodeToVec message) = .ok message := by
  rw [Codec.decodeOrInternal, codec.decode_encode]

/-- A request that the enforcer forwards carries the client's message. -/
theorem requestToMessage_forwarded {Req : Type} (enforcer : Enforcer) (handler : RpcHandler)
    (codec : Codec Req) (methodName : String) (ipcMessageId : UInt64) (message : Req) :
    requestToMessage codec (.ok (enforcer.toIsolateRequest
      (handler.createInvokeEzRequest ipcMessageId methodName (codec.encodeToVec message)))) =
      .ok message := by
  simp only [requestToMessage, enforcer.request_payload, RpcHandler.createInvokeEzRequest,
    Option.bind_some, List.head?_cons, decodeOrInternal_encode]

theorem decode_forwarded {Resp : Type} (enforcer : Enforcer) (codec : Codec Resp) (scope : Int)
    (ipcMessageId : UInt64) (item : Except Status Resp) :
    decodeInvokeEzResponse codec
      (enforcer.forward (attachMetadata ipcMessageId (messageToItem codec scope item))) = item := by
  cases item with
  | error status => rfl
  | ok message =>
    simp only [messageToItem, messageToInvokeIsolateResponse, attachMetadata, Enforcer.forward,
      decodeInvokeEzResponse, extractInvokeEzResponse, enforcer.response_payload, Option.bind_some,
      List.head?_cons, decodeOrInternal_encode]

theorem isError_messageToItem {Msg : Type} (codec : Codec Msg) (scope : Int)
    (item : Except Status Msg) : isError (messageToItem codec scope item) = isError item := by
  cases item <;> rfl

theorem isError_attachMetadata (ipcMessageId : UInt64) (item : Except Status InvokeIsolateResponse) :
    isError (attachMetadata ipcMessageId item) = isError item := by
  cases item <;> rfl

theorem isError_forward (enforcer : Enforcer) (item : Except Status InvokeIsolateResponse) :
    isError (enforcer.forward item) = isError item := by
  cases item <;> rfl

/-- The way back: of what the handler produces, the client gets everything up to and
including the first error. -/
theorem responses_transparent {Resp : Type} (enforcer : Enforcer) (codec : Codec Resp) (scope : Int)
    (ipcMessageId : UInt64) (items : ItemStream Resp) :
    (throughError ((throughError ((messageStreamToInvokeIsolateStream codec items scope).map
      (attachMetadata ipcMessageId))).map enforcer.forward)).map (decodeInvokeEzResponse codec) =
      throughError items := by
  have whole : decodeInvokeEzResponse codec ∘ enforcer.forward ∘ attachMetadata ipcMessageId ∘
      messageToItem codec scope = id := by
    funext item
    exact decode_forwarded enforcer codec scope ipcMessageId item
  calc (throughError ((throughError ((messageStreamToInvokeIsolateStream codec items scope).map
      (attachMetadata ipcMessageId))).map enforcer.forward)).map (decodeInvokeEzResponse codec)
      = (((throughError (throughError (messageStreamToInvokeIsolateStream codec items scope))).map
          (attachMetadata ipcMessageId)).map enforcer.forward).map (decodeInvokeEzResponse codec) := by
        rw [throughError_map _ (isError_attachMetadata ipcMessageId),
          throughError_map _ (isError_forward enforcer),
          throughError_map _ (isError_attachMetadata ipcMessageId)]
    _ = ((((throughError items).map (messageToItem codec scope)).map
          (attachMetadata ipcMessageId)).map enforcer.forward).map (decodeInvokeEzResponse codec) := by
        rw [throughError_throughError, messageStreamToInvokeIsolateStream,
          throughError_map _ (isError_messageToItem codec scope)]
    _ = (throughError items).map (decodeInvokeEzResponse codec ∘ enforcer.forward ∘
          attachMetadata ipcMessageId ∘ messageToItem codec scope) := by
        rw [Seq.map_comp, Seq.map_comp, Seq.map_comp]
    _ = throughError items := by rw [whole, Seq.map_id]

/-- What the client gets for a handler's result. -/
def clientItems {Resp : Type} : Except Status (ItemStream Resp) → ItemStream Resp
  | .ok items => throughError items
  | .error status => single (.error status)

section Transparency

variable (handler : RpcHandler) (enforcer : Enforcer) (dispatcher : RpcDispatcher)
  (methods : List BidiMethod) (responseScope : Int) (method : BidiMethod) (ipcMessageId : UInt64)

/-- The stream that reaches the isolate when the client sends these messages. -/
def arriving (messages : List method.Req) : ItemStream InvokeIsolateRequest :=
  enforcer.requests ((Seq.ofList messages).map (fun message =>
    handler.createInvokeEzRequest ipcMessageId method.name (method.request.encodeToVec message)))

theorem arriving_messages (messages : List method.Req) :
    invokeIsolateStreamToMessageStream method.request
      (arriving handler enforcer method ipcMessageId messages) =
      Seq.ofList (messages.map .ok) := by
  rw [arriving, Enforcer.requests, invokeIsolateStreamToMessageStream, ← Seq.map_comp, ← Seq.map_comp,
    map_ofList]
  congr 1
  apply List.map_congr_left
  intro message _
  exact requestToMessage_forwarded enforcer handler method.request method.name ipcMessageId message

theorem arriving_opens (messages : List method.Req) (nonempty : messages ≠ [])
    (service : IsolateRpcService) (ready : dispatcher.currentState = isolateStateReady)
    (registered : dispatcher.serviceMap.lookup handler.serviceName = some service) :
    ∃ metadata, metadata.ipcMessageId = ipcMessageId ∧
      metadata.destinationMethodName = method.name ∧
      Opens dispatcher (arriving handler enforcer method ipcMessageId messages) metadata service := by
  obtain ⟨first, rest, rfl⟩ := List.exists_cons_of_ne_nil nonempty
  refine ⟨_, rfl, rfl, enforcer.toIsolateRequest (handler.createInvokeEzRequest ipcMessageId
    method.name (method.request.encodeToVec first)), ?_, enforcer.request_metadata _, ready, registered⟩
  simp [arriving, Enforcer.requests]

/-- A bidirectional rpc is transparent: the handler is called once, what it reads are
the client's messages, and what the client gets are the items that the handler
produces for them, up to and including the first error. -/
theorem stream_rpc_transparent (messages : List method.Req) (nonempty : messages ≠ [])
    (ready : dispatcher.currentState = isolateStateReady)
    (registered : dispatcher.serviceMap.lookup handler.serviceName =
      some (generatedService handler.serviceName methods responseScope))
    (declared : methods.find? (fun other => other.name == method.name) = some method) :
    (∃ requests, (dispatcher.streamInvokeIsolate
        (arriving handler enforcer method ipcMessageId messages)).invocations =
        [⟨generatedService handler.serviceName methods responseScope, method.name, requests⟩] ∧
      invokeIsolateStreamToMessageStream method.request requests = Seq.ofList (messages.map .ok)) ∧
    handler.streamIsolateRpcCall method.request method.response method.name ipcMessageId
      (Seq.ofList messages) (enforcer.streamInvokeEz dispatcher) =
      .ok (clientItems (method.implementation (Seq.ofList (messages.map .ok)))) := by
  obtain ⟨metadata, id, name, opens⟩ := arriving_opens handler enforcer dispatcher method ipcMessageId
    messages nonempty _ ready registered
  have dispatched := streamInvokeIsolate_opens dispatcher _ metadata _ opens
  rw [name, id] at dispatched
  have read := arriving_messages handler enforcer method ipcMessageId messages
  refine ⟨⟨_, by rw [dispatched], read⟩, ?_⟩
  have output : enforcer.streamInvokeEz dispatcher ((Seq.ofList messages).map (fun message =>
      handler.createInvokeEzRequest ipcMessageId method.name (method.request.encodeToVec message))) =
      .ok (throughError ((throughError (dispatcher.streamInvokeIsolate
        (arriving handler enforcer method ipcMessageId messages)).output).map enforcer.forward)) := rfl
  simp only [RpcHandler.streamIsolateRpcCall, output, dispatched, generatedService, declared,
    BidiMethod.handle, read]
  cases method.implementation (Seq.ofList (messages.map .ok)) with
  | error status =>
    simp only [clientItems, single, throughError_singleton, Seq.map_cons, Seq.map_nil,
      Enforcer.forward, decodeInvokeEzResponse]
  | ok items =>
    simp only [clientItems]
    rw [responses_transparent]

end Transparency

def bytesCodec : Codec Bytes where
  encodeToVec := id
  decode := .ok
  decode_encode := fun _ => rfl

/-- A method that sends every message back. -/
def echoMethod : BidiMethod where
  Req := Bytes
  Resp := Bytes
  name := "Echo"
  request := bytesCodec
  response := bytesCodec
  implementation := .ok

def relay : Enforcer where
  toIsolateRequest := fun request => ⟨request.controlPlaneMetadata, none, request.isolateRequestPayload⟩
  toEzResponse := fun response => ⟨response.controlPlaneMetadata, none, response.isolateOutput⟩
  request_metadata := fun _ => rfl
  request_payload := fun _ => rfl
  response_metadata := fun _ => rfl
  response_payload := fun _ => rfl

theorem stream_rpc_transparent_echo :
    (⟨"example.com", "Echo", 0⟩ : RpcHandler).streamIsolateRpcCall bytesCodec bytesCodec "Echo" 7
      (Seq.ofList [[1], [2, 3]])
      (relay.streamInvokeEz (RpcDispatcher.new (generatedService "Echo" [echoMethod] 0))) =
      .ok (throughError (Seq.ofList [.ok [1], .ok [2, 3]])) :=
  (stream_rpc_transparent ⟨"example.com", "Echo", 0⟩ relay
    (RpcDispatcher.new (generatedService "Echo" [echoMethod] 0)) [echoMethod] 0 echoMethod 7
    [[1], [2, 3]] (by decide) rfl rfl rfl).2

end EzSdk.Rust
