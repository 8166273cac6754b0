import EzSdk.Rust.EndToEnd

/-! The unary side of `rpc_dispatcher.rs` and of the services that
`isolate_rpc_service.rs.jinja2` generates, and the state that the enforcer sets. -/

namespace EzSdk.Rust

/-- The numbers of `enforcer.v1.IsolateState` that the generated Rust enum has. -/
def knownIsolateStates : List Int := [0, 1, 3, 5, 7, 9, 11, 12]

/-- `IsolateState::try_from`. -/
def isolateStateTryFrom (value : Int) : Option Int :=
  if value ∈ knownIsolateStates then some value else none

/-- The new state is stored and also reported. -/
def RpcDispatcher.updateIsolateState (dispatcher : RpcDispatcher) (moveToState : Int) :
    Int × RpcDispatcher :=
  let moveToState := (isolateStateTryFrom moveToState).getD isolateStateUnspecified
  let newState := if moveToState = isolateStateStarting then isolateStateReady else moveToState
  (newState, { dispatcher with currentState := newState })

/-- `invoke_isolate` up to the call of `unary_rpc_handler`. -/
def RpcDispatcher.resolveUnary (dispatcher : RpcDispatcher) (request : InvokeIsolateRequest) :
    Except (Except Status InvokeIsolateResponse) (ControlPlaneMetadata × IsolateRpcService × Bytes) :=
  match dispatcher.resolveService request.controlPlaneMetadata with
  | .error item => .error item
  | .ok (metadata, service) =>
    match request.isolateInput.bind (fun input => input.datagrams.head?) with
    | some requestBytes => .ok (metadata, service, requestBytes)
    | none => .error (.error ⟨.invalidArgument, "Missing datagram in request payload"⟩)

/-- `unaryRpcHandler` is the other method of the trait `IsolateRpcService`. -/
def RpcDispatcher.invokeIsolate (dispatcher : RpcDispatcher)
    (unaryRpcHandler : IsolateRpcService → String → Bytes → Except Status InvokeIsolateResponse)
    (request : InvokeIsolateRequest) : Except Status InvokeIsolateResponse :=
  match dispatcher.resolveUnary request with
  | .error item => item
  | .ok (metadata, service, requestBytes) =>
    attachMetadata metadata.ipcMessageId
      (unaryRpcHandler service metadata.destinationMethodName requestBytes)

/-- A unary rpc of the user's trait, with its implementation. -/
structure UnaryMethod where
  Req : Type
  Resp : Type
  name : String
  reqType : String
  request : Codec Req
  response : Codec Resp
  implementation : Req → Except Status Resp

/-- `T::decode` with its error turned into the status of a unary call. -/
def Codec.decodeOrInvalid {Msg : Type} (codec : Codec Msg) (reqType : String) (bytes : Bytes) :
    Except Status Msg :=
  match codec.decode bytes with
  | .ok message => .ok message
  | .error text => .error ⟨.invalidArgument, "Unable to parse " ++ reqType ++ ": " ++ text⟩

/-- The match arm that is generated for an rpc. -/
def UnaryMethod.handle (method : UnaryMethod) (responseScope : Int) (requestBytes : Bytes) :
    Except Status InvokeIsolateResponse :=
  match method.request.decodeOrInvalid method.reqType requestBytes with
  | .error status => .error status
  | .ok request =>
    match method.implementation request with
    | .error status => .error status
    | .ok response => .ok (messageToInvokeIsolateResponse method.response response responseScope)

/-- `unary_rpc_handler` of a generated service. -/
def unaryRpcHandler (methods : List UnaryMethod) (responseScope : Int) (methodName : String)
    (requestBytes : Bytes) : Except Status InvokeIsolateResponse :=
  match methods.find? (fun method => method.name == methodName) with
  | some method => method.handle responseScope requestBytes
  | none =>
    .error ⟨.unimplemented, "Method '" ++ methodName ++ "' is not implemented for this service."⟩

/-- What a unary call of an rpc hands to its implementation, when the call has come as
far as the payload. -/
def unaryMessage {Msg : Type} (codec : Codec Msg) (reqType : String)
    (request : InvokeIsolateRequest) : Except Status Msg :=
  match request.isolateInput.bind (fun input => input.datagrams.head?) with
  | some requestBytes => codec.decodeOrInvalid reqType requestBytes
  | none => .error ⟨.invalidArgument, "Missing datagram in request payload"⟩

end EzSdk.Rust
