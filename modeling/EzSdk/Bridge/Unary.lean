import EzSdk.Bridge.Reactor

/-! The unary entry points of `ez_isolate_bridge_server.cpp`, and the decision that both
kinds of invocation make before a service sees them. -/

namespace EzSdk.Bridge

variable {Msg : Type}

/-- The part of `ForwardRequest` before the service is called. -/
def forwardRequest (service : Service Msg) (request : InvokeIsolateRequest) :
    Except Status (List Bytes) :=
  if request.metadata.destinationServiceName ≠ service.serviceName then
    .error ⟨.invalidArgument, "Mismatched service name"⟩
  else if request.datagrams = [] then
    .error ⟨.invalidArgument, "Missing datagram"⟩
  else
    .ok request.datagrams

/-- What an entry point does with an invocation: call a service, or answer itself. -/
inductive Decision (Target : Type) where
  | dispatch (target : Target)
  | reject (status : Status)

/-- `InvokeIsolate` up to the call of `IsolateRpcMethodHandler`. -/
def admitUnary (services : ServiceMap Msg) (currentState : Int) (request : InvokeIsolateRequest) :
    Decision (Service Msg) :=
  if currentState ≠ isolateStateReady then
    .reject (notReady currentState)
  else
    match findService services request.metadata.destinationServiceName with
    | none => .reject (unsupported request.metadata.destinationServiceName)
    | some service =>
      match forwardRequest service request with
      | .error status => .reject status
      | .ok _ => .dispatch service

/-- `OnReadDone` of a stream's first message up to the call of
`IsolateStreamRpcMethodHandler`. Here the service is looked up before the state. -/
def admitFirstMessage (services : ServiceMap Msg) (currentState : Int)
    (message : InvokeIsolateRequest) : Decision (Service Msg) :=
  match findService services message.metadata.destinationServiceName with
  | none => .reject (unsupported message.metadata.destinationServiceName)
  | some service =>
    if currentState ≠ isolateStateReady then .reject (notReady currentState)
    else .dispatch service

/-- The `if` blocks of `IsolateRpcMethodHandler`, one for each unary rpc. -/
def Service.unaryMethod (service : Service Msg) (methodName : String) : Option (Method Msg) :=
  service.methods.find? (fun method =>
    !(method.clientStreaming || method.serverStreaming) && method.name == methodName)

/-- `IsolateRpcMethodHandler` up to the call of the user's method. -/
def isolateRpcMethodHandler (service : Service Msg) (methodName : String)
    (requestBytes : List Bytes) : Except Status (Method Msg × Msg) :=
  match service.unaryMethod methodName with
  | none => .error ⟨.unimplemented, "Method not implemented"⟩
  | some method =>
    match mergeProtobin method requestBytes with
    | none => .error ⟨.invalidArgument, "Unable to parse input"⟩
    | some request => .ok (method, request)

/-- The completion of `ForwardRequest`; generated services add no handles. -/
def forwardResponse (ipcMsgId : UInt64) (status : Status) (responseBytes : Bytes) :
    InvokeIsolateResponse :=
  let metadata := { ipcMessageId := ipcMsgId, responderIsLocal := true : ControlPlaneMetadata }
  if status.ok then
    { controlPlaneMetadata := some metadata
      isolateOutputIscope := some ⟨[{ scopeType := dataScopeTypeUnspecified }]⟩
      isolateOutput := some ⟨[responseBytes]⟩ }
  else
    { controlPlaneMetadata := some metadata }

/-- A unary invocation of a generated service. `implementation` is the user's code; the
handler serializes its response whatever status it returns. -/
def invokeIsolate (services : ServiceMap Msg) (currentState : Int)
    (implementation : Method Msg → Msg → Status × Bytes) (request : InvokeIsolateRequest) :
    Status × InvokeIsolateResponse :=
  match admitUnary services currentState request with
  | .reject status => (status, {})
  | .dispatch service =>
    let answer :=
      match isolateRpcMethodHandler service request.metadata.destinationMethodName
        request.datagrams with
      | .error status => (status, [])
      | .ok (method, message) => implementation method message
    (answer.1, forwardResponse request.metadata.ipcMessageId answer.1 answer.2)

/-- A service that was found by its name passes the name check of `ForwardRequest`. -/
theorem admitUnary_eq (services : ServiceMap Msg) (currentState : Int)
    (request : InvokeIsolateRequest) :
    admitUnary services currentState request =
      if currentState ≠ isolateStateReady then .reject (notReady currentState)
      else
        match findService services request.metadata.destinationServiceName with
        | none => .reject (unsupported request.metadata.destinationServiceName)
        | some service =>
          if request.datagrams = [] then .reject ⟨.invalidArgument, "Missing datagram"⟩
          else .dispatch service := by
  cases found : findService services request.metadata.destinationServiceName with
  | none => simp only [admitUnary, found]
  | some service =>
    have name := findService_name services _ service found
    by_cases empty : request.datagrams = []
    · simp only [admitUnary, found, forwardRequest, name, ne_eq, not_true_eq_false, if_false,
        empty, if_true]
    · simp only [admitUnary, found, forwardRequest, name, ne_eq, not_true_eq_false, if_false,
        empty]

end EzSdk.Bridge
