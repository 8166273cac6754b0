import EzSdk.Local.Sockets
import EzSdk.Parity.Decoding
import EzSdk.Parity.Envelopes

/-! A unary call in the local test environment: the stub of either SDK, `InvokeEz` of
`mock_enforcer.cc`, and the isolate of either SDK that `test_isolate` has started for the service. -/

namespace EzSdk.Local

variable {Msg Resp : Type}

/-! ### The isolates -/

/-- An isolate of either SDK with its generated services, the state that was set last and the
user's code. -/
inductive Isolate (Msg : Type) where
  | cpp (services : Bridge.ServiceMap Msg) (currentState : Int)
      (implementation : Bridge.Method Msg → Msg → Status × Bytes)
  | rust (dispatcher : Rust.RpcDispatcher) (methods : String → List Rust.UnaryMethod)
      (responseScope : Int)

/-- The status that a caller sees for an error. A trailer that says OK without a message before it
is an error of gRPC's client. -/
def errorStatus (status : Status) : Status :=
  if status.ok then ⟨.unimplemented, "No message returned for unary request"⟩ else status

/-- What the stub of `EzIsolateBridge` gets for a unary call: a response only with an OK. -/
def Isolate.invokeIsolate (isolate : Isolate Msg) (request : InvokeIsolateRequest) :
    Status × InvokeIsolateResponse :=
  match isolate with
  | .cpp services currentState implementation =>
    let answer := Bridge.invokeIsolate services currentState implementation request
    if answer.1.ok then answer else (answer.1, {})
  | .rust dispatcher methods responseScope =>
    match dispatcher.invokeIsolate (fun service =>
      Rust.unaryRpcHandler (methods service.serviceName) responseScope) request with
    | .ok response => (.OK, response)
    | .error status => (errorStatus status, {})

/-! ### The mock enforcer -/

/-- `forwarded_request` of a unary call. It has neither the id nor the scopes of the request. -/
def forwardUnary (serviceName methodName : String) (datagram : Bytes) : InvokeIsolateRequest where
  controlPlaneMetadata := some
    { destinationServiceName := serviceName, destinationMethodName := methodName }
  isolateInput := some ⟨[datagram]⟩

/-- `MockEnforcerImpl::InvokeEz`. There is no result if it takes `datagrams(0)` where there is
none. -/
def invokeEz (routingTable : String → Option Str)
    (stub : Str → InvokeIsolateRequest → Status × InvokeIsolateResponse) (request : InvokeEzRequest) :
    Option (Status × InvokeEzResponse) :=
  let metadata := request.metadata
  match routingTable metadata.destinationServiceName with
  | none => some (⟨.unavailable, "Service not found"⟩, {})
  | some targetAddress =>
    match (request.isolateRequestPayload.getD {}).datagrams with
    | [] => none
    | datagram :: _ =>
      let forwarded := stub targetAddress
        (forwardUnary metadata.destinationServiceName metadata.destinationMethodName datagram)
      if forwarded.1.ok = false then some (forwarded.1, {})
      else
        match (forwarded.2.isolateOutput.getD {}).datagrams with
        | [] => none
        | output :: _ =>
          some (.OK,
            { ezResponsePayload := some ⟨[output]⟩
              controlPlaneMetadata := some { ipcMessageId := metadata.ipcMessageId } })

/-! ### The environment -/

/-- The services that the enforcer is started with, each with the isolate that `test_isolate` has
started for it. -/
structure Environment (Msg : Type) where
  services : List ServiceName
  isolate : ServiceName → Isolate Msg

/-- The names are such that the enforcer looks for every service where its isolate is, and for no two
at one place. Nothing checks this. -/
structure Environment.Reachable (environment : Environment Msg) : Prop where
  plain : ∀ service ∈ environment.services, Plain service.text
  apart : ∀ first ∈ environment.services, ∀ second ∈ environment.services,
    words first.text = words second.text → first = second

def ServiceName.ofString (name : String) : Option ServiceName :=
  if valid : name.toList.all (fun char => char.isAlphanum || char == '_') then
    some ⟨name.toList, by simpa using valid⟩
  else none

namespace Environment

variable (environment : Environment Msg)

def lookup (name : String) : Option Str :=
  (ServiceName.ofString name).bind (routingTable environment.services).lookup

/-- The isolate that listens at the address; `unreachable` is gRPC's status if there is none. -/
def stub (unreachable : Status) (address : Str) (request : InvokeIsolateRequest) :
    Status × InvokeIsolateResponse :=
  match environment.services.find? (fun service =>
    "unix://".toList ++ launcherSocket service == address) with
  | some service => (environment.isolate service).invokeIsolate request
  | none => (unreachable, {})

def enforcer (unreachable : Status) : InvokeEzRequest → Option (Status × InvokeEzResponse) :=
  invokeEz environment.lookup (environment.stub unreachable)

end Environment

/-! ### The callers -/

/-- A call through the Rust handler. -/
def rustCall {Req : Type} (handler : Rust.RpcHandler) (request : Rust.Codec Req)
    (response : Rust.Codec Resp) (methodName : String) (message : Req) (ipcMessageId : UInt64)
    (enforcer : InvokeEzRequest → Option (Status × InvokeEzResponse)) : Option (Except Status Resp) :=
  (enforcer (handler.createInvokeEzRequest ipcMessageId methodName (request.encodeToVec message))).map
    (fun reply => handler.isolateRpcCall request response methodName message ipcMessageId
      (fun _ => if reply.1.ok then .ok reply.2 else .error reply.1))

/-- A call through the generated C++ stub into `response`. -/
def cppCall (type : Client.ResponseType Resp) (target : Client.Target) (requestBytes : Bytes)
    (ipcMessageId : UInt64) (os : Nat → Client.MapOutcome) (receivedMemshares : List Client.Region)
    (response : Resp) (enforcer : InvokeEzRequest → Option (Status × InvokeEzResponse)) :
    Option (Client.StubResult Resp) :=
  let call := Client.stubCall target.operatorDomain target.serviceName target.methodName ipcMessageId
    requestBytes
  (enforcer call.request).bind (fun reply =>
    Client.Stub.result type (call.complete ⟨reply.1, reply.2, os⟩ receivedMemshares).1 response)

/-! ### What a call means -/

/-- What the isolate makes of the bytes of a call, apart from all envelopes. -/
def Isolate.answer (isolate : Isolate Msg) (serviceName methodName : String) (requestBytes : Bytes) :
    Except Status Bytes :=
  match isolate with
  | .cpp services currentState implementation =>
    if currentState ≠ isolateStateReady then .error (Bridge.notReady currentState)
    else
      match Bridge.findService services serviceName with
      | none => .error (Bridge.unsupported serviceName)
      | some service =>
        match Bridge.isolateRpcMethodHandler service methodName [requestBytes] with
        | .error status => .error status
        | .ok (method, message) =>
          let result := implementation method message
          if result.1.ok then .ok result.2 else .error result.1
  | .rust dispatcher methods _ =>
    if dispatcher.currentState ≠ isolateStateReady then
      .error ⟨.failedPrecondition,
        "Isolate is not ready. Current state: " ++ toString dispatcher.currentState⟩
    else
      match dispatcher.serviceMap.lookup serviceName with
      | none => .error ⟨.notFound, "Service not supported by isolate: " ++ serviceName⟩
      | some service =>
        match (methods service.serviceName).find? (fun method => method.name == methodName) with
        | none =>
          .error ⟨.unimplemented,
            "Method '" ++ methodName ++ "' is not implemented for this service."⟩
        | some method =>
          match method.request.decodeOrInvalid method.reqType requestBytes with
          | .error status => .error status
          | .ok message =>
            match method.implementation message with
            | .error status => .error (errorStatus status)
            | .ok response => .ok (method.response.encodeToVec response)

def Environment.answer (environment : Environment Msg) (serviceName methodName : String)
    (requestBytes : Bytes) : Except Status Bytes :=
  match environment.services.find? (fun service => service.text == serviceName.toList) with
  | none => .error ⟨.unavailable, "Service not found"⟩
  | some service => (environment.isolate service).answer serviceName methodName requestBytes

/-- The reply of an isolate that gives this answer. -/
def Replies (reply : Status × InvokeIsolateResponse) : Except Status Bytes → Prop
  | .error status => reply = (status, {}) ∧ status.ok = false
  | .ok output => reply.1.ok = true ∧ reply.2.isolateOutput = some ⟨[output]⟩

theorem errorStatus_failed (status : Status) : (errorStatus status).ok = false := by
  unfold errorStatus
  split
  · rfl
  · rename_i failed
    exact Bool.eq_false_iff.mpr failed

theorem errorStatus_of_failed {status : Status} (failed : status.ok = false) :
    errorStatus status = status := by
  rw [errorStatus, if_neg (Bool.eq_false_iff.mp failed)]

/-- The handler's own errors are not OK. -/
theorem isolateRpcMethodHandler_failed {service : Bridge.Service Msg} {methodName : String}
    {datagrams : List Bytes} {status : Status}
    (failed : Bridge.isolateRpcMethodHandler service methodName datagrams = .error status) :
    status.ok = false := by
  unfold Bridge.isolateRpcMethodHandler at failed
  split at failed
  · cases failed
    rfl
  · split at failed
    · cases failed
      rfl
    · cases failed

theorem decodeOrInvalid_failed {codec : Rust.Codec Msg} {reqType : String} {bytes : Bytes}
    {status : Status} (failed : codec.decodeOrInvalid reqType bytes = .error status) :
    status.ok = false := by
  unfold Rust.Codec.decodeOrInvalid at failed
  split at failed
  · cases failed
  · cases failed
    rfl

theorem cpp_replies (services : Bridge.ServiceMap Msg) (currentState : Int)
    (implementation : Bridge.Method Msg → Msg → Status × Bytes) (serviceName methodName : String)
    (requestBytes : Bytes) :
    Replies ((Isolate.cpp services currentState implementation).invokeIsolate
        (forwardUnary serviceName methodName requestBytes))
      ((Isolate.cpp services currentState implementation).answer serviceName methodName requestBytes) := by
  have named : (forwardUnary serviceName methodName requestBytes).metadata.destinationServiceName =
      serviceName := rfl
  have method : (forwardUnary serviceName methodName requestBytes).metadata.destinationMethodName =
      methodName := rfl
  have carried : (forwardUnary serviceName methodName requestBytes).datagrams = [requestBytes] := rfl
  simp only [Isolate.invokeIsolate, Isolate.answer, Bridge.invokeIsolate, Bridge.admitUnary_eq, named,
    method, carried]
  by_cases ready : currentState = isolateStateReady
  · cases found : Bridge.findService services serviceName with
    | none => simp [ready, Replies, Bridge.unsupported, Status.ok]
    | some service =>
      cases handled : Bridge.isolateRpcMethodHandler service methodName [requestBytes] with
      | error status =>
        have failed := isolateRpcMethodHandler_failed handled
        simp [ready, Replies, handled, failed]
      | ok request =>
        cases succeeded : (implementation request.1 request.2).1.ok with
        | false => simp [ready, Replies, handled, succeeded]
        | true => simp [ready, Replies, handled, succeeded, Bridge.forwardResponse]
  · simp [ready, Replies, Bridge.notReady, Status.ok]

theorem rust_replies (dispatcher : Rust.RpcDispatcher) (methods : String → List Rust.UnaryMethod)
    (responseScope : Int) (serviceName methodName : String) (requestBytes : Bytes) :
    Replies ((.rust dispatcher methods responseScope : Isolate Msg).invokeIsolate
        (forwardUnary serviceName methodName requestBytes))
      ((.rust dispatcher methods responseScope : Isolate Msg).answer serviceName methodName
        requestBytes) := by
  simp only [Isolate.invokeIsolate, Isolate.answer, Rust.RpcDispatcher.invokeIsolate,
    Rust.RpcDispatcher.resolveUnary, Rust.RpcDispatcher.resolveService, forwardUnary,
    Option.bind_some, List.head?_cons]
  by_cases ready : dispatcher.currentState = isolateStateReady
  · cases found : dispatcher.serviceMap.lookup serviceName with
    | none => simp [ready, Replies, errorStatus, Status.ok]
    | some service =>
      cases declared : (methods service.serviceName).find? (fun method => method.name == methodName) with
      | none => simp [ready, Rust.unaryRpcHandler, declared, Rust.attachMetadata, Replies, errorStatus, Status.ok]
      | some method =>
        cases decoded : method.request.decodeOrInvalid method.reqType requestBytes with
        | error status =>
          have failed := decodeOrInvalid_failed decoded
          simp [ready, Rust.unaryRpcHandler, declared, Rust.UnaryMethod.handle, decoded,
            Rust.attachMetadata, Replies, errorStatus, failed]
        | ok message =>
          cases made : method.implementation message with
          | error status =>
            simp [ready, Rust.unaryRpcHandler, declared, Rust.UnaryMethod.handle, decoded, made,
              Rust.attachMetadata, Replies, errorStatus_failed]
          | ok response =>
            simp [ready, Rust.unaryRpcHandler, declared, Rust.UnaryMethod.handle, decoded, made,
              Rust.attachMetadata, Rust.messageToInvokeIsolateResponse, Replies, Status.ok, Status.OK]
  · simp [ready, Replies, errorStatus, Status.ok]

theorem isolate_replies (isolate : Isolate Msg) (serviceName methodName : String)
    (requestBytes : Bytes) :
    Replies (isolate.invokeIsolate (forwardUnary serviceName methodName requestBytes))
      (isolate.answer serviceName methodName requestBytes) := by
  cases isolate with
  | cpp services currentState implementation =>
    exact cpp_replies services currentState implementation serviceName methodName requestBytes
  | rust dispatcher methods responseScope =>
    exact rust_replies dispatcher methods responseScope serviceName methodName requestBytes

/-! ### The way to the isolate and back -/

theorem ofString_text (name : String) (service : ServiceName) :
    ServiceName.ofString name = some service ↔ service.text = name.toList := by
  unfold ServiceName.ofString
  constructor
  · intro found
    split at found
    · cases found
      rfl
    · cases found
  · intro same
    have valid : name.toList.all (fun char => char.isAlphanum || char == '_') = true := by
      simpa [same] using service.valid
    rw [dif_pos valid]
    cases service
    cases same
    rfl

section Environment

variable (environment : Environment Msg)

theorem lookup_eq (name : String) :
    environment.lookup name = (environment.services.find? (fun service =>
      service.text == name.toList)).map enforcerSocket := by
  cases found : environment.services.find? (fun service => service.text == name.toList) with
  | some service =>
    have named : ServiceName.ofString name = some service :=
      (ofString_text name service).mpr (by simpa using List.find?_some found)
    have listed := List.mem_of_find?_eq_some found
    rw [Environment.lookup, named, Option.bind_some, lookup_routingTable, if_pos listed, Option.map_some]
  | none =>
    cases parsed : ServiceName.ofString name with
    | none => rw [Environment.lookup, parsed, Option.bind_none, Option.map_none]
    | some service =>
      have named := (ofString_text name service).mp parsed
      have unlisted : service ∉ environment.services := by
        intro listed
        have differs := List.find?_eq_none.mp found service listed
        simp [named] at differs
      rw [Environment.lookup, parsed, Option.bind_some, lookup_routingTable, if_neg unlisted,
        Option.map_none]

variable {environment} (reachable : environment.Reachable)

include reachable

theorem stub_enforcerSocket (unreachable : Status) {service : ServiceName}
    (listed : service ∈ environment.services) (request : InvokeIsolateRequest) :
    environment.stub unreachable (enforcerSocket service) request =
      (environment.isolate service).invokeIsolate request := by
  have found : environment.services.find? (fun other =>
      "unix://".toList ++ launcherSocket other == enforcerSocket service) = some service := by
    cases result : environment.services.find? (fun other =>
        "unix://".toList ++ launcherSocket other == enforcerSocket service) with
    | none =>
      have differs := List.find?_eq_none.mp result service listed
      rw [(enforcerSocket_eq_launcher_iff service).mpr (reachable.plain service listed)] at differs
      simp at differs
    | some other =>
      have member := List.mem_of_find?_eq_some result
      have reached := List.find?_some result
      rw [← (enforcerSocket_eq_launcher_iff other).mpr (reachable.plain other member), beq_iff_eq,
        enforcerSocket_eq_iff] at reached
      rw [reachable.apart other member service listed reached]
  rw [Environment.stub, found]

/-- The reply of the enforcer to a request with one datagram: the answer, under the request's id. -/
theorem enforcer_reply (unreachable : Status) (request : InvokeEzRequest) (requestBytes : Bytes)
    (carried : (request.isolateRequestPayload.getD {}).datagrams = [requestBytes]) :
    (∃ status, environment.answer request.metadata.destinationServiceName
        request.metadata.destinationMethodName requestBytes = .error status ∧ status.ok = false ∧
      environment.enforcer unreachable request = some (status, {})) ∨
    ∃ output, environment.answer request.metadata.destinationServiceName
        request.metadata.destinationMethodName requestBytes = .ok output ∧
      environment.enforcer unreachable request =
        some (.OK,
          { ezResponsePayload := some ⟨[output]⟩
            controlPlaneMetadata := some { ipcMessageId := request.metadata.ipcMessageId } }) := by
  have table := lookup_eq environment request.metadata.destinationServiceName
  cases found : environment.services.find? (fun service =>
      service.text == request.metadata.destinationServiceName.toList) with
  | none =>
    rw [found, Option.map_none] at table
    refine .inl ⟨⟨.unavailable, "Service not found"⟩, ?_, rfl, ?_⟩
    · rw [Environment.answer, found]
    · rw [Environment.enforcer, invokeEz, table]
  | some service =>
    rw [found, Option.map_some] at table
    have answered : environment.answer request.metadata.destinationServiceName
        request.metadata.destinationMethodName requestBytes =
        (environment.isolate service).answer request.metadata.destinationServiceName
          request.metadata.destinationMethodName requestBytes := by
      rw [Environment.answer, found]
    have replies := isolate_replies (environment.isolate service)
      request.metadata.destinationServiceName request.metadata.destinationMethodName requestBytes
    rw [← stub_enforcerSocket reachable unreachable (List.mem_of_find?_eq_some found), ← answered]
      at replies
    cases answer : environment.answer request.metadata.destinationServiceName
        request.metadata.destinationMethodName requestBytes with
    | error status =>
      rw [answer] at replies
      rcases replies with ⟨reply, failed⟩
      refine .inl ⟨status, rfl, failed, ?_⟩
      rw [Environment.enforcer, invokeEz, table]
      simp only [carried, reply, failed, if_true]
    | ok output =>
      rw [answer] at replies
      rcases replies with ⟨succeeded, produced⟩
      refine .inr ⟨output, rfl, ?_⟩
      rw [Environment.enforcer, invokeEz, table]
      simp [carried, succeeded, produced]

end Environment

/-- What a Rust caller makes of the answer. -/
def rustResult (response : Rust.Codec Resp) : Except Status Bytes → Except Status Resp
  | .error status => .error status
  | .ok output => response.decodeOrInternal output

/-- What a C++ caller has in its status and response. -/
def cppResult (type : Client.ResponseType Resp) (response : Resp) :
    Except Status Bytes → Client.StubResult Resp
  | .error status => ⟨status, response⟩
  | .ok output => ⟨.OK, (type.parseFromString response output).2⟩

section Calls

variable {environment : Environment Msg} (reachable : environment.Reachable) (unreachable : Status)
  (ipcMessageId : UInt64)

include reachable

theorem rust_call_answered {Req : Type} (handler : Rust.RpcHandler) (request : Rust.Codec Req)
    (response : Rust.Codec Resp) (methodName : String) (message : Req) :
    rustCall handler request response methodName message ipcMessageId
        (environment.enforcer unreachable) =
      some (rustResult response
        (environment.answer handler.serviceName methodName (request.encodeToVec message))) := by
  rcases enforcer_reply reachable unreachable
      (handler.createInvokeEzRequest ipcMessageId methodName (request.encodeToVec message))
      (request.encodeToVec message) rfl with ⟨status, answer, failed, reply⟩ | ⟨output, answer, reply⟩
  · have named : environment.answer handler.serviceName methodName (request.encodeToVec message) =
        .error status := answer
    rw [rustCall, reply, named]
    simp [Rust.RpcHandler.isolateRpcCall, Rust.RpcHandler.isolateRpcCallHelper, failed,
      Rust.decodeInvokeEzResponse, rustResult]
  · have named : environment.answer handler.serviceName methodName (request.encodeToVec message) =
        .ok output := answer
    rw [rustCall, reply, named]
    simp [Rust.RpcHandler.isolateRpcCall, Rust.RpcHandler.isolateRpcCallHelper,
      Rust.RpcHandler.createInvokeEzRequest, Rust.decodeInvokeEzResponse,
      Rust.extractInvokeEzResponse, rustResult, Status.ok, Status.OK, InvokeEzResponse.metadata,
      InvokeEzRequest.metadata]

theorem cpp_call_answered (type : Client.ResponseType Resp) (target : Client.Target)
    (requestBytes : Bytes) (os : Nat → Client.MapOutcome) (receivedMemshares : List Client.Region)
    (response : Resp) :
    cppCall type target requestBytes ipcMessageId os receivedMemshares response
        (environment.enforcer unreachable) =
      some (cppResult type response
        (environment.answer target.serviceName target.methodName requestBytes)) := by
  rcases enforcer_reply reachable unreachable
      (Client.stubCall target.operatorDomain target.serviceName target.methodName ipcMessageId
        requestBytes).request requestBytes rfl with ⟨status, answer, failed, reply⟩ | ⟨output, answer, reply⟩
  · have named : environment.answer target.serviceName target.methodName requestBytes =
        .error status := answer
    rw [cppCall, reply, named]
    simp [Client.Stub.result, Client.Call.complete, Client.Call.callback, Client.Call.isolateRpcCall,
      Client.stubCall, failed, cppResult]
  · have named : environment.answer target.serviceName target.methodName requestBytes =
        .ok output := answer
    rw [cppCall, reply, named]
    simp [Client.Stub.result, Client.Call.complete, Client.Call.callback, Client.Call.isolateRpcCall,
      Client.stubCall, Client.unaryRequest, Client.processHandles, cppResult, Status.ok, Status.OK,
      InvokeEzResponse.metadata, InvokeEzRequest.metadata, InvokeEzResponse.datagrams]

end Calls

/-! ### Messages -/

/-- A unary rpc as the generated code of both SDKs has it. -/
structure Contract (Msg Resp : Type) where
  serviceName : String
  methodName : String
  request : Parity.RequestType Msg
  response : Parity.ResponseType Resp

/-- What the user's method is to do; an error is not OK. -/
structure Implementation (Msg Resp : Type) where
  run : Msg → Except Status Resp
  failed : ∀ message status, run message = .error status → status.ok = false

/-- The status and the serialized response of a C++ method are for this result. -/
def Returns (contract : Contract Msg Resp) (returned : Status × Bytes) : Except Status Resp → Prop
  | .ok made => returned.1.ok = true ∧ contract.response.cpp.parsed returned.2 = some made
  | .error status => returned.1 = status

/-- The isolate is ready and has the rpc with this implementation. -/
inductive Implements (contract : Contract Msg Resp) (implementation : Implementation Msg Resp) :
    Isolate Msg → Prop where
  | cpp (services : Bridge.ServiceMap Msg) (code : Bridge.Method Msg → Msg → Status × Bytes)
      (service : Bridge.Service Msg) (method : Bridge.Method Msg)
      (registered : Bridge.findService services contract.serviceName = some service)
      (declared : service.unaryMethod contract.methodName = some method)
      (takes : contract.request.Of method)
      (returns : ∀ message, Returns contract (code method message) (implementation.run message)) :
      Implements contract implementation (.cpp services isolateStateReady code)
  | rust (dispatcher : Rust.RpcDispatcher) (methods : String → List Rust.UnaryMethod)
      (responseScope : Int) (service : Rust.IsolateRpcService)
      (ready : dispatcher.currentState = isolateStateReady)
      (registered : dispatcher.serviceMap.lookup contract.serviceName = some service)
      (declared : (methods service.serviceName).find? (fun method =>
        method.name == contract.methodName) = some ⟨Msg, Resp, contract.methodName,
          contract.request.name, contract.request.codec, contract.response.codec, implementation.run⟩) :
      Implements contract implementation (.rust dispatcher methods responseScope)

/-- The answer carries this result. -/
def Carries (contract : Contract Msg Resp) (answer : Except Status Bytes) : Except Status Resp → Prop
  | .ok made => ∃ output, answer = .ok output ∧ contract.response.cpp.parsed output = some made
  | .error status => answer = .error status

section Transparency

variable (contract : Contract Msg Resp) (implementation : Implementation Msg Resp)

theorem implements_carries {isolate : Isolate Msg}
    (implements : Implements contract implementation isolate) (message : Msg) (requestBytes : Bytes)
    (serialized : contract.request.mergeFromString contract.request.emptyRequest requestBytes =
      some message) :
    Carries contract (isolate.answer contract.serviceName contract.methodName requestBytes)
      (implementation.run message) := by
  cases implements with
  | cpp services code service method registered declared takes returns =>
    have merged : Bridge.mergeProtobin method [requestBytes] = some message := by
      rw [Parity.mergeProtobin_eq contract.request method takes]
      simpa [Parity.RequestType.mergeAll] using serialized
    have handled : Bridge.isolateRpcMethodHandler service contract.methodName [requestBytes] =
        .ok (method, message) := by
      simp only [Bridge.isolateRpcMethodHandler, declared, merged]
    have returned := returns message
    cases made : implementation.run message with
    | error status =>
      rw [made] at returned
      have status_eq : (code method message).1 = status := returned
      have failed := implementation.failed message status made
      simp [Carries, Isolate.answer, registered, handled, status_eq, failed]
    | ok response =>
      rw [made] at returned
      exact ⟨(code method message).2,
        by simp [Isolate.answer, registered, handled, returned.1], returned.2⟩
  | rust dispatcher methods responseScope service ready registered declared =>
    have decoded : contract.request.codec.decode requestBytes = .ok message :=
      (contract.request.parsesAlike requestBytes message).mpr serialized
    cases made : implementation.run message with
    | error status =>
      have failed := implementation.failed message status made
      simp [Carries, Isolate.answer, ready, registered, declared, Rust.Codec.decodeOrInvalid,
        decoded, made, errorStatus_of_failed failed]
    | ok response =>
      refine ⟨contract.response.codec.encodeToVec response, ?_, ?_⟩
      · simp [Isolate.answer, ready, registered, declared, Rust.Codec.decodeOrInvalid, decoded, made]
      · exact (contract.response.parsesAlike _ response).mp (contract.response.codec.decode_encode response)

theorem rustResult_carries {answer : Except Status Bytes} {result : Except Status Resp}
    (carries : Carries contract answer result) : rustResult contract.response.codec answer = result := by
  cases result with
  | error status =>
    have failed : answer = .error status := carries
    rw [failed, rustResult]
  | ok made =>
    rcases carries with ⟨output, answered, parsed⟩
    have decoded := (contract.response.parsesAlike output made).mpr parsed
    rw [answered, rustResult, Rust.Codec.decodeOrInternal, decoded]

/-- What a C++ caller has after a call with this result. -/
def stubResult (response : Resp) : Except Status Resp → Client.StubResult Resp
  | .ok made => ⟨.OK, made⟩
  | .error status => ⟨status, response⟩

theorem cppResult_carries (response : Resp) {answer : Except Status Bytes}
    {result : Except Status Resp} (carries : Carries contract answer result) :
    cppResult contract.response.cpp response answer = stubResult response result := by
  cases result with
  | error status =>
    have failed : answer = .error status := carries
    rw [failed, cppResult, stubResult]
  | ok made =>
    rcases carries with ⟨output, answered, parsed⟩
    have content := (contract.response.cpp.parses_iff response output made).mpr parsed
    rw [answered, cppResult, content, stubResult]

theorem environment_answer (environment : Environment Msg) {service : ServiceName}
    (listed : service ∈ environment.services) (named : service.text = contract.serviceName.toList)
    (requestBytes : Bytes) :
    environment.answer contract.serviceName contract.methodName requestBytes =
      (environment.isolate service).answer contract.serviceName contract.methodName requestBytes := by
  have found : environment.services.find? (fun other => other.text == contract.serviceName.toList) =
      some service := by
    cases result : environment.services.find? (fun other =>
        other.text == contract.serviceName.toList) with
    | none => simpa [named] using List.find?_eq_none.mp result service listed
    | some other =>
      have same : other.text = service.text := by simpa [named] using List.find?_some result
      cases other
      cases service
      cases same
      rfl
  rw [Environment.answer, found]

end Transparency

/-- A unary rpc is transparent for all four pairs of SDKs: a caller in either language gets what
the implementation, in either language, makes of its message, and a C++ caller's response is as it
was if that is an error. -/
theorem unary_rpc_transparent {environment : Environment Msg} (reachable : environment.Reachable)
    (unreachable : Status) (contract : Contract Msg Resp) (implementation : Implementation Msg Resp)
    (service : ServiceName)
    (listed : service ∈ environment.services) (named : service.text = contract.serviceName.toList)
    (implements : Implements contract implementation (environment.isolate service))
    (message : Msg) (ipcMessageId : UInt64) :
    (∀ operatorDomain requestScope,
      rustCall ⟨operatorDomain, contract.serviceName, requestScope⟩ contract.request.codec
          contract.response.codec contract.methodName message ipcMessageId
          (environment.enforcer unreachable) =
        some (implementation.run message)) ∧
    ∀ operatorDomain ezInstanceId requestBytes os receivedMemshares response,
      contract.request.mergeFromString contract.request.emptyRequest requestBytes = some message →
      cppCall contract.response.cpp
          ⟨operatorDomain, contract.serviceName, contract.methodName, ezInstanceId⟩ requestBytes
          ipcMessageId os receivedMemshares response (environment.enforcer unreachable) =
        some (stubResult response (implementation.run message)) := by
  have answered (requestBytes : Bytes)
      (serialized : contract.request.mergeFromString contract.request.emptyRequest requestBytes =
        some message) :
      Carries contract (environment.answer contract.serviceName contract.methodName requestBytes)
        (implementation.run message) := by
    rw [environment_answer contract environment listed named]
    exact implements_carries contract implementation implements message requestBytes serialized
  constructor
  · intro operatorDomain requestScope
    have serialized := (contract.request.parsesAlike _ message).mp
      (contract.request.codec.decode_encode message)
    rw [rust_call_answered reachable, rustResult_carries contract (answered _ serialized)]
  · intro operatorDomain ezInstanceId requestBytes os receivedMemshares response serialized
    rw [cpp_call_answered reachable, cppResult_carries contract response (answered requestBytes serialized)]

namespace FlagCalls

def flags : ServiceName := ⟨"Flags".toList, valid_of_all (by decide)⟩

def toggles : ServiceName := ⟨"Toggles".toList, valid_of_all (by decide)⟩

/-- The two services have an rpc with the same types. -/
def contract (serviceName : String) : Contract Bool UInt8 :=
  ⟨serviceName, "SetFlag", Parity.flagType, Parity.byteType⟩

def unset : Status := ⟨.invalidArgument, "unset"⟩

def setFlag : Implementation Bool UInt8 where
  run flag := if flag then .ok 1 else .error unset
  failed := by
    intro flag status made
    cases flag with
    | true => cases made
    | false =>
      cases made
      rfl

def cppIsolate : Isolate Bool :=
  .cpp [Parity.setFlag.service] isolateStateReady
    (fun _ flag => if flag then (.OK, [1]) else (unset, []))

def rustIsolate : Isolate Bool :=
  .rust (Rust.RpcDispatcher.new (Rust.generatedService "Toggles" [] 0)) (fun _ =>
    [⟨Bool, UInt8, "SetFlag", "Flag", Parity.flagCodec, Parity.byteType.codec, setFlag.run⟩]) 0

/-- A C++ isolate and a Rust isolate. -/
def environment : Environment Bool where
  services := [flags, toggles]
  isolate service := if service = flags then cppIsolate else rustIsolate

theorem reachable : environment.Reachable where
  plain service member := by
    apply (kebabCase_eq_script_iff service).mp
    rcases List.mem_pair.mp member with same | same
    · rw [same]
      decide +kernel
    · rw [same]
      decide +kernel
  apart := by decide

theorem cppIsolate_implements : Implements (contract "Flags") setFlag cppIsolate := by
  refine .cpp _ _ Parity.setFlag.service Parity.setFlag.method rfl rfl Parity.setFlag.takes ?_
  intro flag
  cases flag with
  | true => exact ⟨rfl, rfl⟩
  | false => rfl

theorem rustIsolate_implements : Implements (contract "Toggles") setFlag rustIsolate :=
  .rust _ _ _ (Rust.generatedService "Toggles" [] 0) rfl rfl rfl

end FlagCalls

/-- The C++ caller gets the error of the Rust isolate, and the Rust caller the byte of the C++
isolate. -/
theorem flag_calls_transparent :
    cppCall Parity.byteType.cpp ⟨"example.com", "Toggles", "SetFlag", ""⟩ [8, 0] 5
        (fun _ => .mapped ⟨0, 0⟩) [] 9 (FlagCalls.environment.enforcer Status.OK) =
      some ⟨FlagCalls.unset, 9⟩ ∧
    rustCall ⟨"example.com", "Flags", 0⟩ Parity.flagCodec Parity.byteType.codec "SetFlag" true 5
        (FlagCalls.environment.enforcer Status.OK) = some (.ok 1) :=
  ⟨(unary_rpc_transparent FlagCalls.reachable Status.OK (FlagCalls.contract "Toggles")
      FlagCalls.setFlag FlagCalls.toggles (by decide) rfl FlagCalls.rustIsolate_implements false 5).2
      "example.com" "" [8, 0] _ [] 9 rfl,
    (unary_rpc_transparent FlagCalls.reachable Status.OK (FlagCalls.contract "Flags")
      FlagCalls.setFlag FlagCalls.flags (by decide) rfl FlagCalls.cppIsolate_implements true 5).1
      "example.com" 0⟩

/-- Where the names allow it, the enforcer answers every call of either SDK, whatever the isolate's
state, services and code are, and the caller gets what the isolate has made of its bytes: no id is mixed up, no payload is
missing, and no error comes from in between, but that the enforcer does not know the service. -/
theorem unary_call_answered {environment : Environment Msg} (reachable : environment.Reachable)
    (unreachable : Status) (ipcMessageId : UInt64) {Req : Type} :
    (∀ (handler : Rust.RpcHandler) (request : Rust.Codec Req) (response : Rust.Codec Resp)
        (methodName : String) (message : Req),
      rustCall handler request response methodName message ipcMessageId
          (environment.enforcer unreachable) =
        some (rustResult response
          (environment.answer handler.serviceName methodName (request.encodeToVec message)))) ∧
    ∀ (type : Client.ResponseType Resp) (target : Client.Target) (requestBytes : Bytes)
        (os : Nat → Client.MapOutcome) (receivedMemshares : List Client.Region) (response : Resp),
      cppCall type target requestBytes ipcMessageId os receivedMemshares response
          (environment.enforcer unreachable) =
        some (cppResult type response
          (environment.answer target.serviceName target.methodName requestBytes)) :=
  ⟨rust_call_answered reachable unreachable ipcMessageId,
    cpp_call_answered reachable unreachable ipcMessageId⟩

/-- The enforcer does not know `Lamps`. -/
theorem unknown_service_answered :
    rustCall ⟨"example.com", "Lamps", 0⟩ Parity.flagCodec Parity.byteType.codec "SetFlag" true 5
      (FlagCalls.environment.enforcer Status.OK) =
        some (.error ⟨.unavailable, "Service not found"⟩) :=
  (unary_call_answered FlagCalls.reachable Status.OK 5).1 ⟨"example.com", "Lamps", 0⟩ Parity.flagCodec
    Parity.byteType.codec "SetFlag" true

end EzSdk.Local
