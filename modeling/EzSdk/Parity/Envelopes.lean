import EzSdk.Client.Stubs
import EzSdk.Rust.EndToEnd

/-! The envelopes of outgoing calls in the two SDKs: the `InvokeEzRequest` that each of
them builds, and what each makes of the payload of an `InvokeEzResponse`. -/

namespace EzSdk.Parity

/-! ### Requests -/

/-- The request with other values of the two locality fields. -/
def withLocality (requesterIsLocal responderIsLocal : Bool) (request : InvokeEzRequest) :
    InvokeEzRequest :=
  { request with
    controlPlaneMetadata := request.controlPlaneMetadata.map (fun metadata =>
      { metadata with requesterIsLocal := requesterIsLocal, responderIsLocal := responderIsLocal }) }

/-- For the same arguments and id, the two C++ builders agree and the Rust builder differs
from them in the two locality fields, always and in nothing else. -/
theorem invokeEz_requests_differ_in_locality (operatorDomain serviceName methodName : String)
    (payload : Bytes) (ipcMessageId written : UInt64) :
    let unary := Client.unaryRequest ⟨operatorDomain, serviceName, methodName, ""⟩ ipcMessageId payload
    let write := Client.ClientReaderWriter.request
      ⟨operatorDomain, serviceName, methodName, written⟩ ipcMessageId payload
    let rust := Rust.RpcHandler.createInvokeEzRequest
      ⟨operatorDomain, serviceName, dataScopeTypeUnspecified⟩ ipcMessageId methodName payload
    write = unary ∧ rust = withLocality true false unary ∧ unary = withLocality false true rust ∧
      unary ≠ rust ∧ write ≠ rust := by
  intro unary write rust
  have distinct : unary ≠ rust := by
    intro same
    have locality : unary.metadata.responderIsLocal = rust.metadata.responderIsLocal := by rw [same]
    cases locality
  exact ⟨rfl, rfl, rfl, distinct, distinct⟩

/-- The request of a call of the greeter, as each SDK puts it on the wire. -/
theorem greeter_requests_differ :
    Client.unaryRequest ⟨"example.com", "Greeter", "SayHello", ""⟩ 1 [10, 0] ≠
        Rust.RpcHandler.createInvokeEzRequest ⟨"example.com", "Greeter", dataScopeTypeUnspecified⟩ 1
          "SayHello" [10, 0] ∧
      (Client.unaryRequest ⟨"example.com", "Greeter", "SayHello", ""⟩ 1 [10, 0]).metadata.requesterIsLocal =
        false ∧
      (Rust.RpcHandler.createInvokeEzRequest ⟨"example.com", "Greeter", dataScopeTypeUnspecified⟩ 1
        "SayHello" [10, 0]).metadata.requesterIsLocal = true := by
  decide

theorem wire_locality (events : List Client.Event) (final : Client.State)
    (reached : Client.run events = some final) (sent : Client.Sent) (member : sent ∈ final.wire) :
    sent.request.metadata.responderIsLocal = true ∧
      sent.request.metadata.requesterIsLocal = false := by
  revert sent
  apply Runs.run_preserves (fun state : Client.State => ∀ sent ∈ state.wire,
    sent.request.metadata.responderIsLocal = true ∧ sent.request.metadata.requesterIsLocal = false)
    ?_ Client.newState final events ?_ reached
  · intro state event next marked taken sent member
    cases event with
    | registerLocalHandler serviceName handler =>
      cases taken
      exact marked sent member
    | asyncIsolateRpcCall target requestBytes responseBytes =>
      cases taken
      rw [Client.asyncIsolateRpcCall_eq] at member
      rcases List.mem_append.mp member with old | new
      · exact marked sent old
      · rw [List.mem_singleton.mp new]
        exact ⟨rfl, rfl⟩
    | invokeEzDone index completion =>
      obtain ⟨call, _, _, rfl⟩ := Client.step_invokeEzDone taken
      exact marked sent member
    | isolateStreamRpcCall operatorDomain serviceName methodName =>
      cases taken
      exact marked sent member
    | write index payload =>
      obtain ⟨stream, _, rfl⟩ := Client.step_write taken
      rcases List.mem_append.mp member with old | new
      · exact marked sent old
      · rw [List.mem_singleton.mp new]
        exact ⟨rfl, rfl⟩
  · simp [Client.newState]

/-- Nothing that a C++ client ever sends is a request that a Rust handler could send. -/
theorem wire_never_rust (events : List Client.Event) (final : Client.State)
    (reached : Client.run events = some final) (sent : Client.Sent) (member : sent ∈ final.wire)
    (handler : Rust.RpcHandler) (ipcMessageId : UInt64) (methodName : String) (payload : Bytes) :
    sent.request ≠ handler.createInvokeEzRequest ipcMessageId methodName payload := by
  intro same
  have marked := (wire_locality events final reached sent member).1
  rw [same] at marked
  cases marked

/-! ### Responses -/

variable {Msg : Type}

/-- A response type in both languages, whose parsers accept the same bytes. -/
structure ResponseType (Msg : Type) where
  cpp : Client.ResponseType Msg
  codec : Rust.Codec Msg
  parsesAlike : ∀ bytes message, codec.decode bytes = .ok message ↔ cpp.parsed bytes = some message

/-- A good answer of the bridge to a call with this id, with these bytes as its first
datagram. -/
structure Answer (bytes : Bytes) (ipcMessageId : UInt64) where
  completion : Client.Completion
  delivers : completion.Delivers ipcMessageId
  first : completion.response.datagrams.head? = some bytes

/-- The C++ stub and Rust give their callers the same: both an error, or both the same
message. -/
def DecodedAlike (stub : Client.StubResult Msg) : Except Status Msg → Prop
  | .ok message => stub.status.ok = true ∧ stub.response = message
  | .error _ => stub.status.ok = false

/-- With a good answer, both stubs report OK and whatever the parser left. -/
theorem stubs_report_ok (type : Client.ResponseType Msg) (operatorDomain serviceName methodName : String)
    (ipcMessageId : UInt64) (requestBytes bytes : Bytes) (answer : Answer bytes ipcMessageId)
    (regions : List Client.Region) (response : Msg) :
    let call := ((Client.stubCall operatorDomain serviceName methodName ipcMessageId
      requestBytes).complete answer.completion regions).1
    Client.AsyncStub.results type call response = [⟨.OK, (type.parseFromString response bytes).2⟩] ∧
      Client.Stub.result type call response = some ⟨.OK, (type.parseFromString response bytes).2⟩ := by
  intro call
  have completed : call.callbacks = [.OK] ∧ call.responseBytes = bytes := by
    rcases Client.complete_cases (Client.stubCall operatorDomain serviceName methodName ipcMessageId
      requestBytes) answer.completion regions with
      ⟨datagram, first, _, result⟩ | ⟨_, _, undelivered, _⟩
    · have same : bytes = datagram := Option.some.inj (answer.first.symm.trans first)
      refine ⟨?_, ?_⟩
      · exact congrArg Client.Call.callbacks result
      · exact (congrArg Client.Call.responseBytes result).trans same.symm
    · exact absurd answer.delivers undelivered
  have told := Client.stub_results type call response .OK completed.1
  rw [completed.2] at told
  exact told

theorem rust_call_decodes {Req : Type} (type : ResponseType Msg) (handler : Rust.RpcHandler)
    (request : Rust.Codec Req) (message : Req) (methodName : String) (ipcMessageId : UInt64)
    (bytes : Bytes) (answer : Answer bytes ipcMessageId) :
    handler.isolateRpcCall request type.codec methodName message ipcMessageId
      (fun _ => .ok answer.completion.response) = type.codec.decodeOrInternal bytes := by
  have echoed := answer.delivers.2.1
  have extracted : Rust.extractInvokeEzResponse answer.completion.response = .ok bytes := by
    have first := answer.first
    unfold InvokeEzResponse.datagrams at first
    cases payload : answer.completion.response.ezResponsePayload with
    | none =>
      rw [payload] at first
      cases first
    | some data =>
      rw [payload, Option.getD_some] at first
      simp [Rust.extractInvokeEzResponse, payload, first]
  simp [Rust.RpcHandler.isolateRpcCall, Rust.RpcHandler.isolateRpcCallHelper, echoed,
    Rust.decodeInvokeEzResponse, extracted]

/-- Both stubs and Rust agree on an answer exactly when its bytes parse. Otherwise Rust
reports an error, and the stubs OK with what the failed parse left in `*response`. -/
theorem stubs_decode_like_rust_iff {Req : Type} (type : ResponseType Msg) (handler : Rust.RpcHandler)
    (operatorDomain serviceName methodName : String) (request : Rust.Codec Req) (message : Req)
    (cppId rustId : UInt64) (bytes : Bytes) (cppAnswer : Answer bytes cppId)
    (rustAnswer : Answer bytes rustId) (regions : List Client.Region) (response : Msg) :
    let call := ((Client.stubCall operatorDomain serviceName methodName cppId
      (request.encodeToVec message)).complete cppAnswer.completion regions).1
    let rust := handler.isolateRpcCall request type.codec methodName message rustId
      (fun _ => .ok rustAnswer.completion.response)
    (∃ async sync, Client.AsyncStub.results type.cpp call response = [async] ∧
        Client.Stub.result type.cpp call response = some sync ∧
        DecodedAlike async rust ∧ DecodedAlike sync rust) ↔
      ∃ decoded, type.codec.decode bytes = .ok decoded := by
  intro call rust
  have decodes : rust = type.codec.decodeOrInternal bytes :=
    rust_call_decodes type handler request message methodName rustId bytes rustAnswer
  obtain ⟨asyncOk, syncOk⟩ := stubs_report_ok type.cpp operatorDomain serviceName methodName cppId
    (request.encodeToVec message) bytes cppAnswer regions response
  rw [decodes]
  cases result : type.codec.decode bytes with
  | error text =>
    have failed : type.codec.decodeOrInternal bytes = .error ⟨.internal, text⟩ := by
      rw [Rust.Codec.decodeOrInternal, result]
    constructor
    · rintro ⟨async, sync, reported, _, alike, _⟩
      have same := List.singleton_inj.mp (asyncOk.symm.trans reported)
      rw [failed, ← same] at alike
      cases alike
    · rintro ⟨decoded, impossible⟩
      cases impossible
  | ok decoded =>
    have succeeded : type.codec.decodeOrInternal bytes = .ok decoded := by
      rw [Rust.Codec.decodeOrInternal, result]
    have parsed := (type.cpp.parses_iff response bytes decoded).mpr
      ((type.parsesAlike bytes decoded).mp result)
    have alike : DecodedAlike ⟨.OK, (type.cpp.parseFromString response bytes).2⟩
        (type.codec.decodeOrInternal bytes) := by
      rw [succeeded, parsed]
      exact ⟨rfl, rfl⟩
    exact ⟨fun _ => ⟨decoded, rfl⟩, fun _ => ⟨_, _, asyncOk, syncOk, alike, alike⟩⟩

/-- Messages of one byte. -/
def byteType : ResponseType UInt8 where
  cpp := Client.byteType
  codec :=
    { encodeToVec := fun byte => [byte]
      decode := fun bytes => match bytes with
        | [byte] => .ok byte
        | _ => .error "unexpected end group tag"
      decode_encode := fun _ => rfl }
  parsesAlike := by
    intro bytes message
    simp only [Client.byteType]
    split <;> simp

/-- An answer with one datagram and no handles. -/
def plainAnswer (bytes : Bytes) (ipcMessageId : UInt64) : Answer bytes ipcMessageId where
  completion :=
    { status := .OK
      response :=
        { controlPlaneMetadata := some { ipcMessageId := ipcMessageId }
          ezResponsePayload := some ⟨[bytes]⟩ }
      os := fun _ => .mapped ⟨0, 0⟩ }
  delivers := ⟨rfl, rfl, fun _ bound => absurd bound (Nat.not_lt_zero _), List.cons_ne_nil _ _⟩
  first := rfl

/-- Two bytes are no message: Rust says so, and both stubs report OK. -/
theorem malformed_response_reported_ok :
    let call := ((Client.stubCall "example.com" "Greeter" "SayHello" 1 [3]).complete
      (plainAnswer [1, 2] 1).completion []).1
    byteType.cpp.parsed [1, 2] = none ∧
      Client.AsyncStub.results byteType.cpp call 9 = [⟨.OK, 0⟩] ∧
      Client.Stub.result byteType.cpp call 9 = some ⟨.OK, 0⟩ ∧
      Rust.RpcHandler.isolateRpcCall ⟨"example.com", "Greeter", 0⟩ byteType.codec byteType.codec
        "SayHello" 3 5 (fun _ => .ok (plainAnswer [1, 2] 5).completion.response) =
        .error ⟨.internal, "unexpected end group tag"⟩ := by
  refine ⟨rfl, ?_, ?_, ?_⟩ <;> rfl

end EzSdk.Parity
