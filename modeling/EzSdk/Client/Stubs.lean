import EzSdk.Client.Calls

/-! What the client code generated from `grpc.pb.h.jinja2` and
`client_reader_writer.h.jinja2` makes of the bridge's answers: the two unary stubs, and
the reads of a stream. -/

namespace EzSdk.Client

variable {Msg : Type}

/-- A response type. `ParseFromString` clears the message first, so what a successful
parse leaves depends on the bytes only. What a failed one leaves can be anything. -/
structure ResponseType (Msg : Type) where
  parseFromString : Msg → Bytes → Bool × Msg
  parsed : Bytes → Option Msg
  parses_iff : ∀ response bytes message,
    parseFromString response bytes = (true, message) ↔ parsed bytes = some message

/-! ### Unary stubs -/

/-- What the caller of a unary stub learns: the status, and the content that
`*response` then has. -/
structure StubResult (Msg : Type) where
  status : Status
  response : Msg
  deriving DecidableEq

/-- The call that both stubs issue, into a string of their own. -/
def stubCall (operatorDomain serviceName methodName : String) (ipcMessageId : UInt64)
    (requestBytes : Bytes) : Call where
  request := unaryRequest ⟨operatorDomain, serviceName, methodName, ""⟩ ipcMessageId requestBytes
  ipcMessageId := ipcMessageId
  untouched := []
  responseBytes := []
  completion := none
  callbacks := []

/-- The function that `AsyncStub` passes as callback. The result of the parse is not
looked at. -/
def AsyncStub.callback (type : ResponseType Msg) (responseBytes : Bytes) (response : Msg)
    (status : Status) : StubResult Msg :=
  if status.ok then ⟨status, (type.parseFromString response responseBytes).2⟩
  else ⟨status, response⟩

/-- The invocations of the user's callback. -/
def AsyncStub.results (type : ResponseType Msg) (call : Call) (response : Msg) :
    List (StubResult Msg) :=
  call.callbacks.map (AsyncStub.callback type call.responseBytes response)

/-- The blocking stub, which returns once `IsolateRpcCall` does. -/
def Stub.result (type : ResponseType Msg) (call : Call) (response : Msg) :
    Option (StubResult Msg) :=
  match call.isolateRpcCall with
  | none => none
  | some responseStatus =>
    if responseStatus.ok then
      some ⟨responseStatus, (type.parseFromString response call.responseBytes).2⟩
    else some ⟨responseStatus, response⟩

/-- What either stub reports for a completed call. -/
theorem stub_results (type : ResponseType Msg) (call : Call) (response : Msg) (status : Status)
    (told : call.callbacks = [status]) :
    AsyncStub.results type call response =
        [AsyncStub.callback type call.responseBytes response status] ∧
      Stub.result type call response =
        some (AsyncStub.callback type call.responseBytes response status) := by
  have returned : call.isolateRpcCall = some status := by simp [Call.isolateRpcCall, told]
  refine ⟨by simp [AsyncStub.results, told], ?_⟩
  simp only [Stub.result, returned, AsyncStub.callback]
  split <;> rfl

/-! ### Reads of a stream -/

/-- A response that arrives on a stream, with what mapping its handles does. -/
structure Incoming where
  response : InvokeEzResponse
  os : Nat → MapOutcome

/-- The reading side of a `ClientReaderWriter`: what its `real_stream_` still holds, and
the client's received regions. -/
structure Reader where
  unread : List Incoming
  receivedMemshares : List Region

/-- `Read`: its result, the content of `*response` and the reader after it. -/
def Reader.read (type : ResponseType Msg) (response : Msg) (reader : Reader) :
    Bool × Msg × Reader :=
  match reader.unread with
  | [] => (false, response, reader)
  | incoming :: unread =>
    match processHandles incoming.os incoming.response.metadata.sharedMemoryHandles
      reader.receivedMemshares with
    | (.error _ _, regions) => (false, response, ⟨unread, regions⟩)
    | (.ok, regions) =>
      match incoming.response.datagrams with
      | [] => (false, response, ⟨unread, regions⟩)
      | datagram :: _ =>
        let result := type.parseFromString response datagram
        (result.1, result.2, ⟨unread, regions⟩)

/-- The client calls `Read` until it returns false, each time with a message of its own
choice: the messages that it got, and the reader that is left. -/
inductive Reads (type : ResponseType Msg) : Reader → List Msg → Reader → Prop where
  | stop (reader after : Reader) (response content : Msg)
      (result : reader.read type response = (false, content, after)) : Reads type reader [] after
  | next (reader after final : Reader) (response message : Msg) (delivered : List Msg)
      (result : reader.read type response = (true, message, after))
      (later : Reads type after delivered final) : Reads type reader (message :: delivered) final

/-- The payload of a response, decoded. -/
def Incoming.payload (type : ResponseType Msg) (incoming : Incoming) : Option Msg :=
  incoming.response.datagrams.head?.bind type.parsed

/-- All handles can be mapped, and there is a first datagram that parses. -/
def Incoming.Readable (type : ResponseType Msg) (incoming : Incoming) : Prop :=
  (∀ index < incoming.response.metadata.sharedMemoryHandles.length,
      (incoming.os index).isMapped = true) ∧
    (incoming.payload type).isSome = true

/-- The two ways in which `Read` deals with a response. -/
theorem read_cons (type : ResponseType Msg) (response : Msg) (incoming : Incoming)
    (unread : List Incoming) (regions : List Region) :
    (incoming.Readable type ∧ ∃ message stack, incoming.payload type = some message ∧
      (Reader.mk (incoming :: unread) regions).read type response = (true, message, ⟨unread, stack⟩)) ∨
    (¬ incoming.Readable type ∧ ∃ content stack,
      (Reader.mk (incoming :: unread) regions).read type response =
        (false, content, ⟨unread, stack⟩)) := by
  have mapped := processHandles_ok_iff incoming.os
    incoming.response.metadata.sharedMemoryHandles regions
  cases handled : processHandles incoming.os
      incoming.response.metadata.sharedMemoryHandles regions with
  | mk status stack =>
    rw [handled] at mapped
    cases status with
    | error codeName text =>
      refine .inr ⟨fun readable => ?_, response, stack, by simp only [Reader.read, handled]⟩
      exact absurd (mapped.mpr readable.1) (by simp)
    | ok =>
      cases datagrams : incoming.response.datagrams with
      | nil =>
        refine .inr ⟨fun readable => ?_, response, stack,
          by simp only [Reader.read, handled, datagrams]⟩
        simp [Incoming.Readable, Incoming.payload, datagrams] at readable
      | cons datagram rest =>
        have carried : incoming.payload type = type.parsed datagram := by
          simp [Incoming.payload, datagrams]
        have result : (Reader.mk (incoming :: unread) regions).read type response =
            ((type.parseFromString response datagram).1,
              (type.parseFromString response datagram).2, ⟨unread, stack⟩) := by
          simp only [Reader.read, handled, datagrams]
        cases parse : type.parseFromString response datagram with
        | mk success content =>
          rw [parse] at result
          cases success with
          | true =>
            have parsed := (type.parses_iff response datagram content).mp parse
            rw [← carried] at parsed
            exact .inl ⟨⟨mapped.mp rfl, by simp [parsed]⟩, content, stack, parsed, result⟩
          | false =>
            refine .inr ⟨fun readable => ?_, content, stack, result⟩
            obtain ⟨message, parsed⟩ := Option.isSome_iff_exists.mp readable.2
            rw [carried, ← type.parses_iff response datagram message, parse] at parsed
            cases parsed

theorem reads_exist (type : ResponseType Msg) (response : Msg) (sent : List Incoming)
    (regions : List Region) : ∃ delivered final, Reads type ⟨sent, regions⟩ delivered final := by
  induction sent generalizing regions with
  | nil => exact ⟨[], ⟨[], regions⟩, .stop _ _ response response rfl⟩
  | cons incoming unread ih =>
    rcases read_cons type response incoming unread regions with
      ⟨_, message, stack, _, result⟩ | ⟨_, content, stack, result⟩
    · obtain ⟨delivered, final, later⟩ := ih stack
      exact ⟨message :: delivered, final, .next _ _ _ response message delivered result later⟩
    · exact ⟨[], ⟨unread, stack⟩, .stop _ _ response content result⟩

theorem delivered_all_iff (type : ResponseType Msg) (reader final : Reader) (delivered : List Msg)
    (reads : Reads type reader delivered final) :
    reader.unread.map (Incoming.payload type) = delivered.map some ↔
      ∀ incoming ∈ reader.unread, incoming.Readable type := by
  induction reads with
  | stop reader after response content result =>
    obtain ⟨unread, regions⟩ := reader
    cases unread with
    | nil => simp
    | cons incoming unread =>
      rcases read_cons type response incoming unread regions with
        ⟨_, message, stack, _, success⟩ | ⟨unreadable, _⟩
      · rw [success] at result
        cases result
      · simp [unreadable]
  | next reader after final response message delivered result _ ih =>
    obtain ⟨unread, regions⟩ := reader
    cases unread with
    | nil => cases result
    | cons incoming unread =>
      rcases read_cons type response incoming unread regions with
        ⟨readable, content, stack, carried, success⟩ | ⟨_, content, stack, failure⟩
      · rw [success] at result
        cases result
        simpa [carried, readable] using ih
      · rw [failure] at result
        cases result

/-- What gRPC's `Finish` returns when these responses have not been read and the rpc ended
with the status. With nothing left to read it is that status; before that it need not
return. -/
structure Transport where
  finish : List Incoming → Status → Option Status
  finish_read : ∀ final, finish [] final = some final

/-- `Finish` returned OK. -/
def FinishedOk (finished : Option Status) : Prop := ∃ status ∈ finished, status.ok = true

/-- After a `Finish` that returned OK, the client has had the payloads of all responses
that were sent, in order. -/
def NotTruncated (type : ResponseType Msg) (sent : List Incoming) (delivered : List Msg)
    (finished : Option Status) : Prop :=
  FinishedOk finished → sent.map (Incoming.payload type) = delivered.map some

/-- The client's reading ends, and the stream is not truncated silently exactly when
`Finish` does not return OK after a response that could not be read. -/
theorem notTruncated_iff_readable (type : ResponseType Msg) (transport : Transport)
    (response : Msg) (sent : List Incoming) (regions : List Region) (final : Status) :
    (∃ delivered after, Reads type ⟨sent, regions⟩ delivered after) ∧
      ∀ delivered after, Reads type ⟨sent, regions⟩ delivered after →
        (NotTruncated type sent delivered (transport.finish after.unread final) ↔
          (FinishedOk (transport.finish after.unread final) →
            ∀ incoming ∈ sent, incoming.Readable type)) := by
  refine ⟨reads_exist type response sent regions, ?_⟩
  intro delivered after reads
  have all := delivered_all_iff type ⟨sent, regions⟩ after delivered reads
  constructor
  · intro complete finished
    exact all.mp (complete finished)
  · intro readable finished
    exact all.mpr (readable finished)

/-- A response type with one byte as its message. -/
def byteType : ResponseType UInt8 where
  parseFromString
    | _, [byte] => (true, byte)
    | _, _ => (false, 0)
  parsed
    | [byte] => some byte
    | _ => none
  parses_iff := by
    intro response bytes message
    split <;> simp

/-- A transport whose `Finish` always returns. -/
def returningTransport : Transport := ⟨fun _ final => some final, fun _ => rfl⟩

/-- A response without handles. -/
def plainResponse (datagrams : List Bytes) : Incoming where
  response := { ezResponsePayload := some ⟨datagrams⟩ }
  os := fun _ => .mapped ⟨0, 0⟩

/-- A response with a payload, and a handle that cannot be mapped. -/
def unmappedResponse : Incoming where
  response :=
    { controlPlaneMetadata := some { sharedMemoryHandles := ["gone"] }
      ezResponsePayload := some ⟨[[8]]⟩ }
  os := fun _ => .openFailed ⟨"NOT_FOUND", "No such file or directory"⟩

theorem readable_stream_delivered :
    NotTruncated byteType [plainResponse [[7]]] [7] (returningTransport.finish [] .OK) := by
  have reads : Reads byteType ⟨[plainResponse [[7]]], []⟩ [7] ⟨[], []⟩ :=
    .next _ ⟨[], []⟩ _ 0 7 [] rfl (.stop _ _ 0 0 rfl)
  refine ((notTruncated_iff_readable byteType returningTransport 0 _ [] .OK).2 [7] ⟨[], []⟩ reads).mpr ?_
  intro _ incoming member
  rw [List.mem_singleton.mp member]
  exact ⟨by simp [plainResponse, InvokeEzResponse.metadata], rfl⟩

/-- A good response, then one on which `Read` fails, then OK: with every transport the
client has had one message of two. -/
theorem failed_read_truncates (bad : Incoming) (content : UInt8) (transport : Transport)
    (failure : (Reader.mk [bad] []).read byteType 0 = (false, content, ⟨[], []⟩)) :
    Reads byteType ⟨[plainResponse [[7]], bad], []⟩ [7] ⟨[], []⟩ ∧
      transport.finish [] .OK = some .OK ∧
      ¬ NotTruncated byteType [plainResponse [[7]], bad] [7] (transport.finish [] .OK) := by
  refine ⟨.next _ ⟨[bad], []⟩ _ 0 7 [] rfl (.stop _ _ 0 content failure),
    transport.finish_read .OK, fun complete => ?_⟩
  have lengths := congrArg List.length (complete ⟨.OK, transport.finish_read .OK, rfl⟩)
  exact absurd lengths (by simp)

/-- The second response does not parse, has no datagram, or has a handle that cannot be
mapped. -/
theorem unreadable_response_truncates :
    (Reads byteType ⟨[plainResponse [[7]], plainResponse [[1, 2]]], []⟩ [7] ⟨[], []⟩ ∧
      returningTransport.finish [] .OK = some .OK ∧
      ¬ NotTruncated byteType [plainResponse [[7]], plainResponse [[1, 2]]] [7]
        (returningTransport.finish [] .OK)) ∧
    (Reads byteType ⟨[plainResponse [[7]], plainResponse []], []⟩ [7] ⟨[], []⟩ ∧
      returningTransport.finish [] .OK = some .OK ∧
      ¬ NotTruncated byteType [plainResponse [[7]], plainResponse []] [7]
        (returningTransport.finish [] .OK)) ∧
    (Reads byteType ⟨[plainResponse [[7]], unmappedResponse], []⟩ [7] ⟨[], []⟩ ∧
      returningTransport.finish [] .OK = some .OK ∧
      ¬ NotTruncated byteType [plainResponse [[7]], unmappedResponse] [7]
        (returningTransport.finish [] .OK)) :=
  ⟨failed_read_truncates _ 0 _ rfl, failed_read_truncates _ 0 _ rfl, failed_read_truncates _ 0 _ rfl⟩

end EzSdk.Client
