import EzSdk.Bridge.Unary
import EzSdk.Rust.Unary

/-! How the four server entry points turn a payload into the message that a service
gets: unary and streaming, in C++ and in Rust. -/

namespace EzSdk.Parity

variable {Msg : Type}

/-- A request type in both languages. `decode` of prost is `MergeFromString` into an
empty message. -/
structure RequestType (Msg : Type) where
  name : String
  emptyRequest : Msg
  mergeFromString : Msg → Bytes → Option Msg
  codec : Rust.Codec Msg
  parsesAlike : ∀ bytes message,
    codec.decode bytes = .ok message ↔ mergeFromString emptyRequest bytes = some message

/-- The C++ rpc takes requests of the type. -/
structure RequestType.Of (type : RequestType Msg) (method : Bridge.Method Msg) : Prop where
  emptyRequest : method.emptyRequest = type.emptyRequest
  mergeFromString : method.mergeFromString = type.mergeFromString

/-- A unary rpc of a C++ service. -/
structure UnaryRpc (type : RequestType Msg) where
  service : Bridge.Service Msg
  method : Bridge.Method Msg
  declared : service.unaryMethod method.name = some method
  takes : type.Of method

/-- An open stream of a bidirectional rpc of a C++ service. -/
structure BidiRpc (type : RequestType Msg) where
  adapter : Bridge.Adapter Msg
  takes : type.Of adapter.method

/-- A request for the rpc. -/
def UnaryRpc.request {type : RequestType Msg} (rpc : UnaryRpc type)
    (metadata : ControlPlaneMetadata) (payload : EzPayloadData) : InvokeIsolateRequest where
  controlPlaneMetadata := some
    { metadata with
      destinationServiceName := rpc.service.serviceName
      destinationMethodName := rpc.method.name }
  isolateInput := some payload

/-- A message of a stream; only its payload matters to the decoding. -/
def streamMessage (metadata : Option ControlPlaneMetadata) (payload : EzPayloadData) :
    InvokeIsolateRequest where
  controlPlaneMetadata := metadata
  isolateInput := some payload

/-- `ForwardRequest`, then the generated `IsolateRpcMethodHandler`. -/
def UnaryRpc.decode {type : RequestType Msg} (rpc : UnaryRpc type)
    (metadata : ControlPlaneMetadata) (payload : EzPayloadData) : Except Status Msg :=
  match Bridge.forwardRequest rpc.service (rpc.request metadata payload) with
  | .error status => .error status
  | .ok requestBytes =>
    match Bridge.isolateRpcMethodHandler rpc.service rpc.method.name requestBytes with
    | .error status => .error status
    | .ok (_, message) => .ok message

/-- `ForwardRequest` of the stream's ServerReaderWriter. -/
def BidiRpc.decode {type : RequestType Msg} (rpc : BidiRpc type)
    (metadata : Option ControlPlaneMetadata) (payload : EzPayloadData) : Except Status Msg :=
  match rpc.adapter.parse (streamMessage metadata payload) with
  | some message => .ok message
  | none => .error (rpc.adapter.forwardRequest (streamMessage metadata payload)).1

/-- All reject, or all hand over the same message. -/
def Alike (results : List (Except Status Msg)) : Prop :=
  (∀ result ∈ results, result.toOption = none) ∨
    ∃ message, ∀ result ∈ results, result.toOption = some message

/-- The members of a list have one value in common exactly when they have the first one's. -/
theorem one_value_iff {Made Value : Type} (value : Made → Value) (first : Made) (rest : List Made) :
    (∃ common, ∀ made ∈ first :: rest, value made = common) ↔
      ∀ made ∈ rest, value made = value first := by
  simp only [List.forall_mem_cons]
  constructor
  · rintro ⟨common, head, tail⟩ made member
    rw [tail made member, head]
  · exact fun same => ⟨value first, rfl, same⟩

theorem alike_iff (first : Except Status Msg) (rest : List (Except Status Msg)) :
    Alike (first :: rest) ↔ ∀ result ∈ rest, result.toOption = first.toOption := by
  rw [← one_value_iff Except.toOption]
  constructor
  · rintro (rejected | ⟨message, handed⟩)
    · exact ⟨none, rejected⟩
    · exact ⟨some message, handed⟩
  · rintro ⟨_ | message, same⟩
    · exact .inl same
    · exact .inr ⟨message, same⟩

section

variable (type : RequestType Msg)

/-- All datagrams merged into an empty message. -/
def RequestType.mergeAll (datagrams : List Bytes) : Option Msg :=
  datagrams.foldlM type.mergeFromString type.emptyRequest

/-- The message of the first datagram. -/
def RequestType.parseFirst (datagrams : List Bytes) : Option Msg :=
  datagrams.head?.bind (type.mergeFromString type.emptyRequest)

theorem mergeProtobin_eq (method : Bridge.Method Msg) (takes : type.Of method)
    (datagrams : List Bytes) : Bridge.mergeProtobin method datagrams = type.mergeAll datagrams := by
  rw [Bridge.mergeProtobin, takes.emptyRequest, takes.mergeFromString, RequestType.mergeAll]

theorem decode_toOption (bytes : Bytes) :
    (type.codec.decode bytes).toOption = type.mergeFromString type.emptyRequest bytes := by
  cases decoded : type.codec.decode bytes with
  | ok message => exact ((type.parsesAlike bytes message).mp decoded).symm
  | error text =>
    cases merged : type.mergeFromString type.emptyRequest bytes with
    | none => rfl
    | some message =>
      have accepted := (type.parsesAlike bytes message).mpr merged
      rw [decoded] at accepted
      cases accepted

theorem unaryRpc_decode (rpc : UnaryRpc type) (metadata : ControlPlaneMetadata)
    (payload : EzPayloadData) :
    (rpc.decode metadata payload).toOption =
      if payload.datagrams = [] then none else type.mergeAll payload.datagrams := by
  have named : (rpc.request metadata payload).metadata.destinationServiceName =
      rpc.service.serviceName := rfl
  have carried : (rpc.request metadata payload).datagrams = payload.datagrams := rfl
  by_cases empty : payload.datagrams = []
  · simp [UnaryRpc.decode, Bridge.forwardRequest, named, carried, empty, Except.toOption]
  · rw [if_neg empty, ← mergeProtobin_eq type rpc.method rpc.takes]
    cases merged : Bridge.mergeProtobin rpc.method payload.datagrams with
    | none =>
      simp [UnaryRpc.decode, Bridge.forwardRequest, named, carried, empty, Except.toOption,
        Bridge.isolateRpcMethodHandler, rpc.declared, merged]
    | some message =>
      simp [UnaryRpc.decode, Bridge.forwardRequest, named, carried, empty, Except.toOption,
        Bridge.isolateRpcMethodHandler, rpc.declared, merged]

theorem bidiRpc_decode (rpc : BidiRpc type) (metadata : Option ControlPlaneMetadata)
    (payload : EzPayloadData) :
    (rpc.decode metadata payload).toOption = type.mergeAll payload.datagrams := by
  have parses : rpc.adapter.parse (streamMessage metadata payload) =
      type.mergeAll payload.datagrams := mergeProtobin_eq type _ rpc.takes _
  unfold BidiRpc.decode
  rw [parses]
  cases merged : type.mergeAll payload.datagrams with
  | none => rfl
  | some message => rfl

theorem rust_unaryMessage (request : InvokeIsolateRequest) (payload : EzPayloadData)
    (carried : request.isolateInput = some payload) :
    (Rust.unaryMessage type.codec type.name request).toOption =
      type.parseFirst payload.datagrams := by
  unfold Rust.unaryMessage RequestType.parseFirst
  rw [carried, Option.bind_some]
  cases first : payload.datagrams.head? with
  | none => rfl
  | some bytes =>
    rw [Option.bind_some, ← decode_toOption]
    cases decoded : type.codec.decode bytes <;>
      simp [Rust.Codec.decodeOrInvalid, decoded, Except.toOption]

theorem rust_requestToMessage (metadata : Option ControlPlaneMetadata) (payload : EzPayloadData) :
    (Rust.requestToMessage type.codec (.ok (streamMessage metadata payload))).toOption =
      type.parseFirst payload.datagrams := by
  have carried : (streamMessage metadata payload).isolateInput = some payload := rfl
  unfold RequestType.parseFirst
  cases first : payload.datagrams.head? with
  | none => simp [Rust.requestToMessage, carried, first, Except.toOption]
  | some bytes =>
    rw [Option.bind_some, ← decode_toOption]
    cases decoded : type.codec.decode bytes <;>
      simp [Rust.requestToMessage, carried, first, Rust.Codec.decodeOrInternal, decoded,
        Except.toOption]

/-- There is a first datagram, and it does not parse or the others merge into its message
without changing it. -/
def RequestType.FirstDecides (datagrams : List Bytes) : Prop :=
  ∃ first rest, datagrams = first :: rest ∧
    ∀ message ∈ type.mergeFromString type.emptyRequest first,
      rest.foldlM type.mergeFromString message = some message

theorem mergeAll_eq_parseFirst_iff (first : Bytes) (rest : List Bytes) :
    type.mergeAll (first :: rest) = type.parseFirst (first :: rest) ↔
      type.FirstDecides (first :: rest) := by
  have decides : type.FirstDecides (first :: rest) ↔
      ∀ message ∈ type.mergeFromString type.emptyRequest first,
        rest.foldlM type.mergeFromString message = some message := by
    constructor
    · rintro ⟨_, _, same, unchanged⟩
      cases same
      exact unchanged
    · exact fun unchanged => ⟨first, rest, rfl, unchanged⟩
  rw [decides]
  unfold RequestType.mergeAll RequestType.parseFirst
  rw [List.foldlM_cons, List.head?_cons, Option.bind_some]
  cases parsed : type.mergeFromString type.emptyRequest first with
  | none => simp
  | some message => simp

/-- The entry points of both SDKs do the same with a payload exactly when it has a first
datagram and the other datagrams make no difference. -/
theorem payload_decoded_alike_iff (unary : UnaryRpc type) (bidi : BidiRpc type)
    (unaryMetadata : ControlPlaneMetadata) (streamMetadata : Option ControlPlaneMetadata)
    (payload : EzPayloadData) :
    Alike [unary.decode unaryMetadata payload,
        bidi.decode streamMetadata payload,
        Rust.unaryMessage type.codec type.name (unary.request unaryMetadata payload),
        Rust.requestToMessage type.codec (.ok (streamMessage streamMetadata payload))] ↔
      type.FirstDecides payload.datagrams := by
  have unaryRust := rust_unaryMessage type (unary.request unaryMetadata payload) payload rfl
  rw [alike_iff]
  simp only [List.mem_cons, List.not_mem_nil, or_false, forall_eq_or_imp, forall_eq,
    unaryRpc_decode, bidiRpc_decode, unaryRust, rust_requestToMessage]
  cases carried : payload.datagrams with
  | nil => simp [RequestType.mergeAll, RequestType.FirstDecides]
  | cons first rest =>
    rw [if_neg (List.cons_ne_nil first rest), ← mergeAll_eq_parseFirst_iff]
    constructor
    · exact fun same => same.2.1.symm
    · exact fun same => ⟨rfl, same.symm, same.symm⟩

end

/-- `MergeFromString` of a message with one bool field, on the encodings that concrete
payloads use. -/
def mergeFlag (flag : Bool) : Bytes → Option Bool
  | [] => some flag
  | [8, 0] => some false
  | [8, 1] => some true
  | _ => none

def flagCodec : Rust.Codec Bool where
  encodeToVec flag := if flag then [8, 1] else []
  decode bytes := match mergeFlag false bytes with
    | some flag => .ok flag
    | none => .error "invalid wire type"
  decode_encode := by decide

def flagType : RequestType Bool where
  name := "Flag"
  emptyRequest := false
  mergeFromString := mergeFlag
  codec := flagCodec
  parsesAlike := by
    intro bytes flag
    cases merged : mergeFlag false bytes <;> simp [flagCodec, merged]

def setFlag : UnaryRpc flagType where
  service := ⟨"Flags", [⟨"SetFlag", false, false, false, mergeFlag⟩], by decide⟩
  method := ⟨"SetFlag", false, false, false, mergeFlag⟩
  declared := rfl
  takes := ⟨rfl, rfl⟩

def streamFlags : BidiRpc flagType where
  adapter := ⟨0, "Flags", ⟨"StreamFlags", true, true, false, mergeFlag⟩, 1, [], [], [], false⟩
  takes := ⟨rfl, rfl⟩

/-- What the four entry points make of a payload for these rpcs. -/
def flagResults (payload : EzPayloadData) : List (Except Status Bool) :=
  [setFlag.decode {} payload, streamFlags.decode none payload,
    Rust.unaryMessage flagType.codec flagType.name (setFlag.request {} payload),
    Rust.requestToMessage flagType.codec (.ok (streamMessage none payload))]

/-- No datagram: only the C++ stream hands a message to its service. Two datagrams: C++
merges both, Rust takes the first. -/
theorem payload_decoded_differently :
    ((flagResults ⟨[]⟩).map Except.toOption = [none, some false, none, none] ∧
      ¬ Alike (flagResults ⟨[]⟩)) ∧
    ((flagResults ⟨[[8, 1], [8, 0]]⟩).map Except.toOption =
        [some false, some false, some true, some true] ∧
      ¬ Alike (flagResults ⟨[[8, 1], [8, 0]]⟩)) := by
  refine ⟨⟨rfl, ?_⟩, rfl, ?_⟩
  · intro alike
    have same := (alike_iff _ _).mp alike (streamFlags.decode none ⟨[]⟩) (by simp)
    cases same
  · intro alike
    have same := (alike_iff _ _).mp alike _ (List.mem_cons_of_mem _ List.mem_cons_self)
    cases same

end EzSdk.Parity
