import EzSdk.Examples.Summation
import EzSdk.Foundation.Postconditions
import EzSdk.Local.Unary

/-! The summation servers that leave each addition to `ArithmeticBackend`, in C++ and in Rust, against
the monolithic server. -/

namespace EzSdk.Summation

open Postconditions

structure AddRequest where
  left : Int64
  right : Int64

/-- A turn of the C++ server's loop. There is no result if the enforcer has died. -/
def cppAdd (call : AddRequest → Option (Client.StubResult Int64)) (left right : Int) : Except Fault Int :=
  match call ⟨.ofInt left, .ofInt right⟩ with
  | none => .error .undefined
  | some response =>
    if response.status.ok then .ok response.response.toInt
    else .error (.status ⟨.unavailable, "Backend error: " ++ response.status.message⟩)

/-- `IntegerSequence` of the C++ server. -/
def cppServer (call : AddRequest → Option (Client.StubResult Int64)) (request : IntegerSequenceRequest) :
    Except Fault Int := do
  let result ← forLoop (cppAdd call) request
  checkExpected .invalidArgument request result

/-- A turn of the loop of `process_sequence`. -/
def rustAdd (call : AddRequest → Option (Except Status Int64)) (left right : Int) : Except Fault Int :=
  match call ⟨.ofInt left, .ofInt right⟩ with
  | none => .error .undefined
  | some (.error status) => .error (.status status)
  | some (.ok sum) => .ok sum.toInt

/-- `process_sequence` of the Rust server. A Rust range ends without going past its end. -/
def rustServer (call : AddRequest → Option (Except Status Int64)) (request : IntegerSequenceRequest) :
    Except Fault Int := do
  let result ← (counted request.startAt request.endAt).foldlM (rustAdd call) 0
  checkExpected .internal request result

/-! ### Loops that agree -/

theorem addInt64_ok_iff (left right sum : Int) :
    addInt64 left right = .ok sum ↔ Fits (left + right) ∧ left + right = sum := by
  unfold addInt64 int64
  split
  · rename_i fits
    simp [fits]
  · rename_i outside
    simp [outside]

theorem addInt64_meets (left right : Int) :
    Meets (· = Fault.undefined) (fun _ => True) (addInt64 left right) := by
  unfold addInt64 int64
  split
  · trivial
  · rfl

/-- The monolithic loop fails only by overflow. -/
theorem forLoop_meets (request : IntegerSequenceRequest) :
    Meets (· = Fault.undefined) (fun _ => True) (forLoop addInt64 request) := by
  apply meets_foldlM (fun _ _ => True) _ ?_ _ [] 0 rfl trivial
  intro _ i _ result _ _
  apply meets_bind (addInt64_meets result i)
  intro sum _
  apply meets_bind (addInt64_meets i 1)
  intro _ _
  trivial

theorem fits_of_counted (request : IntegerSequenceRequest) {i : Int}
    (member : i ∈ counted request.startAt request.endAt) : Fits i := by
  have bounds := (mem_counted _ _ i).mp member
  exact ⟨le_trans request.startFits.1 bounds.1, lt_of_le_of_lt bounds.2 request.endFits.2⟩

section Loops

variable {add : Int → Int → Except Fault Int} {request : IntegerSequenceRequest} {result : Int}
  (adds : ∀ left right, Fits left → Fits right → Fits (left + right) → add left right = .ok (left + right))
  (summed : forLoop addInt64 request = .ok result)

include adds summed

/-- The C++ loop gives the same as the monolithic one if the backend adds. -/
theorem forLoop_agrees : forLoop add request = .ok result := by
  apply foldlM_ok_mono Fits ?_ (by decide) summed
  intro state stateFits i member next turn
  obtain ⟨sum, added, counts⟩ := bind_ok_iff.mp turn
  obtain ⟨fits, rfl⟩ := (addInt64_ok_iff state i sum).mp added
  obtain ⟨_, _, ⟨⟩⟩ := bind_ok_iff.mp counts
  exact ⟨bind_ok_iff.mpr ⟨_, adds state i stateFits (fits_of_counted request member) fits, counts⟩, fits⟩

theorem foldlM_agrees : (counted request.startAt request.endAt).foldlM add 0 = .ok result := by
  apply foldlM_ok_mono Fits ?_ (by decide) summed
  intro state stateFits i member next turn
  obtain ⟨sum, added, counts⟩ := bind_ok_iff.mp turn
  obtain ⟨fits, rfl⟩ := (addInt64_ok_iff state i sum).mp added
  obtain ⟨_, _, ⟨⟩⟩ := bind_ok_iff.mp counts
  exact ⟨adds state i stateFits (fits_of_counted request member) fits, fits⟩

end Loops

/-! ### The backend behind the enforcer -/

/-- The rpc `Add`, with the user's code in either language; what it does on overflow is open. -/
structure Backend where
  contract : Local.Contract AddRequest Int64
  code : Local.Implementation AddRequest Int64
  adds : ∀ request : AddRequest, Fits (request.left.toInt + request.right.toInt) →
    code.run request = .ok (request.left + request.right)

theorem Backend.run_ofInt (backend : Backend) {left right : Int} (leftFits : Fits left)
    (rightFits : Fits right) (fits : Fits (left + right)) :
    ∃ sum : Int64, backend.code.run ⟨.ofInt left, .ofInt right⟩ = .ok sum ∧ sum.toInt = left + right := by
  have leftSame : (Int64.ofInt left).toInt = left := Int64.toInt_ofInt_of_le leftFits.1 leftFits.2
  have rightSame : (Int64.ofInt right).toInt = right := Int64.toInt_ofInt_of_le rightFits.1 rightFits.2
  refine ⟨_, backend.adds ⟨.ofInt left, .ofInt right⟩ (by rw [leftSame, rightSame]; exact fits), ?_⟩
  rw [Int64.toInt_add, leftSame, rightSame]
  exact toInt64_of_fits fits

/-- What the callers put into their requests, besides the message. -/
structure Caller (backend : Backend) where
  serialize : AddRequest → Bytes
  serialized : ∀ request, backend.contract.request.mergeFromString
    backend.contract.request.emptyRequest (serialize request) = some request
  ipcMessageId : AddRequest → UInt64
  requestScope : Int
  os : Nat → Client.MapOutcome
  receivedMemshares : List Client.Region

section Refinement

variable {backend : Backend} (caller : Caller backend) (environment : Local.Environment AddRequest)
  (unreachable : Status)

/-- The stub of the C++ server, with a new response for each call. -/
def cppStub (request : AddRequest) : Option (Client.StubResult Int64) :=
  Local.cppCall backend.contract.response.cpp
    ⟨"playground_example", backend.contract.serviceName, backend.contract.methodName, ""⟩
    (caller.serialize request) (caller.ipcMessageId request) caller.os caller.receivedMemshares 0
    (environment.enforcer unreachable)

def rustStub (request : AddRequest) : Option (Except Status Int64) :=
  Local.rustCall ⟨"playground_example", backend.contract.serviceName, caller.requestScope⟩
    backend.contract.request.codec backend.contract.response.codec backend.contract.methodName request
    (caller.ipcMessageId request) (environment.enforcer unreachable)

variable {environment} (reachable : environment.Reachable) {service : Local.ServiceName}
  (listed : service ∈ environment.services)
  (named : service.text = backend.contract.serviceName.toList)
  (implements : Local.Implements backend.contract backend.code (environment.isolate service))

include reachable listed named implements

theorem cppAdd_adds (left right : Int) (leftFits : Fits left) (rightFits : Fits right)
    (fits : Fits (left + right)) :
    cppAdd (cppStub caller environment unreachable) left right = .ok (left + right) := by
  obtain ⟨sum, ran, same⟩ := backend.run_ofInt leftFits rightFits fits
  have carried := Local.implements_carries backend.contract backend.code implements
    ⟨.ofInt left, .ofInt right⟩ _ (caller.serialized _)
  rw [← Local.environment_answer backend.contract environment listed named, ran] at carried
  have answered := Local.cppResult_carries backend.contract 0 carried
  have stubbed : cppStub caller environment unreachable ⟨.ofInt left, .ofInt right⟩ =
      some (Local.stubResult 0 (.ok sum)) := by
    rw [cppStub, Local.cpp_call_answered reachable, answered]
  rw [cppAdd, stubbed, ← same]
  rfl

theorem rustAdd_adds (left right : Int) (leftFits : Fits left) (rightFits : Fits right)
    (fits : Fits (left + right)) :
    rustAdd (rustStub caller environment unreachable) left right = .ok (left + right) := by
  obtain ⟨sum, ran, same⟩ := backend.run_ofInt leftFits rightFits fits
  have encoded := (backend.contract.request.parsesAlike _ ⟨.ofInt left, .ofInt right⟩).mp
    (backend.contract.request.codec.decode_encode _)
  have carried := Local.implements_carries backend.contract backend.code implements
    ⟨.ofInt left, .ofInt right⟩ _ encoded
  rw [← Local.environment_answer backend.contract environment listed named, ran] at carried
  have answered := Local.rustResult_carries backend.contract carried
  have stubbed : rustStub caller environment unreachable ⟨.ofInt left, .ofInt right⟩ = some (.ok sum) := by
    rw [rustStub, Local.rust_call_answered reachable, answered]
  rw [rustAdd, stubbed, ← same]

/-- With a backend in either language behind the enforcer, both servers compute what the monolithic
one computes, for every request on which that one does not overflow. The Rust server says INTERNAL
where the others say INVALID_ARGUMENT. -/
theorem backend_servers_refine (request : IntegerSequenceRequest)
    (defined : monolithic request ≠ .error .undefined) :
    cppServer (cppStub caller environment unreachable) request = monolithic request ∧
      rustServer (rustStub caller environment unreachable) request =
        match monolithic request with
        | .error (.status status) => .error (.status { status with code := .internal })
        | outcome => outcome := by
  cases summed : forLoop addInt64 request with
  | error fault =>
    have overflow := (forLoop_meets request).error summed
    simp [monolithic, summed, overflow, bind, Except.bind] at defined
  | ok result =>
    have cpp := forLoop_agrees (cppAdd_adds caller unreachable reachable listed named implements) summed
    have rust := foldlM_agrees (rustAdd_adds caller unreachable reachable listed named implements) summed
    constructor
    · simp only [cppServer, monolithic, cpp, summed]
    · simp only [rustServer, monolithic, rust, summed, bind, Except.bind, checkExpected]
      split <;> rfl

end Refinement

/-! ### A backend in C++, with messages as protobuf writes them -/

namespace Protobin

/-- The groups of seven bits of a value, lowest first; there are at most so many after the first. -/
def writeVarint : Nat → Nat → Bytes
  | 0, value => [.ofNat value]
  | groups + 1, value =>
    if value < 128 then [.ofNat value]
    else .ofNat (value % 128 + 128) :: writeVarint groups (value / 128)

def readVarint : Nat → Bytes → Option (Nat × Bytes)
  | groups + 1, byte :: rest =>
    if byte.toNat < 128 then some (byte.toNat, rest)
    else (readVarint groups rest).map (fun read => (byte.toNat - 128 + 128 * read.1, read.2))
  | _, _ => none

theorem readVarint_writeVarint (groups value : Nat) (bound : value < 128 ^ (groups + 1)) (rest : Bytes) :
    readVarint (groups + 1) (writeVarint groups value ++ rest) = some (value, rest) := by
  induction groups generalizing value with
  | zero =>
    have whole : (UInt8.ofNat value).toNat = value := by rw [UInt8.toNat_ofNat']; omega
    have single : value < 128 := by simpa using bound
    simp [writeVarint, readVarint, whole, single]
  | succ groups ih =>
    by_cases single : value < 128
    · have whole : (UInt8.ofNat value).toNat = value := by rw [UInt8.toNat_ofNat']; omega
      simp [writeVarint, readVarint, whole, single]
    · have whole : (UInt8.ofNat (value % 128 + 128)).toNat = value % 128 + 128 := by
        rw [UInt8.toNat_ofNat']
        omega
      have less : value / 128 < 128 ^ (groups + 1) := by
        rw [Nat.div_lt_iff_lt_mul (by decide), ← Nat.pow_succ]
        exact bound
      have again : value % 128 + 128 * (value / 128) = value := Nat.mod_add_div value 128
      rw [writeVarint, if_neg single, List.cons_append, readVarint, whole, if_neg (by omega),
        ih (value / 128) less, Option.map_some, Nat.add_sub_cancel, again]

/-- A field that is zero is left out. -/
def int64Field (tag : UInt8) (value : Int64) : Bytes :=
  if value = 0 then [] else tag :: writeVarint 9 value.toUInt64.toNat

/-- Fields in any order, into a message; a tag that `set` does not know is an error here. -/
def readFields {Msg : Type} (set : UInt8 → Int64 → Msg → Option Msg) : Nat → Bytes → Msg → Option Msg
  | _, [], message => some message
  | 0, _ :: _, _ => none
  | fields + 1, tag :: rest, message =>
    (readVarint 10 rest).bind (fun read =>
      (set tag (UInt64.ofNat read.1).toInt64 message).bind (readFields set fields read.2))

variable {Msg : Type} {set : UInt8 → Int64 → Msg → Option Msg}

theorem readFields_int64Field {tag : UInt8} {value : Int64} {message next : Msg}
    (accepted : set tag value message = some next) (default : value = 0 → next = message) {rest : Bytes}
    {fields : Nat} (enough : (int64Field tag value ++ rest).length ≤ fields) :
    ∃ left, rest.length ≤ left ∧
      readFields set fields (int64Field tag value ++ rest) message = readFields set left rest next := by
  unfold int64Field at enough ⊢
  split
  · rename_i zero
    rw [if_pos zero] at enough
    exact ⟨fields, by simpa using enough, by rw [default zero]; rfl⟩
  · rename_i nonzero
    rw [if_neg nonzero] at enough
    obtain ⟨left, rfl⟩ : ∃ left, fields = left + 1 := by
      cases fields with
      | zero => simp at enough
      | succ left => exact ⟨left, rfl⟩
    have read := readVarint_writeVarint 9 value.toUInt64.toNat
      (lt_trans value.toUInt64.toNat_lt (by decide)) rest
    refine ⟨left, ?_, ?_⟩
    · simp only [List.cons_append, List.length_cons, List.length_append] at enough
      omega
    · have back : (UInt64.ofNat value.toUInt64.toNat).toInt64 = value := by
        rw [UInt64.ofNat_toNat, Int64.toInt64_toUInt64]
      rw [List.cons_append, readFields, read, Option.bind_some, back, accepted, Option.bind_some]

def parse (set : UInt8 → Int64 → Msg → Option Msg) (message : Msg) (bytes : Bytes) : Option Msg :=
  readFields set bytes.length bytes message

/-- A codec whose reader starts from the empty message. -/
def codec (set : UInt8 → Int64 → Msg → Option Msg) (empty : Msg) (write : Msg → Bytes)
    (parses : ∀ message, parse set empty (write message) = some message) : Rust.Codec Msg where
  encodeToVec := write
  decode bytes := (parse set empty bytes).elim (.error "invalid field") .ok
  decode_encode message := by rw [parses, Option.elim_some]

theorem decode_codec {empty : Msg} {write : Msg → Bytes}
    (parses : ∀ message, parse set empty (write message) = some message) (bytes : Bytes) (message : Msg) :
    (codec set empty write parses).decode bytes = .ok message ↔ parse set empty bytes = some message := by
  change (parse set empty bytes).elim (Except.error "invalid field") Except.ok = Except.ok message ↔ _
  cases parse set empty bytes <;> simp

def setRequest (tag : UInt8) (value : Int64) (request : AddRequest) : Option AddRequest :=
  if tag = 8 then some { request with left := value }
  else if tag = 16 then some { request with right := value }
  else none

theorem parse_request (request : AddRequest) :
    parse setRequest ⟨0, 0⟩ (int64Field 8 request.left ++ int64Field 16 request.right) = some request := by
  have first : setRequest 8 request.left ⟨0, 0⟩ = some ⟨request.left, 0⟩ := rfl
  have second : setRequest 16 request.right ⟨request.left, 0⟩ = some request := rfl
  obtain ⟨left, enough, read⟩ := readFields_int64Field first (fun zero => by rw [zero])
    (Nat.le_refl (int64Field 8 request.left ++ int64Field 16 request.right).length)
  have enoughToo : (int64Field 16 request.right ++ []).length ≤ left := by simpa using enough
  obtain ⟨rest, _, readToo⟩ := readFields_int64Field second (fun zero => by rw [← zero]) enoughToo
  rw [List.append_nil] at readToo
  rw [parse, read, readToo]
  simp [readFields]

def setSum (tag : UInt8) (value : Int64) (_ : Int64) : Option Int64 := if tag = 8 then some value else none

theorem parse_sum (sum : Int64) : parse setSum 0 (int64Field 8 sum) = some sum := by
  have only : setSum 8 sum 0 = some sum := rfl
  have enough : (int64Field 8 sum ++ []).length ≤ (int64Field 8 sum).length := by simp
  obtain ⟨rest, _, read⟩ := readFields_int64Field only (fun zero => zero) enough
  rw [List.append_nil] at read
  rw [parse, read]
  simp [readFields]

def requestType : Parity.RequestType AddRequest where
  name := "AddRequest"
  emptyRequest := ⟨0, 0⟩
  mergeFromString := parse setRequest
  codec := codec setRequest ⟨0, 0⟩ _ parse_request
  parsesAlike := decode_codec parse_request

def responseType : Parity.ResponseType Int64 where
  cpp :=
    { parseFromString := fun response bytes =>
        (parse setSum 0 bytes).elim (false, response) (fun sum => (true, sum))
      parsed := parse setSum 0
      parses_iff := by
        intro response bytes sum
        cases parse setSum 0 bytes <;> simp }
  codec := codec setSum 0 _ parse_sum
  parsesAlike := decode_codec parse_sum

def backend : Backend where
  contract := ⟨"ArithmeticBackend", "Add", requestType, responseType⟩
  code := ⟨fun request => .ok (request.left + request.right), fun _ _ failed => nomatch failed⟩
  adds _ _ := rfl

def caller : Caller backend where
  serialize := requestType.codec.encodeToVec
  serialized := parse_request
  ipcMessageId _ := 1
  requestScope := 0
  os _ := .mapped ⟨0, 0⟩
  receivedMemshares := []

def add : Bridge.Method AddRequest := ⟨"Add", false, false, ⟨0, 0⟩, requestType.mergeFromString⟩

def service : Bridge.Service AddRequest := ⟨"ArithmeticBackend", [add], by decide⟩

def name : Local.ServiceName := ⟨"ArithmeticBackend".toList, Local.valid_of_all (by decide)⟩

def environment : Local.Environment AddRequest where
  services := [name]
  isolate _ := .cpp [service] isolateStateReady (fun _ request =>
    (.OK, responseType.codec.encodeToVec (request.left + request.right)))

theorem reachable : environment.Reachable where
  plain other member := by
    apply (Local.kebabCase_eq_script_iff other).mp
    rw [List.mem_singleton.mp member]
    decide +kernel
  apart first member second other _ := by
    rw [List.mem_singleton.mp member, List.mem_singleton.mp other]

theorem implements : Local.Implements backend.contract backend.code (environment.isolate name) := by
  refine .cpp [service] _ service add rfl rfl ⟨rfl, rfl⟩ ?_
  intro request
  exact ⟨rfl, parse_sum _⟩

end Protobin

/-- The sum from 3 to 5 where 11 is expected: the two servers differ in the code. -/
theorem backend_servers_refine_mismatch :
    cppServer (cppStub Protobin.caller Protobin.environment .OK) ⟨3, 5, some 11, by decide, by decide⟩ =
      .error (.status ⟨.invalidArgument, "Expected result mismatch"⟩) ∧
    rustServer (rustStub Protobin.caller Protobin.environment .OK) ⟨3, 5, some 11, by decide, by decide⟩ =
      .error (.status ⟨.internal, "Expected result mismatch"⟩) :=
  backend_servers_refine Protobin.caller .OK Protobin.reachable (by decide) rfl Protobin.implements
    ⟨3, 5, some 11, by decide, by decide⟩ (by decide)

end EzSdk.Summation
