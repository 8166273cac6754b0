import EzSdk.Client.Calls
import Mathlib.Algebra.Group.Int.Defs
import Mathlib.Algebra.Group.Nat.Defs

/-! Shared memory of `isolate_ez_bridge_client`: the regions that calls receive, and the
regions that the isolate creates. -/

namespace EzSdk.Client

/-- What a `T*` can hold here. A local `char*` is indeterminate until it is assigned. -/
inductive Pointer where
  | null
  | indeterminate
  | mapFailed
  | address (start : Nat)
  deriving DecidableEq

/-- A `Vec<T>`: where its items start, and how many there are. -/
structure Vec where
  data : Pointer
  size : Nat
  deriving DecidableEq

/-- `Vec()`. -/
def Vec.empty : Vec := ⟨.null, 0⟩

/-- The conversion of a `size_t` to `int`. -/
def toInt (value : Nat) : Int := (value + 2 ^ 31 : Int) % 2 ^ 32 - 2 ^ 31

/-- The conversion of an unsigned 64-bit value to `int64_t`. -/
def toInt64 (value : Int) : Int := (value + 2 ^ 63) % 2 ^ 64 - 2 ^ 63

/-- The conversion of an integer to `size_t`. -/
def toSize (value : Int) : Nat := (value % 2 ^ 64).toNat

/-! ### Received regions -/

def receiveMemShareInternal : List Region → Vec × List Region
  | [] => (.empty, [])
  | region :: receivedMemshares => (⟨.address region.start, region.size⟩, receivedMemshares)

/-- `ReceiveMemShare<T>` for a type of the given size. -/
def receiveMemShare (sizeOf : Nat) (receivedMemshares : List Region) : Vec × List Region :=
  let (vec, rest) := receiveMemShareInternal receivedMemshares
  let numItems := vec.size / sizeOf
  let remainder := toInt (vec.size % sizeOf)
  if remainder = 0 then (⟨vec.data, numItems⟩, rest) else (.empty, rest)

/-- What the next calls of `ReceiveMemShareInternal` return, and what they leave. -/
def receiveNext : Nat → List Region → List Vec × List Region
  | 0, receivedMemshares => ([], receivedMemshares)
  | count + 1, receivedMemshares =>
    let (vec, rest) := receiveMemShareInternal receivedMemshares
    let later := receiveNext count rest
    (vec :: later.1, later.2)

def Region.vec (region : Region) : Vec := ⟨.address region.start, region.size⟩

theorem receiveNext_append (regions rest : List Region) :
    receiveNext regions.length (regions ++ rest) = (regions.map Region.vec, rest) := by
  induction regions with
  | nil => rfl
  | cons region regions ih =>
    simp only [List.length_cons, List.cons_append, receiveNext, receiveMemShareInternal, ih,
      List.map_cons]
    rfl

/-- The regions of the handles up to the first that cannot be mapped, in handle order. -/
def mappedRegions (os : Nat → MapOutcome) : List String → List Region
  | [] => []
  | _ :: handles =>
    match os 0 with
    | .mapped region => region :: mappedRegions (fun index => os (index + 1)) handles
    | _ => []

theorem processHandles_regions (os : Nat → MapOutcome) (handles : List String)
    (regions : List Region) :
    (processHandles os handles regions).2 = (mappedRegions os handles).reverse ++ regions := by
  induction handles generalizing os regions with
  | nil => rfl
  | cons handle handles ih =>
    cases outcome : os 0 with
    | mapped region =>
      simp only [processHandles, mappedRegions, outcome, processReceivedSharedMemoryHandle, ih,
        List.reverse_cons, List.append_assoc, List.singleton_append]
    | _ =>
      simp only [processHandles, mappedRegions, outcome, processReceivedSharedMemoryHandle,
        errnoToStatus, List.reverse_nil, List.nil_append]

theorem mappedRegions_all (os : Nat → MapOutcome) (handles : List String)
    (mapped : ∀ index < handles.length, (os index).isMapped = true) :
    (mappedRegions os handles).length = handles.length ∧
      ∀ index region, (mappedRegions os handles)[index]? = some region →
        os index = .mapped region := by
  induction handles generalizing os with
  | nil => simp [mappedRegions]
  | cons handle handles ih =>
    have first := mapped 0 (by simp)
    cases outcome : os 0 with
    | mapped region =>
      obtain ⟨length, each⟩ := ih (fun index => os (index + 1))
        (fun index bound => mapped (index + 1) (by simpa using bound))
      refine ⟨by simp [mappedRegions, outcome, length], ?_⟩
      intro index found present
      cases index with
      | zero =>
        have same : region = found := by simpa [mappedRegions, outcome] using present
        rw [outcome, same]
      | succ index => exact each index found (by simpa [mappedRegions, outcome] using present)
    | _ => simp [outcome, MapOutcome.isMapped] at first

/-- A first handle that cannot be mapped leaves nothing behind. -/
theorem mappedRegions_eq_nil (os : Nat → MapOutcome) (handles : List String) :
    mappedRegions os handles = [] ↔ (handles ≠ [] → (os 0).isMapped = false) := by
  cases handles with
  | nil => simp [mappedRegions]
  | cons handle handles => cases outcome : os 0 <;> simp [mappedRegions, outcome, MapOutcome.isMapped]

/-- A call changes the received regions all or not at all: a failure leaves them as they
were, and success adds one region for each handle, in order, so that the next receives
return them last first. -/
def Call.Atomic (call : Call) (completion : Completion) (receivedMemshares : List Region) : Prop :=
  ∃ status, (call.complete completion receivedMemshares).1.isolateRpcCall = some status ∧
    (status.ok = false →
      (call.complete completion receivedMemshares).2 = receivedMemshares) ∧
    (status.ok = true → ∃ regions : List Region,
      regions.length = completion.response.metadata.sharedMemoryHandles.length ∧
      (∀ index region, regions[index]? = some region → completion.os index = .mapped region) ∧
      receiveNext completion.response.metadata.sharedMemoryHandles.length
          (call.complete completion receivedMemshares).2 =
        (regions.reverse.map Region.vec, receivedMemshares))

/-- If the handles of an answer are looked at and the first of them can be mapped, then the
answer is good. -/
def Completion.AllOrNone (completion : Completion) (ipcMessageId : UInt64) : Prop :=
  completion.status.ok = true → completion.response.metadata.ipcMessageId = ipcMessageId →
    completion.response.metadata.sharedMemoryHandles ≠ [] → (completion.os 0).isMapped = true →
    completion.Delivers ipcMessageId

theorem complete_regions (call : Call) (completion : Completion) (regions : List Region) :
    (call.complete completion regions).2 =
      if completion.status.ok = true ∧ completion.response.metadata.ipcMessageId = call.ipcMessageId
      then (mappedRegions completion.os
        completion.response.metadata.sharedMemoryHandles).reverse ++ regions
      else regions := by
  by_cases failed : completion.status.ok = false
  · simp [Call.complete, failed]
  by_cases same : completion.response.metadata.ipcMessageId = call.ipcMessageId
  · have pushed := processHandles_regions completion.os
      completion.response.metadata.sharedMemoryHandles regions
    have succeeded : completion.status.ok = true := by simpa using failed
    cases result : processHandles completion.os
        completion.response.metadata.sharedMemoryHandles regions with
    | mk status stack =>
      rw [result] at pushed
      rw [if_pos ⟨succeeded, same⟩, ← pushed]
      cases status with
      | error codeName message => simp [Call.complete, succeeded, same, result]
      | ok =>
        cases datagrams : completion.response.datagrams <;>
          simp [Call.complete, succeeded, same, result, datagrams]
  · simp [Call.complete, failed, same]

theorem failed_call_untouched_iff (call : Call) (completion : Completion)
    (receivedMemshares : List Region) :
    call.Atomic completion receivedMemshares ↔ completion.AllOrNone call.ipcMessageId := by
  have stack := complete_regions call completion receivedMemshares
  rcases complete_cases call completion receivedMemshares with
    ⟨datagram, _, delivers, result⟩ | ⟨status, failed, undelivered, result⟩
  · refine ⟨fun _ _ _ _ _ => delivers, fun _ => ⟨.OK, ?_, (fun bad => nomatch bad), fun _ => ?_⟩⟩
    · rw [result]
      simp [Call.isolateRpcCall]
    · rw [if_pos ⟨delivers.1, delivers.2.1⟩] at stack
      obtain ⟨length, each⟩ := mappedRegions_all completion.os
        completion.response.metadata.sharedMemoryHandles delivers.2.2.1
      refine ⟨_, length, each, ?_⟩
      rw [stack, ← length, ← List.length_reverse]
      exact receiveNext_append _ receivedMemshares
  · have told : (call.complete completion receivedMemshares).1.isolateRpcCall = some status := by
      rw [result]
      simp [Call.isolateRpcCall]
    constructor
    · rintro ⟨other, said, untouched, _⟩ succeeded same present mapped
      have is : status = other := Option.some.inj (told.symm.trans said)
      subst is
      have kept := untouched failed
      rw [stack, if_pos ⟨succeeded, same⟩, List.append_left_eq_self, List.reverse_eq_nil_iff,
        mappedRegions_eq_nil] at kept
      exact absurd (kept present) (by simp [mapped])
    · intro all
      refine ⟨status, told, fun _ => ?_, fun ok => ?_⟩
      · rw [stack]
        by_cases looked : completion.status.ok = true ∧
            completion.response.metadata.ipcMessageId = call.ipcMessageId
        · rw [if_pos looked, List.append_left_eq_self, List.reverse_eq_nil_iff, mappedRegions_eq_nil]
          intro present
          by_contra mapped
          exact undelivered (all looked.1 looked.2 present (by simpa using mapped))
        · rw [if_neg looked]
      · rw [failed] at ok
        cases ok

/-- The answer to the first call: two handles, of which the second cannot be opened. -/
def halfMapped : Completion where
  status := .OK
  response :=
    { controlPlaneMetadata := some
        { ipcMessageId := 1, sharedMemoryHandles := ["memshare/a", "memshare/b"] }
      ezResponsePayload := some ⟨[[10, 0]]⟩ }
  os := fun index =>
    if index = 0 then .mapped ⟨4096, 16⟩ else .openFailed ⟨"NOT_FOUND", "No such file or directory"⟩

def firstCall : Call := ⟨unaryRequest ⟨"example.com", "Greeter", "SayHello", ""⟩ 1 [10, 0], 1, [], [], none, []⟩

theorem failed_call_leaves_region :
    (firstCall.complete halfMapped []).1.callbacks =
        [⟨.internal, "NOT_FOUND: Failed to open mmap file: /memshare/b: No such file or directory"⟩] ∧
      (firstCall.complete halfMapped []).2 = [⟨4096, 16⟩] ∧ ¬ firstCall.Atomic halfMapped [] := by
  refine ⟨rfl, rfl, ?_⟩
  rintro ⟨status, told, untouched, _⟩
  cases told
  exact absurd (untouched rfl) (by decide)

/-! ### Sequences of receives -/

/-- A call returns the newest region as items that cover exactly its bytes and removes it, or
returns nothing and leaves the regions alone. -/
def Keeps (pending : List Region) (sizeOf : Nat) : Prop :=
  (∃ region rest, pending = region :: rest ∧ sizeOf ∣ region.size ∧
      receiveMemShare sizeOf pending = (⟨.address region.start, region.size / sizeOf⟩, rest)) ∨
    ((∀ region ∈ pending.head?, ¬ sizeOf ∣ region.size) ∧
      receiveMemShare sizeOf pending = (.empty, pending))

/-- The region that a call returns with all its bytes. -/
def returnedRegion (sizeOf : Nat) : List Region → Option Region
  | [] => none
  | region :: rest =>
    let vec := (receiveMemShare sizeOf (region :: rest)).1
    if vec.data = .address region.start ∧ vec.size * sizeOf = region.size then some region else none

/-- A sequence of calls, each for a type of its own size, as steps on the pending regions. -/
def receiveStep (pending : List Region) (sizeOf : Nat) : Option (List Region) :=
  some (receiveMemShare sizeOf pending).2

def retrieved : List Nat → List Region → List Region
  | [], _ => []
  | sizeOf :: sizes, pending =>
    (returnedRegion sizeOf pending).toList ++ retrieved sizes (receiveMemShare sizeOf pending).2

/-- Every call keeps what it does not return, so that every region that was pending is
returned once or still pending. -/
structure NeverDiscards (sizes : List Nat) (pending : List Region) : Prop where
  everyCall : Runs.EveryStep receiveStep Keeps pending sizes
  accounted : ∃ left, Runs.run receiveStep pending sizes = some left ∧
    retrieved sizes pending ++ left = pending

/-- Every call pops, whatever it returns. -/
theorem receiveMemShare_rest (sizeOf : Nat) (pending : List Region) :
    (receiveMemShare sizeOf pending).2 = pending.tail := by
  cases pending with
  | nil =>
    rw [receiveMemShare, receiveMemShareInternal, apply_ite Prod.snd, ite_self, List.tail_nil]
  | cons region rest =>
    rw [receiveMemShare, receiveMemShareInternal, apply_ite Prod.snd, ite_self, List.tail_cons]

theorem receiveMemShare_dvd (sizeOf : Nat) (region : Region) (rest : List Region)
    (fits : sizeOf ∣ region.size) :
    receiveMemShare sizeOf (region :: rest) =
      (⟨.address region.start, region.size / sizeOf⟩, rest) := by
  have whole : toInt (region.size % sizeOf) = 0 := by
    rw [Nat.mod_eq_zero_of_dvd fits]
    rfl
  simp only [receiveMemShare, receiveMemShareInternal, whole, if_true]

theorem receiveMemShare_nil (sizeOf : Nat) : receiveMemShare sizeOf [] = (.empty, []) := by
  simp [receiveMemShare, receiveMemShareInternal, Vec.empty, toInt]

theorem keeps_iff (pending : List Region) (sizeOf : Nat) :
    Keeps pending sizeOf ↔ ∀ region ∈ pending.head?, sizeOf ∣ region.size := by
  cases pending with
  | nil => simp [Keeps, receiveMemShare_nil]
  | cons region rest =>
    constructor
    · rintro (⟨first, others, same, fits, _⟩ | ⟨_, result⟩)
      · cases same
        simpa using fits
      · have popped := receiveMemShare_rest sizeOf (region :: rest)
        rw [result] at popped
        simp at popped
    · intro fits
      have divides : sizeOf ∣ region.size := fits region rfl
      exact .inl ⟨region, rest, rfl, divides, receiveMemShare_dvd sizeOf region rest divides⟩

theorem everyCall_iff (sizes : List Nat) (pending : List Region) :
    Runs.EveryStep receiveStep Keeps pending sizes ↔
      ∀ (call sizeOf : Nat) (region : Region), sizes[call]? = some sizeOf → pending[call]? = some region →
        sizeOf ∣ region.size := by
  induction sizes generalizing pending with
  | nil => simp [Runs.EveryStep]
  | cons sizeOf sizes ih =>
    have popped : receiveStep pending sizeOf = some pending.tail := by
      rw [receiveStep, receiveMemShare_rest]
    rw [Runs.EveryStep, keeps_iff, popped]
    simp only [Option.mem_def, Option.some.injEq, forall_eq', ih]
    constructor
    · rintro ⟨head, tail⟩ call size region hasSize hasRegion
      cases call with
      | zero =>
        cases hasSize
        exact head region (by rw [← hasRegion, List.head?_eq_getElem?])
      | succ call =>
        exact tail call size region (by simpa using hasSize) (by simpa using hasRegion)
    · intro each
      refine ⟨fun region first => each 0 sizeOf region rfl ?_, fun call size region hasSize hasRegion => ?_⟩
      · rw [← first, List.head?_eq_getElem?]
      · exact each (call + 1) size region (by simpa using hasSize) (by simpa using hasRegion)

theorem everyCall_accounted (sizes : List Nat) (pending : List Region)
    (every : Runs.EveryStep receiveStep Keeps pending sizes) :
    ∃ left, Runs.run receiveStep pending sizes = some left ∧
      retrieved sizes pending ++ left = pending := by
  induction sizes generalizing pending with
  | nil => exact ⟨pending, rfl, rfl⟩
  | cons sizeOf sizes ih =>
    obtain ⟨left, reached, accounted⟩ := ih (receiveMemShare sizeOf pending).2 (every.2 _ rfl)
    refine ⟨left, (Runs.run_cons _ _ _ _).mpr ⟨_, rfl, reached⟩, ?_⟩
    rw [retrieved, List.append_assoc, accounted, receiveMemShare_rest]
    cases pending with
    | nil => rfl
    | cons region rest =>
      have fits : sizeOf ∣ region.size := (keeps_iff _ _).mp every.1 region rfl
      simp [returnedRegion, receiveMemShare_dvd sizeOf region rest fits,
        Nat.div_mul_cancel fits]

theorem receive_never_discards_iff (sizes : List Nat) (pending : List Region) :
    NeverDiscards sizes pending ↔
      ∀ (call sizeOf : Nat) (region : Region), sizes[call]? = some sizeOf → pending[call]? = some region →
        sizeOf ∣ region.size := by
  rw [← everyCall_iff]
  exact ⟨fun kept => kept.everyCall, fun every => ⟨every, everyCall_accounted sizes pending every⟩⟩

/-- A region of ten bytes is asked for as four-byte items, and then as bytes. -/
theorem receive_discards_region :
    receiveMemShare 4 [⟨4096, 10⟩] = (.empty, []) ∧ receiveMemShare 1 [] = (.empty, []) ∧
      ¬ NeverDiscards [4, 1] [⟨4096, 10⟩] := by
  refine ⟨by decide, by decide, fun kept => ?_⟩
  exact absurd ((everyCall_iff _ _).mp kept.everyCall 0 4 _ rfl rfl) (by decide)

/-! ### Created regions -/

structure MemShareResponse where
  status : Status
  sharedMemoryHandle : String
  deriving DecidableEq

/-- What `open` and `mmap` do for the handle of a created region. -/
inductive CreateOutcome where
  | openFailed (errno : Errno)
  | mmapFailed (errno : Errno)
  | mapped (start : Nat)
  deriving DecidableEq

/-- One `CreateMemshare` stream: whether `Write` and `WritesDone` succeed, the handle that
`Read` returns if it returns one, the status of `Finish`, and the system calls. -/
structure MemshareStream where
  written : Bool
  response : Option String
  finish : Status
  os : CreateOutcome

/-- What `CreateMemShare` returns and fills in, with the size that it asks the enforcer for
and the region that it maps. -/
structure Created where
  response : MemShareResponse
  vec : Vec
  requested : Int
  region : Option Region
  deriving DecidableEq

/-- `CreateMemShareInternal`; the pointer of its caller starts indeterminate. -/
def createMemShareInternal (size : Int) (stream : MemshareStream) :
    MemShareResponse × Pointer × Option Region :=
  if stream.written = false then
    (⟨stream.finish, ""⟩, .indeterminate, none)
  else
    match stream.response with
    | none => (⟨stream.finish, ""⟩, .indeterminate, none)
    | some handle =>
      match stream.os with
      | .openFailed errno =>
        (⟨⟨.internal, (errnoToStatus errno "failed to open mmap file").toText⟩, ""⟩,
          .indeterminate, none)
      | .mmapFailed errno =>
        (⟨⟨.internal, (errnoToStatus errno "mmap failed").toText⟩, ""⟩, .mapFailed, none)
      | .mapped start =>
        (⟨stream.finish, handle⟩, .address start, some ⟨start, toSize size⟩)

/-- `CreateMemShare<T>` for a type of the given size. -/
def createMemShare (numItems : Int) (sizeOf : Nat) (stream : MemshareStream) : Created :=
  let sizeInBytes := toInt64 (numItems * sizeOf)
  let (response, pointer, region) := createMemShareInternal sizeInBytes stream
  ⟨response, ⟨pointer, toSize numItems⟩, sizeInBytes, region⟩

/-- Success means that a region is mapped, that the `Vec` points to it, and that the bytes
asked for and mapped are those of the items, so that every item lies inside. -/
def Created.Promised (created : Created) (numItems : Int) (sizeOf : Nat) : Prop :=
  created.response.status.ok = true → ∃ region, created.region = some region ∧
    created.vec.data = .address region.start ∧ created.requested = numItems * sizeOf ∧
    (region.size : Int) = numItems * sizeOf ∧
    ∀ index < created.vec.size, (index + 1) * sizeOf ≤ region.size

/-- A stream that ends with OK was written to and answered, and if the region of the answer
can be mapped then its size is one that an `int64_t` can hold. -/
def MemshareStream.Answers (stream : MemshareStream) (numItems : Int) (sizeOf : Nat) : Prop :=
  stream.finish.ok = true → stream.written = true ∧ stream.response.isSome = true ∧
    ∀ start, stream.os = .mapped start → 0 ≤ numItems * sizeOf ∧ numItems * sizeOf < 2 ^ 63

theorem toInt64_eq_iff (value : Int) : toInt64 value = value ↔ -2 ^ 63 ≤ value ∧ value < 2 ^ 63 := by
  unfold toInt64
  omega

theorem toSize_toInt64 (value : Int) (small : 0 ≤ value) (bound : value < 2 ^ 63) :
    (toSize (toInt64 value) : Int) = value := by
  rw [(toInt64_eq_iff value).mpr ⟨by omega, bound⟩, toSize]
  omega

/-- Below the bound all items lie in the mapped bytes. -/
theorem items_inside (numItems : Int) (sizeOf : Nat) (small : 0 ≤ numItems * sizeOf)
    (bound : numItems * sizeOf < 2 ^ 63) (index : Nat) (below : index < toSize numItems) :
    (index + 1) * sizeOf ≤ toSize (toInt64 (numItems * sizeOf)) := by
  have bytes := toSize_toInt64 (numItems * sizeOf) small bound
  rcases Nat.eq_zero_or_pos sizeOf with zero | positive
  · simp [zero]
  · have items : 0 ≤ numItems := by
      by_contra negative
      have less : numItems * sizeOf < 0 := Int.mul_neg_of_neg_of_pos (by omega) (by omega)
      omega
    have within : ((index : Int) + 1) ≤ numItems := by
      have reduced : (toSize numItems : Int) ≤ numItems := by
        unfold toSize
        omega
      omega
    have scaled : ((index : Int) + 1) * sizeOf ≤ numItems * sizeOf :=
      Int.mul_le_mul_of_nonneg_right within (by omega)
    have cast : (((index + 1) * sizeOf : Nat) : Int) = ((index : Int) + 1) * sizeOf := by simp
    omega

theorem mapped_promised_iff (numItems : Int) (sizeOf : Nat) (handle : String) (finish : Status)
    (start : Nat) :
    (createMemShare numItems sizeOf ⟨true, some handle, finish, .mapped start⟩).Promised numItems sizeOf ↔
      (finish.ok = true → 0 ≤ numItems * sizeOf ∧ numItems * sizeOf < 2 ^ 63) := by
  refine forall_congr' fun _ => ?_
  constructor
  · rintro ⟨region, ⟨⟩, _, asked, mapped, _⟩
    have bound := ((toInt64_eq_iff _).mp asked).2
    refine ⟨?_, bound⟩
    rw [← mapped]
    exact Int.natCast_nonneg _
  · rintro ⟨small, bound⟩
    exact ⟨_, rfl, rfl, (toInt64_eq_iff _).mpr ⟨by omega, bound⟩,
      toSize_toInt64 _ small bound, items_inside numItems sizeOf small bound⟩

theorem create_promised_iff (numItems : Int) (sizeOf : Nat) (stream : MemshareStream) :
    (createMemShare numItems sizeOf stream).Promised numItems sizeOf ↔
      stream.Answers numItems sizeOf := by
  obtain ⟨written, response, finish, os⟩ := stream
  cases written with
  | false => simp [createMemShare, createMemShareInternal, MemshareStream.Answers, Created.Promised]
  | true =>
    cases response with
    | none => simp [createMemShare, createMemShareInternal, MemshareStream.Answers, Created.Promised]
    | some handle =>
      cases os with
      | mapped start => simp [mapped_promised_iff, MemshareStream.Answers]
      | _ =>
        simp [createMemShare, createMemShareInternal, MemshareStream.Answers, Created.Promised,
          Status.ok]

/-- The enforcer ends the stream with OK and without a response. -/
def unanswered : MemshareStream := ⟨true, none, .OK, .mapped 4096⟩

/-- The enforcer answers and the file can be mapped. -/
def answered : MemshareStream := ⟨true, some "memshare/a", .OK, .mapped 4096⟩

theorem create_unpromised :
    createMemShare 4 8 unanswered = ⟨⟨.OK, ""⟩, ⟨.indeterminate, 4⟩, 32, none⟩ ∧
      ¬ (createMemShare 4 8 unanswered).Promised 4 8 ∧
      createMemShare (2 ^ 61 + 1) 8 answered =
        ⟨⟨.OK, "memshare/a"⟩, ⟨.address 4096, 2 ^ 61 + 1⟩, 8, some ⟨4096, 8⟩⟩ ∧
      ¬ (createMemShare (2 ^ 61 + 1) 8 answered).Promised (2 ^ 61 + 1) 8 := by
  refine ⟨by decide, fun promised => ?_, by decide, fun promised => ?_⟩
  · obtain ⟨region, mapped, _⟩ := promised rfl
    cases mapped
  · obtain ⟨region, _, _, requested, _⟩ := promised rfl
    exact absurd requested (by decide)

end EzSdk.Client
