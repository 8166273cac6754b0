import EzSdk.Bridge.Unary
import EzSdk.Client.Model
import EzSdk.Foundation.Tables
import EzSdk.Rust.Dispatch

/-! Registration of services: the dispatch map and the local handlers that
`AddIsolateRpcService` fills, and the map of the Rust dispatcher. -/

namespace EzSdk.Parity

open Tables

variable {Msg : Type}

/-- A C++ service object: its descriptor with the user's unary methods. -/
structure ServiceObject (Msg : Type) where
  address : Nat
  service : Bridge.Service Msg
  implementation : Bridge.Method Msg → Msg → Status × Bytes

def ServiceObject.serviceName (object : ServiceObject Msg) : String := object.service.serviceName

/-- The tables that registration fills. For a local handler it is the captured service
object that is recorded. -/
structure EzIsolateBridgeImpl (Msg : Type) where
  isolateRpcServiceMap : AList (fun _ : String => ServiceObject Msg)
  localHandlers : AList (fun _ : String => ServiceObject Msg)

/-- `operator[]` of the local handlers assigns, `insert` of the dispatch map does not. -/
def EzIsolateBridgeImpl.addIsolateRpcService (bridge : EzIsolateBridgeImpl Msg)
    (object : ServiceObject Msg) : EzIsolateBridgeImpl Msg where
  localHandlers := keepLast ServiceObject.serviceName bridge.localHandlers object
  isolateRpcServiceMap := keepFirst ServiceObject.serviceName bridge.isolateRpcServiceMap object

def EzIsolateBridgeImpl.new (object : ServiceObject Msg) : EzIsolateBridgeImpl Msg :=
  EzIsolateBridgeImpl.addIsolateRpcService ⟨∅, ∅⟩ object

/-- One registration call, made in either SDK with the service of that SDK. -/
structure Registration (Msg : Type) where
  cpp : ServiceObject Msg
  rust : Rust.IsolateRpcService
  sameName : rust.serviceName = cpp.serviceName

def Registration.name (registration : Registration Msg) : String := registration.cpp.serviceName

def cppBridge (first : Registration Msg) (rest : List (Registration Msg)) :
    EzIsolateBridgeImpl Msg :=
  (rest.map Registration.cpp).foldl EzIsolateBridgeImpl.addIsolateRpcService
    (EzIsolateBridgeImpl.new first.cpp)

def rustDispatcher (first : Registration Msg) (rest : List (Registration Msg)) :
    Rust.RpcDispatcher :=
  (rest.map Registration.rust).foldl Rust.RpcDispatcher.addService
    (Rust.RpcDispatcher.new first.rust)

theorem foldl_addIsolateRpcService (objects : List (ServiceObject Msg))
    (bridge : EzIsolateBridgeImpl Msg) :
    objects.foldl EzIsolateBridgeImpl.addIsolateRpcService bridge =
      ⟨objects.foldl (keepFirst ServiceObject.serviceName) bridge.isolateRpcServiceMap,
        objects.foldl (keepLast ServiceObject.serviceName) bridge.localHandlers⟩ := by
  induction objects generalizing bridge with
  | nil => rfl
  | cons object objects ih => exact ih (bridge.addIsolateRpcService object)

theorem cppBridge_eq (first : Registration Msg) (rest : List (Registration Msg)) :
    cppBridge first rest =
      ⟨((first :: rest).map Registration.cpp).foldl (keepFirst ServiceObject.serviceName) ∅,
        ((first :: rest).map Registration.cpp).foldl (keepLast ServiceObject.serviceName) ∅⟩ := by
  rw [cppBridge, foldl_addIsolateRpcService]
  rfl

/-- Remote calls go to the first service that was registered under their name. -/
theorem lookup_isolateRpcServiceMap (first : Registration Msg) (rest : List (Registration Msg))
    (name : String) :
    (cppBridge first rest).isolateRpcServiceMap.lookup name =
      (firstOf Registration.name (first :: rest) name).map Registration.cpp := by
  rw [cppBridge_eq, lookup_foldl_keepFirst, firstOf_map, AList.lookup_empty, Option.none_or]
  rfl

theorem lookup_localHandlers (first : Registration Msg) (rest : List (Registration Msg))
    (name : String) :
    (cppBridge first rest).localHandlers.lookup name =
      (lastOf Registration.name (first :: rest) name).map Registration.cpp := by
  rw [cppBridge_eq, lookup_lastOf, lastOf_map]
  rfl

theorem foldl_addService (services : List Rust.IsolateRpcService) (dispatcher : Rust.RpcDispatcher) :
    services.foldl Rust.RpcDispatcher.addService dispatcher =
      { dispatcher with
        serviceMap := services.foldl (keepLast Rust.IsolateRpcService.serviceName)
          dispatcher.serviceMap } := by
  induction services generalizing dispatcher with
  | nil => rfl
  | cons service services ih => exact ih (dispatcher.addService service)

theorem lookup_serviceMap (first : Registration Msg) (rest : List (Registration Msg))
    (name : String) :
    (rustDispatcher first rest).serviceMap.lookup name =
      (lastOf Registration.name (first :: rest) name).map Registration.rust := by
  have start : (Rust.RpcDispatcher.new first.rust).serviceMap =
      keepLast Rust.IsolateRpcService.serviceName ∅ first.rust := rfl
  have names : (fun registration : Registration Msg => registration.rust.serviceName) =
      Registration.name := funext Registration.sameName
  calc (rustDispatcher first rest).serviceMap.lookup name
      = (((first :: rest).map Registration.rust).foldl
          (keepLast Rust.IsolateRpcService.serviceName) ∅).lookup name := by
        rw [rustDispatcher, foldl_addService, start]
        rfl
    _ = lastOf Rust.IsolateRpcService.serviceName ((first :: rest).map Registration.rust) name := by
        rw [lookup_lastOf]
    _ = (lastOf Registration.name (first :: rest) name).map Registration.rust := by
        rw [lastOf_map, names]

/-- All three tables send requests for the name to the service of the last registration. -/
structure LastWins (first : Registration Msg) (rest : List (Registration Msg)) (name : String) :
    Prop where
  remote : (cppBridge first rest).isolateRpcServiceMap.lookup name =
    (lastOf Registration.name (first :: rest) name).map Registration.cpp
  localCalls : (cppBridge first rest).localHandlers.lookup name =
    (lastOf Registration.name (first :: rest) name).map Registration.cpp
  dispatcher : (rustDispatcher first rest).serviceMap.lookup name =
    (lastOf Registration.name (first :: rest) name).map Registration.rust

/-- Registration means the same everywhere for exactly the names whose first and last
registration pass one and the same C++ service object. -/
theorem last_registration_wins_iff (first : Registration Msg) (rest : List (Registration Msg))
    (name : String) :
    LastWins first rest name ↔
      (firstOf Registration.name (first :: rest) name).map Registration.cpp =
        (lastOf Registration.name (first :: rest) name).map Registration.cpp := by
  constructor
  · intro wins
    rw [← lookup_isolateRpcServiceMap]
    exact wins.remote
  · intro same
    constructor
    · rw [lookup_isolateRpcServiceMap, same]
    · exact lookup_localHandlers first rest name
    · exact lookup_serviceMap first rest name

/-- A registration of the greeter, told apart by the address of its object. -/
def greeterAt (address : Nat) : Registration Bytes where
  cpp := ⟨address, Bridge.greeter, fun _ _ => (.OK, [])⟩
  rust := ⟨"Greeter", fun _ _ => .error ⟨.unimplemented, ""⟩⟩
  sameName := rfl

theorem first_registration_kept :
    ((cppBridge (greeterAt 1) [greeterAt 2]).isolateRpcServiceMap.lookup "Greeter").map
        ServiceObject.address = some 1 ∧
      ((cppBridge (greeterAt 1) [greeterAt 2]).localHandlers.lookup "Greeter").map
        ServiceObject.address = some 2 ∧
      ¬ LastWins (greeterAt 1) [greeterAt 2] "Greeter" := by
  refine ⟨rfl, rfl, ?_⟩
  intro wins
  have addresses := congrArg (Option.map ServiceObject.address) wins.remote
  have differ : some 1 = some 2 := addresses
  cases differ

end EzSdk.Parity
