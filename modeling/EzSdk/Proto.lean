import Mathlib.Data.List.Basic

/-! Messages of the two bridge services and gRPC statuses, as both SDKs see them. -/

namespace EzSdk

abbrev Bytes := List UInt8

inductive StatusCode where
  | ok | cancelled | unknown | invalidArgument | deadlineExceeded | notFound | alreadyExists
  | permissionDenied | resourceExhausted | failedPrecondition | aborted | outOfRange
  | unimplemented | internal | unavailable | dataLoss | unauthenticated
  deriving DecidableEq, Repr

structure Status where
  code : StatusCode
  message : String
  deriving DecidableEq, Repr

/-- `grpc::Status::OK`. -/
def Status.OK : Status := ⟨.ok, ""⟩

def Status.ok (status : Status) : Bool := status.code == .ok

structure ControlPlaneMetadata where
  ipcMessageId : UInt64 := 0
  requesterSpiffe : String := ""
  requesterIsLocal : Bool := false
  responderIsLocal : Bool := false
  destinationOperatorDomain : String := ""
  destinationPublisherId : String := ""
  destinationIsolateName : String := ""
  destinationServiceName : String := ""
  destinationMethodName : String := ""
  destinationEzInstanceId : String := ""
  sharedMemoryHandles : List String := []
  metadataHeaders : List (String × String) := []
  requestMetadata : List (String × Bytes) := []
  fileshareHandles : List String := []
  deriving DecidableEq, Repr, Inhabited

structure IsolateScopeOwner where
  mappedOwnerUuid : Bytes := []
  deriving DecidableEq, Repr

structure IsolateDataScope where
  scopeType : Int := 0
  mappedScopeOwner : Option IsolateScopeOwner := none
  deriving DecidableEq, Repr

/-- `DATA_SCOPE_TYPE_UNSPECIFIED`. -/
def dataScopeTypeUnspecified : Int := 0

structure EzPayloadIsolateScope where
  datagramIscopes : List IsolateDataScope := []
  deriving DecidableEq, Repr

structure EzPayloadData where
  datagrams : List Bytes := []
  deriving DecidableEq, Repr

structure InvokeIsolateRequest where
  controlPlaneMetadata : Option ControlPlaneMetadata := none
  isolateInputIscope : Option EzPayloadIsolateScope := none
  isolateInput : Option EzPayloadData := none
  deriving DecidableEq, Repr, Inhabited

structure InvokeIsolateResponse where
  controlPlaneMetadata : Option ControlPlaneMetadata := none
  isolateOutputIscope : Option EzPayloadIsolateScope := none
  isolateOutput : Option EzPayloadData := none
  deriving DecidableEq, Repr

structure InvokeEzRequest where
  controlPlaneMetadata : Option ControlPlaneMetadata := none
  isolateRequestIscope : Option EzPayloadIsolateScope := none
  isolateRequestPayload : Option EzPayloadData := none
  deriving DecidableEq, Repr

structure InvokeEzResponse where
  controlPlaneMetadata : Option ControlPlaneMetadata := none
  ezResponseIscope : Option EzPayloadIsolateScope := none
  ezResponsePayload : Option EzPayloadData := none
  deriving DecidableEq, Repr

/-- The C++ accessor of a message field that is not set returns the default
instance, so an absent metadata message reads like an empty one. -/
def InvokeIsolateRequest.metadata (request : InvokeIsolateRequest) : ControlPlaneMetadata :=
  request.controlPlaneMetadata.getD {}

def InvokeIsolateRequest.datagrams (request : InvokeIsolateRequest) : List Bytes :=
  (request.isolateInput.getD {}).datagrams

def InvokeEzRequest.metadata (request : InvokeEzRequest) : ControlPlaneMetadata :=
  request.controlPlaneMetadata.getD {}

def InvokeEzResponse.metadata (response : InvokeEzResponse) : ControlPlaneMetadata :=
  response.controlPlaneMetadata.getD {}

def InvokeEzResponse.datagrams (response : InvokeEzResponse) : List Bytes :=
  (response.ezResponsePayload.getD {}).datagrams

/-- Numbers of `enforcer.v1.IsolateState`; the field on the wire is an open
enum, so any 32-bit value may arrive. -/
def isolateStateUnspecified : Int := 0
def isolateStateStarting : Int := 1
def isolateStateReady : Int := 7
def isolateStateRetiring : Int := 12

end EzSdk
