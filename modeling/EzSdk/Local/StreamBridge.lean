import EzSdk.Foundation.Runs
import EzSdk.Proto

/-! A StreamInvokeEz call at the mock enforcer: the reactor of `mock_enforcer.h`, the bridge of
`stream_bridge.cc` with its reader thread, the caller and the isolate, as a transition system. -/

namespace EzSdk.Local

/-- `forwarded_request`. -/
def forwardRequest (request : InvokeEzRequest) : InvokeIsolateRequest where
  controlPlaneMetadata := some request.metadata
  isolateInput := some (request.isolateRequestPayload.getD {})

/-- `forwarded_response`. -/
def forwardResponse (response : InvokeIsolateResponse) : InvokeEzResponse where
  controlPlaneMetadata := some (response.controlPlaneMetadata.getD {})
  ezResponsePayload := some (response.isolateOutput.getD {})

def serviceName (request : InvokeEzRequest) : String :=
  request.metadata.destinationServiceName

/-- Where the thread is that runs OnReadDone for a message. For the first message the reader thread
is started after it has been forwarded. -/
inductive Callback where
  | idle
  | writing (first : Bool) (request : InvokeEzRequest)
  | closing (first : Bool)

/-- Where the reader thread is. -/
inductive Pump where
  | notStarted
  | checking
  | reading
  | handling
  | leaving
  | exited
  deriving DecidableEq

/-- The stream to the isolate. -/
inductive Downstream where
  | unopened
  | opened
  | ended (status : Status)

/-- A call of StartWrite. The message is a variable of the loop body of the reader thread. -/
structure Write where
  message : InvokeEzResponse
  alive : Bool

/-- A call of Finish, with the state of the stream to the isolate and the status that Close got
before. -/
structure FinishCall where
  status : Status
  downstream : Downstream
  closedWith : Option Status

structure Call where
  isStarted : Bool
  callback : Callback
  /-- `OnReadDone(false)` was delivered. -/
  readsEnded : Bool
  isClosed : Bool
  /-- The status with which Close closed the bridge. -/
  closedWith : Option Status
  /-- `downstream_context_` was made. -/
  hasContext : Bool
  downstream : Downstream
  /-- `WritesDone` was called on the stream to the isolate. -/
  writesDone : Bool
  /-- `TryCancel` was called on its context. -/
  cancelled : Bool
  /-- Requests that were written to the isolate. -/
  forwarded : List InvokeIsolateRequest
  /-- Responses of the isolate that were not read yet. -/
  responses : List InvokeIsolateResponse
  /-- Responses that the reader thread has read. -/
  handled : List InvokeIsolateResponse
  pump : Pump
  /-- Writes to the caller that are outstanding, in order. -/
  writes : List Write
  /-- Writes to the caller that are done, with the argument of OnWriteDone. -/
  completed : List (Write × Bool)
  finishes : List FinishCall
  /-- `OnDone` has deleted the reactor. -/
  deleted : Bool

/-- The constructor of StreamInvokeEzReactor. -/
def newCall : Call where
  isStarted := false
  callback := .idle
  readsEnded := false
  isClosed := false
  closedWith := none
  hasContext := false
  downstream := .unopened
  writesDone := false
  cancelled := false
  forwarded := []
  responses := []
  handled := []
  pump := .notStarted
  writes := []
  completed := []
  finishes := []
  deleted := false

namespace Call

/-- What Close does before it waits for the reader thread. -/
def beginClose (call : Call) (status : Status) : Call :=
  if call.isClosed then call
  else { call with isClosed := true, closedWith := some status, cancelled := call.hasContext }

/-- The end of OnReadDone for a message: `StartRead`, and before that the reader thread if the
message was the first one. -/
def afterForward (call : Call) (first : Bool) : Call :=
  { call with callback := .idle, pump := if first then .checking else call.pump }

/-- `ForwardUpstreamToDownstream`, up to the call of Write. -/
def forwardUpstreamToDownstream (call : Call) (first : Bool) (request : InvokeEzRequest) : Call :=
  if call.isClosed then call.afterForward first else { call with callback := .writing first request }

/-- `StreamBridge::Start`, up to the call of Write. Whether the stream was created is up to gRPC. -/
def start (routingTable : String → Option String) (call : Call) (request : InvokeEzRequest)
    (created : Bool) : Call :=
  match routingTable (serviceName request) with
  | none => call.beginClose ⟨.unavailable, "Service not found: " ++ serviceName request⟩
  | some _ =>
    let connected := { call with hasContext := true }
    if created then { connected with downstream := .opened }.forwardUpstreamToDownstream true request
    else connected.beginClose ⟨.internal, "Failed to create downstream stream"⟩

/-- `OnReadDone(true)`. -/
def onReadDone (routingTable : String → Option String) (call : Call) (request : InvokeEzRequest)
    (created : Bool) : Call :=
  if call.isStarted then call.forwardUpstreamToDownstream false request
  else { call with isStarted := true }.start routingTable request created

/-- The Write of `ForwardUpstreamToDownstream` returns. -/
def writeReturns (call : Call) (first : Bool) (request : InvokeEzRequest) (ok : Bool) : Call :=
  if ok then { call with forwarded := call.forwarded ++ [forwardRequest request] }.afterForward first
  else if call.isClosed then call.afterForward first
  else { call.beginClose ⟨.unavailable, "Downstream write failed"⟩ with callback := .closing first }

/-- `OnReadDone(false)`, with `StreamBridge::WritesDone`. -/
def endReads (call : Call) : Call :=
  { call with
    readsEnded := true
    writesDone := match call.downstream with
      | .unopened => false
      | _ => !call.isClosed }

def pumpRunning (call : Call) : Bool :=
  match call.pump with
  | .notStarted => false
  | .exited => false
  | _ => true

def downstreamOver (call : Call) : Bool :=
  match call.downstream with
  | .opened => false
  | _ => true

/-- `HandleDownstreamResponse`. -/
def handleDownstreamResponse (call : Call) (response : InvokeIsolateResponse) : Call :=
  { call with
    handled := call.handled ++ [response]
    pump := .handling
    writes := call.writes ++ [⟨forwardResponse response, true⟩] }

/-- The message of the loop body is destroyed, as those of earlier turns were. -/
def endBody (call : Call) : Call :=
  { call with
    pump := .checking
    writes := call.writes.map (fun write => { write with alive := false }) }

/-- `NotifyConnectionClosed`. -/
def notifyConnectionClosed (call : Call) (status : Status) : Call :=
  { call with
    pump := .exited
    finishes := call.finishes ++ [⟨status, call.downstream, call.closedWith⟩] }

end Call

inductive Event where
  /-- A message of the caller was read. -/
  | onReadDone (request : InvokeEzRequest) (created : Bool)
  /-- The caller has half-closed, or its stream is over. -/
  | onReadsEnd
  | writeReturns (ok : Bool)
  | closeReturns
  | pumpChecks
  | pumpReads
  | pumpReadFails
  | pumpEndsBody
  | pumpNotifies
  | onWriteDone (ok : Bool)
  | onDone
  | isolateResponds (response : InvokeIsolateResponse)
  | isolateEnds (status : Status)

def step (routingTable : String → Option String) (call : Call) : Event → Option Call
  | .onReadDone request created =>
    match call.callback with
    | .idle => if call.readsEnded then none else some (call.onReadDone routingTable request created)
    | _ => none
  | .onReadsEnd =>
    match call.callback with
    | .idle => if call.readsEnded then none else some call.endReads
    | _ => none
  | .writeReturns ok =>
    match call.callback with
    | .writing first request => some (call.writeReturns first request ok)
    | _ => none
  -- Close waits for the reader thread and for the status of the stream to the isolate.
  | .closeReturns =>
    match call.callback with
    | .closing first =>
      if call.pumpRunning = false ∧ call.downstreamOver then some (call.afterForward first) else none
    | _ => none
  | .pumpChecks =>
    match call.pump with
    | .checking => some { call with pump := if call.isClosed then .leaving else .reading }
    | _ => none
  | .pumpReads =>
    match call.pump, call.responses with
    | .reading, response :: responses =>
      some ({ call with responses := responses }.handleDownstreamResponse response)
    | _, _ => none
  -- Read fails when the stream has ended and, unless it was cancelled, nothing is left to read.
  | .pumpReadFails =>
    match call.pump, call.downstream with
    | .reading, .ended _ =>
      if call.cancelled ∨ call.responses = [] then some { call with pump := .leaving } else none
    | _, _ => none
  | .pumpEndsBody =>
    match call.pump with
    | .handling => some call.endBody
    | _ => none
  | .pumpNotifies =>
    match call.pump with
    | .leaving => some (call.notifyConnectionClosed Status.OK)
    | _ => none
  | .onWriteDone ok =>
    match call.writes with
    | write :: writes => some { call with writes := writes, completed := call.completed ++ [(write, ok)] }
    | [] => none
  -- gRPC calls OnDone when the call is finished and no operation is outstanding.
  | .onDone =>
    match call.callback, call.writes with
    | .idle, [] =>
      if call.finishes ≠ [] ∧ call.readsEnded ∧ call.deleted = false ∧
          (call.isClosed ∨ call.downstreamOver) then
        some { call.beginClose Status.OK with deleted := true }
      else none
    | _, _ => none
  | .isolateResponds response =>
    match call.downstream with
    | .opened => some { call with responses := call.responses ++ [response] }
    | _ => none
  | .isolateEnds status =>
    match call.downstream with
    | .opened => some { call with downstream := .ended status }
    | _ => none

/-- A run of a call from its start. -/
def run (routingTable : String → Option String) (events : List Event) : Option Call :=
  Runs.run (step routingTable) newCall events

/-- What each event does, and when it can happen. -/
inductive Steps (routingTable : String → Option String) (call : Call) : Event → Call → Prop where
  | onReadDone (request : InvokeEzRequest) (created : Bool) (idle : call.callback = .idle)
      (reading : call.readsEnded = false) :
      Steps routingTable call (.onReadDone request created) (call.onReadDone routingTable request created)
  | onReadsEnd (idle : call.callback = .idle) (reading : call.readsEnded = false) :
      Steps routingTable call .onReadsEnd call.endReads
  | writeReturns {first : Bool} {request : InvokeEzRequest} (ok : Bool)
      (writing : call.callback = .writing first request) :
      Steps routingTable call (.writeReturns ok) (call.writeReturns first request ok)
  | closeReturns {first : Bool} (closing : call.callback = .closing first)
      (alone : call.pumpRunning = false ∧ call.downstreamOver = true) :
      Steps routingTable call .closeReturns (call.afterForward first)
  | pumpChecks (checking : call.pump = .checking) :
      Steps routingTable call .pumpChecks
        { call with pump := if call.isClosed then .leaving else .reading }
  | pumpReads {response : InvokeIsolateResponse} {responses : List InvokeIsolateResponse}
      (reading : call.pump = .reading) (unread : call.responses = response :: responses) :
      Steps routingTable call .pumpReads
        ({ call with responses := responses }.handleDownstreamResponse response)
  | pumpReadFails {status : Status} (reading : call.pump = .reading)
      (ended : call.downstream = .ended status) (drained : call.cancelled = true ∨ call.responses = []) :
      Steps routingTable call .pumpReadFails { call with pump := .leaving }
  | pumpEndsBody (handling : call.pump = .handling) : Steps routingTable call .pumpEndsBody call.endBody
  | pumpNotifies (leaving : call.pump = .leaving) :
      Steps routingTable call .pumpNotifies (call.notifyConnectionClosed Status.OK)
  | onWriteDone {write : Write} {writes : List Write} (ok : Bool) (oldest : call.writes = write :: writes) :
      Steps routingTable call (.onWriteDone ok)
        { call with writes := writes, completed := call.completed ++ [(write, ok)] }
  | onDone (idle : call.callback = .idle) (written : call.writes = [])
      (finished : call.finishes ≠ [] ∧ call.readsEnded = true ∧ call.deleted = false ∧
        (call.isClosed = true ∨ call.downstreamOver = true)) :
      Steps routingTable call .onDone { call.beginClose Status.OK with deleted := true }
  | isolateResponds (response : InvokeIsolateResponse) (opened : call.downstream = .opened) :
      Steps routingTable call (.isolateResponds response)
        { call with responses := call.responses ++ [response] }
  | isolateEnds (status : Status) (opened : call.downstream = .opened) :
      Steps routingTable call (.isolateEnds status) { call with downstream := .ended status }

theorem step_spec {routingTable : String → Option String} {call next : Call} {event : Event}
    (taken : step routingTable call event = some next) : Steps routingTable call event next := by
  cases event with
  | onReadDone request created =>
    simp only [step] at taken
    split at taken
    · rename_i idle
      split at taken
      · cases taken
      · rename_i reading
        cases taken
        exact .onReadDone request created idle (Bool.eq_false_iff.mpr reading)
    · cases taken
  | onReadsEnd =>
    simp only [step] at taken
    split at taken
    · rename_i idle
      split at taken
      · cases taken
      · rename_i reading
        cases taken
        exact .onReadsEnd idle (Bool.eq_false_iff.mpr reading)
    · cases taken
  | writeReturns ok =>
    simp only [step] at taken
    split at taken
    · rename_i writing
      cases taken
      exact .writeReturns ok writing
    · cases taken
  | closeReturns =>
    simp only [step] at taken
    split at taken
    · rename_i closing
      split at taken
      · rename_i alone
        cases taken
        exact .closeReturns closing alone
      · cases taken
    · cases taken
  | pumpChecks =>
    simp only [step] at taken
    split at taken
    · rename_i checking
      cases taken
      exact .pumpChecks checking
    · cases taken
  | pumpReads =>
    simp only [step] at taken
    split at taken
    · rename_i reading unread
      cases taken
      exact .pumpReads reading unread
    · cases taken
  | pumpReadFails =>
    simp only [step] at taken
    split at taken
    · rename_i reading ended
      split at taken
      · rename_i drained
        cases taken
        exact .pumpReadFails reading ended drained
      · cases taken
    · cases taken
  | pumpEndsBody =>
    simp only [step] at taken
    split at taken
    · rename_i handling
      cases taken
      exact .pumpEndsBody handling
    · cases taken
  | pumpNotifies =>
    simp only [step] at taken
    split at taken
    · rename_i leaving
      cases taken
      exact .pumpNotifies leaving
    · cases taken
  | onWriteDone ok =>
    simp only [step] at taken
    split at taken
    · rename_i oldest
      cases taken
      exact .onWriteDone ok oldest
    · cases taken
  | onDone =>
    simp only [step] at taken
    split at taken
    · rename_i idle written
      split at taken
      · rename_i finished
        cases taken
        exact .onDone idle written finished
      · cases taken
    · cases taken
  | isolateResponds response =>
    simp only [step] at taken
    split at taken
    · rename_i opened
      cases taken
      exact .isolateResponds response opened
    · cases taken
  | isolateEnds status =>
    simp only [step] at taken
    split at taken
    · rename_i opened
      cases taken
      exact .isolateEnds status opened
    · cases taken

end EzSdk.Local
