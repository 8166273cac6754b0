import EzSdk.Proto
import Mathlib.Data.List.AList
import Mathlib.Data.Seq.Basic

/-! The stream dispatcher of `rpc_dispatcher.rs`. -/

namespace EzSdk.Rust

open Stream'

/-- An asynchronous stream of results, finite or not. -/
abbrev ItemStream (Item : Type) := Seq (Except Status Item)

/-- A stream that yields one item and ends. -/
def single {Item : Type} (item : Except Status Item) : ItemStream Item :=
  Seq.cons item Seq.nil

/-- A stream with a buffer for the item that was looked at. -/
structure Peekable (Item : Type) where
  peeked : Option Item
  inner : Seq Item

def peekable {Item : Type} (stream : Seq Item) : Peekable Item := ⟨none, stream⟩

/-- Look at the next item and leave it in the stream. -/
def Peekable.peek {Item : Type} (stream : Peekable Item) : Option Item × Peekable Item :=
  match stream.peeked with
  | some item => (some item, stream)
  | none => (stream.inner.head, ⟨stream.inner.head, stream.inner.tail⟩)

/-- What a reader of the stream gets from it. -/
def Peekable.items {Item : Type} (stream : Peekable Item) : Seq Item :=
  match stream.peeked with
  | some item => Seq.cons item stream.inner
  | none => stream.inner

/-- The trait `IsolateRpcService`, as far as streams need it. -/
structure IsolateRpcService where
  serviceName : String
  streamingRpcHandler : String → ItemStream InvokeIsolateRequest →
    Except Status (ItemStream InvokeIsolateResponse)

structure RpcDispatcher where
  serviceMap : AList (fun _ : String => IsolateRpcService)
  currentState : Int

def RpcDispatcher.new (initialService : IsolateRpcService) : RpcDispatcher where
  serviceMap := AList.singleton initialService.serviceName initialService
  currentState := isolateStateReady

def RpcDispatcher.addService (dispatcher : RpcDispatcher) (service : IsolateRpcService) :
    RpcDispatcher :=
  { dispatcher with serviceMap := dispatcher.serviceMap.insert service.serviceName service }

/-- The error is itself the item that the caller yields. -/
def RpcDispatcher.resolveService (dispatcher : RpcDispatcher)
    (controlPlaneMetadata : Option ControlPlaneMetadata) :
    Except (Except Status InvokeIsolateResponse) (ControlPlaneMetadata × IsolateRpcService) :=
  match controlPlaneMetadata with
  | none => .error (.error ⟨.invalidArgument, "Missing control plane metadata"⟩)
  | some metadata =>
    if dispatcher.currentState ≠ isolateStateReady then
      .error (.error ⟨.failedPrecondition,
        "Isolate is not ready. Current state: " ++ toString dispatcher.currentState⟩)
    else
      match dispatcher.serviceMap.lookup metadata.destinationServiceName with
      | some service => .ok (metadata, service)
      | none =>
        .error (.error ⟨.notFound,
          "Service not supported by isolate: " ++ metadata.destinationServiceName⟩)

/-- A call of `streaming_rpc_handler` with the stream that the handler can read. -/
structure Invocation where
  service : IsolateRpcService
  methodName : String
  requests : ItemStream InvokeIsolateRequest

/-- What dispatching a stream does: the calls it makes, and the stream it returns. -/
structure Dispatched where
  invocations : List Invocation
  output : ItemStream InvokeIsolateResponse

/-- What the dispatcher does to each item of a handler's stream. -/
def attachMetadata (ipcMessageId : UInt64) :
    Except Status InvokeIsolateResponse → Except Status InvokeIsolateResponse
  | .error status => .error status
  | .ok response =>
    .ok { response with
      controlPlaneMetadata := some
        { response.controlPlaneMetadata.getD {} with
          ipcMessageId := ipcMessageId
          responderIsLocal := true } }

/-- A `?` inside the generator yields the error and ends the stream. -/
def RpcDispatcher.streamInvokeIsolate (dispatcher : RpcDispatcher)
    (requestStream : ItemStream InvokeIsolateRequest) : Dispatched :=
  let (first, stream) := (peekable requestStream).peek
  match first with
  | none => ⟨[], single (.error ⟨.invalidArgument, "Stream ended unexpectedly"⟩)⟩
  | some (.error status) => ⟨[], single (.error status)⟩
  | some (.ok request) =>
    match dispatcher.resolveService request.controlPlaneMetadata with
    | .error item => ⟨[], single item⟩
    | .ok (metadata, service) =>
      let invocation := ⟨service, metadata.destinationMethodName, stream.items⟩
      match service.streamingRpcHandler metadata.destinationMethodName stream.items with
      | .error status => ⟨[invocation], single (.error status)⟩
      | .ok responses => ⟨[invocation], responses.map (attachMetadata metadata.ipcMessageId)⟩

/-- Peeking consumes nothing. -/
theorem peek_items {Item : Type} (stream : Seq Item) :
    (peekable stream).peek.1 = stream.head ∧ (peekable stream).peek.2.items = stream := by
  refine ⟨rfl, ?_⟩
  cases head : stream.head with
  | none =>
    have ended := Seq.head_eq_none head
    subst ended
    rfl
  | some item =>
    simp only [Peekable.peek, peekable, Peekable.items, head]
    exact (Seq.head_eq_some head).symm

/-- The metadata names a registered service and the isolate is ready. -/
structure Resolves (dispatcher : RpcDispatcher) (controlPlaneMetadata : Option ControlPlaneMetadata)
    (metadata : ControlPlaneMetadata) (service : IsolateRpcService) : Prop where
  present : controlPlaneMetadata = some metadata
  ready : dispatcher.currentState = isolateStateReady
  registered : dispatcher.serviceMap.lookup metadata.destinationServiceName = some service

theorem resolves_unique (dispatcher : RpcDispatcher)
    (controlPlaneMetadata : Option ControlPlaneMetadata) (metadata other : ControlPlaneMetadata)
    (service another : IsolateRpcService)
    (first : Resolves dispatcher controlPlaneMetadata metadata service)
    (second : Resolves dispatcher controlPlaneMetadata other another) :
    other = metadata ∧ another = service := by
  cases Option.some.inj (first.present.symm.trans second.present)
  exact ⟨rfl, Option.some.inj (second.registered.symm.trans first.registered)⟩

/-- Resolution gives the service, or an error and then there is none to give. -/
theorem resolveService_cases (dispatcher : RpcDispatcher)
    (controlPlaneMetadata : Option ControlPlaneMetadata) :
    (∃ metadata service, Resolves dispatcher controlPlaneMetadata metadata service ∧
      dispatcher.resolveService controlPlaneMetadata = .ok (metadata, service)) ∨
    ((∀ metadata service, ¬ Resolves dispatcher controlPlaneMetadata metadata service) ∧
      ∃ status, dispatcher.resolveService controlPlaneMetadata = .error (.error status)) := by
  cases controlPlaneMetadata with
  | none =>
    refine .inr ⟨?_, _, rfl⟩
    intro metadata service resolves
    cases resolves.present
  | some metadata =>
    by_cases ready : dispatcher.currentState = isolateStateReady
    · cases found : dispatcher.serviceMap.lookup metadata.destinationServiceName with
      | none =>
        refine .inr ⟨?_, _, by simp only [RpcDispatcher.resolveService, ready, ne_eq,
          not_true_eq_false, if_false, found]; rfl⟩
        intro other service resolves
        cases resolves.present
        exact absurd (found.symm.trans resolves.registered) (by simp)
      | some service =>
        exact .inl ⟨metadata, service, ⟨rfl, ready, found⟩, by simp only
          [RpcDispatcher.resolveService, ready, ne_eq, not_true_eq_false, if_false, found]⟩
    · exact .inr ⟨fun other service resolves => ready resolves.ready, _, if_pos ready⟩

/-- The first item of the stream opens an rpc on this service. -/
def Opens (dispatcher : RpcDispatcher) (requestStream : ItemStream InvokeIsolateRequest)
    (metadata : ControlPlaneMetadata) (service : IsolateRpcService) : Prop :=
  ∃ request : InvokeIsolateRequest, requestStream.head = some (.ok request) ∧
    Resolves dispatcher request.controlPlaneMetadata metadata service

theorem streamInvokeIsolate_opens (dispatcher : RpcDispatcher)
    (requestStream : ItemStream InvokeIsolateRequest) (metadata : ControlPlaneMetadata)
    (service : IsolateRpcService) (opens : Opens dispatcher requestStream metadata service) :
    dispatcher.streamInvokeIsolate requestStream =
      ⟨[⟨service, metadata.destinationMethodName, requestStream⟩],
        match service.streamingRpcHandler metadata.destinationMethodName requestStream with
        | .error status => single (.error status)
        | .ok responses => responses.map (attachMetadata metadata.ipcMessageId)⟩ := by
  obtain ⟨request, head, resolves⟩ := opens
  obtain ⟨first, items⟩ := peek_items requestStream
  have resolved : dispatcher.resolveService request.controlPlaneMetadata = .ok (metadata, service) := by
    rcases resolveService_cases dispatcher request.controlPlaneMetadata with
      ⟨other, another, same, result⟩ | ⟨none_resolves, _⟩
    · obtain ⟨rfl, rfl⟩ := resolves_unique dispatcher _ _ _ _ _ resolves same
      exact result
    · exact absurd resolves (none_resolves metadata service)
  rw [head] at first
  simp only [RpcDispatcher.streamInvokeIsolate, first, resolved, items]
  cases service.streamingRpcHandler metadata.destinationMethodName requestStream <;> rfl

theorem streamInvokeIsolate_refuses (dispatcher : RpcDispatcher)
    (requestStream : ItemStream InvokeIsolateRequest)
    (refused : ∀ metadata service, ¬ Opens dispatcher requestStream metadata service) :
    ∃ status, dispatcher.streamInvokeIsolate requestStream = ⟨[], single (.error status)⟩ := by
  have first := (peek_items requestStream).1
  cases head : requestStream.head with
  | none =>
    rw [head] at first
    exact ⟨_, by simp only [RpcDispatcher.streamInvokeIsolate, first]; rfl⟩
  | some item =>
    rw [head] at first
    cases item with
    | error status => exact ⟨status, by simp only [RpcDispatcher.streamInvokeIsolate, first]⟩
    | ok request =>
      rcases resolveService_cases dispatcher request.controlPlaneMetadata with
        ⟨metadata, service, resolves, _⟩ | ⟨_, status, result⟩
      · exact absurd ⟨request, head, resolves⟩ (refused metadata service)
      · exact ⟨status, by simp only [RpcDispatcher.streamInvokeIsolate, first, result]⟩

/-- What the dispatcher may do to the item at one position: nothing to an error or to
the end of the stream; to a response, only set the id and mark the responder local. -/
def Attached (ipcMessageId : UInt64) :
    Option (Except Status InvokeIsolateResponse) → Option (Except Status InvokeIsolateResponse) → Prop
  | none, out => out = none
  | some (.error status), out => out = some (.error status)
  | some (.ok response), out =>
    ∃ (changed : InvokeIsolateResponse) (metadata : ControlPlaneMetadata),
      out = some (.ok changed) ∧ changed.isolateOutputIscope = response.isolateOutputIscope ∧
      changed.isolateOutput = response.isolateOutput ∧
      changed.controlPlaneMetadata = some metadata ∧ metadata.ipcMessageId = ipcMessageId ∧
      metadata.responderIsLocal = true ∧
      { metadata with
        ipcMessageId := (response.controlPlaneMetadata.getD {}).ipcMessageId
        responderIsLocal := (response.controlPlaneMetadata.getD {}).responderIsLocal } =
        response.controlPlaneMetadata.getD {}

theorem attached_map (ipcMessageId : UInt64) (item : Option (Except Status InvokeIsolateResponse)) :
    Attached ipcMessageId item (item.map (attachMetadata ipcMessageId)) := by
  cases item with
  | none => rfl
  | some item =>
    cases item with
    | error status => rfl
    | ok response => exact ⟨_, _, rfl, rfl, rfl, rfl, rfl, rfl, rfl⟩

/-- If the first item opens an rpc, the service's handler is called once, with the
whole stream, and its items come out one by one with only the two metadata fields
changed, or its error comes out alone. Otherwise no handler is called and one error
comes out. -/
theorem stream_dispatch_contract (dispatcher : RpcDispatcher)
    (requestStream : ItemStream InvokeIsolateRequest) :
    (∀ metadata service, Opens dispatcher requestStream metadata service →
      (dispatcher.streamInvokeIsolate requestStream).invocations =
        [⟨service, metadata.destinationMethodName, requestStream⟩] ∧
      match service.streamingRpcHandler metadata.destinationMethodName requestStream with
      | .error status =>
        (dispatcher.streamInvokeIsolate requestStream).output = single (.error status)
      | .ok responses =>
        ∀ position, Attached metadata.ipcMessageId (responses.get? position)
          ((dispatcher.streamInvokeIsolate requestStream).output.get? position)) ∧
    ((∀ metadata service, ¬ Opens dispatcher requestStream metadata service) →
      (dispatcher.streamInvokeIsolate requestStream).invocations = [] ∧
      ∃ status, (dispatcher.streamInvokeIsolate requestStream).output = single (.error status)) := by
  constructor
  · intro metadata service opens
    rw [streamInvokeIsolate_opens dispatcher requestStream metadata service opens]
    refine ⟨rfl, ?_⟩
    cases service.streamingRpcHandler metadata.destinationMethodName requestStream with
    | error status => rfl
    | ok responses =>
      intro position
      simp only [Seq.map_get?]
      exact attached_map metadata.ipcMessageId (responses.get? position)
  · intro refused
    obtain ⟨status, result⟩ := streamInvokeIsolate_refuses dispatcher requestStream refused
    rw [result]
    exact ⟨rfl, status, rfl⟩

/-- A service that answers each request with its payload. -/
def echoService : IsolateRpcService where
  serviceName := "Echo"
  streamingRpcHandler := fun _ requests => .ok (requests.map (fun item =>
    item.map (fun request => { isolateOutput := request.isolateInput })))

def echoRequest : InvokeIsolateRequest where
  controlPlaneMetadata := some { ipcMessageId := 7, destinationServiceName := "Echo" }
  isolateInput := some ⟨[[1, 2]]⟩

theorem stream_dispatch_contract_echo :
    let stream : ItemStream InvokeIsolateRequest := Seq.cons (.ok echoRequest) Seq.nil
    (RpcDispatcher.new echoService).currentState = isolateStateReady ∧
      ((RpcDispatcher.new echoService).streamInvokeIsolate stream).invocations =
        [⟨echoService, "", stream⟩] :=
  ⟨rfl, ((stream_dispatch_contract (RpcDispatcher.new echoService)
    (Seq.cons (.ok echoRequest) Seq.nil)).1 _ _ ⟨echoRequest, rfl, rfl, rfl, rfl⟩).1⟩

end EzSdk.Rust
