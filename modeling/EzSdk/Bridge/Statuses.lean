import EzSdk.Bridge.Lifetime
import EzSdk.Bridge.Unary
import EzSdk.Foundation.HeapLists

/-! The status with which an invocation ends, against the status that the user's handler
returned. -/

namespace EzSdk.Bridge

variable {Msg : Type}

/-- The generated body of an rpc that the user does not override. -/
def notImplementedByUser : Status := ⟨.unimplemented, "Method not implemented by user."⟩

/-- An `InvokeIsolate` that reaches the user's method. -/
structure UnaryReturn (services : ServiceMap Msg) where
  currentState : Int
  implementation : Method Msg → Msg → Status × Bytes
  request : InvokeIsolateRequest
  service : Service Msg
  method : Method Msg
  message : Msg
  admitted : admitUnary services currentState request = .dispatch service
  parsed : isolateRpcMethodHandler service request.metadata.destinationMethodName
    request.datagrams = .ok (method, message)

/-- A run of the isolate in which the handler of a stream returns `status` after the events
`before`, among them all its reads and writes. -/
structure StreamReturn (services : ServiceMap Msg) where
  before : List Event
  isolate : Isolate Msg
  reached : run services before = some isolate
  index : Nat
  stream : Stream Msg
  present : isolate.streams[index]? = some stream
  status : Status
  after : List Event
  final : Isolate Msg
  returns : Runs.run (step services) isolate (.onStream index (.taskReturn status) :: after) =
    some final

/-- The return of a user's handler, unary or streaming. -/
inductive HandlerReturn (services : ServiceMap Msg) where
  | unary (invocation : UnaryReturn services)
  | stream (invocation : StreamReturn services)

namespace HandlerReturn

variable {services : ServiceMap Msg}

/-- What the user's handler returned. -/
def returned : HandlerReturn services → Status
  | .unary invocation => (invocation.implementation invocation.method invocation.message).1
  | .stream invocation => invocation.status

/-- What the enforcer sees: the status of the response, or of the first `Finish`. -/
def ended : HandlerReturn services → Option Status
  | .unary invocation =>
    some (invokeIsolate services invocation.currentState invocation.implementation
      invocation.request).1
  | .stream invocation =>
    invocation.final.streams[invocation.index]?.bind (fun stream => stream.finishes.head?)

/-- A streaming handler's status survives when it is OK and the stream has not been finished
before, or when the stream was finished with that status by something else. -/
def Kept : HandlerReturn services → Prop
  | .unary _ => True
  | .stream invocation =>
    (invocation.stream.finishes = [] ∧ invocation.status = .OK) ∨
      invocation.stream.finishes.head? = some invocation.status

end HandlerReturn

/-- No event takes a `Finish` back. -/
theorem outcome_finishes (services : ServiceMap Msg) (currentState : Int) (self : Nat)
    (event : StreamEvent) (stream changed : Stream Msg) (objects after : Objects Msg)
    (calls : List WriterCall)
    (outcome : Outcome services currentState self stream objects event changed after calls) :
    stream.finishes <+: changed.finishes := by
  cases outcome with
  | readUnsupported | readNotReady | endUnsupported | taskReturn => exact List.prefix_append _ _
  | writeDone ok =>
    cases ok with
    | true => exact List.prefix_rfl
    | false => exact List.prefix_append _ _
  | done =>
    have same : (onDone services { stream with doneRun := true }).finishes = stream.finishes := by
      rw [onDone_eq]
    exact ⟨[], (List.append_nil _).trans same.symm⟩
  | _ => exact List.prefix_rfl

theorem run_finishes (services : ServiceMap Msg) (start final : Isolate Msg)
    (events : List Event) (index : Nat) (stream : Stream Msg)
    (present : start.streams[index]? = some stream)
    (reached : Runs.run (step services) start events = some final) :
    ∃ changed, final.streams[index]? = some changed ∧ stream.finishes <+: changed.finishes :=
  run_later_stream services (fun before after => before.finishes <+: after.finishes)
    (fun _ => List.prefix_rfl) (fun _ _ _ one other => one.trans other)
    (outcome_finishes services) start final events index stream present reached

theorem freed_finished (services : ServiceMap Msg) (events : List Event) (isolate : Isolate Msg)
    (reached : run services events = some isolate) (stream : Stream Msg)
    (member : stream ∈ isolate.streams) (freed : stream.freed = true) : stream.finishes ≠ [] := by
  have sound := run_every_sound services events isolate reached stream member
  have finished : 0 < stream.finishes.length := sound.done_finished (sound.freed_done freed)
  exact List.length_pos_iff.mp finished

/-- Whatever the handler returns, an unfinished stream ends with OK. -/
theorem stream_ended_eq (services : ServiceMap Msg) (invocation : StreamReturn services) :
    (HandlerReturn.stream invocation).ended =
      if invocation.stream.finishes = [] then some .OK else invocation.stream.finishes.head? := by
  obtain ⟨next, taken, rest⟩ := (Runs.run_cons _ _ _ _).mp invocation.returns
  obtain ⟨touched, changed, objects, calls, stored, outcome, same⟩ :=
    onStream_cases taken
  have is : invocation.stream = touched := Option.some.inj (invocation.present.symm.trans stored)
  subst is
  have now : next.streams[invocation.index]? = some changed := by
    rw [same]
    exact (HeapLists.getElem?_set_some _ _ _ _ changed _ stored).mpr (.inl ⟨rfl, rfl⟩)
  obtain ⟨last, found, grown⟩ :=
    run_finishes services next invocation.final invocation.after invocation.index changed now rest
  have heads : changed.finishes ≠ [] ∧ changed.finishes.head? =
      if invocation.stream.finishes = [] then some .OK else invocation.stream.finishes.head? := by
    cases outcome with
    | taskReturn task status has running alive =>
      cases empty : invocation.stream.finishes with
      | nil => simp [Stream.finish]
      | cons first others => simp [Stream.finish]
    | taskReturnFreed task status has running freed =>
      have finished := freed_finished services invocation.before invocation.isolate
        invocation.reached invocation.stream (List.mem_of_getElem? invocation.present) freed
      exact ⟨finished, by simp [finished]⟩
  simp only [HandlerReturn.ended, found, Option.bind_some]
  obtain ⟨extra, longer⟩ := grown
  rw [← longer, List.head?_append_of_ne_nil _ heads.1, heads.2]

theorem unary_ended_eq (services : ServiceMap Msg) (invocation : UnaryReturn services) :
    (HandlerReturn.unary invocation).ended = some (HandlerReturn.unary invocation).returned := by
  simp only [HandlerReturn.ended, HandlerReturn.returned, invokeIsolate, invocation.admitted,
    invocation.parsed]

theorem handler_status_reaches_iff (services : ServiceMap Msg) (handled : HandlerReturn services) :
    handled.ended = some handled.returned ↔ handled.Kept := by
  cases handled with
  | unary invocation =>
    simp only [unary_ended_eq, HandlerReturn.Kept]
  | stream invocation =>
    rw [stream_ended_eq, HandlerReturn.returned, HandlerReturn.Kept]
    by_cases unfinished : invocation.stream.finishes = []
    · simp only [unfinished, if_true, Option.some.injEq, true_and, List.head?_nil, reduceCtorEq, or_false]
      exact eq_comm
    · simp only [unfinished, if_false, false_and, false_or]

/-- A stream on a rpc that the user did not override. -/
def notOverridden : StreamReturn [greeter] where
  before := [.setIsolateReady, .streamInvokeIsolate 4096, .onStream 0 (.clientWrite hello),
    .onStream 0 (.readDone hello), .onStream 0 .taskStart]
  isolate := _
  reached := rfl
  index := 0
  stream := _
  present := rfl
  status := notImplementedByUser
  after := []
  final := _
  returns := rfl

/-- A call of the unary rpc, which the user did not override either. -/
def unaryNotOverridden : UnaryReturn [greeter] where
  currentState := isolateStateReady
  implementation := fun _ _ => (notImplementedByUser, [])
  request := bridgeMessage "Greeter" "SayHello" []
  service := greeter
  method := ⟨"SayHello", false, false, [], mergeHelloRequest⟩
  message := []
  admitted := rfl
  parsed := rfl

example : (HandlerReturn.unary unaryNotOverridden).ended = some notImplementedByUser := rfl

theorem streaming_status_lost :
    (HandlerReturn.stream notOverridden).returned = notImplementedByUser ∧
      (HandlerReturn.stream notOverridden).ended = some .OK ∧
      (HandlerReturn.stream notOverridden).ended ≠
        some (HandlerReturn.stream notOverridden).returned :=
  ⟨rfl, rfl, by decide⟩

end EzSdk.Bridge
