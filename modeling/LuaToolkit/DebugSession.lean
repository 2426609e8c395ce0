import LuaToolkit.Dap
import LuaToolkit.InplaceSchedulerProof

/-!
# `DebugSessionImpl`

Two threads share a session: `Run` reads the client's requests and answers them, and the Lua
thread enters `StopExecution` whenever the controller stops it. Every statement that reads or
writes what they share is a step of its own, so a run of `DebugSession.system` is any
interleaving of the two. What the surroundings answer (the next message, the controller's and
the provider's results, whether sending works) is the input of the step that asks.

Each stop has a scheduler of its own. The schedulers are numbered in the order of their
creation, and the number is the pointer to it.
-/

namespace LuaToolkit

open Transition

inductive ContinueExecutionMode where
  | continue
  | step
  | stepIn
  | stepOut
  | stopped
  deriving DecidableEq, Repr

/-- Of the runtime library: the comparison of command names, and what a failed `Assert` does,
throw an exception with some text or (`none`) end the process. -/
structure Runtime where
  icaseEqual : String → String → Bool
  failedAssert : Option String

/-- The requests that the stopped Lua thread answers through the stack trace provider. -/
inductive Inspection where
  | stackTrace
  | scopes
  | variables
  deriving DecidableEq, Repr

/-- An invocation queued by `Async::run`: what it asks of the provider, with its arguments. -/
structure Invocation (V : Type*) where
  inspection : Inspection
  arguments : V

/-- The requests that are passed on to the controller and touch nothing of the session. -/
inductive ControllerCall where
  | configureLaunch
  | configureAttach
  | configurationDone
  | setBreakpoints
  | setFunctionBreakpoints
  | getThreads
  deriving DecidableEq, Repr

/-- Whether the handler puts the result of the call into the response. -/
def ControllerCall.hasBody : ControllerCall → Bool
  | configureLaunch | configureAttach | configurationDone => false
  | setBreakpoints | setFunctionBreakpoints | getThreads => true

/-- The next statement inside the `try` block. -/
inductive HandlerPoint (V : Type*) where
  /-- The cast of the arguments, if any, and the controller's task. -/
  | controller (call : ControllerCall)
  /-- `_isClosed = true`. -/
  | disconnectClose
  /-- `if (_stoppedState)`. -/
  | disconnectTest
  /-- `_stoppedState->continueMode = ContinueExecutionMode::Stopped`. -/
  | disconnectMode
  /-- `_stoppedState->scheduler->dispose()`. -/
  | disconnectDispose
  /-- `co_await _controller->Disconnect()`. -/
  | disconnectController
  /-- `Assert(_stoppedState)`. -/
  | inspectAssert (inspection : Inspection)
  /-- The cast of the arguments. -/
  | inspectCast (inspection : Inspection)
  /-- `Async::run` on `_stoppedState->scheduler`. -/
  | inspectSchedule (invocation : Invocation V)
  /-- `co_await` of the invocation, which was queued on this scheduler. -/
  | inspectAwait (scheduler : Nat)
  /-- `Assert(_stoppedState)`. -/
  | resumeAssertStopped (mode : ContinueExecutionMode)
  /-- `Assert(!_stoppedState->continueMode)`. -/
  | resumeAssertMode (mode : ContinueExecutionMode)
  /-- `_stoppedState->continueMode = mode`. -/
  | resumeMode (mode : ContinueExecutionMode)
  /-- `_stoppedState->scheduler->dispose()`. -/
  | resumeDispose
  /-- The end of the block. -/
  | done

/-- The branches of the `if` chain on the command. -/
def Runtime.dispatch {V : Type*} (rt : Runtime) (command : String) : HandlerPoint V :=
  if rt.icaseEqual command "launch" then .controller .configureLaunch
  else if rt.icaseEqual command "attach" then .controller .configureAttach
  else if rt.icaseEqual command "configurationDone" then .controller .configurationDone
  else if rt.icaseEqual command "disconnect" then .disconnectClose
  else if rt.icaseEqual command "setBreakpoints" then .controller .setBreakpoints
  else if rt.icaseEqual command "setFunctionBreakpoints" then .controller .setFunctionBreakpoints
  else if rt.icaseEqual command "threads" then .controller .getThreads
  else if rt.icaseEqual command "stackTrace" then .inspectAssert .stackTrace
  else if rt.icaseEqual command "scopes" then .inspectAssert .scopes
  else if rt.icaseEqual command "variables" then .inspectAssert .variables
  else if rt.icaseEqual command "pause" then .done
  else if rt.icaseEqual command "continue" then .resumeAssertStopped .continue
  else if rt.icaseEqual command "next" then .resumeAssertStopped .step
  else if rt.icaseEqual command "stepIn" then .resumeAssertStopped .stepIn
  else if rt.icaseEqual command "stepOut" then .resumeAssertStopped .stepOut
  else .done

/-- A message from the client: its type and the request it decodes to, or the exceptions that
reading them throws. -/
structure IncomingMessage (V : Type*) where
  type : Except String String
  request : Except String (Dap.RequestMessage V)

/-- How `Run` ended. -/
inductive RunExit where
  | endOfStream
  | closed
  | exception (what : String)
  deriving DecidableEq, Repr

/-- Where `Run` stands. -/
inductive RunPoint (V : Type*) where
  | start
  /-- `co_await _messageStream->GetDapMessage()`. -/
  | receive
  /-- The response is about to be created. -/
  | request (request : Dap.RequestMessage V)
  | handle (request : Dap.RequestMessage V) (response : Dap.ResponseMessage V)
      (point : HandlerPoint V)
  /-- `co_await _messageStream->SendDapMessage(response)`. -/
  | respond (response : Dap.ResponseMessage V)
  /-- `while (!_isClosed)`. -/
  | loopEnd
  | finished (exit : RunExit)
  /-- A failed assertion has ended the process, or an absent optional was dereferenced. -/
  | halted

/-- Where the Lua thread stands. -/
inductive LuaPoint (V : Type*) where
  /-- Outside `StopExecution`. -/
  | running
  /-- `Assert(!_stoppedState)`. -/
  | assertFree (ev : Dap.StoppedEventBody)
  /-- The scheduler is created and `_stoppedState` filled. -/
  | emplace (ev : Dap.StoppedEventBody)
  /-- The event message is created, with the next sequence number. -/
  | event (scheduler : Nat) (ev : Dap.StoppedEventBody)
  /-- `SendDapMessage(eventMessage).detach()`. -/
  | announce (scheduler : Nat) (message : Dap.EventMessage)
  /-- In `scheduler->Execute()`. -/
  | execute (scheduler : Nat)
  /-- `Assert(_stoppedState && _stoppedState->continueMode)`. -/
  | assertMode (scheduler : Nat)
  /-- The result is computed, and `_stoppedState` about to be reset. -/
  | leave (scheduler : Nat) (mode : ContinueExecutionMode)
  | halted

/-- `StoppedExectionState`. The provider is known to the invocations only. -/
structure StoppedExecutionState where
  scheduler : Nat
  continueMode : Option ContinueExecutionMode := none
  deriving DecidableEq, Repr

/-- The members of a session, the points of its two threads, the schedulers created so far with
their `Execute` loops, the result of the last invocation run, and what was sent. -/
structure DebugSession (V : Type*) where
  run : RunPoint V := .start
  lua : LuaPoint V := .running
  stoppedState : Option StoppedExecutionState := none
  isClosed : Bool := false
  seqId : UInt32 := 1
  schedulers : Nat → Execution (Invocation V) := fun _ => {}
  schedulerCount : Nat := 0
  answer : Option (Except String V) := none
  sent : List (Dap.Message V) := []

/-- What a step of `Run` is told by its surroundings. -/
inductive RunInput (V : Type*) where
  /-- Nothing: the step depends on the session alone. -/
  | step
  | message (result : Except String (Option (IncomingMessage V)))
  | controller (result : Except String V)
  | cast (result : Except String V)
  | sent (result : Except String Unit)

/-- What a step of the Lua thread is told. -/
inductive LuaInput (V : Type*) where
  | step
  /-- The controller calls `StopExecution`. -/
  | stop (ev : Dap.StoppedEventBody)
  /-- The result of the invocation that is run. -/
  | answer (result : Except String V)

namespace DebugSession

variable {V : Type*}

/-- `NextSeqId` returns `seqId` and leaves the next one. -/
def nextSeqId (s : DebugSession V) : DebugSession V := { s with seqId := s.seqId + 1 }

/-- An access to one of the schedulers. -/
def onScheduler (k : Nat) (f : Execution (Invocation V) → Execution (Invocation V))
    (s : DebugSession V) : DebugSession V :=
  { s with schedulers := Function.update s.schedulers k (f (s.schedulers k)) }

/-- An exception in the `try` block: the handler closes the session and reports it. -/
def catchException (response : Dap.ResponseMessage V) (what : String) (s : DebugSession V) :
    DebugSession V :=
  { s with isClosed := true, run := .respond (response.setError what) }

/-- A failed assertion in the `try` block. -/
def assertFailed (rt : Runtime) (response : Dap.ResponseMessage V) (s : DebugSession V) :
    DebugSession V :=
  match rt.failedAssert with
  | some what => s.catchException response what
  | none => { s with run := .halted }

/-- One statement of a handler. -/
def handlerStep (rt : Runtime) (request : Dap.RequestMessage V)
    (response : Dap.ResponseMessage V) (point : HandlerPoint V) (input : RunInput V)
    (s : DebugSession V) : Option (DebugSession V) :=
  let goto (point : HandlerPoint V) (s : DebugSession V) : DebugSession V :=
    { s with run := .handle request response point }
  match point, input with
  | .controller call, .controller (.ok value) =>
    let response := if call.hasBody then { response with body := some value } else response
    some { s with run := .handle request response .done }
  | .controller _, .controller (.error what) => some (s.catchException response what)
  | .disconnectClose, .step => some (goto .disconnectTest { s with isClosed := true })
  | .disconnectTest, .step =>
    if s.stoppedState.isSome then some (goto .disconnectMode s)
    else some (goto .disconnectController s)
  | .disconnectMode, .step =>
    match s.stoppedState with
    | some st =>
      some (goto .disconnectDispose
        { s with stoppedState := some { st with continueMode := some .stopped } })
    | none => some { s with run := .halted }
  | .disconnectDispose, .step =>
    match s.stoppedState with
    | some st => some (goto .disconnectController (s.onScheduler st.scheduler Execution.dispose))
    | none => some { s with run := .halted }
  | .disconnectController, .controller (.ok _) => some (goto .done s)
  | .disconnectController, .controller (.error what) => some (s.catchException response what)
  | .inspectAssert inspection, .step =>
    if s.stoppedState.isSome then some (goto (.inspectCast inspection) s)
    else some (s.assertFailed rt response)
  | .inspectCast inspection, .cast (.ok arguments) =>
    some (goto (.inspectSchedule ⟨inspection, arguments⟩) s)
  | .inspectCast _, .cast (.error what) => some (s.catchException response what)
  | .inspectSchedule invocation, .step =>
    match s.stoppedState with
    | some st =>
      some (goto (.inspectAwait st.scheduler)
        (s.onScheduler st.scheduler (Execution.scheduleInvocation invocation)))
    | none => some { s with run := .halted }
  | .inspectAwait _, .step =>
    match s.answer with
    | some (.ok value) =>
      some { s with
        answer := none
        run := .handle request { response with body := some value } .done }
    | some (.error what) => some ({ s with answer := none }.catchException response what)
    -- The invocation has not been run: `Run` stays suspended.
    | none => none
  | .resumeAssertStopped mode, .step =>
    if s.stoppedState.isSome then some (goto (.resumeAssertMode mode) s)
    else some (s.assertFailed rt response)
  | .resumeAssertMode mode, .step =>
    match s.stoppedState with
    | some st =>
      if st.continueMode.isNone then some (goto (.resumeMode mode) s)
      else some (s.assertFailed rt response)
    | none => some { s with run := .halted }
  | .resumeMode mode, .step =>
    match s.stoppedState with
    | some st =>
      some (goto .resumeDispose
        { s with stoppedState := some { st with continueMode := some mode } })
    | none => some { s with run := .halted }
  | .resumeDispose, .step =>
    match s.stoppedState with
    | some st => some (goto .done (s.onScheduler st.scheduler Execution.dispose))
    | none => some { s with run := .halted }
  | .done, .step => some { s with run := .respond response }
  | _, _ => none

/-- What the loop does with a message, or the absence of one. -/
def receiveMessage (result : Except String (Option (IncomingMessage V))) : RunPoint V :=
  match result with
  | .error what => .finished (.exception what)
  | .ok none => .finished .endOfStream
  | .ok (some message) =>
    match message.type with
    | .error what => .finished (.exception what)
    | .ok messageType =>
      if messageType = "request" then
        match message.request with
        | .error what => .finished (.exception what)
        | .ok request => .request request
      else .loopEnd

/-- One statement of `Run`. -/
def runStep (rt : Runtime) (input : RunInput V) (s : DebugSession V) : Option (DebugSession V) :=
  match s.run, input with
  | .start, .step => some { s with run := .receive }
  | .receive, .message result => some { s with run := receiveMessage result }
  | .request request, .step =>
    some { s.nextSeqId with
      run := .handle request (.create s.seqId request) (rt.dispatch request.command) }
  | .handle request response point, input => s.handlerStep rt request response point input
  | .respond response, .sent result =>
    some { s with
      sent := s.sent ++ [.response response]
      run := match result with
        | .ok () => .loopEnd
        | .error what => .finished (.exception what) }
  | .loopEnd, .step => some { s with run := if s.isClosed then .finished .closed else .receive }
  | _, _ => none

/-- `StopExecution` is left, by return or by an exception: `SCOPE_Leave`. -/
def scopeLeave (s : DebugSession V) : DebugSession V :=
  { s with stoppedState := none, lua := .running }

/-- A failed assertion in `StopExecution`. -/
def stopAssertFailed (rt : Runtime) (s : DebugSession V) : DebugSession V :=
  if rt.failedAssert.isSome then s.scopeLeave else { s with lua := .halted }

/-- One statement of `StopExecution`. Its caller hands it a provider made for this stop. -/
def luaStep (rt : Runtime) (input : LuaInput V) (s : DebugSession V) : Option (DebugSession V) :=
  match s.lua, input with
  | .running, .stop ev => some { s with lua := .assertFree ev }
  | .assertFree ev, .step =>
    if s.stoppedState.isNone then some { s with lua := .emplace ev }
    else some (s.stopAssertFailed rt)
  | .emplace ev, .step =>
    some { s with
      stoppedState := some { scheduler := s.schedulerCount }
      schedulers := Function.update s.schedulers s.schedulerCount {}
      schedulerCount := s.schedulerCount + 1
      lua := .event s.schedulerCount ev }
  | .event k ev, .step =>
    some { s.nextSeqId with lua := .announce k ⟨s.seqId, "stopped", ev⟩ }
  | .announce k message, .step =>
    some { s with sent := s.sent ++ [.event message], lua := .execute k }
  | .execute k, input =>
    match (s.schedulers k).point, input with
    | .invoke _ (_ :: _), .answer result =>
      (s.schedulers k).executeStep.map fun e =>
        { s with schedulers := Function.update s.schedulers k e, answer := some result }
    | .invoke _ (_ :: _), _ => none
    | .returned, .step => some { s with lua := .assertMode k }
    | _, .step =>
      (s.schedulers k).executeStep.map fun e =>
        { s with schedulers := Function.update s.schedulers k e }
    | _, _ => none
  | .assertMode k, .step =>
    match s.stoppedState.bind (·.continueMode) with
    | some mode => some { s with lua := .leave k mode }
    | none => some (s.stopAssertFailed rt)
  | .leave _ _, .step => some s.scopeLeave
  | _, _ => none

inductive Action (V : Type*) where
  | run (input : RunInput V)
  | lua (input : LuaInput V)

/-- A session from its creation on. -/
def system (V : Type*) (rt : Runtime) : System (DebugSession V) (Action V) where
  init s := s = {}
  step
    | .run input, s => s.runStep rt input
    | .lua input, s => s.luaStep rt input

end DebugSession

end LuaToolkit
