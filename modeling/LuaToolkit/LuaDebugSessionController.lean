import LuaToolkit.Dap
import LuaToolkit.DebugSession
import LuaToolkit.LuaApi

/-!
# `LuaDebugSessionController`

The breakpoint tables, which the session's requests change, and the debugger hook, which reads
them on every event of the Lua thread. A failed assertion is `none`; what follows it would
dereference the end of a table.

The hook is divided at its call of `StopExecution`: `beforeStop` is what it does until then and
`afterStop` what it does with the mode it gets back. Requests are handled in between.
-/

namespace LuaToolkit

open Dap

inductive StartMode where
  | unknown
  | launch
  | attach
  deriving DecidableEq, Repr

structure SourceBp where
  id : UInt32
  sourceId : Nat
  bp : SourceBreakpoint
  deriving DecidableEq, Repr

structure FunctionBp where
  id : UInt32
  bp : FunctionBreakpoint
  deriving DecidableEq, Repr

structure SourceEntry where
  id : Nat
  source : Source
  deriving DecidableEq, Repr

/-- `StepPredicate` and `StepOutPredicate`. -/
inductive DebugStepPredicate where
  | step (initialLine : Int32) (initialStackDepth : Nat) (allowStepIn : Bool)
  | stepOut (initialStackDepth : Nat)
  deriving DecidableEq, Repr

/-- The members. Sessions are numbered, and the weak reference is the number of one. The counter of
breakpoint ids may overflow; that of source ids is a natural number, since every source it
counts stays in the table. -/
structure LuaDebugSessionController where
  startMode : StartMode := .unknown
  sessionRef : Option Nat := none
  sourceBreakpoints : List SourceBp := []
  functionBreakpoints : List FunctionBp := []
  sources : List SourceEntry := []
  debugStepPredicate : Option DebugStepPredicate := none
  bpId : UInt32 := 0
  srcId : Nat := 0
  isActive : Bool := false
  deriving DecidableEq, Repr

/-! ## Step predicates -/

def stepEvent : StoppedEventBody where
  reason := "step"
  description := some "Debug step"
  threadId := some 1
  allThreadsStopped := some true

namespace DebugStepPredicate

variable {ν : Type*}

/-- The constructor of `StepPredicate`. -/
def createStep (l : LuaState ν) (ar : LuaDebug) (allowStepIn : Bool) :
    DebugStepPredicate × LuaDebug :=
  let ((line, stackDepth), ar) := getCurrentLineAndStackDepth l ar
  (.step line stackDepth allowStepIn, ar)

def getStopped (l : LuaState ν) (ar : LuaDebug) :
    DebugStepPredicate → Option StoppedEventBody × LuaDebug
  | .step initialLine initialStackDepth allowStepIn =>
    if ar.event ≠ .line then (none, ar)
    else
      let ((currentLine, currentStackDepth), ar) := getCurrentLineAndStackDepth l ar
      let stop :=
        if allowStepIn then initialLine != currentLine
        else currentStackDepth < initialStackDepth ||
          (initialStackDepth == currentStackDepth && initialLine != currentLine)
      (if stop then some stepEvent else none, ar)
  | .stepOut initialStackDepth =>
    if ar.event ≠ .line then (none, ar)
    else
      let ((_, currentStackDepth), ar) := getCurrentLineAndStackDepth l ar
      (if currentStackDepth < initialStackDepth then some stepEvent else none, ar)

end DebugStepPredicate

namespace LuaDebugSessionController

variable {ν : Type*}

/-! ## Requests -/

def setSession (session : Nat) (c : LuaDebugSessionController) : LuaDebugSessionController :=
  { c with sessionRef := some session }

def configureLaunch (c : LuaDebugSessionController) : Option LuaDebugSessionController :=
  if c.startMode = .unknown then some { c with startMode := .launch } else none

def configureAttach (c : LuaDebugSessionController) : Option LuaDebugSessionController :=
  if c.startMode = .unknown then some { c with startMode := .attach } else none

/-- The mode that `Start`, which derived classes implement, is called with. -/
def configurationDone (c : LuaDebugSessionController) : Option StartMode :=
  if c.startMode ≠ .unknown then some c.startMode else none

/-- The id of the source, new if it is not in the table. -/
def getSourceId (P : PathEquality) (source : Source) (c : LuaDebugSessionController) :
    Nat × LuaDebugSessionController :=
  match c.sources.find? fun entry => entry.source.eq P source with
  | some existingSource => (existingSource.id, c)
  | none =>
    (c.srcId + 1, { c with srcId := c.srcId + 1, sources := c.sources ++ [⟨c.srcId + 1, source⟩] })

/-- The source with this id; the assertion fails if there is none. -/
def getSource (sourceId : Nat) (c : LuaDebugSessionController) : Option Source :=
  (c.sources.find? fun entry => entry.id == sourceId).map SourceEntry.source

/-- One round of the loop in `SetBreakpoints`. The line of the response is assigned to itself
and stays empty. -/
def addSourceBreakpoint (sourceId : Nat)
    (acc : List Breakpoint × LuaDebugSessionController) (srcBp : SourceBreakpoint) :
    List Breakpoint × LuaDebugSessionController :=
  let (breakpoints, c) := acc
  let bpId := c.bpId + 1
  (breakpoints ++ [{ id := some bpId, verified := true }],
    { c with
      bpId := bpId
      sourceBreakpoints := c.sourceBreakpoints ++ [⟨bpId, sourceId, srcBp⟩] })

def setBreakpoints (P : PathEquality) (arg : SetBreakpointsArguments)
    (c : LuaDebugSessionController) : List Breakpoint × LuaDebugSessionController :=
  let (sourceId, c) := c.getSourceId P arg.source
  -- All breakpoints of the source are dropped, and the others keep their order.
  let c := { c with
    sourceBreakpoints := c.sourceBreakpoints.filter fun bp => bp.sourceId != sourceId }
  arg.breakpoints.foldl (addSourceBreakpoint sourceId) ([], c)

/-- One round of the loop in `SetFunctionBreakpoints`. -/
def addFunctionBreakpoint (acc : List Breakpoint × LuaDebugSessionController)
    (funcBp : FunctionBreakpoint) : List Breakpoint × LuaDebugSessionController :=
  let (breakpoints, c) := acc
  let bpId := c.bpId + 1
  (breakpoints ++ [{ id := some bpId, verified := true }],
    { c with bpId := bpId, functionBreakpoints := c.functionBreakpoints ++ [⟨bpId, funcBp⟩] })

def setFunctionBreakpoints (arg : SetFunctionBreakpointsArguments)
    (c : LuaDebugSessionController) : List Breakpoint × LuaDebugSessionController :=
  arg.breakpoints.foldl addFunctionBreakpoint ([], { c with functionBreakpoints := [] })

/-- The part of `EnableDebug` that concerns the controller; the hook that it installs stays. -/
def enableDebug (c : LuaDebugSessionController) : LuaDebugSessionController :=
  { c with isActive := true }

def disableDebug (c : LuaDebugSessionController) : LuaDebugSessionController :=
  { c with isActive := false }

/-- `Disconnect` of the class itself. -/
def disconnect (c : LuaDebugSessionController) : LuaDebugSessionController := c

/-! ## The hook -/

def breakpointEvent (bp : SourceBp) : StoppedEventBody where
  reason := "breakpoint"
  description := some "Paused on breakpoint"
  threadId := some 1
  allThreadsStopped := some true
  hitBreakpointIds := some [bp.id]

def functionBreakpointEvent (bp : FunctionBp) : StoppedEventBody where
  reason := "function breakpoint"
  description := some ("Paused on (" ++ bp.bp.name ++ ")")
  threadId := some 1
  allThreadsStopped := some true
  hitBreakpointIds := some [bp.id]

/-- The test of a source breakpoint; it fails with the assertion in `getSource`. -/
def hitsLine (P : PathEquality) (c : LuaDebugSessionController) (ar : LuaDebug) (bp : SourceBp) :
    Option Bool := do
  let source ← c.getSource bp.sourceId
  let path ← ar.source
  pure (source.eqPath P path && bp.bp.line == ar.currentline.toUInt32)

def checkBreakpoints (P : PathEquality) (l : LuaState ν) (ar : LuaDebug)
    (c : LuaDebugSessionController) : Option (Option StoppedEventBody × LuaDebug) :=
  if ar.event = .line ∧ ar.source ≠ none ∧ 0 < ar.currentline then
    let ar := luaGetInfo l "nSl" ar
    (c.sourceBreakpoints.findM? (c.hitsLine P ar)).map fun bp => (bp.map breakpointEvent, ar)
  else if ar.event = .call then
    let ar := luaGetInfo l "nS" ar
    match ar.name, ar.what with
    | some name, some what =>
      if what ≠ "Lua" then some (none, ar)
      else
        let bp := c.functionBreakpoints.find? fun bp => bp.bp.name == name
        some (bp.map functionBreakpointEvent, ar)
    | _, _ => some (none, ar)
  else some (none, ar)

/-- `ExecuteDebugger` up to the test of `stoppedEvent`. -/
def beforeStop (P : PathEquality) (l : LuaState ν) (ar : LuaDebug)
    (c : LuaDebugSessionController) :
    Option (Option StoppedEventBody × LuaDebug × LuaDebugSessionController) :=
  if c.isActive = false then some (none, ar, c)
  else
    match c.checkBreakpoints P l ar with
    | none => none
    | some (some stoppedEvent, ar) => some (some stoppedEvent, ar, c)
    | some (none, ar) =>
      match c.debugStepPredicate with
      | none => some (none, ar, c)
      | some predicate =>
        match predicate.getStopped l ar with
        | (some stoppedEvent, ar) =>
          some (some stoppedEvent, ar, { c with debugStepPredicate := none })
        | (none, ar) => some (none, ar, c)

/-- `ExecuteDebugger` from the return of `StopExecution` on. -/
def afterStop (l : LuaState ν) (ar : LuaDebug) (continueMode : ContinueExecutionMode)
    (c : LuaDebugSessionController) : LuaDebugSessionController :=
  match continueMode with
  | .step => { c with debugStepPredicate := some (DebugStepPredicate.createStep l ar false).1 }
  | .stepIn => { c with debugStepPredicate := some (DebugStepPredicate.createStep l ar true).1 }
  | .stepOut =>
    let ((_, stackDepth), _) := getCurrentLineAndStackDepth l ar
    if 0 < stackDepth then { c with debugStepPredicate := some (.stepOut stackDepth) } else c
  | .continue | .stopped => c

end LuaDebugSessionController

end LuaToolkit
