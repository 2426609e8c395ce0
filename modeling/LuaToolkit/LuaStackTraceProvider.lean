import LuaToolkit.Dap
import LuaToolkit.LuaValues

/-!
# `LuaStackTraceProvider`

It answers the inspection requests of one stop, on the Lua thread and with the `lua_Debug` record
of the hook. Frames and variables are kept in tables, and the protocol refers to them by counted
ids. A variable stores how its value is found: the slot of a local, or a key of its parent. The
value is looked up when the variable is first asked for, from the local on.

A failed assertion, and a null pointer passed to `strcmp`, is `none`.
-/

namespace LuaToolkit

namespace Dap

structure Scope where
  name : String
  presentationHint : Option String := none
  variablesReference : Nat
  deriving DecidableEq, Repr

/-- `presentationHint` is the kind. -/
structure Variable where
  name : Bytes
  value : Bytes := []
  type : Option String := none
  presentationHint : Option String := none
  variablesReference : Nat
  namedVariables : Option Nat := none
  indexedVariables : Option Nat := none
  deriving DecidableEq, Repr

structure VariablesArguments where
  variablesReference : Nat
  filter : String := ""
  start : Option Nat := none
  count : Option Nat := none
  deriving DecidableEq, Repr

end Dap

open Dap

structure StackFrameEntry where
  id : Nat
  level : Nat
  frameInfo : StackFrame
  scopes : List Scope := []
  deriving DecidableEq, Repr

structure VariableEntry where
  referenceId : Nat
  name : Bytes := []
  indexedKey : Option Int32 := none
  parentFrame : Option Nat := none
  parentVariableId : Option Nat := none
  indexOnFrame : Option Nat := none
  variableInfo : Option Variable := none
  indexedChildren : List Nat := []
  namedChildren : List Nat := []
  deriving DecidableEq, Repr

structure LuaStackTraceProvider where
  ar : LuaDebug
  stackFrames : List StackFrameEntry := []
  variableEntries : List VariableEntry := []
  variableRefId : Nat := 0
  deriving DecidableEq, Repr

/-! ## Frames -/

/-- The name of a frame, empty for functions of other kinds. -/
def frameName (what : String) (name : Option String) : String :=
  if what = "main" then "Global"
  else if what = "Lua" then name.getD "GLOBAL_SCOPE"
  else if what = "C" then "CFunc"
  else ""

/-- The constructor of `StackFrameEntry`. -/
def StackFrameEntry.create {ν : Type*} (l : LuaState ν) (frameId level : Nat) (ar : LuaDebug) :
    Option (StackFrameEntry × LuaDebug) :=
  let ar := luaGetInfo l "nl" ar
  match ar.what with
  | none => none
  | some what =>
    let frameInfo : StackFrame := { id := frameId, name := frameName what ar.name }
    let frameInfo := match ar.source with
      | some source =>
        { frameInfo with source := some ⟨source⟩, line := ar.currentline.toUInt32 }
      | none => frameInfo
    some ({ id := frameId, level := level, frameInfo := frameInfo }, ar)

/-! ## Variables -/

namespace VariableEntry

/-- The constructor for a scope. -/
def ofFrame (frameId referenceId : Nat) : VariableEntry where
  referenceId := referenceId
  parentFrame := some frameId

/-- The constructor for a local or a string key. -/
def named (parentId : Nat) (name : Bytes) (indexOnFrame : Option Nat) (referenceId : Nat) :
    VariableEntry where
  referenceId := referenceId
  name := name
  parentVariableId := some parentId
  indexOnFrame := indexOnFrame

/-- `std::to_string` of an `int`. -/
def decimalInt (index : Int32) : Bytes :=
  if index < 0 then 45 :: HttpStream.decimal index.toInt.natAbs
  else HttpStream.decimal index.toInt.natAbs

/-- The constructor for a number key. -/
def indexed (parentId : Nat) (index : Int32) (referenceId : Nat) : VariableEntry where
  referenceId := referenceId
  name := decimalInt index
  indexedKey := some index
  parentVariableId := some parentId

end VariableEntry

namespace LuaStackTraceProvider

def getStackFrameEntry (frameId : Nat) (p : LuaStackTraceProvider) : Option StackFrameEntry :=
  p.stackFrames.find? fun entry => entry.id == frameId

def getVariableEntry (variableId : Nat) (p : LuaStackTraceProvider) : Option VariableEntry :=
  p.variableEntries.find? fun v => v.referenceId == variableId

/-- A write to an entry of `_variables`. -/
def modifyVariable (variableId : Nat) (f : VariableEntry → VariableEntry)
    (p : LuaStackTraceProvider) : LuaStackTraceProvider :=
  { p with
    variableEntries := p.variableEntries.map fun v =>
      if v.referenceId = variableId then f v else v }

/-- `NewVariable`, with the constructor that it calls. -/
def newVariable (create : Nat → VariableEntry) (p : LuaStackTraceProvider) :
    Nat × LuaStackTraceProvider :=
  (p.variableRefId + 1,
    { p with
      variableRefId := p.variableRefId + 1
      variableEntries := p.variableEntries ++ [create (p.variableRefId + 1)] })

/-- `AddChild`: a new variable, whose id the variable at hand takes into one of its lists. -/
def addChild (variableId : Nat) (create : Nat → VariableEntry)
    (link : Nat → VariableEntry → VariableEntry) (p : LuaStackTraceProvider) :
    LuaStackTraceProvider :=
  let (childId, p) := p.newVariable create
  p.modifyVariable variableId (link childId)

/-- `AddChild` with a name. -/
def addNamedChild (variableId : Nat) (name : Bytes) (indexOnFrame : Option Nat) :
    LuaStackTraceProvider → LuaStackTraceProvider :=
  addChild variableId (.named variableId name indexOnFrame) fun childId v =>
    { v with namedChildren := v.namedChildren ++ [childId] }

/-- `AddChild` with an index. -/
def addIndexedChild (variableId : Nat) (index : Int32) :
    LuaStackTraceProvider → LuaStackTraceProvider :=
  addChild variableId (.indexed variableId index) fun childId v =>
    { v with indexedChildren := v.indexedChildren ++ [childId] }

section Requests

variable {N : Type}

/-! ## Stack trace and scopes -/

/-- The loop over the levels of the stack, of which there are at most so many. -/
def collectFrames {ν : Type*} (l : LuaState ν) :
    Nat → Nat → Nat → List StackFrameEntry → LuaDebug → Option (List StackFrameEntry × LuaDebug)
  | 0, _, _, stackFrames, ar => some (stackFrames, ar)
  | n + 1, frameId, level, stackFrames, ar =>
    match luaGetStack l level ar with
    | (false, ar) => some (stackFrames, ar)
    | (true, ar) =>
      match StackFrameEntry.create l (frameId + 1) level ar with
      | none => none
      | some (frame, ar) => collectFrames l n (frameId + 1) (level + 1) (stackFrames ++ [frame]) ar

def getStackTrace {ν : Type*} (l : LuaState ν) (p : LuaStackTraceProvider) :
    Option (List StackFrame × LuaStackTraceProvider) :=
  let p? :=
    if p.stackFrames.isEmpty then
      (collectFrames l (l.stack.length + 1) 0 0 [] p.ar).map fun (stackFrames, ar) =>
        { p with stackFrames := stackFrames, ar := ar }
    else some p
  p?.map fun p => (p.stackFrames.map StackFrameEntry.frameInfo, p)

/-- One round of the loop over the locals. -/
def addLocal {ν : Type*} (scopeId : Nat) (p : LuaStackTraceProvider)
    (slot : (Bytes × ν) × Nat) : LuaStackTraceProvider :=
  if (ascii "(*").isPrefixOf slot.1.1 then p
  else p.addNamedChild scopeId slot.1.1 (some slot.2)

/-- `StackFrameEntry::GetScopes`. The loop calls `lua_getlocal` with 1, 2, … until it returns
null. -/
def getFrameScopes {ν : Type*} (l : LuaState ν) (frame : StackFrameEntry)
    (p : LuaStackTraceProvider) : List Scope × LuaStackTraceProvider :=
  if frame.scopes.isEmpty then
    match luaGetStack l frame.level p.ar with
    | (false, ar) => ([], { p with ar := ar })
    | (true, ar) =>
      let (varRef, p) := { p with ar := ar }.newVariable (.ofFrame frame.id)
      let scopes : List Scope :=
        [{ name := "Locals", presentationHint := some "locals", variablesReference := varRef }]
      let locals := (l.stack[ar.i_ci]?.map CallInfo.locals).getD []
      let p := (locals.zipIdx 1).foldl (addLocal varRef) p
      (scopes, { p with
        stackFrames := p.stackFrames.map fun f =>
          if f.id = frame.id then { f with scopes := scopes } else f })
  else (frame.scopes, p)

def getScopes {ν : Type*} (l : LuaState ν) (frameId : Nat) (p : LuaStackTraceProvider) :
    Option (List Scope × LuaStackTraceProvider) :=
  (p.getStackFrameEntry frameId).map fun frame => p.getFrameScopes l frame

/-! ## Values -/

/-- The key that `PushChildValue` pushes for a child. -/
def lookupKey [LuaNumber N] (child : VariableEntry) : LuaValue N :=
  match child.indexedKey with
  | some index => .number (LuaNumber.ofInt index)
  | none => .string (cString child.name)

/-- `PushChildValue` of an entry, with a bound on the number of its ancestors. The value is absent
when `lua_getlocal` returns null. -/
def pushChildValue [DecidableEq N] [LuaNumber N] (heap : LuaHeap N) (l : LuaState (LuaValue N))
    (p : LuaStackTraceProvider) :
    Nat → VariableEntry → VariableEntry → LuaDebug → Option (Option (LuaValue N) × LuaDebug)
  | 0, _, _, _ => none
  | n + 1, self, child, ar =>
    if child.parentFrame.isSome then none
    else
      match self.parentFrame with
      | some frameId =>
        match child.indexOnFrame, p.getStackFrameEntry frameId with
        | some index, some frame =>
          let (_, ar) := luaGetStack l frame.level ar
          some ((luaGetLocal l ar index).map Prod.snd, ar)
        | _, _ => none
      | none =>
        match self.parentVariableId.bind p.getVariableEntry with
        | none => none
        | some parentVariable =>
          match pushChildValue heap l p n parentVariable self ar with
          | some (some (.table t), ar) => some (some ((heap t).get (lookupKey child)), ar)
          | _ => none

/-- One round of the `lua_next` loop. -/
def addEntry [LuaNumber N] (variableId : Nat) (p : LuaStackTraceProvider)
    (entry : LuaValue N × LuaValue N) : LuaStackTraceProvider :=
  match entry.1 with
  | .number key => p.addIndexedChild variableId (LuaNumber.toInteger key).toInt32
  | .string name => p.addNamedChild variableId name none
  -- Other keys are left out.
  | _ => p

/-- What the evaluated value makes of the variable and of the children. -/
def describe [LuaNumber N] (heap : LuaHeap N) (variableId : Nat) (value : Option (LuaValue N))
    (variableInfo : Variable) (p : LuaStackTraceProvider) : Variable × LuaStackTraceProvider :=
  match value with
  | none => ({ variableInfo with value := ascii "[unevaluated]" }, p)
  | some .nil => ({ variableInfo with value := ascii "nil", type := some "nil" }, p)
  | some (.boolean value) =>
    ({ variableInfo with
      value := ascii (if value then "True" else "False"), type := some "boolean" }, p)
  | some (.number value) =>
    ({ variableInfo with value := LuaNumber.toText value, type := some "number" }, p)
  | some (.string value) => ({ variableInfo with value := value, type := some "string" }, p)
  | some (.table t) =>
    let p := (heap t).entries.foldl (addEntry variableId) p
    let isArray := (p.getVariableEntry variableId).any fun v =>
      v.namedChildren.isEmpty && !v.indexedChildren.isEmpty
    ({ variableInfo with type := some (if isArray then "array" else "object") }, p)
  | some (.lightuserdata _) | some (.function _) | some (.userdata _) | some (.thread _) =>
    (variableInfo, p)

/-- The reference and the numbers of children, which end `GetVariable`. -/
def countChildren (v : VariableEntry) (variableInfo : Variable) : Variable :=
  if v.namedChildren.isEmpty && v.indexedChildren.isEmpty then
    { variableInfo with variablesReference := 0 }
  else
    { variableInfo with
      namedVariables := if v.namedChildren.isEmpty then none else some v.namedChildren.length
      indexedVariables :=
        if v.indexedChildren.isEmpty then none else some v.indexedChildren.length }

/-- The part of `GetVariable` that looks the value up, which a scope does without. -/
def evaluate [DecidableEq N] [LuaNumber N] (heap : LuaHeap N) (l : LuaState (LuaValue N))
    (self : VariableEntry) (variableInfo : Variable) (p : LuaStackTraceProvider) :
    Option (Variable × LuaStackTraceProvider) :=
  if self.parentFrame.isSome then some (variableInfo, p)
  else do
    let parent ← self.parentVariableId.bind p.getVariableEntry
    let (value, ar) ← pushChildValue heap l p p.variableEntries.length parent self p.ar
    some (describe heap self.referenceId value variableInfo { p with ar := ar })

/-- `VariableEntry::GetVariable`. -/
def getVariable [DecidableEq N] [LuaNumber N] (heap : LuaHeap N) (l : LuaState (LuaValue N))
    (variableId : Nat) (p : LuaStackTraceProvider) : Option (Variable × LuaStackTraceProvider) := do
  let self ← p.getVariableEntry variableId
  match self.variableInfo with
  | some variableInfo => some (variableInfo, p)
  | none =>
    let (variableInfo, p) ← p.evaluate heap l self {
      name := self.name
      presentationHint := some "property"
      variablesReference := self.referenceId }
    let self ← p.getVariableEntry variableId
    let variableInfo := countChildren self variableInfo
    some (variableInfo,
      p.modifyVariable variableId fun v => { v with variableInfo := some variableInfo })

/-- `std::transform` with `GetVariable` over some children. -/
def transform [DecidableEq N] [LuaNumber N] (heap : LuaHeap N) (l : LuaState (LuaValue N)) :
    List Nat → LuaStackTraceProvider → Option (List Variable × LuaStackTraceProvider)
  | [], p => some ([], p)
  | variableId :: ids, p => do
    let (variableInfo, p) ← p.getVariable heap l variableId
    let (variableInfos, p) ← transform heap l ids p
    some (variableInfo :: variableInfos, p)

/-- `GetVariables`, with `VariableEntry::GetChildren`. -/
def getVariables [DecidableEq N] [LuaNumber N] (heap : LuaHeap N) (l : LuaState (LuaValue N))
    (arg : VariablesArguments) (p : LuaStackTraceProvider) :
    Option (List Variable × LuaStackTraceProvider) := do
  let self ← p.getVariableEntry arg.variablesReference
  let (indexed, p) ← transform heap l
    (if arg.filter = "" ∨ arg.filter = "indexed" then self.indexedChildren else []) p
  let (named, p) ← transform heap l
    (if arg.filter = "" ∨ arg.filter = "named" then self.namedChildren else []) p
  some (indexed ++ named, p)

end Requests

end LuaStackTraceProvider

end LuaToolkit
