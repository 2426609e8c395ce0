import LuaToolkit.Lib.PeakStack
import LuaToolkit.VariableRequests

/-!
# Requests on the value stack

The C API hands values over on a stack, which the provider shares with the debuggee. Here the
requests work on this stack, call by call, where `LuaStackTraceProvider` passes values on directly.
`lua_getstack` and `lua_getinfo` with the options at hand do not touch the stack.

* `luaGetTable`, `luaNext` — the calls that look into tables.
* `OnStack.pushChildValue`, …, `OnStack.respond` — the functions of the provider.

When `lua_gettable` has to call a metamethod, the call takes some more places of the stack while it
runs; `slots` is their number.
-/

namespace LuaToolkit

open Dap

abbrev ValueStack (N : Type*) := PeakStack (LuaValue N)

section Calls

variable {N : Type*} [DecidableEq N]

/-- `lua_gettable` with the key on top and the table below it. -/
def luaGetTable (heap : LuaHeap N) (slots : Nat) (s : ValueStack N) : ValueStack N :=
  match s.values with
  | key :: .table t :: rest =>
    match (heap t).rawGet key, (heap t).index with
    | .nil, some index => (s.touch slots).put (index key :: .table t :: rest)
    | value, _ => s.put (value :: .table t :: rest)
  | _ => s

/-- `lua_remove` of the value below the top. -/
def luaRemoveSecond (s : ValueStack N) : ValueStack N :=
  match s.values with
  | value :: _ :: rest => s.put (value :: rest)
  | _ => s

/-- The entry after a key; the first one is after nil. -/
def LuaTable.next (t : LuaTable N) : LuaValue N → Option (LuaValue N × LuaValue N)
  | .nil => t.entries.head?
  | key => t.entries[t.entries.findIdx (fun e => e.1 = key) + 1]?

/-- `lua_next` with the key on top and the table below it. -/
def luaNext (heap : LuaHeap N) (s : ValueStack N) : Bool × ValueStack N :=
  match s.values with
  | key :: .table t :: rest =>
    match (heap t).next key with
    | some (key, value) => (true, s.put (value :: key :: .table t :: rest))
    | none => (false, s.put (.table t :: rest))
  | _ => (false, s)

end Calls

namespace LuaStackTraceProvider.OnStack

variable {N : Type} [DecidableEq N] [LuaNumber N]

/-- `PushChildValue`, which says whether it has pushed a value. -/
def pushChildValue (heap : LuaHeap N) (l : LuaState (LuaValue N)) (slots : Nat)
    (p : LuaStackTraceProvider) : Nat → VariableEntry → VariableEntry → LuaDebug → ValueStack N →
      Option (Bool × LuaDebug × ValueStack N)
  | 0, _, _, _, _ => none
  | n + 1, self, child, ar, s =>
    if child.parentFrame.isSome then none
    else
      match self.parentFrame with
      | some frameId =>
        match child.indexOnFrame, p.getStackFrameEntry frameId with
        | some index, some frame =>
          let (_, ar) := luaGetStack l frame.level ar
          match luaGetLocal l ar index with
          | some (_, value) => some (true, ar, s.push value)
          | none => some (false, ar, s)
        | _, _ => none
      | none =>
        match self.parentVariableId.bind p.getVariableEntry with
        | none => none
        | some parentVariable =>
          -- What the call returns is not looked at.
          match pushChildValue heap l slots p n parentVariable self ar s with
          | none => none
          | some (_, ar, s) =>
            match s.get? 0 with
            | some (.table _) =>
              let s := s.push (lookupKey child)
              let s := luaGetTable heap slots s
              some (true, ar, luaRemoveSecond s)
            | _ => none

/-- The `lua_next` loop, which ends after so many rounds. -/
def addEntries (heap : LuaHeap N) (variableId : Nat) :
    Nat → LuaStackTraceProvider → ValueStack N → Option (LuaStackTraceProvider × ValueStack N)
  | 0, _, _ => none
  | n + 1, p, s =>
    match luaNext heap s with
    | (false, s) => some (p, s)
    | (true, s) =>
      match s.values with
      | value :: key :: _ =>
        addEntries heap variableId n (addEntry variableId p (key, value)) (s.pop 1)
      | _ => none

/-- The part of `GetVariable` that describes the value on top. -/
def describe (heap : LuaHeap N) (variableId : Nat) (variableInfo : Variable)
    (p : LuaStackTraceProvider) (s : ValueStack N) :
    Option (Variable × LuaStackTraceProvider × ValueStack N) :=
  match s.get? 0 with
  | some (.table t) => do
    let (p, s) ← addEntries heap variableId ((heap t).entries.length + 1) p (s.push .nil)
    let isArray := (p.getVariableEntry variableId).any fun v =>
      v.namedChildren.isEmpty && !v.indexedChildren.isEmpty
    some ({ variableInfo with type := some (if isArray then "array" else "object") }, p, s)
  | value =>
    let (variableInfo, p) := LuaStackTraceProvider.describe heap variableId value variableInfo p
    some (variableInfo, p, s)

def evaluate (heap : LuaHeap N) (l : LuaState (LuaValue N)) (slots : Nat) (self : VariableEntry)
    (variableInfo : Variable) (p : LuaStackTraceProvider) (s : ValueStack N) :
    Option (Variable × LuaStackTraceProvider × ValueStack N) :=
  if self.parentFrame.isSome then some (variableInfo, p, s)
  else do
    let parent ← self.parentVariableId.bind p.getVariableEntry
    let (pushed, ar, s) ← pushChildValue heap l slots p p.variableEntries.length parent self p.ar s
    let p := { p with ar := ar }
    if pushed then describe heap self.referenceId variableInfo p s
    else some ({ variableInfo with value := ascii "[unevaluated]" }, p, s)

/-- `VariableEntry::GetVariable`. The top is restored when the function is left. -/
def getVariable (heap : LuaHeap N) (l : LuaState (LuaValue N)) (slots variableId : Nat)
    (p : LuaStackTraceProvider) (s : ValueStack N) :
    Option (Variable × LuaStackTraceProvider × ValueStack N) := do
  let top := s.height
  let self ← p.getVariableEntry variableId
  match self.variableInfo with
  | some variableInfo => some (variableInfo, p, s.setHeight .nil top)
  | none =>
    let (variableInfo, p, s) ← evaluate heap l slots self {
      name := self.name
      presentationHint := some "property"
      variablesReference := self.referenceId } p s
    let self ← p.getVariableEntry variableId
    let variableInfo := countChildren self variableInfo
    some (variableInfo,
      p.modifyVariable variableId fun v => { v with variableInfo := some variableInfo },
      s.setHeight .nil top)

def transform (heap : LuaHeap N) (l : LuaState (LuaValue N)) (slots : Nat) :
    List Nat → LuaStackTraceProvider → ValueStack N →
      Option (List Variable × LuaStackTraceProvider × ValueStack N)
  | [], p, s => some ([], p, s)
  | variableId :: ids, p, s => do
    let (variableInfo, p, s) ← getVariable heap l slots variableId p s
    let (variableInfos, p, s) ← transform heap l slots ids p s
    some (variableInfo :: variableInfos, p, s)

/-- `GetVariables`, with `VariableEntry::GetChildren`. -/
def getVariables (heap : LuaHeap N) (l : LuaState (LuaValue N)) (slots : Nat)
    (arg : VariablesArguments) (p : LuaStackTraceProvider) (s : ValueStack N) :
    Option (List Variable × LuaStackTraceProvider × ValueStack N) := do
  let self ← p.getVariableEntry arg.variablesReference
  let (indexed, p, s) ← transform heap l slots
    (if arg.filter = "" ∨ arg.filter = "indexed" then self.indexedChildren else []) p s
  let (named, p, s) ← transform heap l slots
    (if arg.filter = "" ∨ arg.filter = "named" then self.namedChildren else []) p s
  some (indexed ++ named, p, s)

/-- The loop over the locals, which ends after so many rounds. -/
def addLocals (l : LuaState (LuaValue N)) (scopeId : Nat) (ar : LuaDebug) :
    Nat → Nat → LuaStackTraceProvider → ValueStack N →
      Option (LuaStackTraceProvider × ValueStack N)
  | 0, _, _, _ => none
  | rounds + 1, n, p, s =>
    match luaGetLocal l ar (n + 1) with
    | none => some (p, s)
    | some (name, value) =>
      let s := s.push value
      addLocals l scopeId ar rounds (n + 1) (addLocal scopeId p ((name, value), n + 1)) (s.pop 1)

/-- `StackFrameEntry::GetScopes`. -/
def getFrameScopes (l : LuaState (LuaValue N)) (frame : StackFrameEntry)
    (p : LuaStackTraceProvider) (s : ValueStack N) :
    Option (List Scope × LuaStackTraceProvider × ValueStack N) :=
  if frame.scopes.isEmpty then
    match luaGetStack l frame.level p.ar with
    | (false, ar) => some ([], { p with ar := ar }, s)
    | (true, ar) => do
      let (varRef, p) := { p with ar := ar }.newVariable (.ofFrame frame.id)
      let scopes : List Scope :=
        [{ name := "Locals", presentationHint := some "locals", variablesReference := varRef }]
      let locals := (l.stack[ar.i_ci]?.map CallInfo.locals).getD []
      let (p, s) ← addLocals l varRef ar (locals.length + 1) 0 p s
      some (scopes, { p with
        stackFrames := p.stackFrames.map fun f =>
          if f.id = frame.id then { f with scopes := scopes } else f }, s)
  else some (frame.scopes, p, s)

def getScopes (l : LuaState (LuaValue N)) (frameId : Nat) (p : LuaStackTraceProvider)
    (s : ValueStack N) : Option (List Scope × LuaStackTraceProvider × ValueStack N) :=
  (p.getStackFrameEntry frameId).bind fun frame => getFrameScopes l frame p s

def respond (heap : LuaHeap N) (l : LuaState (LuaValue N)) (slots : Nat) :
    Request → LuaStackTraceProvider → ValueStack N →
      Option (Answer × LuaStackTraceProvider × ValueStack N)
  | .stackTrace, p, s => (p.getStackTrace l).map fun (frames, p) => (.frames frames, p, s)
  | .scopes frameId, p, s =>
    (getScopes l frameId p s).map fun (scopes, p, s) => (.scopes scopes, p, s)
  | .children arg, p, s =>
    (getVariables heap l slots arg p s).map fun (infos, p, s) => (.children infos, p, s)

end LuaStackTraceProvider.OnStack

end LuaToolkit
