import Mathlib.Tactic.Common

/-!
# The debug interface of Lua

What the toolkit uses of `lua_State` and `lua_Debug`. `lua_getstack` changes only the activation
record pointer `i_ci`, which is the level here, and `lua_getinfo` fills exactly the fields that
its option letters select. `ν` is the type of Lua values.
-/

namespace LuaToolkit

/-- An active function, with what `lua_getinfo` reports about it and its active local slots. -/
structure CallInfo (ν : Type*) where
  name : Option String
  what : String
  source : String
  currentline : Int32
  locals : List (List UInt8 × ν) := []

/-- The call stack of a `lua_State` that runs a hook: the running function is level 0. -/
structure LuaState (ν : Type*) where
  running : CallInfo ν
  callers : List (CallInfo ν) := []

def LuaState.stack {ν : Type*} (l : LuaState ν) : List (CallInfo ν) := l.running :: l.callers

inductive HookEvent where
  | call
  | ret
  | line
  | count
  | tailRet
  deriving DecidableEq, Repr

/-- `lua_Debug`; a null pointer is `none`. -/
structure LuaDebug where
  event : HookEvent
  name : Option String
  what : Option String
  source : Option String
  currentline : Int32
  i_ci : Nat
  deriving DecidableEq, Repr

variable {ν : Type*}

def luaGetStack (l : LuaState ν) (level : Nat) (ar : LuaDebug) : Bool × LuaDebug :=
  if level < l.stack.length then (true, { ar with i_ci := level }) else (false, ar)

def luaGetInfo (l : LuaState ν) (what : String) (ar : LuaDebug) : LuaDebug :=
  match l.stack[ar.i_ci]? with
  | none => ar
  | some ci =>
    let ar := if what.toList.contains 'S' then
      { ar with source := some ci.source, what := some ci.what } else ar
    let ar := if what.toList.contains 'l' then { ar with currentline := ci.currentline } else ar
    if what.toList.contains 'n' then { ar with name := ci.name } else ar

variable {l : LuaState ν} {ar : LuaDebug} {ci : CallInfo ν}

theorem luaGetStack_of_lt {level : Nat} (h : level < l.stack.length) :
    luaGetStack l level ar = (true, { ar with i_ci := level }) := if_pos h

theorem luaGetStack_of_le {level : Nat} (h : l.stack.length ≤ level) :
    luaGetStack l level ar = (false, ar) := if_neg (Nat.not_lt.2 h)

theorem luaGetInfo_l (h : l.stack[ar.i_ci]? = some ci) :
    luaGetInfo l "l" ar = { ar with currentline := ci.currentline } := by
  simp [luaGetInfo, h]

theorem luaGetInfo_nl (h : l.stack[ar.i_ci]? = some ci) :
    luaGetInfo l "nl" ar = { ar with currentline := ci.currentline, name := ci.name } := by
  simp [luaGetInfo, h]

theorem luaGetInfo_nS (h : l.stack[ar.i_ci]? = some ci) :
    luaGetInfo l "nS" ar =
      { ar with source := some ci.source, what := some ci.what, name := ci.name } := by
  simp [luaGetInfo, h]

theorem luaGetInfo_nSl (h : l.stack[ar.i_ci]? = some ci) :
    luaGetInfo l "nSl" ar =
      { ar with
        source := some ci.source, what := some ci.what, currentline := ci.currentline,
        name := ci.name } := by
  simp [luaGetInfo, h]

/-! ## The current line and the depth of the stack -/

/-- The `while` loop of `GetCurrentLineAndStackDepth`, with the number of levels that may be
left. -/
def countLevels (l : LuaState ν) : Nat → Nat → LuaDebug → Nat × LuaDebug
  | 0, stackDepth, ar => (stackDepth, ar)
  | n + 1, stackDepth, ar =>
    match luaGetStack l (stackDepth + 1) ar with
    | (true, ar) => countLevels l n (stackDepth + 1) ar
    | (false, ar) => (stackDepth, ar)

def getCurrentLineAndStackDepth (l : LuaState ν) (ar : LuaDebug) : (Int32 × Nat) × LuaDebug :=
  let (_, ar) := luaGetStack l 0 ar
  let ar := luaGetInfo l "l" ar
  let line := ar.currentline
  let (stackDepth, ar) := countLevels l l.stack.length 0 ar
  ((line, stackDepth), ar)

theorem countLevels_eq (n depth : Nat) (ar : LuaDebug) (hi : ar.i_ci = depth)
    (hd : depth ≤ l.callers.length) (hn : l.callers.length < depth + n) :
    countLevels l n depth ar = (l.callers.length, { ar with i_ci := l.callers.length }) := by
  have hlen : l.stack.length = l.callers.length + 1 := rfl
  induction n generalizing depth ar with
  | zero => omega
  | succ n ih =>
    unfold countLevels
    by_cases h : depth + 1 < l.stack.length
    · rw [luaGetStack_of_lt h]
      exact ih (depth + 1) _ rfl (by omega) (by omega)
    · rw [luaGetStack_of_le (by omega)]
      obtain rfl : depth = l.callers.length := by omega
      rw [← hi]

/-- The function finds the running function's line and the number of its callers. -/
theorem getCurrentLineAndStackDepth_eq (l : LuaState ν) (ar : LuaDebug) :
    getCurrentLineAndStackDepth l ar = ((l.running.currentline, l.callers.length),
      { ar with currentline := l.running.currentline, i_ci := l.callers.length }) := by
  have hinfo : luaGetInfo l "l" { ar with i_ci := 0 } =
      { ar with i_ci := 0, currentline := l.running.currentline } :=
    luaGetInfo_l (show l.stack[0]? = some l.running from rfl)
  have hcount := countLevels_eq (l := l) l.stack.length 0
    { ar with i_ci := 0, currentline := l.running.currentline } rfl (Nat.zero_le _)
    (by simp [LuaState.stack])
  unfold getCurrentLineAndStackDepth
  rw [luaGetStack_of_lt (by simp [LuaState.stack])]
  simp only [hinfo, hcount]

end LuaToolkit
