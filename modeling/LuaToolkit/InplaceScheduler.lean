import LuaToolkit.Lib.Transition

/-!
# `InplaceExecutionScheduler`

The scheduler on which a stopped Lua thread runs the session's requests. Any thread may call
`scheduleInvocation` and `dispose`, each atomic under the mutex; the owner runs `Execute`, whose
loop takes the whole queue under the mutex, runs what it took and waits for the signal.

`Execution` is the scheduler together with the program point of its one `Execute`. The signal
is an event in `Auto` mode: `set` raises a flag that is either up or not, `wait` returns by
lowering it.
-/

namespace LuaToolkit

open Transition

/-- The fields shared by the threads. -/
structure InplaceExecutionScheduler (ι : Type*) where
  invocations : List ι := []
  signal : Bool := false
  isClosed : Bool := false
  deriving DecidableEq, Repr

namespace InplaceExecutionScheduler

variable {ι : Type*}

def scheduleInvocation (invocation : ι) (s : InplaceExecutionScheduler ι) :
    InplaceExecutionScheduler ι :=
  { s with invocations := s.invocations ++ [invocation], signal := true }

def dispose (s : InplaceExecutionScheduler ι) : InplaceExecutionScheduler ι :=
  { s with isClosed := true, signal := true }

/-- The lambda of `Execute`: whether to go on, the queue moved out, and what is left behind. -/
def getExecutionState (s : InplaceExecutionScheduler ι) :
    (Bool × List ι) × InplaceExecutionScheduler ι :=
  ((!s.isClosed, s.invocations), { s with invocations := [] })

end InplaceExecutionScheduler

/-- Where `Execute` stands in its loop. -/
inductive ExecutePoint (ι : Type*) where
  /-- About to call `getExecutionState`. -/
  | take
  /-- In the `for` loop over a batch, of which `rest` has not been run. -/
  | invoke (continueExecution : Bool) (rest : List ι)
  /-- In `_signal.wait()`. -/
  | wait
  /-- `Execute` has returned. -/
  | returned
  deriving DecidableEq, Repr

/-- A scheduler and the `Execute` call running on it. -/
structure Execution (ι : Type*) where
  scheduler : InplaceExecutionScheduler ι := {}
  point : ExecutePoint ι := .take
  deriving DecidableEq, Repr

namespace Execution

variable {ι : Type*}

def scheduleInvocation (invocation : ι) (e : Execution ι) : Execution ι :=
  { e with scheduler := e.scheduler.scheduleInvocation invocation }

def dispose (e : Execution ι) : Execution ι := { e with scheduler := e.scheduler.dispose }

/-- The next step of `Execute`; `none` when it waits for the signal or has returned. The
invocation at the head of the batch is the one run by the step that drops it. -/
def executeStep (e : Execution ι) : Option (Execution ι) :=
  match e.point with
  | .take =>
    let ((continueExecution, invocations), scheduler) := e.scheduler.getExecutionState
    match invocations with
    | _ :: _ => some ⟨scheduler, .invoke continueExecution invocations⟩
    | [] => some ⟨scheduler, if continueExecution then .wait else .returned⟩
  | .invoke continueExecution (_ :: rest) => some { e with point := .invoke continueExecution rest }
  | .invoke _ [] => some { e with point := .wait }
  | .wait =>
    if e.scheduler.signal then
      some ⟨{ e.scheduler with signal := false }, .take⟩
    else none
  | .returned => none

/-- The steps of `Execute` one by one. -/
inductive ExecuteStep : Execution ι → Execution ι → Prop
  | takeBatch (s : InplaceExecutionScheduler ι) (h : s.invocations ≠ []) :
      ExecuteStep ⟨s, .take⟩ ⟨{ s with invocations := [] }, .invoke (!s.isClosed) s.invocations⟩
  | takeIdle (s : InplaceExecutionScheduler ι) (h : s.invocations = []) (ho : s.isClosed = false) :
      ExecuteStep ⟨s, .take⟩ ⟨s, .wait⟩
  | takeLast (s : InplaceExecutionScheduler ι) (h : s.invocations = []) (hc : s.isClosed = true) :
      ExecuteStep ⟨s, .take⟩ ⟨s, .returned⟩
  | invoke (s : InplaceExecutionScheduler ι) (c : Bool) (i : ι) (rest : List ι) :
      ExecuteStep ⟨s, .invoke c (i :: rest)⟩ ⟨s, .invoke c rest⟩
  | batchDone (s : InplaceExecutionScheduler ι) (c : Bool) :
      ExecuteStep ⟨s, .invoke c []⟩ ⟨s, .wait⟩
  | wake (s : InplaceExecutionScheduler ι) (h : s.signal = true) :
      ExecuteStep ⟨s, .wait⟩ ⟨{ s with signal := false }, .take⟩

theorem executeStep_iff {e e' : Execution ι} : executeStep e = some e' ↔ ExecuteStep e e' := by
  constructor
  · intro h
    obtain ⟨⟨invocations, signal, isClosed⟩, point⟩ := e
    cases point with
    | take =>
      cases invocations with
      | cons i rest =>
        cases h
        exact .takeBatch ⟨i :: rest, signal, isClosed⟩ (by simp)
      | nil =>
        cases isClosed with
        | false => cases h; exact .takeIdle _ rfl rfl
        | true => cases h; exact .takeLast _ rfl rfl
    | invoke c rest =>
      cases rest with
      | nil => cases h; exact .batchDone _ c
      | cons i rest => cases h; exact .invoke _ c i rest
    | wait =>
      cases signal with
      | false => cases h
      | true => cases h; exact .wake ⟨invocations, true, isClosed⟩ rfl
    | returned => cases h
  · intro h
    cases h with
    | takeBatch s h =>
      obtain ⟨i, rest, hs⟩ := List.exists_cons_of_ne_nil h
      simp [executeStep, InplaceExecutionScheduler.getExecutionState, hs]
    | takeIdle s h ho =>
      obtain ⟨invocations, signal, isClosed⟩ := s
      subst h ho
      rfl
    | takeLast s h hc =>
      obtain ⟨invocations, signal, isClosed⟩ := s
      subst h hc
      rfl
    | invoke | batchDone => rfl
    | wake s h => simp [executeStep, h]

/-- What the threads can do: the two calls, and the next step of `Execute`. -/
inductive Action (ι : Type*) where
  | scheduleInvocation (invocation : ι)
  | dispose
  | execute
  deriving DecidableEq, Repr

/-- Calls from any threads, interleaved with `Execute` on a fresh scheduler. -/
def system (ι : Type*) : System (Execution ι) (Action ι) where
  init e := e = {}
  step
    | .scheduleInvocation invocation, e => some (e.scheduleInvocation invocation)
    | .dispose, e => some e.dispose
    | .execute, e => e.executeStep

end Execution

end LuaToolkit
