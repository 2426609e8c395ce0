import LuaToolkit.HookRecord

/-!
# Where the three steps stop

A step is judged by the line events that follow it, each with the line and the depth of the
running function. `next` and `stepOut` compare both with the place where the step began;
`stepIn` compares the lines only, so it passes over a line event in another function whose line
has the same number.

* `passes` — the number of events that the hook lets pass before it stops.
* `StepsExactly` — the three steps stop where they should, and in this order.
* `stepsExactly_iff` — that is so exactly if the first line event elsewhere is on another line.
-/

namespace LuaToolkit

open Dap

variable {ν : Type*} {P : PathEquality}

/-! ## The tests -/

/-- A line event in another function than the one where the step began, or on another line. -/
def StepInAt (start : LuaState ν) (x : HookCall ν) : Bool :=
  x.ar.event == .line && (start.callers.length != x.l.callers.length ||
    start.running.currentline != x.l.running.currentline)

/-- A line event of a caller, or of the same function on another line. -/
def NextAt (start : LuaState ν) (x : HookCall ν) : Bool :=
  x.ar.event == .line && (decide (x.l.callers.length < start.callers.length) ||
    (start.callers.length == x.l.callers.length &&
      start.running.currentline != x.l.running.currentline))

/-- A line event of a caller. -/
def StepOutAt (start : LuaState ν) (x : HookCall ν) : Bool :=
  x.ar.event == .line && decide (x.l.callers.length < start.callers.length)

/-- A line event on a line with another number. -/
def OtherLineAt (start : LuaState ν) (x : HookCall ν) : Bool :=
  x.ar.event == .line && start.running.currentline != x.l.running.currentline

/-- Whether the predicate stops the thread at an event. -/
def DebugStepPredicate.Fires (p : DebugStepPredicate) (x : HookCall ν) : Bool :=
  (p.getStopped x.l x.ar).1.isSome

namespace DebugStepPredicate

/-- Only the event and the stack matter to a predicate. -/
theorem getStopped_fst {l : LuaState ν} {ar ar' : LuaDebug} (p : DebugStepPredicate)
    (hevent : ar'.event = ar.event) : (p.getStopped l ar').1 = (p.getStopped l ar).1 := by
  cases p with
  | step | stepOut =>
    simp only [getStopped, hevent, getCurrentLineAndStackDepth_eq]
    split_ifs <;> rfl

/-- What a predicate asks of the stack. -/
def Matches (l : LuaState ν) : DebugStepPredicate → Bool
  | .step initialLine initialStackDepth allowStepIn =>
    if allowStepIn then initialLine != l.running.currentline
    else decide (l.callers.length < initialStackDepth) ||
      (initialStackDepth == l.callers.length && initialLine != l.running.currentline)
  | .stepOut initialStackDepth => decide (l.callers.length < initialStackDepth)

theorem isSome_stepEvent (b : Bool) : (if b then some stepEvent else none).isSome = b := by
  cases b <;> rfl

theorem fires_eq (p : DebugStepPredicate) (x : HookCall ν) :
    p.Fires x = (x.ar.event == .line && p.Matches x.l) := by
  unfold Fires
  by_cases hevent : x.ar.event = .line
  · cases p with
    | step initialLine initialStackDepth allowStepIn =>
      simp only [getStopped, hevent, getCurrentLineAndStackDepth_eq, ne_eq, not_true, if_false]
      exact isSome_stepEvent _
    | stepOut initialStackDepth =>
      simp only [getStopped, hevent, getCurrentLineAndStackDepth_eq, ne_eq, not_true, if_false,
        Matches, beq_self_eq_true, Bool.true_and]
      rw [← isSome_stepEvent (decide _)]
      simp only [decide_eq_true_eq]
  · cases p with
    | step | stepOut => simp [getStopped, hevent]

variable (start : LuaState ν)

theorem fires_stepIn :
    (step start.running.currentline start.callers.length true).Fires = OtherLineAt start := by
  funext x
  exact fires_eq _ x

theorem fires_next :
    (step start.running.currentline start.callers.length false).Fires = NextAt start := by
  funext x
  exact fires_eq _ x

theorem fires_stepOut : (stepOut start.callers.length).Fires = StepOutAt start := by
  funext x
  exact fires_eq _ x

end DebugStepPredicate

/-! ## The events that pass -/

namespace LuaDebugSessionController

variable {c : LuaDebugSessionController} {l start : LuaState ν} {ar ar' : LuaDebug}
  {xs : List (HookCall ν)}

/-- The number of events that the hook lets pass before it stops, or before it fails. -/
def passes (P : PathEquality) : LuaDebugSessionController → List (HookCall ν) → Nat
  | _, [] => 0
  | c, x :: xs =>
    match c.beforeStop P x.l x.ar with
    | some (none, _, c) => passes P c xs + 1
    | some (some _, _, _) | none => 0

/-- The trace comes upon no breakpoint. -/
def NoHits (P : PathEquality) (c : LuaDebugSessionController) (xs : List (HookCall ν)) : Prop :=
  ∀ x ∈ xs, ∃ ar, c.checkBreakpoints P x.l x.ar = some (none, ar)

theorem event_luaGetInfo (what : String) : (luaGetInfo l what ar).event = ar.event := by
  unfold luaGetInfo
  split
  · rfl
  · simp only
    split_ifs <;> rfl

/-- `CheckBreakpoints` fills the record in, and leaves the event. -/
theorem event_checkBreakpoints {stop : Option StoppedEventBody}
    (h : c.checkBreakpoints P l ar = some (stop, ar')) : ar'.event = ar.event := by
  unfold checkBreakpoints at h
  split_ifs at h
  · obtain ⟨bp, -, hbp⟩ := Option.map_eq_some_iff.1 h
    obtain rfl := congrArg Prod.snd hbp
    exact event_luaGetInfo "nSl"
  · simp only at h
    split at h
    · split_ifs at h
      all_goals
        obtain rfl := congrArg Prod.snd (Option.some.inj h)
        exact event_luaGetInfo "nS"
    · obtain rfl := congrArg Prod.snd (Option.some.inj h)
      exact event_luaGetInfo "nS"
  · cases h
    rfl

/-- With a predicate pending and no breakpoint hit, the hook lets pass what the predicate does not
fire at. -/
theorem passes_eq {p : DebugStepPredicate} (hactive : c.isActive = true)
    (hpending : c.debugStepPredicate = some p) (hhits : NoHits P c xs) :
    c.passes P xs = xs.findIdx p.Fires := by
  induction xs with
  | nil => rfl
  | cons x xs ih =>
    obtain ⟨ar, hcheck⟩ := hhits x (by simp)
    have hrest := ih fun y hy => hhits y (by simp [hy])
    have hfst := p.getStopped_fst (l := x.l) (event_checkBreakpoints hcheck)
    rcases hstopped : p.getStopped x.l ar with ⟨stop, ar'⟩
    rw [hstopped] at hfst
    have hfires : p.Fires x = stop.isSome := congrArg Option.isSome hfst.symm
    cases stop with
    | none =>
      have hpass : c.beforeStop P x.l x.ar = some (none, ar', c) := by
        simp [beforeStop, hactive, hcheck, hpending, hstopped]
      simp only [passes, hpass, hrest, List.findIdx_cons, hfires, Option.isSome_none, cond_false]
    | some event =>
      have hstop : c.beforeStop P x.l x.ar =
          some (some event, ar', { c with debugStepPredicate := none }) := by
        simp [beforeStop, hactive, hcheck, hpending, hstopped]
      simp only [passes, hstop, List.findIdx_cons, hfires, Option.isSome_some, cond_true]

/-- The events that pass after a resume command, given where the thread had stopped. -/
def passesAfter (P : PathEquality) (c : LuaDebugSessionController) (start : LuaState ν)
    (ar : LuaDebug) (mode : ContinueExecutionMode) (xs : List (HookCall ν)) : Nat :=
  (c.afterStop start ar mode).passes P xs

theorem passesAfter_eq {mode : ContinueExecutionMode} {p : DebugStepPredicate}
    (hactive : c.isActive = true) (hcreated : created start mode = some p)
    (hhits : NoHits P c xs) (ar : LuaDebug) :
    c.passesAfter P start ar mode xs = xs.findIdx p.Fires := by
  rw [passesAfter, afterStop_eq, hcreated]
  exact passes_eq hactive rfl hhits

theorem passesAfter_stepIn (hactive : c.isActive = true) (hhits : NoHits P c xs)
    (start : LuaState ν) (ar : LuaDebug) :
    c.passesAfter P start ar .stepIn xs = xs.findIdx (OtherLineAt start) := by
  have hcreated : created start .stepIn =
      some (.step start.running.currentline start.callers.length true) := rfl
  rw [passesAfter_eq hactive hcreated hhits, DebugStepPredicate.fires_stepIn]

theorem passesAfter_next (hactive : c.isActive = true) (hhits : NoHits P c xs)
    (start : LuaState ν) (ar : LuaDebug) :
    c.passesAfter P start ar .step xs = xs.findIdx (NextAt start) := by
  have hcreated : created start .step =
      some (.step start.running.currentline start.callers.length false) := rfl
  rw [passesAfter_eq hactive hcreated hhits, DebugStepPredicate.fires_next]

theorem passesAfter_stepOut (hactive : c.isActive = true) (hhits : NoHits P c xs)
    {start : LuaState ν} (hdepth : 0 < start.callers.length) (ar : LuaDebug) :
    c.passesAfter P start ar .stepOut xs = xs.findIdx (StepOutAt start) := by
  have hcreated : created start .stepOut = some (.stepOut start.callers.length) := if_pos hdepth
  rw [passesAfter_eq hactive hcreated hhits, DebugStepPredicate.fires_stepOut]

/-! ## The order of the tests -/

theorem nextAt_of_stepOutAt {x : HookCall ν} (h : StepOutAt start x = true) :
    NextAt start x = true := by
  simp only [StepOutAt, Bool.and_eq_true] at h
  simp only [NextAt, h, Bool.true_or, Bool.and_self]

theorem stepInAt_of_nextAt {x : HookCall ν} (h : NextAt start x = true) :
    StepInAt start x = true := by
  simp only [NextAt, Bool.and_eq_true, Bool.or_eq_true, decide_eq_true_eq] at h
  obtain ⟨hevent, hless | ⟨-, hline⟩⟩ := h
  · have hne : (start.callers.length != x.l.callers.length) = true := bne_iff_ne.2 (by omega)
    simp only [StepInAt, hevent, hne, Bool.true_or, Bool.and_self]
  · simp only [StepInAt, hevent, hline, Bool.or_true, Bool.and_self]

theorem stepInAt_of_otherLineAt {x : HookCall ν} (h : OtherLineAt start x = true) :
    StepInAt start x = true := by
  simp only [OtherLineAt, Bool.and_eq_true] at h
  simp only [StepInAt, h, Bool.or_true, Bool.and_self]

theorem otherLineAt_iff {x : HookCall ν} (h : StepInAt start x = true) :
    OtherLineAt start x = true ↔ x.l.running.currentline ≠ start.running.currentline := by
  simp only [StepInAt, Bool.and_eq_true] at h
  rw [OtherLineAt, h.1, Bool.true_and, bne_iff_ne, ne_comm]

/-- The steps stop where they should, and a finer one no later than a coarser one. -/
structure StepsExactly (P : PathEquality) (c : LuaDebugSessionController) (start : LuaState ν)
    (ar : LuaDebug) (xs : List (HookCall ν)) : Prop where
  stepIn : c.passesAfter P start ar .stepIn xs = xs.findIdx (StepInAt start)
  next : c.passesAfter P start ar .step xs = xs.findIdx (NextAt start)
  stepOut : c.passesAfter P start ar .stepOut xs = xs.findIdx (StepOutAt start)
  stepIn_le_next : c.passesAfter P start ar .stepIn xs ≤ c.passesAfter P start ar .step xs
  next_le_stepOut : c.passesAfter P start ar .step xs ≤ c.passesAfter P start ar .stepOut xs

/-- **Steps.** With the debugger enabled and no breakpoint on the way, all is as it should be
exactly if the first line event at another depth or on another line is on another line. -/
theorem stepsExactly_iff (hactive : c.isActive = true) (hdepth : 0 < start.callers.length)
    (hhits : NoHits P c xs) (ar : LuaDebug) : StepsExactly P c start ar xs ↔
      ∀ x ∈ xs.find? (StepInAt start), x.l.running.currentline ≠ start.running.currentline := by
  have hstepIn := passesAfter_stepIn hactive hhits start ar
  have hnext := passesAfter_next hactive hhits start ar
  have hstepOut := passesAfter_stepOut hactive hhits hdepth ar
  have hexact := List.findIdx_eq_findIdx_iff (p := OtherLineAt start) (q := StepInAt start)
    (fun _ => stepInAt_of_otherLineAt) xs
  have hfirst : (∀ x ∈ xs.find? (StepInAt start), OtherLineAt start x = true) ↔
      ∀ x ∈ xs.find? (StepInAt start), x.l.running.currentline ≠ start.running.currentline :=
    forall₂_congr fun x hx => otherLineAt_iff (List.find?_some hx)
  rw [← hfirst, ← hexact]
  constructor
  · exact fun h => hstepIn.symm.trans h.stepIn
  · intro h
    refine ⟨hstepIn.trans h, hnext, hstepOut, ?_, ?_⟩
    · rw [hstepIn, hnext, h]
      exact List.findIdx_le_findIdx fun _ _ => stepInAt_of_nextAt
    · rw [hnext, hstepOut]
      exact List.findIdx_le_findIdx fun _ _ => nextAt_of_stepOutAt

/-! ## Functions that share a line number -/

/-- A line event of a function in the library file. -/
def libLine (line : Int32) (depth : Nat) : HookCall Unit where
  l := {
    running := { name := none, what := "Lua", source := "@lib.lua", currentline := line }
    callers := List.replicate depth
      { name := none, what := "Lua", source := "@main.lua", currentline := 1 } }
  ar := {
    event := .line, name := none, what := none, source := some "@lib.lua", currentline := line
    i_ci := 0 }
  i_ci_eq := rfl
  currentline_eq _ := rfl

/-- The place of a breakpoint: the first line of a function in the main file. -/
def onLineOne : HookCall Unit := Stepping.lineEvent Unit 1 1

theorem noHits_singleton {x : HookCall ν} (h : c.checkBreakpoints P x.l x.ar = some (none, ar)) :
    NoHits P c [x] := by
  intro y hy
  rw [List.mem_singleton.1 hy]
  exact ⟨ar, h⟩

theorem stepsExactly_iff_sample :
    StepsExactly Stepping.exactPaths Stepping.breakpointOnOneState.controller onLineOne.l
        onLineOne.ar [libLine 2 2] ↔
      ∀ x ∈ [libLine 2 2].find? (StepInAt onLineOne.l),
        x.l.running.currentline ≠ onLineOne.l.running.currentline :=
  stepsExactly_iff rfl (by decide) (noHits_singleton rfl) onLineOne.ar

/-- The function returns to a caller that is also on its first line: `next` stops there, and
`stepIn` passes over it. -/
theorem not_stepsExactly :
    ¬ ∀ (c : LuaDebugSessionController) (start : LuaState Unit) (ar : LuaDebug)
        (xs : List (HookCall Unit)), c.isActive = true → 0 < start.callers.length →
      NoHits Stepping.exactPaths c xs → StepsExactly Stepping.exactPaths c start ar xs := by
  intro h
  have hexact := h Stepping.breakpointOnOneState.controller onLineOne.l onLineOne.ar
    [libLine 1 0] rfl (by decide) (noHits_singleton rfl)
  have hle := hexact.stepIn_le_next
  revert hle
  decide

end LuaDebugSessionController

end LuaToolkit
