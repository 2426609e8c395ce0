import LuaToolkit.StepTraces

/-!
# Steps and coroutines

A step predicate remembers the depth of the frame where the step began, and compares it with the
depth of whatever runs when a line event comes. On the stack of one `lua_State` that tells callers
from callees. A coroutine has a stack of its own, and its functions can be at any depth there.

* `Threads` — the frame, what it called, and what runs in the stead of its thread.
* `Lawful` — while the frame is active, its step stops at most in the frame itself.
* `lawful_of_reaches` — the exact condition: no line event of another stack passes the test that
  is meant for the stack of the frame.
-/

namespace LuaToolkit

open Dap Transition

variable {ν : Type*} {P : PathEquality}

/-! ## Threads -/

/-- A frame that has not returned, its callers (`base`), and the functions called from it, the
innermost first. `others` are the states that run in the stead of this one, the running one
first: coroutines resumed from the calls and from one another, or, while the thread has itself
yielded, the state that resumed it. -/
structure Threads (ν : Type*) where
  calls : List (CallInfo ν) := []
  frame : CallInfo ν
  base : List (CallInfo ν)
  others : List (LuaState ν) := []

/-- What the running function can do. -/
inductive Move (ν : Type*) where
  /-- Call another; a tail call too leaves a level behind. -/
  | call (callee : CallInfo ν)
  /-- Return, or be left by an error. -/
  | leave
  | line (currentline : Int32)
  | resume (co : LuaState ν)
  | yield

def LuaState.call (callee : CallInfo ν) (l : LuaState ν) : LuaState ν := ⟨callee, l.stack⟩

def LuaState.line (currentline : Int32) (l : LuaState ν) : LuaState ν :=
  { l with running := { l.running with currentline := currentline } }

namespace Threads

/-- The stack of the thread of the frame. -/
def own (t : Threads ν) : LuaState ν :=
  match t.calls with
  | [] => ⟨t.frame, t.base⟩
  | callee :: calls => ⟨callee, calls ++ t.frame :: t.base⟩

/-- The stack that events are reported on. -/
def running (t : Threads ν) : LuaState ν := t.others.headD t.own

/-- One move of the running function. The run is over when the frame returns. -/
def move (t : Threads ν) : Move ν → Option (Threads ν)
  | .call callee =>
    match t.others with
    | co :: others => some { t with others := co.call callee :: others }
    | [] => some { t with calls := callee :: t.calls }
  | .leave =>
    match t.others, t.calls with
    | ⟨_, caller :: callers⟩ :: others, _ => some { t with others := ⟨caller, callers⟩ :: others }
    | ⟨_, []⟩ :: others, _ => some { t with others := others }
    | [], _ :: calls => some { t with calls := calls }
    | [], [] => none
  | .line currentline =>
    match t.others, t.calls with
    | co :: others, _ => some { t with others := co.line currentline :: others }
    | [], callee :: calls =>
      some { t with calls := { callee with currentline := currentline } :: calls }
    | [], [] => some { t with frame := { t.frame with currentline := currentline } }
  | .resume co => some { t with others := co :: t.others }
  | .yield =>
    match t.others with
    | _ :: others => some { t with others := others }
    | [] => none

/-- Lua calls the hook: the record has what Lua sets, and is otherwise arbitrary. -/
def hookCall (t : Threads ν) (ar : LuaDebug) : HookCall ν where
  l := t.running
  ar := { ar with
    i_ci := 0
    currentline := if ar.event = .line then t.running.running.currentline else ar.currentline }
  i_ci_eq := rfl
  currentline_eq h := if_pos h

theorem base_move {t t' : Threads ν} {m : Move ν} (h : t.move m = some t') : t'.base = t.base := by
  cases m with
  | call callee | line currentline =>
    simp only [move] at h
    split at h <;> cases h <;> rfl
  | leave | yield =>
    simp only [move] at h
    split at h <;> cases h <;> rfl
  | resume co =>
    cases h
    rfl

theorem length_own (t : Threads ν) :
    t.own.callers.length = t.calls.length + t.base.length := by
  unfold own
  cases t.calls with
  | nil => simp
  | cons callee calls =>
    simp only [List.length_append, List.length_cons]
    omega

end Threads

/-! ## A step in a frame -/

/-- The controller, and the threads since a step command of this mode was given in the frame that
`start` runs. As long as `pending` holds, the step has neither ended nor been replaced. -/
structure FrameStep (ν : Type*) where
  mode : ContinueExecutionMode
  start : LuaState ν
  threads : Threads ν
  stepping : Stepping ν
  pending : Bool := true

namespace FrameStep

open LuaDebugSessionController (created)

variable {s s' : FrameStep ν}

inductive Action (ν : Type*) where
  | enable
  | disable
  | request (call : BreakpointCall)
  | move (m : Move ν)
  /-- Lua calls the hook; the argument gives the fields that it leaves as they are. -/
  | event (ar : LuaDebug)
  | resume (mode : ContinueExecutionMode) (ar : LuaDebug)

/-- A stopped thread does not move. A stop at a breakpoint that is ended by a command that makes
no step of its own leaves the step pending. -/
def step (P : PathEquality) (a : Action ν) (s : FrameStep ν) : Option (FrameStep ν) :=
  let debugger := fun b => (Stepping.step P b s.stepping).map fun stepping =>
    { s with stepping := stepping }
  match a, s.stepping.stop with
  | .enable, _ => debugger .enable
  | .disable, _ => debugger .disable
  | .request call, _ => debugger (.request call)
  | .event ar, _ => debugger (.event (s.threads.hookCall ar))
  | .resume mode ar, some stop => (debugger (.resume mode ar)).map fun t =>
    { t with
      pending := s.pending && stop.event.reason != "step" && (created stop.l mode).isNone }
  | .move m, none => (s.threads.move m).map fun threads => { s with threads := threads }
  | _, _ => none

/-- The steps that stay in a frame or return from it. -/
def Modes (l : LuaState ν) (mode : ContinueExecutionMode) : Prop :=
  mode = .step ∨ mode = .stepOut ∧ l.callers ≠ []

/-- The runs that begin when one of these commands ends a stop. -/
def system (ν : Type*) (P : PathEquality) : System (FrameStep ν) (Action ν) where
  init s := ∃ s₀ stop ar, (Stepping.system ν P).Reachable s₀ ∧ s₀.stop = some stop ∧
    Modes stop.l s.mode ∧ Stepping.step P (.resume s.mode ar) s₀ = some s.stepping ∧
    s.start = stop.l ∧ s.threads = { frame := stop.l.running, base := stop.l.callers } ∧
    s.pending = true
  step := step P

/-- While the frame is active, its step stops in no function that the frame called, on whatever
stack it runs: `next` stops in the frame, on another line, and `stepOut` does not stop. -/
def Lawful (s : FrameStep ν) : Prop :=
  s.pending = true → ∀ stop ∈ s.stepping.stop, stop.event.reason = "step" →
    s.mode = .step ∧ s.threads.others = [] ∧ s.threads.calls = [] ∧
      s.threads.frame.currentline ≠ s.start.running.currentline

/-- The test that a step of this mode makes at an event. -/
def StopsAt (s : FrameStep ν) (x : HookCall ν) : Bool :=
  if s.mode = .step then NextAt s.start x else StepOutAt s.start x

/-- An event of another state than that of the frame does not pass the test of the step. -/
def FrameSafe (s : FrameStep ν) : Action ν → Prop
  | .event ar => s.pending = true → s.threads.others ≠ [] →
    s.StopsAt (s.threads.hookCall ar) = false
  | _ => True

/-- The pending predicate is the step's, and the callers of the frame stay below it. -/
structure Underway (s : FrameStep ν) : Prop where
  modes : Modes s.start s.mode
  base_eq : s.threads.base = s.start.callers
  predicate : s.pending = true → (∀ stop ∈ s.stepping.stop, stop.event.reason ≠ "step") →
    s.stepping.controller.debugStepPredicate = created s.start s.mode

theorem fires_created (hm : Modes s.start s.mode) :
    ∃ p, created s.start s.mode = some p ∧ p.Fires = s.StopsAt := by
  unfold StopsAt
  rcases hm with hmode | ⟨hmode, hcallers⟩
  · refine ⟨_, by rw [hmode]; rfl, ?_⟩
    rw [DebugStepPredicate.fires_next, hmode]
    rfl
  · refine ⟨.stepOut s.start.callers.length, ?_, ?_⟩
    · rw [hmode]
      exact if_pos (List.length_pos_of_ne_nil hcallers)
    · rw [DebugStepPredicate.fires_stepOut, hmode]
      rfl

theorem step_event {ar : LuaDebug} (h : (system ν P).step (.event ar) s = some s') :
    ∃ stepping, Stepping.step P (.event (s.threads.hookCall ar)) s.stepping = some stepping ∧
      s' = { s with stepping := stepping } := by
  obtain ⟨stepping, hstep, rfl⟩ := Option.map_eq_some_iff.1 h
  exact ⟨stepping, hstep, rfl⟩

theorem step_resume {mode : ContinueExecutionMode} {ar : LuaDebug}
    (h : (system ν P).step (.resume mode ar) s = some s') :
    ∃ stop, s.stepping.stop = some stop ∧ s' = { s with
      stepping := {
        controller := s.stepping.controller.afterStop stop.l ar mode
        stop := none
        resumed := some (mode, created stop.l mode) }
      pending := s.pending && stop.event.reason != "step" && (created stop.l mode).isNone } := by
  cases hstop : s.stepping.stop with
  | none => simp [system, step, hstop] at h
  | some stop =>
    simp only [system, step, hstop, Stepping.step, Option.map_some, Option.some.injEq] at h
    exact ⟨stop, rfl, h.symm⟩

theorem step_move {m : Move ν} (h : (system ν P).step (.move m) s = some s') :
    s.stepping.stop = none ∧
      ∃ threads, s.threads.move m = some threads ∧ s' = { s with threads := threads } := by
  cases hstop : s.stepping.stop with
  | some stop => simp [system, step, hstop] at h
  | none =>
    simp only [system, step, hstop] at h
    obtain ⟨threads, hmove, rfl⟩ := Option.map_eq_some_iff.1 h
    exact ⟨rfl, threads, hmove, rfl⟩

theorem underway_init (h : (system ν P).init s) : Underway s := by
  obtain ⟨s₀, stop, ar, -, hstop, hmodes, hresume, hstart, hthreads, -⟩ := h
  obtain ⟨stop', hstop', hstepping⟩ := Stepping.step_resume hresume
  rw [hstop] at hstop'
  cases hstop'
  refine ⟨by rwa [hstart], by rw [hthreads, hstart], fun _ _ => ?_⟩
  obtain ⟨p, hp, -⟩ := fires_created (s := s) (by rwa [hstart])
  rw [hstepping, LuaDebugSessionController.afterStop_eq]
  rw [hstart] at hp ⊢
  simp only [hp, Option.some_or]

theorem underway_step {a : Action ν} (h : Underway s)
    (hs : (system ν P).step a s = some s') : Underway s' := by
  obtain ⟨hmodes, hbase, hpredicate⟩ := h
  cases a with
  | enable | disable =>
    cases hs
    exact ⟨hmodes, hbase, hpredicate⟩
  | request call =>
    cases hs
    refine ⟨hmodes, hbase, fun hp hstop => ?_⟩
    rw [← hpredicate hp hstop]
    exact LuaDebugSessionController.debugStepPredicate_call P s.stepping.controller call
  | move m =>
    obtain ⟨-, threads, hmove, rfl⟩ := step_move hs
    exact ⟨hmodes, (Threads.base_move hmove).trans hbase, hpredicate⟩
  | event ar =>
    obtain ⟨stepping, hevent, rfl⟩ := step_event hs
    obtain ⟨hnone, stop, ar', c, hbefore, rfl⟩ := Stepping.step_event hevent
    refine ⟨hmodes, hbase, fun hp hstop => ?_⟩
    have hold := hpredicate hp (by simp [hnone])
    cases LuaDebugSessionController.beforeStop_cases hbefore with
    | pass | breakpoint => exact hold
    | step => exact absurd rfl (hstop _ rfl)
  | resume mode ar =>
    obtain ⟨stop, hstop, rfl⟩ := step_resume hs
    refine ⟨hmodes, hbase, fun hp _ => ?_⟩
    simp only [Bool.and_eq_true, bne_iff_ne, Option.isNone_iff_eq_none] at hp
    obtain ⟨⟨hp, hreason⟩, hcreated⟩ := hp
    have hold := hpredicate hp (by simpa [hstop] using hreason)
    simp only [LuaDebugSessionController.afterStop_eq, hcreated, Option.none_or]
    exact hold

theorem underway_of_reachable (h : (system ν P).Reachable s) : Underway s :=
  h.invariant (fun _ hs => underway_init hs) fun _ _ _ hi hs => underway_step hi hs

/-! ## Where the step stops -/

/-- On the stack of the frame, a stop of the step is in the frame, on another line. -/
theorem of_stopsAt_own {x : HookCall ν} (h : Underway s) (hx : x.l = s.threads.own)
    (hstops : s.StopsAt x = true) : s.mode = .step ∧ s.threads.calls = [] ∧
      s.threads.frame.currentline ≠ s.start.running.currentline := by
  have hlen := s.threads.length_own
  rw [h.base_eq, ← hx] at hlen
  have hdeep : ¬ x.l.callers.length < s.start.callers.length := by omega
  by_cases hmode : s.mode = .step
  · simp only [StopsAt, hmode, if_true, NextAt, hdeep, decide_false, Bool.false_or,
      Bool.and_eq_true, beq_iff_eq, bne_iff_ne] at hstops
    obtain ⟨-, hdepth, hline⟩ := hstops
    have hcalls : s.threads.calls = [] := List.eq_nil_of_length_eq_zero (by omega)
    have hrunning : x.l.running = s.threads.frame := by rw [hx, Threads.own, hcalls]
    rw [hrunning] at hline
    exact ⟨hmode, hcalls, hline.symm⟩
  · simp [StopsAt, hmode, StepOutAt, hdeep] at hstops

/-- The step fires at an event exactly if its test passes there. -/
theorem stopsAt_of_getStopped {p : DebugStepPredicate} {x : HookCall ν} {ar ar' : LuaDebug}
    {event : StoppedEventBody} (h : Underway s) (hpending : created s.start s.mode = some p)
    (hevent : ar.event = x.ar.event) (hfires : p.getStopped x.l ar = (some event, ar')) :
    s.StopsAt x = true := by
  obtain ⟨p', hp', hstops⟩ := fires_created h.modes
  rw [hpending] at hp'
  cases hp'
  rw [← hstops, DebugStepPredicate.Fires, ← p.getStopped_fst hevent, hfires]
  rfl

theorem lawful_step {a : Action ν} (h : Underway s) (hl : Lawful s) (ha : FrameSafe s a)
    (hs : (system ν P).step a s = some s') : Lawful s' := by
  cases a with
  | enable | disable | request call =>
    cases hs
    exact hl
  | move m =>
    obtain ⟨hnone, threads, -, rfl⟩ := step_move hs
    intro _ stop hstop
    rw [hnone] at hstop
    cases hstop
  | resume mode ar =>
    obtain ⟨stop, -, rfl⟩ := step_resume hs
    exact fun _ => nofun
  | event ar =>
    obtain ⟨stepping, hevent, rfl⟩ := step_event hs
    obtain ⟨hnone, stop, ar', c, hbefore, rfl⟩ := Stepping.step_event hevent
    cases LuaDebugSessionController.beforeStop_cases hbefore with
    | pass => exact fun _ => nofun
    | breakpoint hactive hcheck =>
      intro _ stop hstop hreason
      obtain rfl := Option.mem_some.1 hstop
      rcases LuaDebugSessionController.checkBreakpoints_reason hcheck with hr | hr
      · exact absurd (hreason.symm.trans hr) (by decide)
      · exact absurd (hreason.symm.trans hr) (by decide)
    | step hactive hcheck hpending hfires =>
      intro hp _ _ _
      rw [h.predicate hp (by simp [hnone])] at hpending
      have hstops := stopsAt_of_getStopped h hpending
        (LuaDebugSessionController.event_checkBreakpoints hcheck) hfires
      have hothers : s.threads.others = [] := by
        by_contra hne
        rw [ha hp hne] at hstops
        cases hstops
      have hown : (s.threads.hookCall ar).l = s.threads.own := by
        show s.threads.others.headD s.threads.own = s.threads.own
        rw [hothers]
        rfl
      obtain ⟨hmode, hcalls, hline⟩ := of_stopsAt_own h hown hstops
      exact ⟨hmode, hothers, hcalls, hline⟩

theorem not_lawful_of_unsafe {ar ar' : LuaDebug} (h : Underway s)
    (hs : (system ν P).step (.event ar) s = some s') (ha : ¬ FrameSafe s (.event ar))
    (hactive : s.stepping.controller.isActive = true)
    (hcheck : s.stepping.controller.checkBreakpoints P (s.threads.hookCall ar).l
      (s.threads.hookCall ar).ar = some (none, ar')) : ¬ Lawful s' := by
  obtain ⟨stepping, hevent, rfl⟩ := step_event hs
  obtain ⟨hnone, stop, ar₂, c, hbefore, rfl⟩ := Stepping.step_event hevent
  simp only [FrameSafe, Classical.not_imp, Bool.not_eq_false] at ha
  obtain ⟨hp, hothers, hstops⟩ := ha
  obtain ⟨p, hcreated, hfires⟩ := fires_created h.modes
  have hpending := h.predicate hp (by simp [hnone])
  rw [hcreated] at hpending
  rw [← hfires, DebugStepPredicate.Fires, ← p.getStopped_fst
    (LuaDebugSessionController.event_checkBreakpoints hcheck)] at hstops
  rcases hstopped : p.getStopped (s.threads.hookCall ar).l ar' with ⟨_ | event, ar₃⟩
  · rw [hstopped] at hstops
    cases hstops
  · obtain rfl := DebugStepPredicate.getStopped_event hstopped
    rw [LuaDebugSessionController.beforeStop_of_fires hactive hcheck hpending hstopped] at hbefore
    cases hbefore
    intro hlawful
    exact hothers (hlawful hp _ rfl rfl).2.1

/-- **Coroutines.** A step stays within its frame in every run where no event of another state
passes its test; and where one does, with the debugger enabled and no breakpoint there, the
thread stops as it should not. -/
theorem lawful_of_reaches (ν : Type*) (P : PathEquality) :
    (∀ s, (system ν P).Reaches FrameSafe s → Lawful s) ∧
      ∀ s ar s' ar', (system ν P).Reachable s → (system ν P).step (.event ar) s = some s' →
        ¬ FrameSafe s (.event ar) → s.stepping.controller.isActive = true →
        s.stepping.controller.checkBreakpoints P (s.threads.hookCall ar).l
          (s.threads.hookCall ar).ar = some (none, ar') → ¬ Lawful s' := by
  refine ⟨fun s h => ?_, fun s ar s' ar' h hs ha hactive hcheck =>
    not_lawful_of_unsafe (underway_of_reachable h) hs ha hactive hcheck⟩
  have hboth : Underway s ∧ Lawful s := by
    refine h.invariant (I := fun s => Underway s ∧ Lawful s) (fun s hs => ?_) ?_
    · refine ⟨underway_init hs, ?_⟩
      obtain ⟨s₀, stop, ar, -, -, -, hresume, -⟩ := hs
      obtain ⟨stop', -, hstepping⟩ := Stepping.step_resume hresume
      rw [Lawful, hstepping]
      exact fun _ => nofun
    · exact fun s a s' hi ha hs => ⟨underway_step hi.1 hs, lawful_step hi.1 hi.2 ha hs⟩
  exact hboth.2

/-! ## A coroutine at depth 0 -/

/-- A line event in a function called from the main chunk, at a breakpoint. -/
def functionLine : HookCall Unit :=
  { Stepping.lineEvent Unit 1 1 with
    ar := { (Stepping.lineEvent Unit 1 1).ar with source := some "@main.lua" } }

def breakpointStop : DebuggerStop Unit where
  l := functionLine.l
  event := {
    reason := "breakpoint", description := some "Paused on breakpoint", threadId := some 1
    allThreadsStopped := some true, hitBreakpointIds := some [1] }
  pending := none

/-- The client has sent `next` at the breakpoint. -/
def nextSent : FrameStep Unit where
  mode := .step
  start := functionLine.l
  threads := { frame := functionLine.l.running, base := functionLine.l.callers }
  stepping := {
    controller := {
      Stepping.breakpointOnOneState.controller with
      debugStepPredicate := some (.step 1 1 false) }
    resumed := some (.step, some (.step 1 1 false)) }

theorem init_nextSent : (system Unit Stepping.exactPaths).init nextSent := by
  have hstopped : (Stepping.system Unit Stepping.exactPaths).Reachable
      { Stepping.breakpointOnOneState with stop := some breakpointStop } :=
    Stepping.reachable_breakpointOnOne.step (a := .event functionLine) rfl
  exact ⟨_, breakpointStop, functionLine.ar, hstopped, rfl, .inl rfl, rfl, rfl, rfl, rfl⟩

/-- The function resumes a coroutine, whose body comes to its fifth line. -/
def resumedCoroutine : List (Action Unit) :=
  [.move (.call { name := some "resume", what := "C", source := "=[C]", currentline := -1 }),
    .move (.resume (Stepping.lineEvent Unit 5 0).l), .event (Stepping.lineEvent Unit 5 0).ar]

/-- The step stops in the body of the coroutine, which the stepped function called. -/
theorem unlawful_reachable :
    ¬ ∀ s, (system Unit Stepping.exactPaths).Reachable s → Lawful s := by
  intro h
  have hothers := (h _ (System.Reachable.of_exec resumedCoroutine init_nextSent rfl) rfl _ rfl
    rfl).2.1
  cases hothers

end FrameStep

end LuaToolkit
