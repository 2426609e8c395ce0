import LuaToolkit.BreakpointHook
import LuaToolkit.Lib.Transition

/-!
# Steps and the commands that ask for them

A resume command leaves a step predicate behind, and a later event of the Lua thread is tested
with it. The predicate is dropped when it fires, but a breakpoint can stop the thread first, and
then the command that ends that stop decides what becomes of it: `continue` leaves it as it is.

* `Commanded` — a stop with reason `step` is one that the last command asked for.
* `StepSafe` — no stop that finds a predicate pending is ended by a command that makes no new one.
* `commanded_of_reaches` — this is the exact condition: under it every stop is commanded, and after
  a step that violates it the old predicate can still fire.
-/

namespace LuaToolkit

open Dap Transition

variable {ν : Type*} {P : PathEquality}

/-! ## What the hook does at an event -/

namespace DebugStepPredicate

theorem getStopped_event {l : LuaState ν} {ar ar' : LuaDebug} {p : DebugStepPredicate}
    {event : StoppedEventBody} (h : p.getStopped l ar = (some event, ar')) : event = stepEvent := by
  cases p with
  | step | stepOut =>
    unfold getStopped at h
    by_cases hl : ar.event = .line
    · simp only [hl, ne_eq, not_true, if_false, getCurrentLineAndStackDepth_eq, Prod.mk.injEq,
        Option.ite_none_right_eq_some, Option.some.injEq] at h
      exact h.1.2.symm
    · simp [hl] at h

end DebugStepPredicate

namespace LuaDebugSessionController

variable {c c' : LuaDebugSessionController} {l : LuaState ν} {ar ar' : LuaDebug}
  {stop : Option StoppedEventBody}

/-- What the hook does before it stops: nothing, stop at a breakpoint, or stop because the pending
predicate fires. -/
inductive HookStep (P : PathEquality) (l : LuaState ν) (ar : LuaDebug)
    (c : LuaDebugSessionController) :
    Option StoppedEventBody → LuaDebug → LuaDebugSessionController → Prop
  | pass (ar' : LuaDebug) : HookStep P l ar c none ar' c
  | breakpoint {event ar'} (hactive : c.isActive = true)
      (hcheck : c.checkBreakpoints P l ar = some (some event, ar')) :
      HookStep P l ar c (some event) ar' c
  | step {p ar₁ ar'} (hactive : c.isActive = true)
      (hcheck : c.checkBreakpoints P l ar = some (none, ar₁))
      (hpending : c.debugStepPredicate = some p)
      (hfires : p.getStopped l ar₁ = (some stepEvent, ar')) :
      HookStep P l ar c (some stepEvent) ar' { c with debugStepPredicate := none }

theorem beforeStop_cases (h : c.beforeStop P l ar = some (stop, ar', c')) :
    HookStep P l ar c stop ar' c' := by
  unfold beforeStop at h
  by_cases hactive : c.isActive = false
  · simp only [hactive, if_true, Option.some.injEq, Prod.mk.injEq] at h
    obtain ⟨rfl, rfl, rfl⟩ := h
    exact .pass _
  have hactive' : c.isActive = true := by simpa using hactive
  rw [if_neg hactive] at h
  cases hcheck : c.checkBreakpoints P l ar with
  | none => simp [hcheck] at h
  | some result =>
    obtain ⟨_ | event, ar₁⟩ := result
    · cases hpending : c.debugStepPredicate with
      | none =>
        simp only [hcheck, hpending, Option.some.injEq, Prod.mk.injEq] at h
        obtain ⟨rfl, rfl, rfl⟩ := h
        exact .pass _
      | some p =>
        rcases hfires : p.getStopped l ar₁ with ⟨_ | event, ar₂⟩
        · simp only [hcheck, hpending, hfires, Option.some.injEq, Prod.mk.injEq] at h
          obtain ⟨rfl, rfl, rfl⟩ := h
          exact .pass _
        · simp only [hcheck, hpending, hfires, Option.some.injEq, Prod.mk.injEq] at h
          obtain ⟨rfl, rfl, rfl⟩ := h
          obtain rfl := DebugStepPredicate.getStopped_event hfires
          exact .step hactive' hcheck hpending hfires
    · simp only [hcheck, Option.some.injEq, Prod.mk.injEq] at h
      obtain ⟨rfl, rfl, rfl⟩ := h
      exact .breakpoint hactive' hcheck

/-- No assertion of the hook fails before it stops. -/
theorem WellFormed.isSome_beforeStop (h : WellFormed P c) (x : HookCall ν) :
    (c.beforeStop P x.l x.ar).isSome := by
  have hcheck : ∃ result, c.checkBreakpoints P x.l x.ar = some result := by
    by_cases hline : x.IsLine
    · exact ⟨_, checkBreakpoints_line h x hline⟩
    · by_cases hcall : x.ar.event = .call
      · exact ⟨_, checkBreakpoints_call x hcall⟩
      · exact ⟨_, checkBreakpoints_other x hline hcall⟩
  obtain ⟨⟨stop, ar⟩, hcheck⟩ := hcheck
  unfold beforeStop
  rw [hcheck]
  cases stop with
  | some event => split_ifs <;> rfl
  | none =>
    cases c.debugStepPredicate with
    | none => split_ifs <;> rfl
    | some predicate =>
      rcases hfires : predicate.getStopped x.l ar with ⟨_ | event, ar'⟩ <;>
        simp only [hfires] <;> split_ifs <;> rfl

theorem beforeStop_of_fires {p : DebugStepPredicate} {ar₁ : LuaDebug} (hactive : c.isActive = true)
    (hcheck : c.checkBreakpoints P l ar = some (none, ar₁))
    (hpending : c.debugStepPredicate = some p)
    (hfires : p.getStopped l ar₁ = (some stepEvent, ar')) :
    c.beforeStop P l ar = some (some stepEvent, ar', { c with debugStepPredicate := none }) := by
  unfold beforeStop
  simp [hactive, hcheck, hpending, hfires]

theorem checkBreakpoints_reason {event : StoppedEventBody}
    (h : c.checkBreakpoints P l ar = some (some event, ar')) :
    event.reason = "breakpoint" ∨ event.reason = "function breakpoint" := by
  unfold checkBreakpoints at h
  split_ifs at h with hline hcall
  · obtain ⟨bp, -, hbp⟩ := Option.map_eq_some_iff.1 h
    obtain ⟨b, -, rfl⟩ := Option.map_eq_some_iff.1 (congrArg Prod.fst hbp)
    exact .inl rfl
  · simp only at h
    split at h
    · split_ifs at h
      · simp at h
      · obtain ⟨b, -, rfl⟩ := Option.map_eq_some_iff.1 (congrArg Prod.fst (Option.some.inj h))
        exact .inr rfl
    · simp at h
  · simp at h

/-- The predicate that a resume command leaves behind. -/
def created (l : LuaState ν) : ContinueExecutionMode → Option DebugStepPredicate
  | .step => some (.step l.running.currentline l.callers.length false)
  | .stepIn => some (.step l.running.currentline l.callers.length true)
  | .stepOut => if 0 < l.callers.length then some (.stepOut l.callers.length) else none
  | .continue | .stopped => none

/-- The command asks for a step, and not for one out of the outermost function. -/
def MakesStep (l : LuaState ν) (mode : ContinueExecutionMode) : Prop :=
  mode = .step ∨ mode = .stepIn ∨ (mode = .stepOut ∧ l.callers ≠ [])

theorem created_eq_none {l : LuaState ν} {mode : ContinueExecutionMode} :
    created l mode = none ↔ ¬ MakesStep l mode := by
  cases mode <;> simp [created, MakesStep, List.length_pos_iff]

/-- The predicate depends on the Lua stack only, and a command that makes none keeps the old
one. -/
theorem afterStop_eq (l : LuaState ν) (ar : LuaDebug) (mode : ContinueExecutionMode)
    (c : LuaDebugSessionController) : c.afterStop l ar mode =
      { c with debugStepPredicate := (created l mode).or c.debugStepPredicate } := by
  cases mode with
  | step | stepIn =>
    simp [afterStop, created, DebugStepPredicate.createStep, getCurrentLineAndStackDepth_eq]
  | stepOut =>
    by_cases h : 0 < l.callers.length
    · simp [afterStop, created, getCurrentLineAndStackDepth_eq, h]
    · simp [afterStop, created, getCurrentLineAndStackDepth_eq, h]
  | «continue» | stopped => rfl

theorem getSourceId_snd (c : LuaDebugSessionController) (source : Source) :
    ∃ sources srcId,
      (c.getSourceId P source).2 = { c with sources := sources, srcId := srcId } := by
  unfold getSourceId
  split
  · exact ⟨c.sources, c.srcId, rfl⟩
  · exact ⟨_, _, rfl⟩

/-- Requests change only the tables. -/
theorem call_eq (P : PathEquality) (c : LuaDebugSessionController) (call : BreakpointCall) :
    ∃ sourceBreakpoints functionBreakpoints sources bpId srcId, (c.call P call).2 = { c with
      sourceBreakpoints := sourceBreakpoints
      functionBreakpoints := functionBreakpoints
      sources := sources
      bpId := bpId
      srcId := srcId } := by
  cases call with
  | source arg =>
    obtain ⟨sources, srcId, hsource⟩ := getSourceId_snd (P := P) c arg.source
    obtain ⟨bpId, new, hcall, -⟩ := setBreakpoints_eq P c arg
    rw [hsource] at hcall
    exact ⟨_, _, _, _, _, congrArg Prod.snd hcall⟩
  | function arg =>
    obtain ⟨bpId, new, hcall, -⟩ := setFunctionBreakpoints_eq c arg
    exact ⟨_, _, _, _, _, congrArg Prod.snd hcall⟩

theorem debugStepPredicate_call (P : PathEquality) (c : LuaDebugSessionController)
    (call : BreakpointCall) :
    (c.call P call).2.debugStepPredicate = c.debugStepPredicate := by
  obtain ⟨_, _, _, _, _, h⟩ := call_eq P c call
  rw [h]

/-- The tables are well formed, and a predicate to step out remembers a function that was called
by another. -/
structure Sound (P : PathEquality) (c : LuaDebugSessionController) : Prop where
  wellFormed : WellFormed P c
  outward : ∀ depth, c.debugStepPredicate = some (.stepOut depth) → 0 < depth

theorem Sound.call (h : Sound P c) (call : BreakpointCall) : Sound P (c.call P call).2 := by
  refine ⟨?_, fun depth hp => h.outward depth ?_⟩
  · cases call with
    | source arg => exact (setBreakpoints_spec h.wellFormed arg).1
    | function arg => exact (setFunctionBreakpoints_spec h.wellFormed arg).1
  · rwa [← debugStepPredicate_call P c call]

theorem Sound.beforeStop (h : Sound P c) (hstep : HookStep P l ar c stop ar' c') : Sound P c' := by
  obtain ⟨⟨hle, hids, hsources, hresolves⟩, houtward⟩ := h
  cases hstep with
  | pass => exact ⟨⟨hle, hids, hsources, hresolves⟩, houtward⟩
  | breakpoint => exact ⟨⟨hle, hids, hsources, hresolves⟩, houtward⟩
  | step => exact ⟨⟨hle, hids, hsources, hresolves⟩, nofun⟩

theorem Sound.afterStop (h : Sound P c) (l : LuaState ν) (ar : LuaDebug)
    (mode : ContinueExecutionMode) : Sound P (c.afterStop l ar mode) := by
  obtain ⟨⟨hle, hids, hsources, hresolves⟩, houtward⟩ := h
  rw [afterStop_eq]
  refine ⟨⟨hle, hids, hsources, hresolves⟩, fun depth hp => ?_⟩
  cases mode with
  | step | stepIn => simp [created] at hp
  | stepOut =>
    by_cases hd : 0 < l.callers.length
    · simp only [created, hd, if_true, Option.some_or, Option.some.injEq,
        DebugStepPredicate.stepOut.injEq] at hp
      omega
    · simp only [created, hd, if_false, Option.none_or] at hp
      exact houtward depth hp
  | «continue» | stopped => exact houtward depth hp

theorem Sound.activity (h : Sound P c) (b : Bool) : Sound P { c with isActive := b } :=
  ⟨⟨h.wellFormed.id_le, h.wellFormed.ids, h.wellFormed.sources, h.wellFormed.resolves⟩, h.outward⟩

theorem Sound.new (P : PathEquality) : Sound P {} := ⟨⟨nofun, .nil, .nil, nofun⟩, nofun⟩

end LuaDebugSessionController

/-! ## Histories of events and commands -/

/-- The Lua thread inside `StopExecution`: the stack, the event, and the predicate that was
pending when the event came. -/
structure DebuggerStop (ν : Type*) where
  l : LuaState ν
  event : StoppedEventBody
  pending : Option DebugStepPredicate

/-- A controller and the Lua thread that it hooks. `resumed` is a record of the last resume
command, with the predicate that it made. -/
structure Stepping (ν : Type*) where
  controller : LuaDebugSessionController := {}
  stop : Option (DebuggerStop ν) := none
  resumed : Option (ContinueExecutionMode × Option DebugStepPredicate) := none

namespace Stepping

open LuaDebugSessionController (MakesStep created_eq_none)

variable {s s' t : Stepping ν}

inductive Action (ν : Type*) where
  | enable
  | disable
  | request (call : BreakpointCall)
  /-- Lua calls the hook. -/
  | event (x : HookCall ν)
  /-- `StopExecution` returns, with the record as the stack trace provider has left it. -/
  | resume (mode : ContinueExecutionMode) (ar : LuaDebug)

def step (P : PathEquality) (a : Action ν) (s : Stepping ν) : Option (Stepping ν) :=
  match a, s.stop with
  | .enable, _ => some { s with controller := s.controller.enableDebug }
  | .disable, _ => some { s with controller := s.controller.disableDebug }
  | .request call, _ => some { s with controller := (s.controller.call P call).2 }
  | .event x, none =>
    (s.controller.beforeStop P x.l x.ar).map fun (stop, _, controller) =>
      { s with
        controller := controller
        stop := stop.map fun event => ⟨x.l, event, s.controller.debugStepPredicate⟩ }
  | .resume mode ar, some stop =>
    some {
      controller := s.controller.afterStop stop.l ar mode
      stop := none
      resumed := some (mode, LuaDebugSessionController.created stop.l mode) }
  | _, _ => none

/-- A controller from its creation on. -/
def system (ν : Type*) (P : PathEquality) : System (Stepping ν) (Action ν) where
  init s := s = {}
  step := step P

/-- A stop with reason `step` comes from the predicate that the last command made. -/
def Commanded (s : Stepping ν) : Prop :=
  ∀ stop ∈ s.stop, stop.event.reason = "step" →
    ∃ mode p, s.resumed = some (mode, some p) ∧ stop.pending = some p ∧
      (mode = .step ∨ mode = .stepIn ∨ mode = .stepOut)

theorem step_event {x : HookCall ν} (h : step P (.event x) s = some s') :
    s.stop = none ∧ ∃ stop ar c, s.controller.beforeStop P x.l x.ar = some (stop, ar, c) ∧
      s' = { s with
        controller := c
        stop := stop.map fun event => ⟨x.l, event, s.controller.debugStepPredicate⟩ } := by
  cases hstop : s.stop with
  | some stop => simp [step, hstop] at h
  | none =>
    simp only [step, hstop] at h
    obtain ⟨⟨stop, ar, c⟩, hbefore, rfl⟩ := Option.map_eq_some_iff.1 h
    exact ⟨rfl, stop, ar, c, hbefore, rfl⟩

theorem step_resume {mode : ContinueExecutionMode} {ar : LuaDebug}
    (h : step P (.resume mode ar) s = some s') : ∃ stop, s.stop = some stop ∧ s' = {
      controller := s.controller.afterStop stop.l ar mode
      stop := none
      resumed := some (mode, LuaDebugSessionController.created stop.l mode) } := by
  cases hstop : s.stop with
  | none => simp [step, hstop] at h
  | some stop =>
    simp only [step, hstop, Option.some.injEq] at h
    exact ⟨stop, rfl, h.symm⟩

/-- A command that ends a stop with a predicate pending asks for a step. -/
def StepSafe (s : Stepping ν) : Action ν → Prop
  | .resume mode _ =>
    ∀ stop ∈ s.stop, s.controller.debugStepPredicate ≠ none → MakesStep stop.l mode
  | _ => True

/-! ## The invariant -/

/-- The pending predicate is the one that the last command made, and so is that of a stop. -/
structure Fresh (s : Stepping ν) : Prop where
  pending : ∀ p, s.controller.debugStepPredicate = some p → ∃ mode, s.resumed = some (mode, some p)
  made : ∀ mode p, s.resumed = some (mode, some p) →
    mode = .step ∨ mode = .stepIn ∨ mode = .stepOut
  stop : ∀ stop ∈ s.stop, stop.event.reason = "step" →
    ∃ mode p, s.resumed = some (mode, some p) ∧ stop.pending = some p

theorem Fresh.commanded (h : Fresh s) : Commanded s := by
  intro stop hstop hreason
  obtain ⟨mode, p, hres, hp⟩ := h.stop stop hstop hreason
  exact ⟨mode, p, hres, hp, h.made mode p hres⟩

theorem fresh_step {a : Action ν} (h : Fresh s) (hsafe : StepSafe s a)
    (hstep : (system ν P).step a s = some s') : Fresh s' := by
  cases a with
  | enable | disable =>
    simp only [system, step, Option.some.injEq] at hstep
    subst hstep
    exact ⟨h.pending, h.made, h.stop⟩
  | request call =>
    simp only [system, step, Option.some.injEq] at hstep
    subst hstep
    refine ⟨fun p hp => h.pending p ?_, h.made, h.stop⟩
    rwa [← LuaDebugSessionController.debugStepPredicate_call P s.controller call]
  | event x =>
    obtain ⟨-, stop, ar, c, hbefore, rfl⟩ := step_event hstep
    cases LuaDebugSessionController.beforeStop_cases hbefore with
    | pass => exact ⟨h.pending, h.made, nofun⟩
    | @breakpoint event _ hactive hcheck =>
      refine ⟨h.pending, h.made, fun stop hs hreason => ?_⟩
      obtain rfl := Option.mem_some.1 hs
      rcases LuaDebugSessionController.checkBreakpoints_reason hcheck with hr | hr
      · exact absurd (hreason.symm.trans hr) (by decide)
      · exact absurd (hreason.symm.trans hr) (by decide)
    | @step p _ _ hactive hcheck hpending hfires =>
      refine ⟨nofun, h.made, fun stop hs hreason => ?_⟩
      obtain rfl := Option.mem_some.1 hs
      obtain ⟨mode, hres⟩ := h.pending p hpending
      exact ⟨mode, p, hres, hpending⟩
  | resume mode ar =>
    obtain ⟨stop, hstop, rfl⟩ := step_resume hstep
    refine ⟨fun p hp => ?_, fun mode' p hres => ?_, nofun⟩
    · rw [LuaDebugSessionController.afterStop_eq] at hp
      cases hc : LuaDebugSessionController.created stop.l mode with
      | some p' =>
        simp only [hc, Option.some_or, Option.some.injEq] at hp
        exact ⟨mode, by rw [hp]⟩
      | none =>
        simp only [hc, Option.none_or] at hp
        exact absurd (hsafe stop hstop (by simp [hp])) (created_eq_none.1 hc)
    · simp only [Option.some.injEq, Prod.mk.injEq] at hres
      obtain ⟨rfl, hres⟩ := hres
      by_contra hmode
      have hnone : LuaDebugSessionController.created stop.l mode = none := by
        rw [created_eq_none]
        exact fun hmakes => hmode (hmakes.imp_right (Or.imp_right And.left))
      rw [hnone] at hres
      cases hres

theorem fresh_of_reaches (h : (system ν P).Reaches StepSafe s) : Fresh s := by
  apply h.invariant (I := Fresh)
  · intro s hs
    rw [hs]
    exact ⟨nofun, nofun, nofun⟩
  · exact fun s a s' hi hsafe hstep => fresh_step hi hsafe hstep

/-! ## A predicate that outlives its command -/

/-- A line event in a function at this depth, whose record has no source yet. -/
def lineEvent (ν : Type*) (line : Int32) (depth : Nat) : HookCall ν where
  l := {
    running := { name := none, what := "Lua", source := "@main.lua", currentline := line }
    callers := List.replicate depth
      { name := none, what := "Lua", source := "@main.lua", currentline := 1 } }
  ar := {
    event := .line, name := none, what := none, source := none, currentline := line, i_ci := 0 }
  i_ci_eq := rfl
  currentline_eq _ := rfl

/-- A step is a request for breakpoints, or leaves the tables alone. -/
theorem step_controller {a : Action ν} (h : (system ν P).step a s = some s') :
    (∃ call, a = .request call ∧ s'.controller = (s.controller.call P call).2) ∨
      (∀ call, a ≠ .request call) ∧ ∃ isActive predicate, s'.controller =
        { s.controller with isActive := isActive, debugStepPredicate := predicate } := by
  cases a with
  | enable | disable =>
    simp only [system, step, Option.some.injEq] at h
    subst h
    exact .inr ⟨nofun, _, _, rfl⟩
  | request call =>
    simp only [system, step, Option.some.injEq] at h
    subst h
    exact .inl ⟨call, rfl, rfl⟩
  | event x =>
    obtain ⟨-, stop, ar, c, hbefore, rfl⟩ := step_event h
    cases LuaDebugSessionController.beforeStop_cases hbefore with
    | pass | breakpoint | step => exact .inr ⟨nofun, _, _, rfl⟩
  | resume mode ar =>
    obtain ⟨stop, -, rfl⟩ := step_resume h
    exact .inr ⟨nofun, _, _, LuaDebugSessionController.afterStop_eq ..⟩

theorem sound_step {a : Action ν} (hi : s.controller.Sound P)
    (hstep : (system ν P).step a s = some s') : s'.controller.Sound P := by
  cases a with
  | enable | disable =>
    simp only [system, step, Option.some.injEq] at hstep
    subst hstep
    exact hi.activity _
  | request call =>
    simp only [system, step, Option.some.injEq] at hstep
    subst hstep
    exact hi.call call
  | event x =>
    obtain ⟨-, stop, ar, c, hbefore, rfl⟩ := step_event hstep
    exact hi.beforeStop (LuaDebugSessionController.beforeStop_cases hbefore)
  | resume mode ar =>
    obtain ⟨stop, -, rfl⟩ := step_resume hstep
    exact hi.afterStop stop.l ar mode

theorem sound_of_reachable (h : (system ν P).Reachable s) : s.controller.Sound P := by
  apply System.Reachable.invariant (I := fun s : Stepping ν => s.controller.Sound P) _ _ h
  · intro s hs
    rw [hs]
    exact .new P
  · exact fun s a s' hi hstep => sound_step hi hstep

/-- Every predicate fires at some line of some function. -/
theorem fires_somewhere (ν : Type*) (p : DebugStepPredicate)
    (hp : ∀ depth, p = .stepOut depth → 0 < depth) :
    ∃ line depth ar, p.getStopped (lineEvent ν line depth).l (lineEvent ν line depth).ar =
      (some stepEvent, ar) := by
  cases p with
  | step line depth allowStepIn =>
    refine ⟨if line = 1 then 2 else 1, depth, _, Prod.ext_iff.2 ⟨?_, rfl⟩⟩
    have hlen : (lineEvent ν (if line = 1 then 2 else 1) depth).l.callers.length = depth :=
      List.length_replicate
    have hne : (line != if line = 1 then 2 else 1) = true := by
      by_cases hl : line = 1
      · rw [hl]
        decide
      · simp [hl]
    simp only [DebugStepPredicate.getStopped, getCurrentLineAndStackDepth_eq, hlen]
    simp [lineEvent, hne]
  | stepOut depth =>
    refine ⟨1, 0, _, Prod.ext_iff.2 ⟨?_, rfl⟩⟩
    simp only [DebugStepPredicate.getStopped, getCurrentLineAndStackDepth_eq]
    simp [lineEvent, hp depth rfl]

/-- A pending predicate that the last command did not make leads to a stop that nobody asked
for. -/
theorem uncommanded_of_stale {mode : ContinueExecutionMode} (h : s.controller.Sound P)
    (hstop : s.stop = none) (hres : s.resumed = some (mode, none)) {p : DebugStepPredicate}
    (hp : s.controller.debugStepPredicate = some p) :
    ∃ t, (system ν P).Run (fun _ _ => True) s t ∧ ¬ Commanded t := by
  obtain ⟨line, depth, ar, hfires⟩ := fires_somewhere ν p fun d hd => h.outward d (hd ▸ hp)
  have hcheck : s.controller.enableDebug.checkBreakpoints P (lineEvent ν line depth).l
      (lineEvent ν line depth).ar = some (none, (lineEvent ν line depth).ar) :=
    LuaDebugSessionController.checkBreakpoints_other _ (fun hx => hx.2.1 rfl) nofun
  have hbefore := LuaDebugSessionController.beforeStop_of_fires
    (c := s.controller.enableDebug) rfl hcheck hp hfires
  have henable : (system ν P).step .enable s =
      some { s with controller := s.controller.enableDebug } := rfl
  have hevent : (system ν P).step (.event (lineEvent ν line depth))
      { s with controller := s.controller.enableDebug } = some { s with
        controller := { s.controller.enableDebug with debugStepPredicate := none }
        stop :=
          some ⟨(lineEvent ν line depth).l, stepEvent, s.controller.debugStepPredicate⟩ } := by
    simp only [system, step, hstop, hbefore, Option.map_some]
    rfl
  refine ⟨_, .head trivial henable (.single trivial hevent), fun hcommanded => ?_⟩
  obtain ⟨mode', p', hres', -⟩ := hcommanded _ rfl rfl
  rw [hres] at hres'
  cases hres'

/-- **Steps.** In histories where no stop that finds a predicate pending is ended by a command
that makes no new one, every stop with reason `step` is one that the last command asked for; after
a command that ends such a stop otherwise, the old predicate can still stop the thread. -/
theorem commanded_of_reaches (ν : Type*) (P : PathEquality) :
    (∀ s, (system ν P).Reaches StepSafe s → Commanded s) ∧
      ∀ s a s', (system ν P).Reachable s → (system ν P).step a s = some s' → ¬ StepSafe s a →
        ∃ t, (system ν P).Run (fun _ _ => True) s' t ∧ ¬ Commanded t := by
  refine ⟨fun s h => (fresh_of_reaches h).commanded, fun s a s' h hstep hbad => ?_⟩
  have hsound := sound_of_reachable (h.step hstep)
  cases a with
  | resume mode ar =>
    obtain ⟨stop, hstop, rfl⟩ := step_resume hstep
    simp only [StepSafe, hstop, Option.mem_some, forall_eq', Classical.not_imp] at hbad
    obtain ⟨hpending, hmode⟩ := hbad
    obtain ⟨p, hp⟩ := Option.ne_none_iff_exists'.1 hpending
    have hnone := created_eq_none.2 hmode
    apply uncommanded_of_stale hsound rfl (by rw [hnone])
    rw [LuaDebugSessionController.afterStop_eq, hnone]
    exact hp
  | _ => exact absurd trivial hbad

/-- Exact comparison of paths. -/
def exactPaths : PathEquality where
  eq a b := a == b
  equivalence := by simpa using eq_equivalence

/-- A line event of the main function whose record has a source already. -/
def mainLine (line : Int32) : HookCall Unit :=
  { lineEvent Unit line 0 with
    ar := { (lineEvent Unit line 0).ar with source := some "@main.lua" } }

/-- There are breakpoints on the lines 1 and 2. The client steps from the first, stops at the
second and continues from there. -/
def continuedStep : List (Action Unit) :=
  [.enable, .request (.source ⟨⟨"@main.lua"⟩, [⟨1⟩, ⟨2⟩]⟩), .event (mainLine 1),
    .resume .step (mainLine 1).ar, .event (mainLine 2), .resume .continue (mainLine 2).ar,
    .event (mainLine 3)]

/-- The step fires after `continue`. -/
theorem uncommanded_reachable :
    ¬ ∀ s, (system Unit exactPaths).Reachable s → Commanded s := by
  intro h
  obtain ⟨mode, p, hres, -⟩ := h _ (System.Reachable.of_exec continuedStep rfl rfl) _ rfl rfl
  cases hres

end Stepping

end LuaToolkit
