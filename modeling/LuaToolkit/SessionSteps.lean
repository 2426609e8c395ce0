import LuaToolkit.DebugSessionOrder
import LuaToolkit.DebugSessionPairing
import LuaToolkit.SessionBreakpoints

/-!
# From the client's commands to its steps

A client ends a stop by a command. `Run` passes the mode of the command to `StopExecution`, the hook
makes a step predicate of the mode, and the predicate is tested at the later events of the Lua
thread. So a session with its controller is a history of events and commands in which every command
is the client's.

* `LuaDebugSessionController.tables` — the part of a controller that the hook reads.
* `projects_stepping` — this part runs as in the histories of events and commands.
* `Stepped` — a stop with reason `step` is one that the client asked for in the stop before.
* `stepped_of_run` — so it is if no command leaves an older predicate behind.
-/

namespace LuaToolkit

open Dap Transition

variable {ν V : Type*} {P : PathEquality}

/-! ## The part of the controller that the hook reads -/

namespace LuaDebugSessionController

variable {c c' : LuaDebugSessionController}

/-- Without the start mode and the reference to the session. -/
def tables (c : LuaDebugSessionController) : LuaDebugSessionController :=
  { c with startMode := .unknown, sessionRef := none }

theorem tables_getSourceId (P : PathEquality) (source : Source) (c : LuaDebugSessionController) :
    c.tables.getSourceId P source =
      ((c.getSourceId P source).1, (c.getSourceId P source).2.tables) := by
  unfold getSourceId tables
  dsimp only
  split <;> rfl

theorem tables_foldl {α : Type*}
    (f : List Breakpoint × LuaDebugSessionController → α →
      List Breakpoint × LuaDebugSessionController)
    (hf : ∀ bs c x, f (bs, c.tables) x = ((f (bs, c) x).1, (f (bs, c) x).2.tables)) (xs : List α) :
    ∀ (bs : List Breakpoint) (c : LuaDebugSessionController),
      xs.foldl f (bs, c.tables) = ((xs.foldl f (bs, c)).1, (xs.foldl f (bs, c)).2.tables) := by
  induction xs with
  | nil =>
    intro bs c
    rfl
  | cons x xs ih =>
    intro bs c
    rw [List.foldl_cons, List.foldl_cons, hf]
    exact ih _ _

theorem tables_call (P : PathEquality) (call : BreakpointCall) (c : LuaDebugSessionController) :
    (c.tables.call P call).2 = (c.call P call).2.tables := by
  cases call with
  | source arg =>
    have hfold := tables_foldl (addSourceBreakpoint (c.getSourceId P arg.source).1)
      (fun _ _ _ => rfl) arg.breakpoints [] { (c.getSourceId P arg.source).2 with
        sourceBreakpoints := (c.getSourceId P arg.source).2.sourceBreakpoints.filter fun bp =>
          bp.sourceId != (c.getSourceId P arg.source).1 }
    simp only [call, setBreakpoints, tables_getSourceId]
    exact congrArg Prod.snd hfold
  | function arg =>
    exact congrArg Prod.snd (tables_foldl addFunctionBreakpoint (fun _ _ _ => rfl)
      arg.breakpoints [] { c with functionBreakpoints := [] })

theorem tables_beforeStop (P : PathEquality) (l : LuaState ν) (ar : LuaDebug)
    (c : LuaDebugSessionController) : c.tables.beforeStop P l ar =
      (c.beforeStop P l ar).map fun (stop, ar, c') => (stop, ar, c'.tables) := by
  unfold beforeStop
  rw [show c.tables.checkBreakpoints P l ar = c.checkBreakpoints P l ar from rfl,
    show c.tables.isActive = c.isActive from rfl,
    show c.tables.debugStepPredicate = c.debugStepPredicate from rfl]
  by_cases hactive : c.isActive = false
  · rw [if_pos hactive, if_pos hactive]
    rfl
  · rw [if_neg hactive, if_neg hactive]
    rcases c.checkBreakpoints P l ar with _ | ⟨_ | event, ar₁⟩
    · rfl
    · cases c.debugStepPredicate with
      | none => rfl
      | some predicate =>
        rcases hfires : predicate.getStopped l ar₁ with ⟨_ | event, ar₂⟩ <;>
          simp only [hfires] <;> rfl
    · rfl

theorem tables_afterStop (l : LuaState ν) (ar : LuaDebug) (mode : ContinueExecutionMode)
    (c : LuaDebugSessionController) :
    c.tables.afterStop l ar mode = (c.afterStop l ar mode).tables := by
  rw [afterStop_eq, afterStop_eq]
  rfl

end LuaDebugSessionController

/-! ## A session and its controller as a history -/

/-- What a handler does to the tables, or to the activity of the controller. -/
def Application.steppingCall (ν : Type*) (app : Application V) (q : RequestMessage V)
    (p : HandlerPoint V) : Option (Stepping.Action ν) :=
  match p with
  | .disconnectController => if app.disablesOnDisconnect then some .disable else none
  | _ => (app.breakpointCall q p).map .request

/-- The predicate that was pending at the last event, the last stop that was begun, and the last
command, with the predicate that it made. -/
structure Steps where
  pending : Option DebugStepPredicate := none
  begun : StoppedEventBody := { reason := "" }
  resumed : Option (ContinueExecutionMode × Option DebugStepPredicate) := none

namespace SessionLifetime

variable {rt : Runtime} {app : Application V} {s s' : SessionLifetime V ν} {g : Steps}

def recordSteps (s : SessionLifetime V ν) : Action V ν → SessionLifetime V ν → Steps → Steps
  | .event _, _, g => { g with pending := s.controller.debugStepPredicate }
  | .acquire, _, g =>
    match s.hook with
    | .acquire _ event => { g with begun := event }
    | _ => g
  | .lua _ _, _, g =>
    match s.hook, s.session.lua with
    | .stopped l, .leave _ mode =>
      { g with resumed := some (mode, LuaDebugSessionController.created l mode) }
    | _, _ => g
  | _, _, g => g

/-- The controller and the hook, as a state of the histories. -/
def stepping (s : SessionLifetime V ν) (g : Steps) : Stepping ν where
  controller := s.controller.tables
  stop :=
    match s.hook with
    | .outside => none
    | .acquire l event => some ⟨l, event, g.pending⟩
    | .stopped l => some ⟨l, g.begun, g.pending⟩
  resumed := g.resumed

/-- What a step is in the history. -/
def steppingMove (app : Application V) (s : SessionLifetime V ν) :
    Action V ν → Option (Stepping.Action ν)
  | .event x => some (.event x)
  | .enable => some .enable
  | .disable => some .disable
  | .run _ =>
    match s.session.run with
    | .handle q _ p => app.steppingCall ν q p
    | _ => none
  | .lua _ ar =>
    match s.hook, s.session.lua with
    | .stopped _, .leave _ mode => some (.resume mode ar)
    | _, _ => none
  | .acquire | .drop => none

/-- With a record of the steps. -/
abbrev stepSystem (V ν : Type*) (rt : Runtime) (app : Application V) (P : PathEquality) :
    System (SessionLifetime V ν × Steps) (Action V ν) :=
  (system V ν rt app P).recorded {} recordSteps

theorem serve_of_steppingCall {q : RequestMessage V} {p : HandlerPoint V} {a : Stepping.Action ν}
    (h : app.steppingCall ν q p = some a) {c : LuaDebugSessionController} {t : Stepping ν}
    (ht : t.controller = c.tables) :
    Stepping.step P a t = some { t with controller := (app.serve P q p c).tables } := by
  unfold Application.steppingCall at h
  split at h
  · split_ifs at h with hd
    cases h
    simp only [Stepping.step, ht, Application.serve, if_pos hd]
    rfl
  · obtain ⟨call, hcall, rfl⟩ := Option.map_eq_some_iff.1 h
    simp only [Stepping.step, ht, LuaDebugSessionController.tables_call]
    rcases sets_of_breakpointCall hcall with rfl | rfl <;>
      (obtain ⟨arg, harg, rfl⟩ := Option.map_eq_some_iff.1 hcall
       simp [Application.serve, harg, LuaDebugSessionController.call])

theorem serve_of_not_steppingCall {q : RequestMessage V} {p : HandlerPoint V}
    (h : app.steppingCall ν q p = none) (c : LuaDebugSessionController) :
    (app.serve P q p c).tables = c.tables := by
  cases p with
  | controller call =>
    cases call with
    | configureLaunch | configureAttach =>
      simp only [Application.serve, LuaDebugSessionController.configureLaunch,
        LuaDebugSessionController.configureAttach]
      split_ifs <;> rfl
    | setBreakpoints | setFunctionBreakpoints =>
      have hcast := Option.map_eq_none_iff.1 (Option.map_eq_none_iff.1 h)
      simp [Application.serve, hcast]
    | _ => rfl
  | disconnectController =>
    have hd : ¬ app.disablesOnDisconnect = true := by
      intro hd
      simp [Application.steppingCall, hd] at h
    simp only [Application.serve, if_neg hd]
    rfl
  | _ => rfl

theorem controller_lua {i : LuaInput V} {ar : LuaDebug}
    (h : (system V ν rt app P).step (.lua i ar) s = some s') :
    ∃ l, s.hook = .stopped l ∧ ((∃ k mode, s.session.lua = .leave k mode ∧ s'.hook = .outside ∧
        s'.controller = s.controller.afterStop l ar mode) ∨
      ((∀ k mode, s.session.lua ≠ .leave k mode) ∧ s'.hook = s.hook ∧
        s'.controller = s.controller)) := by
  simp only [system, step] at h
  split_ifs at h
  unfold luaStep at h
  split at h
  · obtain ⟨session, hs, rfl⟩ := Option.map_eq_some_iff.1 h
    exact ⟨_, ‹_›, .inl ⟨_, _, ‹_›, rfl, rfl⟩⟩
  · cases h
  · rename_i hh hne _
    obtain ⟨session, hs, rfl⟩ := Option.map_eq_some_iff.1 h
    exact ⟨_, hh, .inr ⟨hne, rfl, rfl⟩⟩
  · cases h

/-- **The hook of a session** runs as in the histories of events and commands. -/
theorem projects_stepping (V ν : Type*) (rt : Runtime) (app : Application V) (P : PathEquality) :
    (stepSystem V ν rt app P).Projects (Stepping.system ν P) (fun x => x.1.stepping x.2)
      (fun x a => x.1.steppingMove app a) where
  moves := by
    rintro ⟨s, g⟩ a ⟨s', g'⟩ b hstep hm
    obtain ⟨hs, rfl⟩ := System.recorded_step_iff.1 hstep
    cases a with
    | run i =>
      obtain ⟨-, hhook, ⟨q, r, p, hr, hc⟩ | ⟨hne, hc⟩⟩ := step_run hs
      · simp only [steppingMove, hr] at hm
        have hnext : s'.stepping g = { s.stepping g with
            controller := (app.serve P q p s.controller).tables } := by
          simp only [stepping, hhook, hc]
        show Stepping.step P b (s.stepping g) = some (s'.stepping g)
        rw [hnext]
        exact serve_of_steppingCall hm rfl
      · simp only [steppingMove] at hm
        cases hm
    | lua i ar =>
      obtain ⟨l, hh, ⟨k, mode, hl, hh', hc⟩ | ⟨hne, -, -⟩⟩ := controller_lua hs
      · simp only [steppingMove, hh, hl, Option.some.injEq] at hm
        subst hm
        simp only [Stepping.system, Stepping.step, stepping, hh, hl, hh', hc, recordSteps,
          LuaDebugSessionController.tables_afterStop]
      · simp only [steppingMove] at hm
        split at hm
        · exact absurd ‹_› (hne _ _)
        · cases hm
    | event x =>
      cases hm
      cases (step_cases hs).2 with
      | @event _ stop ar c hh hb =>
        simp only [Stepping.system, Stepping.step, stepping, hh, recordSteps,
          LuaDebugSessionController.tables_beforeStop, hb]
        cases stop <;> rfl
    | acquire | drop => cases hm
    | enable | disable =>
      cases hm
      cases (step_cases hs).2
      rfl
  rests := by
    rintro ⟨s, g⟩ a ⟨s', g'⟩ hstep hm
    obtain ⟨hs, rfl⟩ := System.recorded_step_iff.1 hstep
    cases a with
    | run i =>
      obtain ⟨-, hhook, ⟨q, r, p, hr, hc⟩ | ⟨hne, hc⟩⟩ := step_run hs
      · simp only [steppingMove, hr] at hm
        simp only [stepping, recordSteps, hhook, hc, serve_of_not_steppingCall hm]
      · simp only [stepping, recordSteps, hhook, hc]
    | lua i ar =>
      obtain ⟨l, hh, ⟨k, mode, hl, -, -⟩ | ⟨hne, hhook, hc⟩⟩ := controller_lua hs
      · simp [steppingMove, hh, hl] at hm
      · have hrecord : s.recordSteps (.lua i ar) s' g = g := by
          simp only [recordSteps]
          split
          · exact absurd ‹_› (hne _ _)
          · rfl
        simp only [stepping, hrecord, hhook, hc]
    | acquire =>
      cases (step_cases hs).2 with
      | fail hh | acquire hh => simp only [stepping, recordSteps, hh]
    | drop =>
      cases (step_cases hs).2
      rfl
    | event | enable | disable => cases hm

/-! ## Steps and commands -/

abbrev recordCommands : SessionLifetime V ν → Action V ν → SessionLifetime V ν →
    DebugSession.Pairing V → DebugSession.Pairing V :=
  System.Projects.recordMove session sessionMove DebugSession.Pairing.record

/-- With a record of the commands as well. -/
abbrev commandSystem (V ν : Type*) (rt : Runtime) (app : Application V) (P : PathEquality) :
    System ((SessionLifetime V ν × Steps) × DebugSession.Pairing V) (Action V ν) :=
  (stepSystem V ν rt app P).recorded {} fun y a y' => recordCommands y.1 a y'.1

/-- No check of `Run` finds a stop that has been given a mode already, and a command that ends a
stop with a predicate pending makes a new one. -/
structure StepSafe (s : SessionLifetime V ν) (a : Action V ν) : Prop where
  paired : ∀ b, s.sessionMove a = some b → DebugSession.PairSafe s.session b
  makes : ∀ i ar l k mode, a = .lua i ar → s.hook = .stopped l → s.session.lua = .leave k mode →
    s.controller.debugStepPredicate ≠ none → LuaDebugSessionController.MakesStep l mode

/-- The steps are those of the client. -/
structure Stepped (rt : Runtime) (P : PathEquality) (c : LuaDebugSessionController)
    (s : SessionLifetime V ν) (g : Steps) (p : DebugSession.Pairing V) : Prop where
  /-- The hook has run as in a history in which every command is safe. -/
  history : (Stepping.system ν P).Run Stepping.StepSafe { controller := c.tables } (s.stepping g)
  /-- When the hook is about to stop for a step, a request of the client has ended the stop before
  with this step, and the predicate made then is the one that has fired. -/
  asked : ∀ l event, s.hook = .acquire l event → event.reason = "step" →
    ∃ k mode predicate q, k + 1 = s.session.schedulerCount ∧ (k, mode, q) ∈ p.written ∧
      DebugSession.Commands rt q mode ∧ (mode = .step ∨ mode = .stepIn ∨ mode = .stepOut) ∧
        g.resumed = some (mode, some predicate) ∧ g.pending = some predicate

/-- The last command is that of the last stop. -/
def Ended (rt : Runtime) (s : SessionLifetime V ν) (g : Steps) (p : DebugSession.Pairing V) :
    Prop :=
  (∀ l, s.hook ≠ .stopped l) → ∀ mode predicate, g.resumed = some (mode, predicate) →
    ∃ k, k + 1 = s.session.schedulerCount ∧ DebugSession.Written rt p k mode

theorem Ended.keep {p p' : DebugSession.Pairing V} {g' : Steps} (h : Ended rt s g p)
    (hhook : (∀ l, s'.hook ≠ .stopped l) → ∀ l, s.hook ≠ .stopped l)
    (hresumed : g'.resumed = g.resumed)
    (hcount : s'.session.schedulerCount = s.session.schedulerCount)
    (hp : ∀ x ∈ p.written, x ∈ p'.written) : Ended rt s' g' p' := by
  intro hne mode predicate hres
  obtain ⟨k, hk, hwritten⟩ := h (hhook hne) mode predicate (hresumed ▸ hres)
  exact ⟨k, hk.trans hcount.symm, hwritten.mono hp⟩

/-- The number of a stop that is being left. -/
theorem latest_of_leave {t : DebugSession V} (h : (DebugSession.system V rt).Reachable t) {k : Nat}
    {mode : ContinueExecutionMode} (hl : t.lua = .leave k mode) : k + 1 = t.schedulerCount := by
  have hcoherent := DebugSession.coherent_of_reachable h (by simp [hl])
  rw [hl] at hcoherent
  obtain ⟨st, hst, rfl⟩ := Option.map_eq_some_iff.1 hcoherent
  exact DebugSession.latest_of_reachable h st hst

theorem schedulerCount_leave {t t' : DebugSession V} {k : Nat} {mode : ContinueExecutionMode}
    (hl : t.lua = .leave k mode) {i : LuaInput V} (h : DebugSession.LuaStep rt t i t') :
    t'.schedulerCount = t.schedulerCount := by
  cases h with
  | leave => rfl
  | stop hl' | assertFree hl' | notFree hl' | emplace hl' | event hl' | announce hl' | execute hl'
  | answer hl' | returned hl' | assertMode hl' | noMode hl' => cases hl.symm.trans hl'

theorem ended_step {p : DebugSession.Pairing V} {a : Action V ν}
    (hsession : (DebugSession.system V rt).Reachable s.session)
    (hmatched : DebugSession.Matched rt s.session p) (h : Ended rt s g p)
    (hstep : (system V ν rt app P).step a s = some s') :
    Ended rt s' (s.recordSteps a s' g) (recordCommands s a s' p) := by
  have hp : ∀ x ∈ p.written, x ∈ (recordCommands s a s' p).written := by
    intro x hx
    unfold recordCommands System.Projects.recordMove
    split
    · exact hx
    · exact DebugSession.written_record _ x hx
  cases a with
  | run i =>
    obtain ⟨hs, hhook, -⟩ := step_run hstep
    exact h.keep (hhook ▸ id) rfl (DebugSession.schedulerCount_run hs) hp
  | lua i ar =>
    have hs := (projects_session V ν rt app P).moves _ _ _ _ hstep rfl
    obtain ⟨l, hh, ⟨k, mode, hl, hh', hc⟩ | ⟨hne, hhook, -⟩⟩ := controller_lua hstep
    · intro _ mode' predicate hres
      simp only [recordSteps, hh, hl, Option.some.injEq, Prod.mk.injEq] at hres
      obtain ⟨rfl, -⟩ := hres
      refine ⟨k, ?_, (hmatched.left k _ hl).mono hp⟩
      rw [latest_of_leave hsession hl, schedulerCount_leave hl (DebugSession.luaStep_iff.1 hs)]
    · intro hnot
      exact absurd (hhook.trans hh) (hnot l)
  | event x =>
    cases (step_cases hstep).2 with
    | event hh => exact h.keep (fun _ l => by simp [hh]) rfl rfl hp
  | acquire =>
    cases (step_cases hstep).2 with
    | fail hh =>
      refine h.keep id ?_ rfl hp
      simp only [recordSteps, hh]
    | acquire hh => exact fun hne => absurd rfl (hne _)
  | enable | disable | drop =>
    cases (step_cases hstep).2
    exact h.keep id rfl rfl hp

theorem StepSafe.stepping {a : Action V ν} {b : Stepping.Action ν} (h : StepSafe s a)
    (hm : s.steppingMove app a = some b) : Stepping.StepSafe (s.stepping g) b := by
  cases a with
  | lua i ar =>
    simp only [steppingMove] at hm
    split at hm
    · rename_i l k mode hh hl
      cases hm
      intro stop hstop hpending
      simp only [SessionLifetime.stepping, hh, Option.mem_some] at hstop
      obtain rfl := hstop
      exact h.makes i ar l k mode rfl hh hl hpending
    · cases hm
  | run i =>
    simp only [steppingMove] at hm
    split at hm
    · unfold Application.steppingCall at hm
      split at hm
      · split_ifs at hm
        cases hm
        trivial
      · obtain ⟨call, -, rfl⟩ := Option.map_eq_some_iff.1 hm
        trivial
    · cases hm
  | event | enable | disable =>
    cases hm
    trivial
  | acquire | drop => cases hm

/-- A session that begins, with its controller. -/
def begin (c : LuaDebugSessionController) : SessionLifetime V ν :=
  { session := { run := .receive }, controller := c.setSession 0 }

variable {c : LuaDebugSessionController} {p : DebugSession.Pairing V}

theorem matched_of_run (h : (commandSystem V ν rt app P).Run (fun y a => StepSafe y.1.1 a)
    ((begin c, {}), {}) ((s, g), p)) :
    (DebugSession.system V rt).Reachable s.session ∧ DebugSession.Matched rt s.session p := by
  have hrun : (DebugSession.pairedSystem V rt).Run (fun x a => DebugSession.PairSafe x.1 a)
      ({ run := .receive }, {}) (s.session, p) :=
    (((System.Projects.of_recorded _ _ _).trans (projects_session V ν rt app P)).recorded {}
      DebugSession.Pairing.record).run (fun _ _ b hok hm => hok.paired b hm) h
  have hreaches : (DebugSession.pairedSystem V rt).Reaches (fun x a => DebugSession.PairSafe x.1 a)
      (s.session, p) := by
    refine ⟨({}, {}), ⟨rfl, rfl⟩, .head (a := .run .step) ?_ rfl hrun⟩
    intro q r p st hr
    cases hr
  exact ⟨hreaches.of_recorded.reachable, DebugSession.matched_of_reaches hreaches⟩

theorem ended_of_run (h : (commandSystem V ν rt app P).Run (fun y a => StepSafe y.1.1 a)
    ((begin c, {}), {}) ((s, g), p)) : Ended rt s g p := by
  have hboth := h.invariant (I := fun y => (commandSystem V ν rt app P).Run
    (fun y a => StepSafe y.1.1 a) ((begin c, {}), {}) y ∧ Ended rt y.1.1 y.1.2 y.2) ?_
      ⟨.refl, fun _ _ _ hres => by cases hres⟩
  · exact hboth.2
  · rintro ⟨⟨s, g⟩, p⟩ a ⟨⟨s', g'⟩, p'⟩ ⟨hrun, hended⟩ hok hstep
    obtain ⟨hsession, hmatched⟩ := matched_of_run hrun
    obtain ⟨hg, rfl⟩ := System.recorded_step_iff.1 hstep
    obtain ⟨hs, rfl⟩ := System.recorded_step_iff.1 hg
    exact ⟨hrun.tail hok hstep, ended_step hsession hmatched hended hs⟩

/-- **Steps.** With its controller and its hook a session is a history of events and commands, and
every stop for a step is one that the client has asked for in the stop before. -/
theorem stepped_of_run (V ν : Type*) (rt : Runtime) (app : Application V) (P : PathEquality)
    {c : LuaDebugSessionController} (hc : c.debugStepPredicate = none)
    {s : SessionLifetime V ν} {g : Steps} {p : DebugSession.Pairing V}
    (h : (commandSystem V ν rt app P).Run (fun y a => StepSafe y.1.1 a)
      ((begin c, {}), {}) ((s, g), p)) : Stepped rt P c s g p := by
  have hhistory : (Stepping.system ν P).Run Stepping.StepSafe { controller := c.tables }
      (s.stepping g) :=
    ((System.Projects.of_recorded _ _ _).trans (projects_stepping V ν rt app P)).run
      (fun _ _ _ hok hm => hok.stepping hm) h
  refine ⟨hhistory, fun l event hh hreason => ?_⟩
  have hstart : Stepping.Fresh ({ controller := c.tables } : Stepping ν) := {
    pending := fun p hp => by cases hc.symm.trans hp
    made := nofun
    stop := nofun }
  have hfresh : (s.stepping g).Fresh :=
    hhistory.invariant (fun _ _ _ hi ha hstep => Stepping.fresh_step hi ha hstep) hstart
  have hstop : (s.stepping g).stop = some ⟨l, event, g.pending⟩ := by simp only [stepping, hh]
  obtain ⟨mode, predicate, hres, hpending⟩ := hfresh.stop _ hstop hreason
  obtain ⟨k, hk, q, hq, hcommands⟩ := ended_of_run h (by simp [hh]) mode (some predicate) hres
  exact ⟨k, mode, predicate, q, hk, hq, hcommands, hfresh.made mode predicate hres, hres, hpending⟩

/-- A check that is enough for a safe step. -/
def stepChecked (s : SessionLifetime V ν) (a : Action V ν) : Bool :=
  (match s.session.run, s.session.stoppedState with
    | .handle _ _ .disconnectTest, some st | .handle _ _ (.inspectAssert _), some st
    | .handle _ _ (.resumeAssertStopped _), some st => st.continueMode.isNone
    | _, _ => true) &&
  match a with
  | .lua _ _ => s.controller.debugStepPredicate.isNone
  | _ => true

theorem stepSafe_of_checked {a : Action V ν} (h : stepChecked s a = true) : StepSafe s a := by
  obtain ⟨hpair, hmakes⟩ := Bool.and_eq_true_iff.1 h
  refine ⟨fun b hm => ?_, fun i ar l k mode ha _ _ hne => ?_⟩
  · cases b with
    | lua => trivial
    | run i =>
      rintro q r p st hr hst (rfl | ⟨i, rfl⟩ | ⟨mode, rfl⟩) <;>
        simpa [hr, hst] using hpair
  · subst ha
    exact absurd (Option.isNone_iff_eq_none.1 hmakes) hne

/-- The client sets a breakpoint, stops there and steps to the next line. -/
def toNextLine : List (Action Unit Unit) :=
  .enable :: request 1 "setBreakpoints" ++
    respond ++ [.event (Stepping.mainLine 1), .acquire] ++
    List.replicate 4 (.lua .step (Stepping.mainLine 1).ar) ++ request 2 "next" ++
    [.run .step, .run .step, .run .step, .run .step, .run .step, .run (.sent (.ok ())),
      .run .step] ++
    List.replicate 4 (.lua .step (Stepping.mainLine 1).ar) ++ [.event (Stepping.mainLine 2)]

theorem stepped_of_run_toNextLine : ∃ (s : SessionLifetime Unit Unit) (g : Steps)
    (p : DebugSession.Pairing Unit), s.hook = .acquire (Stepping.mainLine 2).l stepEvent ∧
      Stepped DebugSession.plainRuntime Stepping.exactPaths {} s g p := by
  let T := commandSystem Unit Unit DebugSession.plainRuntime (plainApplication false)
    Stepping.exactPaths
  have hrun : T.Run (fun y a => StepSafe y.1.1 a) ((begin {}, {}), {}) ((_, _), _) :=
    .of_guarded (fun _ _ => stepSafe_of_checked)
      (show (T.guarded fun y => stepChecked y.1.1).exec toNextLine _ = some _ by rfl)
  exact ⟨_, _, _, rfl, stepped_of_run Unit Unit _ _ _ rfl hrun⟩

end SessionLifetime

end LuaToolkit
