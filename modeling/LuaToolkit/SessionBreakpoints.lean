import LuaToolkit.BreakpointAnswers
import LuaToolkit.DebugSessionAnswers
import LuaToolkit.SessionLifetime

/-!
# From the client's breakpoints to its stops

A client sets breakpoints by requests to its session, and sees them again in the session's events.
In between, `Run` passes the requests on to the controller, the hook reads the controller's tables
at the events of the Lua thread, and `StopExecution` announces the stops.

* `BreakpointStore.verdict` — the stop that a store asks for when Lua calls the hook.
* `Breaks` — a record of the breakpoints that were set and of the stops.
* `Conveys` — `Run` is told what the controller returns.
* `breakpoints_of_run` — then the responses carry the answers to the requests that were made, the
  hook stops where the last breakpoints are or a step ends, and the client is told of every stop
  in its order.
-/

namespace LuaToolkit

open Dap Transition

variable {ν V : Type*} {P : PathEquality}

/-! ## What the hook decides -/

/-- The stop that the breakpoints ask for when Lua calls the hook. -/
def BreakpointStore.verdict (store : BreakpointStore) (x : HookCall ν) : Option StoppedEventBody :=
  match x.ar.event with
  | .line =>
    if x.ar.source ≠ none ∧ 0 < x.ar.currentline then store.check .line x.l.running else none
  | event => store.check event x.l.running

/-- What an active controller makes of it: where the breakpoints ask for no stop, a step may end. -/
def BreakpointStore.Decides (store : BreakpointStore) (x : HookCall ν)
    (stop : Option StoppedEventBody) : Prop :=
  stop = store.verdict x ∨ (store.verdict x = none ∧ stop = some stepEvent)

namespace LuaDebugSessionController

variable {c c' : LuaDebugSessionController}

theorem checkBreakpoints_verdict (h : WellFormed P c) (x : HookCall ν) :
    ∃ ar, c.checkBreakpoints P x.l x.ar = some ((c.store P).verdict x, ar) := by
  unfold BreakpointStore.verdict
  cases hevent : x.ar.event with
  | line =>
    by_cases hline : x.IsLine
    · simp only [if_pos hline.2]
      exact ⟨_, checkBreakpoints_line h x hline⟩
    · have hnot : ¬ (x.ar.source ≠ none ∧ 0 < x.ar.currentline) := fun hx => hline ⟨hevent, hx⟩
      simp only [if_neg hnot]
      exact ⟨_, checkBreakpoints_other x hline (by simp [hevent])⟩
  | call => exact ⟨_, checkBreakpoints_call x hevent⟩
  | _ =>
    have hline : ¬ x.IsLine := fun hx => by simp [HookCall.IsLine, hevent] at hx
    exact ⟨_, checkBreakpoints_other x hline (by simp [hevent])⟩

/-- What `ExecuteDebugger` finds to stop at. -/
theorem decides_beforeStop (h : WellFormed P c) {x : HookCall ν} {stop : Option StoppedEventBody}
    {ar : LuaDebug} (hactive : c.isActive = true)
    (hb : c.beforeStop P x.l x.ar = some (stop, ar, c')) : (c.store P).Decides x stop := by
  obtain ⟨ar₁, hcheck⟩ := checkBreakpoints_verdict h x
  cases hverdict : (c.store P).verdict x with
  | some event =>
    rw [hverdict] at hcheck
    simp only [beforeStop, hactive, hcheck, Bool.true_eq_false, if_false, Option.some.injEq,
      Prod.mk.injEq] at hb
    exact .inl (hb.1.symm.trans hverdict.symm)
  | none =>
    cases beforeStop_cases hb with
    | pass => exact .inl hverdict.symm
    | breakpoint _ hcheck' =>
      rw [hcheck, hverdict] at hcheck'
      cases hcheck'
    | step => exact .inr ⟨hverdict, rfl⟩

theorem event_of_decides {store : BreakpointStore} {x : HookCall ν} {event : StoppedEventBody}
    (h : store.Decides x (some event)) : event = (store.verdict x).getD stepEvent := by
  rcases h with heq | ⟨hnone, heq⟩
  · rw [← heq]
    rfl
  · rw [hnone]
    exact Option.some.inj heq

/-- The other members have nothing to do with the tables. -/
theorem Refines.other {store : BreakpointStore} (h : Refines P c store) (startMode : StartMode)
    (sessionRef : Option Nat) (predicate : Option DebugStepPredicate) (isActive : Bool) :
    Refines P { c with
      startMode := startMode
      sessionRef := sessionRef
      debugStepPredicate := predicate
      isActive := isActive } store where
  wellFormed := ⟨h.wellFormed.id_le, h.wellFormed.ids, h.wellFormed.sources, h.wellFormed.resolves⟩
  lines := h.lines
  functions := h.functions

end LuaDebugSessionController

/-- A controller's tables hold what its requests so far have set. -/
theorem Stepping.refines_of_reachable {t : Stepping ν} {log : BreakpointLog}
    (h : (Stepping.logSystem ν P).Reachable (t, log)) : t.controller.Refines P (.ofLog P log) := by
  refine h.recorded (I := fun t log => t.controller.Refines P (.ofLog P log)) (fun t ht => ?_)
    fun t log a t' hi hstep => ?_
  · rw [show t = {} from ht]
    exact LuaDebugSessionController.refines_history P []
  · rcases Stepping.step_controller hstep with ⟨call, rfl, heq⟩ | ⟨hother, isActive, predicate, heq⟩
    · rw [heq]
      exact hi.call call
    · have hlog : Stepping.logRequest P t a t' log = log := by
        cases a with
        | request call => exact absurd rfl (hother call)
        | _ => rfl
      rw [hlog, heq]
      exact hi.other _ _ predicate isActive

/-! ## Settings and stops -/

/-- What a handler asks of the breakpoint tables, if the arguments can be cast. -/
def Application.breakpointCall (app : Application V) (request : RequestMessage V) :
    HandlerPoint V → Option BreakpointCall
  | .controller .setBreakpoints => (app.castSetBreakpoints request.arguments).map .source
  | .controller .setFunctionBreakpoints =>
    (app.castSetFunctionBreakpoints request.arguments).map .function
  | _ => none

/-- The command is one that sets breakpoints. -/
def SetsBreakpoints (V : Type*) (rt : Runtime) (command : String) : Bool :=
  match (rt.dispatch command : HandlerPoint V) with
  | .controller .setBreakpoints | .controller .setFunctionBreakpoints => true
  | _ => false

/-- A request for breakpoints, and the controller's answer. -/
structure Setting (V : Type*) where
  message : RequestMessage V
  call : BreakpointCall
  response : List Breakpoint

/-- A call of the hook that stops, after some settings. -/
structure Break (V ν : Type*) where
  call : HookCall ν
  settings : List (Setting V)
  event : StoppedEventBody

structure Breaks (V ν : Type*) where
  settings : List (Setting V) := []
  stops : List (Break V ν) := []

/-- The requests of a session, as the controller sees them. -/
def Setting.log (settings : List (Setting V)) : BreakpointLog :=
  settings.map fun x => (x.call, x.response)

theorem Setting.log_append (settings settings' : List (Setting V)) :
    log (settings ++ settings') = log settings ++ log settings' :=
  List.map_append

/-- The event that the hook has not yet called `StopExecution` with. -/
def HookPoint.unannounced : HookPoint ν → List StoppedEventBody
  | .acquire _ stoppedEvent => [stoppedEvent]
  | _ => []

namespace SessionLifetime

open DebugSession (Drafted Placed Inspects bodies given HandlerStep RunStep LuaStep)

variable {rt : Runtime} {app : Application V} {s s' : SessionLifetime V ν} {g : Breaks V ν}

/-- The settings that a handler makes with its next statement. -/
def settings (app : Application V) (P : PathEquality) (s : SessionLifetime V ν) :
    List (Setting V) :=
  match s.session.run with
  | .handle request _ point => ((app.breakpointCall request point).map fun call =>
      ⟨request, call, (s.controller.call P call).1⟩).toList
  | _ => []

def recordBreaks (app : Application V) (P : PathEquality) (s : SessionLifetime V ν) :
    Action V ν → SessionLifetime V ν → Breaks V ν → Breaks V ν
  | .run _, _, g => { g with settings := g.settings ++ s.settings app P }
  | .event x, s', g =>
    match s'.hook with
    | .acquire _ event => { g with stops := g.stops ++ [⟨x, g.settings, event⟩] }
    | _ => g
  | _, _, g => g

abbrev breakSystem (V ν : Type*) (rt : Runtime) (app : Application V) (P : PathEquality) :
    System (SessionLifetime V ν × Breaks V ν) (Action V ν) :=
  (system V ν rt app P).recorded {} (recordBreaks app P)

/-- `Run` gets the controller's answer, put into a `RuntimeValue` by `encode`, or the exception of
the cast. -/
def Conveys (rt : Runtime) (app : Application V) (P : PathEquality) (encode : List Breakpoint → V)
    (s : SessionLifetime V ν) : Action V ν → Prop
  | .run (.controller result) => ∀ q r p, s.session.run = .handle q r p →
    match app.breakpointCall q p with
    | some call => result = .ok (encode (s.controller.call P call).1)
    | none => SetsBreakpoints V rt q.command = true → ∃ what, result = .error what
  | _ => True

/-! ## The property -/

/-- `old` is the log of the requests that the controller served before this session. -/
structure Debugged (rt : Runtime) (app : Application V) (P : PathEquality)
    (encode : List Breakpoint → V) (old : BreakpointLog) (s : SessionLifetime V ν)
    (g : Breaks V ν) : Prop where
  /-- The settings are what the client has asked for. -/
  asked : ∀ x ∈ g.settings,
    app.breakpointCall x.message (rt.dispatch x.message.command) = some x.call
  /-- The client is told the answers, in order. -/
  answered : bodies (SetsBreakpoints V rt) s.session =
    g.settings.map fun x => (x.message.seq, encode x.response)
  /-- The hook is ready for every event, and decides it by the last settings. -/
  hook : ∀ x : HookCall ν, ∃ stop ar c, s.controller.beforeStop P x.l x.ar = some (stop, ar, c) ∧
    (s.controller.isActive = false → stop = none) ∧ (s.controller.isActive = true →
      (BreakpointStore.ofLog P (old ++ Setting.log g.settings)).Decides x stop)
  /-- The client is told of every stop, in order; one may still be on its way. -/
  announced : ∃ pending, pending.length ≤ 1 ∧
    g.stops.map Break.event = s.session.stoppedEvents ++ pending
  /-- Every stop was at one of the breakpoints set by then, or ended a step. -/
  caused : ∀ stop ∈ g.stops, stop.settings <+: g.settings ∧ stop.event =
    ((BreakpointStore.ofLog P (old ++ Setting.log stop.settings)).verdict stop.call).getD stepEvent

/-! ## Steps of `Run` -/

theorem sets_of_breakpointCall {q : RequestMessage V} {p : HandlerPoint V} {call : BreakpointCall}
    (h : app.breakpointCall q p = some call) :
    p = .controller .setBreakpoints ∨ p = .controller .setFunctionBreakpoints := by
  unfold Application.breakpointCall at h
  split at h
  · exact .inl rfl
  · exact .inr rfl
  · cases h

theorem refines_serve {c : LuaDebugSessionController} {log : BreakpointLog}
    (h : c.Refines P (.ofLog P log)) (q : RequestMessage V) (p : HandlerPoint V) :
    (app.serve P q p c).Refines P (.ofLog P
      (log ++ ((app.breakpointCall q p).map fun call => (call, (c.call P call).1)).toList)) := by
  cases hcall : app.breakpointCall q p with
  | some call =>
    have hserve : app.serve P q p c = (c.call P call).2 := by
      rcases sets_of_breakpointCall hcall with rfl | rfl <;>
        (obtain ⟨arg, harg, rfl⟩ := Option.map_eq_some_iff.1 hcall
         simp [Application.serve, harg, LuaDebugSessionController.call])
    rw [hserve]
    exact h.call call
  | none =>
    have hserve : ∃ startMode isActive, app.serve P q p c =
        { c with startMode := startMode, isActive := isActive } := by
      cases p with
      | controller call =>
        cases call with
        | configureLaunch | configureAttach =>
          simp only [Application.serve, LuaDebugSessionController.configureLaunch,
            LuaDebugSessionController.configureAttach]
          split_ifs <;> exact ⟨_, _, rfl⟩
        | setBreakpoints | setFunctionBreakpoints =>
          have hcast := Option.map_eq_none_iff.1 hcall
          exact ⟨c.startMode, c.isActive, by simp [Application.serve, hcast]⟩
        | _ => exact ⟨c.startMode, c.isActive, rfl⟩
      | disconnectController =>
        simp only [Application.serve]
        split_ifs <;> exact ⟨c.startMode, _, rfl⟩
      | _ => exact ⟨c.startMode, c.isActive, rfl⟩
    obtain ⟨startMode, isActive, hserve⟩ := hserve
    rw [hserve, Option.map_none, Option.toList_none, List.append_nil]
    exact h.other startMode _ _ isActive

theorem settings_of_handle {q : RequestMessage V} {r : ResponseMessage V} {p : HandlerPoint V}
    (hr : s.session.run = .handle q r p) : s.settings app P = ((app.breakpointCall q p).map
      fun call => ⟨q, call, (s.controller.call P call).1⟩).toList := by
  simp only [settings, hr]

theorem settings_of_ne_handle (h : ∀ q r p, s.session.run ≠ .handle q r p) :
    s.settings app P = [] := by
  unfold settings
  split
  · exact absurd ‹_› (h _ _ _)
  · rfl

/-- What `Run` puts into the responses to requests for breakpoints. -/
theorem given_settings {encode : List Breakpoint → V} (hplaced : Placed rt s.session)
    {i : RunInput V} {session : DebugSession V} (hok : Conveys rt app P encode s (.run i))
    (hs : RunStep rt s.session i session) :
    ((given s.session i).toList.filter fun x => SetsBreakpoints V rt x.1.command).map
        (fun x => (x.1.seq, x.2)) =
      (s.settings app P).map fun x => (x.message.seq, encode x.response) := by
  cases hs with
  | @handle q r p _ _ hr hstep =>
    have hp := hplaced q r p hr
    rw [settings_of_handle hr]
    cases hstep with
    | controller call value =>
      have hsets : SetsBreakpoints V rt q.command = true ↔
          call = .setBreakpoints ∨ call = .setFunctionBreakpoints := by
        have hd : (rt.dispatch q.command : HandlerPoint V) = .controller call := hp
        rw [SetsBreakpoints, hd]
        cases call <;> simp
      have hok' := hok q r _ hr
      cases hcall : app.breakpointCall q (.controller call : HandlerPoint V) with
      | some x =>
        rw [hcall] at hok'
        obtain rfl := Except.ok.inj hok'
        have hcalls : call = .setBreakpoints ∨ call = .setFunctionBreakpoints := by
          simpa using sets_of_breakpointCall hcall
        have hbody : call.hasBody = true := by rcases hcalls with rfl | rfl <;> rfl
        simp [given, hr, hbody, hsets.2 hcalls]
      | none =>
        rw [hcall] at hok'
        have hnot : SetsBreakpoints V rt q.command = false := by
          by_contra htrue
          obtain ⟨what, hwhat⟩ := hok' (by simpa using htrue)
          cases hwhat
        by_cases hbody : call.hasBody = true <;> simp [given, hr, hbody, hnot]
    | controllerThrows call what =>
      have hok' := hok q r _ hr
      cases hcall : app.breakpointCall q (.controller call : HandlerPoint V) with
      | some x =>
        rw [hcall] at hok'
        cases hok'
      | none => simp [given, hr]
    | @answered k value ha =>
      have hnot : SetsBreakpoints V rt q.command = false := by
        have hinspects : Inspects V rt q.command = true := hp
        unfold SetsBreakpoints
        unfold DebugSession.Inspects at hinspects
        split at hinspects
        · rename_i hd
          rw [hd]
        · cases hinspects
      simp [given, hr, ha, hnot, Application.breakpointCall]
    | answerThrows k ha => simp [given, hr, ha, Application.breakpointCall]
    | assertFails ha =>
      cases p with
      | controller | inspectAwait => exact ha.elim
      | _ => simp [given, hr, Application.breakpointCall]
    | derefs hp hst =>
      cases p with
      | controller | inspectAwait => exact hp.elim
      | _ => simp [given, hr, Application.breakpointCall]
    | _ => simp [given, hr, Application.breakpointCall]
  | start hr | receive hr | request hr | sent hr | sendThrows hr | again hr | closed hr =>
    simp [given, settings, hr]

/-- A step of `Run` and what it does to the controller. -/
theorem step_run {i : RunInput V} (h : (system V ν rt app P).step (.run i) s = some s') :
    RunStep rt s.session i s'.session ∧ s'.hook = s.hook ∧
      ((∃ q r p, s.session.run = .handle q r p ∧ s'.controller = app.serve P q p s.controller) ∨
        ((∀ q r p, s.session.run ≠ .handle q r p) ∧ s'.controller = s.controller)) := by
  simp only [system, step] at h
  split_ifs at h
  obtain ⟨session, hs, rfl⟩ := Option.map_eq_some_iff.1 h
  rw [← DebugSession.runStep_iff]
  cases hr : s.session.run with
  | handle q r p => exact ⟨hs, rfl, .inl ⟨q, r, p, rfl, rfl⟩⟩
  | _ => exact ⟨hs, rfl, .inr ⟨by simp, rfl⟩⟩

/-! ## Announcements -/

theorem running_of_stop {s s' : DebugSession V} {ev : StoppedEventBody}
    (h : LuaStep rt s (.stop ev) s') : s.lua = .running := by
  cases h
  assumption

/-! ## The invariant -/

structure Kept (rt : Runtime) (app : Application V) (P : PathEquality)
    (encode : List Breakpoint → V) (old : BreakpointLog) (s : SessionLifetime V ν)
    (g : Breaks V ν) : Prop where
  placed : Placed rt s.session
  refines : s.controller.Refines P (.ofLog P (old ++ Setting.log g.settings))
  asked : ∀ x ∈ g.settings,
    app.breakpointCall x.message (rt.dispatch x.message.command) = some x.call
  answered : bodies (SetsBreakpoints V rt) s.session =
    g.settings.map fun x => (x.message.seq, encode x.response)
  announced : g.stops.map Break.event =
    s.session.stoppedEvents ++ s.session.lua.unannounced ++ s.hook.unannounced
  caused : ∀ stop ∈ g.stops, stop.settings <+: g.settings ∧ stop.event =
    ((BreakpointStore.ofLog P (old ++ Setting.log stop.settings)).verdict stop.call).getD stepEvent

variable {encode : List Breakpoint → V} {old : BreakpointLog}

theorem asked_settings (hplaced : Placed rt s.session) : ∀ x ∈ s.settings app P,
    app.breakpointCall x.message (rt.dispatch x.message.command) = some x.call := by
  intro x hx
  unfold settings at hx
  split at hx
  · rename_i q r p hr
    obtain ⟨call, hcall, rfl⟩ := Option.map_eq_some_iff.1 (Option.mem_toList.1 hx)
    have hp := hplaced q r p hr
    rcases sets_of_breakpointCall hcall with rfl | rfl
    all_goals
      have hd : (rt.dispatch q.command : HandlerPoint V) = _ := hp
      rw [hd]
      exact hcall
  · cases hx

theorem kept_run (h : Kept rt app P encode old s g) (hdraft : Drafted s.session) {i : RunInput V}
    (hok : Conveys rt app P encode s (.run i))
    (hstep : (system V ν rt app P).step (.run i) s = some s') :
    Kept rt app P encode old s' { g with settings := g.settings ++ s.settings app P } := by
  obtain ⟨hs, hhook, hcontroller⟩ := step_run hstep
  refine ⟨DebugSession.placed_run h.placed hs, ?_, fun x hx => ?_, ?_, ?_, fun stop hstop => ?_⟩
  · rcases hcontroller with ⟨q, r, p, hr, heq⟩ | ⟨hne, heq⟩
    · have hserve : (app.serve P q p s.controller).Refines P _ := refines_serve h.refines q p
      rw [heq, settings_of_handle hr, Setting.log_append, ← List.append_assoc]
      cases hcall : app.breakpointCall q p <;> rw [hcall] at hserve <;> exact hserve
    · rw [heq, settings_of_ne_handle hne, List.append_nil]
      exact h.refines
  · rcases List.mem_append.1 hx with hx | hx
    · exact h.asked x hx
    · exact asked_settings h.placed x hx
  · rw [DebugSession.bodies_run hdraft hs, h.answered, given_settings h.placed hok hs,
      List.map_append]
  · rw [DebugSession.stoppedEvents_run hs, (DebugSession.runStep_shared hs).1, hhook]
    exact h.announced
  · obtain ⟨hpre, hevent⟩ := h.caused stop hstop
    exact ⟨hpre.trans (List.prefix_append _ _), hevent⟩

/-- The Lua thread leaves the settings alone. -/
theorem Kept.lua (h : Kept rt app P encode old s g) {i : LuaInput V}
    (hs : LuaStep rt s.session i s'.session)
    (hcontroller : ∃ predicate, s'.controller =
      { s.controller with debugStepPredicate := predicate })
    (hannounced : s'.session.stoppedEvents ++ s'.session.lua.unannounced ++ s'.hook.unannounced =
      s.session.stoppedEvents ++ s.session.lua.unannounced ++ s.hook.unannounced) :
    Kept rt app P encode old s' g := by
  refine ⟨?_, ?_, h.asked, (DebugSession.bodies_lua hs).trans h.answered,
    h.announced.trans hannounced.symm, h.caused⟩
  · unfold DebugSession.Placed
    rw [(DebugSession.luaStep_run hs).1]
    exact h.placed
  · obtain ⟨predicate, heq⟩ := hcontroller
    rw [heq]
    exact h.refines.other _ _ predicate _

theorem lua_ne_running {i : LuaInput V} {ar : LuaDebug}
    (h : (system V ν rt app P).step (.lua i ar) s = some s') : s.session.lua ≠ .running := by
  intro hl
  simp only [system, step, luaStep, hl] at h
  split_ifs at h
  split at h <;> simp_all

theorem kept_event (h : Kept rt app P encode old s g) {x : HookCall ν}
    {stop : Option StoppedEventBody} {ar : LuaDebug} {c : LuaDebugSessionController}
    (hh : s.hook = .outside) (hb : s.controller.beforeStop P x.l x.ar = some (stop, ar, c)) :
    Kept rt app P encode old { s with controller := c, hook := .ofStop x.l stop }
      { g with stops := g.stops ++ (stop.map fun event => ⟨x, g.settings, event⟩).toList } := by
  have hcontroller : ∃ predicate, c = { s.controller with debugStepPredicate := predicate } := by
    cases LuaDebugSessionController.beforeStop_cases hb with
    | pass | breakpoint => exact ⟨s.controller.debugStepPredicate, rfl⟩
    | step => exact ⟨none, rfl⟩
  have hannounced := h.announced
  rw [hh, show HookPoint.unannounced (.outside : HookPoint ν) = [] from rfl, List.append_nil]
    at hannounced
  refine ⟨h.placed, ?_, h.asked, h.answered, ?_, fun stop' hstop => ?_⟩
  · obtain ⟨predicate, heq⟩ := hcontroller
    rw [heq]
    exact h.refines.other _ _ predicate _
  · rw [List.map_append, hannounced]
    cases stop <;> rfl
  · rcases List.mem_append.1 hstop with hstop | hstop
    · exact h.caused stop' hstop
    · obtain ⟨event, hevent, rfl⟩ := Option.map_eq_some_iff.1 (Option.mem_toList.1 hstop)
      subst hevent
      refine ⟨List.prefix_refl _, ?_⟩
      have hactive : s.controller.isActive = true := by
        cases LuaDebugSessionController.beforeStop_cases hb <;> assumption
      have hdecides := LuaDebugSessionController.decides_beforeStop h.refines.wellFormed hactive hb
      rw [h.refines.store_eq] at hdecides
      exact LuaDebugSessionController.event_of_decides hdecides

theorem kept_step {a : Action V ν} (hreach : (system V ν rt app P).Reachable s)
    (h : Kept rt app P encode old s g) (hok : Conveys rt app P encode s a)
    (hstep : (system V ν rt app P).step a s = some s') :
    Kept rt app P encode old s' (recordBreaks app P s a s' g) := by
  have hsession := reachable_session hreach
  have hco := DebugSession.coherent_of_reachable hsession
  have hlua : ∀ i ar, a = .lua i ar → ∀ ev, i ≠ .stop ev := by
    rintro i ar rfl ev rfl
    have hs := (projects_session V ν rt app P).moves _ _ _ _ hstep rfl
    exact lua_ne_running hstep (running_of_stop (DebugSession.luaStep_iff.1 hs))
  cases (step_cases hstep).2 with
  | serve | run => exact kept_run h (DebugSession.drafted_of_reachable hsession) hok hstep
  | @leave i ar l k mode session hh hl hs =>
    have hs := DebugSession.luaStep_iff.1 hs
    refine h.lua hs ⟨_, LuaDebugSessionController.afterStop_eq l ar mode _⟩ ?_
    rw [DebugSession.stoppedEvents_lua hco hs (hlua i ar rfl), hh]
    rfl
  | @lua i ar l session hh hs =>
    have hs := DebugSession.luaStep_iff.1 hs
    refine h.lua hs ⟨s.controller.debugStepPredicate, rfl⟩ ?_
    rw [DebugSession.stoppedEvents_lua hco hs (hlua i ar rfl)]
  | @acquire l ev k session hh ha hs =>
    have hs := DebugSession.luaStep_iff.1 hs
    refine h.lua hs ⟨s.controller.debugStepPredicate, rfl⟩ ?_
    rw [DebugSession.stoppedEvents_stop hs, hh]
    exact List.append_nil _
  | @event x stop ar c hh hb =>
    have hkept := kept_event h hh hb
    cases stop with
    | none =>
      simp only [Option.map_none, Option.toList_none, List.append_nil] at hkept
      exact hkept
    | some event => exact hkept
  | enable | disable =>
    exact ⟨h.placed, h.refines.other _ _ _ _, h.asked, h.answered, h.announced, h.caused⟩
  | fail | drop => exact ⟨h.placed, h.refines, h.asked, h.answered, h.announced, h.caused⟩

theorem Kept.debugged (h : Kept rt app P encode old s g) (hattached : Attached P s) :
    Debugged rt app P encode old s g where
  asked := h.asked
  answered := h.answered
  hook x := by
    have hsome := h.refines.wellFormed.isSome_beforeStop x
    obtain ⟨⟨stop, ar, c⟩, hb⟩ := Option.isSome_iff_exists.1 hsome
    refine ⟨stop, ar, c, hb, fun hinactive => ?_, fun hactive => ?_⟩
    · simp only [LuaDebugSessionController.beforeStop, hinactive, if_true, Option.some.injEq,
        Prod.mk.injEq] at hb
      exact hb.1.symm
    · have hdecides := LuaDebugSessionController.decides_beforeStop h.refines.wellFormed hactive hb
      rwa [h.refines.store_eq] at hdecides
  announced := by
    refine ⟨s.session.lua.unannounced ++ s.hook.unannounced, ?_, by
      rw [h.announced, List.append_assoc]⟩
    cases hh : s.hook with
    | acquire l ev =>
      have hl := hattached.running (by simp [hh])
      simp [hl, HookPoint.unannounced, LuaPoint.unannounced]
    | outside | stopped l =>
      cases s.session.lua <;> simp [HookPoint.unannounced, LuaPoint.unannounced]
  caused := h.caused

theorem kept_of_init {t : Stepping ν} (ht : (Stepping.logSystem ν P).Reachable (t, old)) :
    Kept rt app P encode old
      ({ session := { run := .receive }, controller := t.controller.setSession 0 } :
        SessionLifetime V ν) {} where
  placed := by simp [DebugSession.Placed]
  refines := by
    rw [show old ++ Setting.log ([] : List (Setting V)) = old from List.append_nil old]
    exact (Stepping.refines_of_reachable ht).other _ (some 0) _ _
  asked := by simp
  answered := rfl
  announced := rfl
  caused := by simp

theorem kept_of_run {t : Stepping ν} (ht : (Stepping.logSystem ν P).Reachable (t, old))
    (h : (breakSystem V ν rt app P).Run (fun x a => Conveys rt app P encode x.1 a)
      ({ session := { run := .receive }, controller := t.controller.setSession 0 }, {}) (s, g)) :
    (system V ν rt app P).Reachable s ∧ Kept rt app P encode old s g := by
  have hinit : (system V ν rt app P).init
      { session := { run := .receive }, controller := t.controller.setSession 0 } :=
    ⟨t, ht.of_recorded, rfl⟩
  refine h.invariant
    (I := fun x => (system V ν rt app P).Reachable x.1 ∧ Kept rt app P encode old x.1 x.2)
    ?_ ⟨.init hinit, kept_of_init ht⟩
  rintro ⟨s, g⟩ a ⟨s', g'⟩ ⟨hreach, hi⟩ hok hstep
  obtain ⟨hs, rfl⟩ := System.recorded_step_iff.1 hstep
  exact ⟨hreach.step hs, kept_step hreach hi hok hs⟩

/-- **Breakpoints.** The breakpoints that a client sets through its session are, together with those
that the controller has from earlier sessions, the ones at which the hook stops, under the ids that
the client was told; and every stop is announced to the client, once and in order. -/
theorem breakpoints_of_run {encode : List Breakpoint → V} {t : Stepping ν} {old : BreakpointLog}
    (ht : (Stepping.logSystem ν P).Reachable (t, old)) {s : SessionLifetime V ν} {g : Breaks V ν}
    (h : (breakSystem V ν rt app P).Run (fun x a => Conveys rt app P encode x.1 a)
      ({ session := { run := .receive }, controller := t.controller.setSession 0 }, {}) (s, g)) :
    Debugged rt app P encode old s g := by
  obtain ⟨hreach, hkept⟩ := kept_of_run ht h
  exact hkept.debugged (attached_of_reachable hreach)

/-- The client sets a breakpoint, and the Lua thread stops there. -/
theorem breakpoints_of_run_firstLine : ∃ (s : SessionLifetime Unit Unit) (g : Breaks Unit Unit),
    g.settings.length = 1 ∧ g.stops.length = 1 ∧ s.session.sent.length = 2 ∧
      Debugged DebugSession.plainRuntime (plainApplication false) Stepping.exactPaths
        (fun _ => ()) [] s g := by
  have hasks : ∀ (x : SessionLifetime Unit Unit × Breaks Unit Unit), ∀ a ∈
      .enable :: request 1 "setBreakpoints", Conveys DebugSession.plainRuntime
        (plainApplication false) Stepping.exactPaths (fun _ => ()) x.1 a := by
    simp [request, Conveys]
  have hstops : ∀ (x : SessionLifetime Unit Unit × Breaks Unit Unit), ∀ a ∈
      [.run .step, .run (.sent (.ok ())), .run .step, .event (Stepping.mainLine 1), .acquire,
        .lua .step (Stepping.mainLine 1).ar, .lua .step (Stepping.mainLine 1).ar,
        .lua .step (Stepping.mainLine 1).ar, .lua .step (Stepping.mainLine 1).ar],
      Conveys DebugSession.plainRuntime (plainApplication false) Stepping.exactPaths
        (fun _ => ()) x.1 a := by
    simp [Conveys]
  have hrequested := System.Run.of_exec
    (T := breakSystem Unit Unit DebugSession.plainRuntime (plainApplication false)
      Stepping.exactPaths) hasks
    (s := ({ session := { run := .receive }, controller := { sessionRef := some 0 } }, {})) (by rfl)
  have hset := hrequested.tail (a := .run (.controller (.ok ()))) ?_ rfl
  · have hstopped := hset.trans (.of_exec hstops (by rfl))
    exact ⟨_, _, rfl, rfl, rfl, breakpoints_of_run (.init ⟨rfl, rfl⟩ :
      (Stepping.logSystem Unit Stepping.exactPaths).Reachable ({}, [])) hstopped⟩
  · rintro q r p ⟨⟩
    rfl

end SessionLifetime

end LuaToolkit
