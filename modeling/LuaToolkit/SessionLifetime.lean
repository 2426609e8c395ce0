import LuaToolkit.DebugSessionProof
import LuaToolkit.Lib.Projection
import LuaToolkit.Stepping

/-!
# The lifetime of a session

`SpawnClientSession` holds the session while `Run` runs, and the hook holds it during a stop. The
controller, which the application keeps, has a weak reference and asserts that it still leads to
the session whenever it wants to stop. Nothing tells the controller that the session is gone,
unless the client has disconnected and the application overrides `Disconnect`.

* `Quiet` — controllers that produce no stop, at whatever event.
* `DropSafe` — the controller is quiet when the last reference to the session goes.
* `acquired_of_reaches` — this is the exact condition: under it the assertion never fails, and after
  a step that violates it the next event may fail it.
-/

namespace LuaToolkit

open Dap Transition

variable {ν V : Type*} {P : PathEquality}

/-! ## Controllers that produce no stop -/

namespace LuaDebugSessionController

variable {c : LuaDebugSessionController}

/-- No event is at a breakpoint: lines count from 1, as `int`. -/
def NoBreakpoints (c : LuaDebugSessionController) : Prop :=
  c.functionBreakpoints = [] ∧ ∀ bp ∈ c.sourceBreakpoints, ¬ 0 < bp.bp.line.toInt32

/-- The controller is inactive, or it has nothing to stop at. -/
def Quiet (c : LuaDebugSessionController) : Prop :=
  c.isActive = false ∨ (c.NoBreakpoints ∧ c.debugStepPredicate = none)

theorem checkBreakpoints_of_noBreakpoints (h : WellFormed P c) (hn : c.NoBreakpoints)
    (x : HookCall ν) : ∃ ar, c.checkBreakpoints P x.l x.ar = some (none, ar) := by
  by_cases hline : x.IsLine
  · refine ⟨luaGetInfo x.l "nSl" x.ar, (checkBreakpoints_line h x hline).trans ?_⟩
    have hnone : (c.store P).check .line x.l.running = none := by
      rw [← Option.not_isSome_iff_eq_none, BreakpointStore.check_line_isSome]
      intro hy
      obtain ⟨y, hy, hl⟩ := hy
      obtain ⟨bp, hbp, rfl⟩ := List.mem_map.1 hy
      apply hn.2 bp (List.mem_filter.1 hbp).1
      show 0 < (SourceBp.answered bp).2.line.toInt32
      rw [hl, Int32.toInt32_toUInt32, ← x.currentline_eq hline.1]
      exact hline.2.2
    rw [hnone]
  · by_cases hcall : x.ar.event = .call
    · refine ⟨luaGetInfo x.l "nS" x.ar, (checkBreakpoints_call (P := P) (c := c) x hcall).trans ?_⟩
      have hnone : (c.store P).check .call x.l.running = none := by
        rw [← Option.not_isSome_iff_eq_none, BreakpointStore.check_call_isSome]
        intro hy
        obtain ⟨-, y, hy, -⟩ := hy
        obtain ⟨bp, hbp, rfl⟩ := List.mem_map.1 hy
        rw [hn.1] at hbp
        cases hbp
      rw [hnone]
    · exact ⟨_, checkBreakpoints_other x hline hcall⟩

/-- A quiet controller stops at no event and stays as it is. -/
theorem Quiet.beforeStop (hq : c.Quiet) (h : WellFormed P c) (x : HookCall ν) :
    ∃ ar, c.beforeStop P x.l x.ar = some (none, ar, c) := by
  rcases hq with hactive | ⟨hn, hpending⟩
  · exact ⟨x.ar, by simp [LuaDebugSessionController.beforeStop, hactive]⟩
  · obtain ⟨ar, hcheck⟩ := checkBreakpoints_of_noBreakpoints h hn x
    by_cases hactive : c.isActive = false
    · exact ⟨x.ar, by simp [LuaDebugSessionController.beforeStop, hactive]⟩
    · exact ⟨ar, by simp [LuaDebugSessionController.beforeStop, hactive, hcheck, hpending]⟩

theorem beforeStop_of_check {l : LuaState ν} {ar ar' : LuaDebug} {event : StoppedEventBody}
    (hactive : c.isActive = true) (hcheck : c.checkBreakpoints P l ar = some (some event, ar')) :
    c.beforeStop P l ar = some (some event, ar', c) := by
  simp [LuaDebugSessionController.beforeStop, hactive, hcheck]

/-- A call event of a Lua function with this name. -/
def callEvent (ν : Type*) (name : String) : HookCall ν where
  l := { running := { name := some name, what := "Lua", source := "@main.lua", currentline := 1 } }
  ar := { event := .call, name := none, what := none, source := none, currentline := -1, i_ci := 0 }
  i_ci_eq := rfl
  currentline_eq := nofun

/-- A line event of a function from this source. -/
def sourceEvent (ν : Type*) (source : String) (line : Int32) : HookCall ν where
  l := { running := { name := none, what := "Lua", source := source, currentline := line } }
  ar := {
    event := .line, name := none, what := none, source := some source, currentline := line,
    i_ci := 0 }
  i_ci_eq := rfl
  currentline_eq _ := rfl

/-- A controller that is not quiet stops at some event. -/
theorem Sound.stops_of_not_quiet (ν : Type*) (h : Sound P c) (hq : ¬ c.Quiet) :
    ∃ (x : HookCall ν) (event : StoppedEventBody) (ar : LuaDebug) (c' : LuaDebugSessionController),
      c.beforeStop P x.l x.ar = some (some event, ar, c') := by
  obtain ⟨hinactive, hstops⟩ := not_or.1 hq
  have hactive : c.isActive = true := by simpa using hinactive
  by_cases hfunction : c.functionBreakpoints = []
  · by_cases hsource : ∃ bp ∈ c.sourceBreakpoints, 0 < bp.bp.line.toInt32
    · obtain ⟨bp, hbp, hline⟩ := hsource
      obtain ⟨e, he, hid⟩ := h.wellFormed.resolves bp hbp
      let x := sourceEvent ν e.source.path bp.bp.line.toInt32
      have hcheck := checkBreakpoints_line h.wellFormed x ⟨rfl, Option.some_ne_none _, hline⟩
      have hsome : ((c.store P).check .line x.l.running).isSome := by
        rw [BreakpointStore.check_line_isSome]
        refine ⟨bp.answered, List.mem_map_of_mem (List.mem_filter.2 ⟨hbp, ?_⟩), ?_⟩
        · exact (h.wellFormed.hits_eq he hid _).trans ((Source.eq_equivalence P).refl e.source)
        · exact (UInt32.toUInt32_toInt32 bp.bp.line).symm
      obtain ⟨event, hevent⟩ := Option.isSome_iff_exists.1 hsome
      exact ⟨x, event, _, c, beforeStop_of_check hactive (by rw [hcheck, hevent])⟩
    · have hpending : c.debugStepPredicate ≠ none := by
        intro hnone
        exact hstops ⟨⟨hfunction, fun bp hbp hl => hsource ⟨bp, hbp, hl⟩⟩, hnone⟩
      obtain ⟨p, hp⟩ := Option.ne_none_iff_exists'.1 hpending
      obtain ⟨line, depth, ar, hfires⟩ :=
        Stepping.fires_somewhere ν p fun d hd => h.outward d (hd ▸ hp)
      have hcheck : c.checkBreakpoints P (Stepping.lineEvent ν line depth).l
          (Stepping.lineEvent ν line depth).ar =
            some (none, (Stepping.lineEvent ν line depth).ar) :=
        checkBreakpoints_other _ (fun hx => hx.2.1 rfl) nofun
      exact ⟨_, _, _, _, beforeStop_of_fires hactive hcheck hp hfires⟩
  · obtain ⟨bp, hbp⟩ := List.exists_mem_of_ne_nil _ hfunction
    let x := callEvent ν bp.bp.name
    have hcheck := checkBreakpoints_call (P := P) (c := c) x rfl
    have hsome : ((c.store P).check .call x.l.running).isSome := by
      rw [BreakpointStore.check_call_isSome]
      exact ⟨rfl, bp.answered, List.mem_map_of_mem hbp, rfl⟩
    obtain ⟨event, hevent⟩ := Option.isSome_iff_exists.1 hsome
    exact ⟨x, event, _, c, beforeStop_of_check hactive (by rw [hcheck, hevent])⟩

end LuaDebugSessionController

/-! ## A session, its controller and the Lua thread -/

/-- What the application and the reflection library bring along: the casts of request arguments,
and whether `Disconnect` is overridden by one that calls `DisableDebug`. -/
structure Application (V : Type*) where
  castSetBreakpoints : V → Option SetBreakpointsArguments
  castSetFunctionBreakpoints : V → Option SetFunctionBreakpointsArguments
  disablesOnDisconnect : Bool

/-- What a handler's call does to the controller. The answer does not matter: it may be an
exception thrown after the call. -/
def Application.serve (app : Application V) (P : PathEquality) (request : RequestMessage V)
    (point : HandlerPoint V) (c : LuaDebugSessionController) : LuaDebugSessionController :=
  match point with
  | .controller .configureLaunch => c.configureLaunch.getD c
  | .controller .configureAttach => c.configureAttach.getD c
  | .controller .setBreakpoints =>
    match app.castSetBreakpoints request.arguments with
    | some arg => (c.setBreakpoints P arg).2
    | none => c
  | .controller .setFunctionBreakpoints =>
    match app.castSetFunctionBreakpoints request.arguments with
    | some arg => (c.setFunctionBreakpoints arg).2
    | none => c
  | .disconnectController => if app.disablesOnDisconnect then c.disableDebug else c.disconnect
  | _ => c

/-- Where the Lua thread stands in `ExecuteDebugger`. -/
inductive HookPoint (ν : Type*) where
  | outside
  /-- There is an event to stop at, and the session is about to be acquired. -/
  | acquire (l : LuaState ν) (stoppedEvent : StoppedEventBody)
  /-- In `StopExecution`, with a reference to the session. -/
  | stopped (l : LuaState ν)

/-- `if (stoppedEvent)`. -/
def HookPoint.ofStop (l : LuaState ν) : Option StoppedEventBody → HookPoint ν
  | some stoppedEvent => .acquire l stoppedEvent
  | none => .outside

/-- A session that `SpawnClientSession` has created, with the controller it was created for.
`dropped` says that `SpawnClientSession` holds the session no more, and `assertFailed` that
`Assert(session)` has failed. -/
structure SessionLifetime (V ν : Type*) where
  session : DebugSession V
  controller : LuaDebugSessionController
  hook : HookPoint ν := .outside
  dropped : Bool := false
  assertFailed : Bool := false

namespace SessionLifetime

open LuaDebugSessionController (MakesStep created_eq_none)

variable {rt : Runtime} {app : Application V} {s s' t : SessionLifetime V ν}

/-- `_sessionRef.acquire()`. -/
def acquire (s : SessionLifetime V ν) : Option Nat :=
  match s.dropped, s.hook with
  | true, .outside | true, .acquire _ _ => none
  | _, _ => s.controller.sessionRef

inductive Action (V ν : Type*) where
  | run (input : RunInput V)
  /-- A step inside `StopExecution`; when it returns, the record is as the provider has left it. -/
  | lua (input : LuaInput V) (ar : LuaDebug)
  /-- Lua calls the hook. -/
  | event (x : HookCall ν)
  | acquire
  | enable
  | disable
  /-- `Run` has ended, and with it `SpawnClientSession`. -/
  | drop

/-- `Run` with the controller that it calls. -/
def runStep (rt : Runtime) (app : Application V) (P : PathEquality) (input : RunInput V)
    (s : SessionLifetime V ν) : Option (SessionLifetime V ν) :=
  (s.session.runStep rt input).map fun session =>
    match s.session.run with
    | .handle request _ point =>
      { s with session := session, controller := app.serve P request point s.controller }
    | _ => { s with session := session }

/-- `StopExecution`, and what `ExecuteDebugger` does after it. An exception cannot pass the hook,
which is `noexcept`. -/
def luaStep (rt : Runtime) (input : LuaInput V) (ar : LuaDebug) (s : SessionLifetime V ν) :
    Option (SessionLifetime V ν) :=
  match s.hook, s.session.lua with
  | .stopped l, .leave _ mode =>
    (s.session.luaStep rt input).map fun session => { s with
      session := session
      controller := s.controller.afterStop l ar mode
      hook := .outside }
  | .stopped _, .running => none
  | .stopped _, _ => (s.session.luaStep rt input).map fun session => { s with session := session }
  | _, _ => none

def step (rt : Runtime) (app : Application V) (P : PathEquality) (a : Action V ν)
    (s : SessionLifetime V ν) : Option (SessionLifetime V ν) :=
  if s.assertFailed then none
  else
    match a, s.hook with
    | .run input, _ => if s.dropped then none else s.runStep rt app P input
    | .lua input ar, _ => s.luaStep rt input ar
    | .event x, .outside =>
      (s.controller.beforeStop P x.l x.ar).map fun (stop, _, controller) =>
        { s with controller := controller, hook := .ofStop x.l stop }
    | .acquire, .acquire l stoppedEvent =>
      match s.acquire with
      | none => some { s with assertFailed := true }
      | some _ => (s.session.luaStep rt (.stop stoppedEvent)).map fun session =>
          { s with session := session, hook := .stopped l }
    | .enable, _ =>
      if s.acquire.isSome then some { s with controller := s.controller.enableDebug } else none
    | .disable, _ => some { s with controller := s.controller.disableDebug }
    | .drop, _ =>
      match s.session.run with
      | .finished _ => if s.dropped then none else some { s with dropped := true }
      | _ => none
    | _, _ => none

/-- A session from the moment that `Run` has introduced itself to the controller, which may have
served other sessions before. The application enables debugging while the session exists. -/
def system (V ν : Type*) (rt : Runtime) (app : Application V) (P : PathEquality) :
    System (SessionLifetime V ν) (Action V ν) where
  init s := ∃ t, (Stepping.system ν P).Reachable t ∧
    s = { session := { run := .receive }, controller := t.controller.setSession 0 }
  step := step rt app P

/-- When the last reference to the session goes, the controller is quiet: as `SpawnClientSession`
ends outside a stop, or as a stop is left after that. -/
def DropSafe (s : SessionLifetime V ν) : Action V ν → Prop
  | .drop =>
    match s.hook with
    | .outside => s.controller.Quiet
    | .acquire _ _ => False
    | .stopped _ => True
  | .lua _ _ =>
    match s.hook, s.session.lua with
    | .stopped l, .leave _ mode => s.dropped = true → s.controller.isActive = false ∨
        (s.controller.NoBreakpoints ∧ s.controller.debugStepPredicate = none ∧ ¬ MakesStep l mode)
    | _, _ => True
  | _ => True

/-! ## The invariant -/

/-- The controller is sound and has a reference to the session, and outside a stop the session's
Lua thread runs. -/
structure Attached (P : PathEquality) (s : SessionLifetime V ν) : Prop where
  sound : s.controller.Sound P
  ref : s.controller.sessionRef.isSome
  running : (∀ l, s.hook ≠ .stopped l) → s.session.lua = .running

theorem sound_serve {c : LuaDebugSessionController} (h : c.Sound P) (app : Application V)
    (request : RequestMessage V) (point : HandlerPoint V) :
    (app.serve P request point c).Sound P ∧
      (app.serve P request point c).sessionRef = c.sessionRef := by
  have hcall : ∀ call : BreakpointCall, (c.call P call).2.Sound P ∧
      (c.call P call).2.sessionRef = c.sessionRef := by
    intro call
    refine ⟨h.call call, ?_⟩
    obtain ⟨_, _, _, _, _, heq⟩ := LuaDebugSessionController.call_eq P c call
    rw [heq]
  have hmode : ∀ mode, LuaDebugSessionController.Sound P { c with startMode := mode } := fun _ =>
    ⟨⟨h.wellFormed.id_le, h.wellFormed.ids, h.wellFormed.sources, h.wellFormed.resolves⟩, h.outward⟩
  cases point with
  | controller call =>
    cases call with
    | configureLaunch | configureAttach =>
      simp only [Application.serve, LuaDebugSessionController.configureLaunch,
        LuaDebugSessionController.configureAttach]
      split_ifs
      · exact ⟨hmode _, rfl⟩
      · exact ⟨h, rfl⟩
    | setBreakpoints =>
      simp only [Application.serve]
      split
      · exact hcall (.source _)
      · exact ⟨h, rfl⟩
    | setFunctionBreakpoints =>
      simp only [Application.serve]
      split
      · exact hcall (.function _)
      · exact ⟨h, rfl⟩
    | _ => exact ⟨h, rfl⟩
  | disconnectController =>
    simp only [Application.serve]
    split_ifs
    · exact ⟨h.activity false, rfl⟩
    · exact ⟨h, rfl⟩
  | _ => exact ⟨h, rfl⟩

/-- The steps, as a relation: one constructor for each way on. -/
inductive Step (rt : Runtime) (app : Application V) (P : PathEquality) (s : SessionLifetime V ν) :
    Action V ν → SessionLifetime V ν → Prop
  | serve {input request response point session} (hd : s.dropped = false)
      (hr : s.session.run = .handle request response point)
      (hs : s.session.runStep rt input = some session) :
      Step rt app P s (.run input)
        { s with session := session, controller := app.serve P request point s.controller }
  | run {input session} (hd : s.dropped = false) (hs : s.session.runStep rt input = some session) :
      Step rt app P s (.run input) { s with session := session }
  | leave {input ar l k mode session} (hh : s.hook = .stopped l)
      (hl : s.session.lua = .leave k mode) (hs : s.session.luaStep rt input = some session) :
      Step rt app P s (.lua input ar) { s with
        session := session, controller := s.controller.afterStop l ar mode, hook := .outside }
  | lua {input ar l session} (hh : s.hook = .stopped l)
      (hs : s.session.luaStep rt input = some session) :
      Step rt app P s (.lua input ar) { s with session := session }
  | event {x stop ar c} (hh : s.hook = .outside)
      (hb : s.controller.beforeStop P x.l x.ar = some (stop, ar, c)) :
      Step rt app P s (.event x) { s with controller := c, hook := .ofStop x.l stop }
  | fail {l stoppedEvent} (hh : s.hook = .acquire l stoppedEvent) (ha : s.acquire = none) :
      Step rt app P s .acquire { s with assertFailed := true }
  | acquire {l stoppedEvent k session} (hh : s.hook = .acquire l stoppedEvent)
      (ha : s.acquire = some k) (hs : s.session.luaStep rt (.stop stoppedEvent) = some session) :
      Step rt app P s .acquire { s with session := session, hook := .stopped l }
  | enable (ha : s.acquire.isSome) :
      Step rt app P s .enable { s with controller := s.controller.enableDebug }
  | disable : Step rt app P s .disable { s with controller := s.controller.disableDebug }
  | drop {exit} (hr : s.session.run = .finished exit) (hd : s.dropped = false) :
      Step rt app P s .drop { s with dropped := true }

theorem step_cases {a : Action V ν} (h : (system V ν rt app P).step a s = some s') :
    s.assertFailed = false ∧ Step rt app P s a s' := by
  simp only [system, step] at h
  by_cases hf : s.assertFailed = true
  · simp [hf] at h
  rw [if_neg hf] at h
  refine ⟨by simpa using hf, ?_⟩
  split at h
  · split_ifs at h with hd
    have hd' : s.dropped = false := by simpa using hd
    obtain ⟨session, hs, rfl⟩ := Option.map_eq_some_iff.1 h
    split
    · exact .serve hd' ‹_› hs
    · exact .run hd' hs
  · unfold luaStep at h
    split at h
    · obtain ⟨session, hs, rfl⟩ := Option.map_eq_some_iff.1 h
      exact .leave ‹_› ‹_› hs
    · cases h
    · obtain ⟨session, hs, rfl⟩ := Option.map_eq_some_iff.1 h
      exact .lua ‹_› hs
    · cases h
  · obtain ⟨⟨stop, ar, c⟩, hb, rfl⟩ := Option.map_eq_some_iff.1 h
    exact .event ‹_› hb
  · split at h
    · cases h
      exact .fail ‹_› ‹_›
    · obtain ⟨session, hs, rfl⟩ := Option.map_eq_some_iff.1 h
      exact .acquire ‹_› ‹_› hs
  · split_ifs at h with ha
    cases h
    exact .enable ha
  · cases h
    exact .disable
  · split at h
    · split_ifs at h with hd
      cases h
      exact .drop ‹_› (by simpa using hd)
    · cases h
  · cases h

/-- What a step does to the session. -/
def sessionMove (s : SessionLifetime V ν) : Action V ν → Option (DebugSession.Action V)
  | .run input => some (.run input)
  | .lua input _ => some (.lua input)
  | .acquire =>
    match s.hook, s.acquire with
    | .acquire _ stoppedEvent, some _ => some (.lua (.stop stoppedEvent))
    | _, _ => none
  | _ => none

theorem eq_of_sessionMove_run {a : Action V ν} {input : RunInput V}
    (h : s.sessionMove a = some (.run input)) : a = .run input := by
  cases a with
  | run => cases h; rfl
  | acquire =>
    simp only [sessionMove] at h
    split at h <;> cases h
  | _ => cases h

theorem eq_of_sessionMove_answer {a : Action V ν} {result : Except String V}
    (h : s.sessionMove a = some (.lua (.answer result))) : ∃ ar, a = .lua (.answer result) ar := by
  cases a with
  | lua input ar => cases h; exact ⟨ar, rfl⟩
  | acquire =>
    simp only [sessionMove] at h
    split at h <;> cases h
  | _ => cases h

/-- The session moves as a session does. -/
theorem projects_session (V ν : Type*) (rt : Runtime) (app : Application V) (P : PathEquality) :
    (system V ν rt app P).Projects (DebugSession.system V rt) session sessionMove where
  moves := by
    intro s a s' b hstep hm
    cases (step_cases hstep).2 with
    | serve _ _ hs | run _ hs | leave _ _ hs | lua _ hs =>
      cases hm
      exact hs
    | fail hh ha => simp [sessionMove, hh, ha] at hm
    | acquire hh ha hs =>
      simp only [sessionMove, hh, ha, Option.some.injEq] at hm
      rwa [← hm]
    | event | enable | disable | drop => cases hm
  rests := by
    intro s a s' hstep hm
    cases (step_cases hstep).2 with
    | serve | run | leave | lua => cases hm
    | acquire hh ha hs => simp [sessionMove, hh, ha] at hm
    | event | fail | enable | disable | drop => rfl

theorem init_session (h : (system V ν rt app P).init s) : s.session = { run := .receive } := by
  obtain ⟨t, -, rfl⟩ := h
  rfl

/-- `Run` has introduced itself to the controller. -/
theorem reachable_session (h : (system V ν rt app P).Reachable s) :
    (DebugSession.system V rt).Reachable s.session := by
  refine (projects_session V ν rt app P).reachable (fun s hs => ?_) h
  rw [init_session hs]
  exact System.Reachable.of_exec [.run .step] rfl rfl

variable (app P) in
/-- In a stop the Lua thread goes on, and leaves it only with `StopExecution`. -/
theorem exists_step_lua (hf : s.assertFailed = false) {l : LuaState ν} (hh : s.hook = .stopped l)
    {session : DebugSession V} (hs : s.session.luaStep rt .step = some session) (ar : LuaDebug) :
    ∃ s', (system V ν rt app P).step (.lua .step ar) s = some s' ∧ s'.session = session ∧
      s'.dropped = s.dropped ∧ s'.assertFailed = s.assertFailed ∧
      (session.lua ≠ .running → s'.hook = .stopped l) := by
  cases hl : s.session.lua with
  | leave k mode =>
    refine ⟨{ s with
      session := session, controller := s.controller.afterStop l ar mode, hook := .outside },
      by simp [system, step, hf, luaStep, hh, hl, hs], rfl, rfl, rfl, fun hlua => ?_⟩
    have hleave : s.session.luaStep rt .step = some s.session.scopeLeave := by
      simp [DebugSession.luaStep, hl]
    obtain rfl := Option.some.inj (hleave.symm.trans hs)
    exact absurd rfl hlua
  | running => simp [DebugSession.luaStep, hl] at hs
  | _ =>
    exact ⟨{ s with session := session }, by simp [system, step, hf, luaStep, hh, hl, hs], rfl, rfl,
      rfl, fun _ => hh⟩

theorem acquire_eq_none (href : s.controller.sessionRef.isSome) (h : s.acquire = none) :
    s.dropped = true ∧ ∀ l, s.hook ≠ .stopped l := by
  unfold acquire at h
  split at h
  · rename_i hd hh
    exact ⟨hd, fun l hl => by simp [hh] at hl⟩
  · rename_i hd hh
    exact ⟨hd, fun l hl => by simp [hh] at hl⟩
  · rw [h] at href
    cases href

theorem stopped_of_acquire (ha : s.acquire.isSome) (hd : s.dropped = true) :
    ∃ l, s.hook = .stopped l := by
  unfold acquire at ha
  cases hh : s.hook with
  | outside => simp [hd, hh] at ha
  | acquire l stoppedEvent => simp [hd, hh] at ha
  | stopped l => exact ⟨l, rfl⟩

theorem attached_step {a : Action V ν} (h : Attached P s) (hs : Step rt app P s a s') :
    Attached P s' := by
  cases hs with
  | serve hd hr hs =>
    obtain ⟨hsound, href⟩ := sound_serve h.sound app _ _
    refine ⟨hsound, href ▸ h.ref, fun hh => ?_⟩
    exact (DebugSession.runStep_shared (DebugSession.runStep_iff.1 hs)).1.trans (h.running hh)
  | run hd hs =>
    refine ⟨h.sound, h.ref, fun hh => ?_⟩
    exact (DebugSession.runStep_shared (DebugSession.runStep_iff.1 hs)).1.trans (h.running hh)
  | @leave input ar l k mode session hh hl hs =>
    refine ⟨h.sound.afterStop l ar mode, ?_, fun _ => ?_⟩
    · rw [LuaDebugSessionController.afterStop_eq]
      exact h.ref
    · cases input <;> simp only [DebugSession.luaStep, hl, Option.some.injEq, reduceCtorEq] at hs
      rw [← hs]
      rfl
  | lua hh hs => exact ⟨h.sound, h.ref, fun hne => absurd hh (hne _)⟩
  | @event x stop ar c hh hb =>
    have hstep := LuaDebugSessionController.beforeStop_cases hb
    refine ⟨h.sound.beforeStop hstep, ?_, fun _ => h.running fun l hl => by simp [hh] at hl⟩
    cases hstep <;> exact h.ref
  | fail hh ha => exact ⟨h.sound, h.ref, h.running⟩
  | acquire hh ha hs => exact ⟨h.sound, h.ref, fun hne => absurd rfl (hne _)⟩
  | enable ha => exact ⟨h.sound.activity true, h.ref, h.running⟩
  | disable => exact ⟨h.sound.activity false, h.ref, h.running⟩
  | drop hr hd => exact ⟨h.sound, h.ref, h.running⟩

theorem attached_of_init (h : (system V ν rt app P).init s) : Attached P s := by
  obtain ⟨t, ht, rfl⟩ := h
  have hsound := Stepping.sound_of_reachable ht
  refine ⟨⟨⟨?_, ?_, ?_, ?_⟩, hsound.outward⟩, rfl, fun _ => rfl⟩
  · exact hsound.wellFormed.id_le
  · exact hsound.wellFormed.ids
  · exact hsound.wellFormed.sources
  · exact hsound.wellFormed.resolves

theorem attached_of_reachable (h : (system V ν rt app P).Reachable s) : Attached P s := by
  apply h.invariant (I := Attached P)
  · exact fun s hs => attached_of_init hs
  · exact fun s a s' hi hstep => attached_step hi (step_cases hstep).2

theorem quiet_afterStop {c : LuaDebugSessionController} (l : LuaState ν) (ar : LuaDebug)
    (mode : ContinueExecutionMode) : (c.afterStop l ar mode).Quiet ↔ c.isActive = false ∨
      (c.NoBreakpoints ∧ c.debugStepPredicate = none ∧ ¬ MakesStep l mode) := by
  rw [LuaDebugSessionController.afterStop_eq, ← created_eq_none]
  simp only [LuaDebugSessionController.Quiet, LuaDebugSessionController.NoBreakpoints,
    Option.or_eq_none_iff]
  tauto

/-- Once the session is gone the controller is quiet, and no stop waits for the session. -/
structure Sheltered (P : PathEquality) (s : SessionLifetime V ν) : Prop where
  attached : Attached P s
  quiet : s.dropped = true → s.hook = .outside → s.controller.Quiet
  held : s.dropped = true → ∀ l stoppedEvent, s.hook ≠ .acquire l stoppedEvent
  acquired : s.assertFailed = false

theorem sheltered_step {a : Action V ν} (h : Sheltered P s) (hsafe : DropSafe s a)
    (hf : s.assertFailed = false) (hs : Step rt app P s a s') : Sheltered P s' := by
  have hattached := attached_step h.attached hs
  cases hs with
  | serve hd hr hs =>
    exact ⟨hattached, fun hd' => by simp [hd] at hd', fun hd' => by simp [hd] at hd', hf⟩
  | run hd hs =>
    exact ⟨hattached, fun hd' => by simp [hd] at hd', fun hd' => by simp [hd] at hd', hf⟩
  | @leave input ar l k mode session hh hl hs =>
    refine ⟨hattached, fun hd _ => ?_, fun _ _ _ => nofun, hf⟩
    simp only [DropSafe, hh, hl] at hsafe
    exact (quiet_afterStop l ar mode).2 (hsafe hd)
  | lua hh hs =>
    exact ⟨hattached, fun hd hout => by simp [hh] at hout,
      fun hd l ev hacq => by simp [hh] at hacq, hf⟩
  | @event x stop ar c hh hb =>
    have hquiet : s.dropped = true → stop = none ∧ c = s.controller := by
      intro hd
      obtain ⟨ar', hnone⟩ := (h.quiet hd hh).beforeStop h.attached.sound.wellFormed x
      rw [hb] at hnone
      simp only [Option.some.injEq, Prod.mk.injEq] at hnone
      exact ⟨hnone.1, hnone.2.2⟩
    refine ⟨hattached, fun hd _ => ?_, fun hd l ev hacq => ?_, hf⟩
    · obtain ⟨-, rfl⟩ := hquiet hd
      exact h.quiet hd hh
    · obtain ⟨rfl, -⟩ := hquiet hd
      cases hacq
  | fail hh ha => exact absurd hh (h.held (acquire_eq_none h.attached.ref ha).1 _ _)
  | acquire hh ha hs => exact ⟨hattached, fun _ => nofun, fun _ _ _ => nofun, hf⟩
  | enable ha =>
    refine ⟨hattached, fun hd hout => ?_, h.held, hf⟩
    obtain ⟨l, hl⟩ := stopped_of_acquire ha hd
    rw [hl] at hout
    cases hout
  | disable => exact ⟨hattached, fun _ _ => .inl rfl, h.held, hf⟩
  | drop hr hd =>
    refine ⟨hattached, fun _ hout => ?_, fun _ l ev hacq => ?_, hf⟩
    · have hh : s.hook = .outside := hout
      simpa only [DropSafe, hh] using hsafe
    · have hh : s.hook = .acquire l ev := hacq
      simp only [DropSafe, hh] at hsafe

theorem sheltered_of_reaches (h : (system V ν rt app P).Reaches DropSafe s) : Sheltered P s := by
  apply h.invariant (I := Sheltered P)
  · intro s hs
    have hattached := attached_of_init hs
    obtain ⟨t, ht, rfl⟩ := hs
    exact ⟨hattached, nofun, nofun, rfl⟩
  · intro s a s' hi hsafe hstep
    exact sheltered_step hi hsafe (step_cases hstep).1 (step_cases hstep).2

/-! ## A controller that goes on -/

variable (rt app) in
/-- The session is gone before the hook has acquired it. -/
theorem fails_of_acquire (hf : s.assertFailed = false) (hd : s.dropped = true) {l : LuaState ν}
    {stoppedEvent : StoppedEventBody} (hh : s.hook = .acquire l stoppedEvent) :
    ∃ t, (system V ν rt app P).Run (fun _ _ => True) s t ∧ t.assertFailed = true := by
  have hnone : s.acquire = none := by simp [SessionLifetime.acquire, hd, hh]
  have hstep : (system V ν rt app P).step .acquire s = some { s with assertFailed := true } := by
    simp [system, step, hf, hh, hnone]
  exact ⟨_, .single trivial hstep, rfl⟩

variable (rt app) in
/-- The session is gone, and the controller stops at the next event. -/
theorem fails_of_not_quiet (h : s.controller.Sound P) (hf : s.assertFailed = false)
    (hd : s.dropped = true) (hh : s.hook = .outside) (hq : ¬ s.controller.Quiet) :
    ∃ t, (system V ν rt app P).Run (fun _ _ => True) s t ∧ t.assertFailed = true := by
  obtain ⟨x, stoppedEvent, ar, c, hb⟩ := h.stops_of_not_quiet ν hq
  have hstep : (system V ν rt app P).step (.event x) s =
      some { s with controller := c, hook := .acquire x.l stoppedEvent } := by
    simp [system, step, hf, hh, hb, HookPoint.ofStop]
  obtain ⟨t, hrun, ht⟩ := fails_of_acquire rt app
    (s := { s with controller := c, hook := .acquire x.l stoppedEvent }) hf hd rfl
  exact ⟨t, .head trivial hstep hrun, ht⟩

/-- **The hook and the end of the session.** In runs where the controller is quiet when the last
reference to the session goes, the assertion never fails, and from then on no event makes the
controller stop; after a step that drops the last reference otherwise, the assertion may fail. -/
theorem acquired_of_reaches (V ν : Type*) (rt : Runtime) (app : Application V) (P : PathEquality) :
    (∀ s, (system V ν rt app P).Reaches DropSafe s → s.assertFailed = false ∧
      (s.dropped = true → s.hook = .outside → ∀ x : HookCall ν,
        ∃ ar, s.controller.beforeStop P x.l x.ar = some (none, ar, s.controller))) ∧
      ∀ s a s', (system V ν rt app P).Reachable s → (system V ν rt app P).step a s = some s' →
        ¬ DropSafe s a →
          ∃ t, (system V ν rt app P).Run (fun _ _ => True) s' t ∧ t.assertFailed = true := by
  refine ⟨fun s h => ?_, fun s a s' h hstep hbad => ?_⟩
  · have hs := sheltered_of_reaches h
    exact ⟨hs.acquired, fun hd hh x => (hs.quiet hd hh).beforeStop hs.attached.sound.wellFormed x⟩
  · have hattached := attached_of_reachable (h.step hstep)
    obtain ⟨hf, hs⟩ := step_cases hstep
    cases hs with
    | @leave input ar l k mode session hh hl hs =>
      simp only [DropSafe, hh, hl, Classical.not_imp] at hbad
      obtain ⟨hd, hquiet⟩ := hbad
      apply fails_of_not_quiet rt app hattached.sound hf hd rfl
      exact fun hq => hquiet ((quiet_afterStop l ar mode).1 hq)
    | @lua input ar l session hh hs =>
      cases hl : s.session.lua with
      | leave k mode =>
        -- The step is the one that leaves the stop.
        simp only [system, step, hf, luaStep, hh, hl, hs, Bool.false_eq_true, if_false,
          Option.map_some, Option.some.injEq] at hstep
        exact absurd (congrArg SessionLifetime.hook hstep) (by simp)
      | _ => simp [DropSafe, hh, hl] at hbad
    | @drop exit hr hd =>
      cases hh : s.hook with
      | outside =>
        simp only [DropSafe, hh] at hbad
        exact fails_of_not_quiet rt app hattached.sound hf rfl rfl hbad
      | acquire l stoppedEvent => exact fails_of_acquire rt app hf rfl rfl
      | stopped l => simp [DropSafe, hh] at hbad
    | _ => exact absurd trivial hbad

/-- The casts find a breakpoint on the first line of the main file. -/
def plainApplication (disablesOnDisconnect : Bool) : Application Unit where
  castSetBreakpoints _ := some ⟨⟨"@main.lua"⟩, [⟨1⟩]⟩
  castSetFunctionBreakpoints _ := none
  disablesOnDisconnect := disablesOnDisconnect

/-- `Run` receives a request and handles it, up to the call of the controller. -/
def request (seq : UInt32) (command : String) : List (Action Unit Unit) :=
  [.run (.message (.ok (some ⟨.ok "request", .ok ⟨seq, command, ()⟩⟩))), .run .step]

/-- The controller has answered, and `Run` sends the response. -/
def respond : List (Action Unit Unit) :=
  [.run (.controller (.ok ())), .run .step, .run (.sent (.ok ())), .run .step]

/-- The application enables debugging, the client sets a breakpoint and closes the connection, and
the Lua thread comes to the breakpoint. -/
def lostConnection : List (Action Unit Unit) :=
  [.enable] ++ request 1 "setBreakpoints" ++ respond ++
    [.run (.message (.ok none)), .drop, .event (Stepping.mainLine 1), .acquire]

/-- The client disconnects instead. -/
def disconnected : List (Action Unit Unit) :=
  [.enable] ++ request 1 "setBreakpoints" ++ respond ++ request 2 "disconnect" ++
    [.run .step, .run .step] ++ respond ++ [.drop, .event (Stepping.mainLine 1), .acquire]

/-- The assertion fails after the end of the stream, whatever `Disconnect` does, and with the
`Disconnect` of the class also after a disconnect. -/
theorem expired_reachable :
    (∀ disables, ¬ ∀ s, (system Unit Unit DebugSession.plainRuntime (plainApplication disables)
      Stepping.exactPaths).Reachable s → s.assertFailed = false) ∧
    ∃ s, (system Unit Unit DebugSession.plainRuntime (plainApplication false)
      Stepping.exactPaths).Reachable s ∧ s.session.run = .finished .closed ∧
        s.assertFailed = true := by
  have hinit : ∀ disables, (system Unit Unit DebugSession.plainRuntime (plainApplication disables)
      Stepping.exactPaths).init
        { session := { run := .receive }, controller := { sessionRef := some 0 } } :=
    fun _ => ⟨{}, .init rfl, rfl⟩
  refine ⟨fun disables h => ?_, ?_⟩
  · cases disables with
    | false =>
      exact absurd (h _ (System.Reachable.of_exec lostConnection (hinit false) rfl)) (by decide)
    | true =>
      exact absurd (h _ (System.Reachable.of_exec lostConnection (hinit true) rfl)) (by decide)
  · exact ⟨_, System.Reachable.of_exec disconnected (hinit false) rfl, rfl, rfl⟩

end SessionLifetime

end LuaToolkit
