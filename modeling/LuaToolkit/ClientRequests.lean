import LuaToolkit.DebugSessionPairing
import LuaToolkit.Debugger

/-!
# What clients may ask for

The client chooses the order of its requests and the ids in them. The handlers assert that there
is a stop, that it has not been resumed, that the start mode is still or no longer unknown, and
the provider that it has issued an id. No other code turns such requests away.

* `Unfailing` — no assertion is about to fail, and no absent optional about to be read.
* `RequestSafe` — the client asks for what the state it finds allows, with ids it was given.
* `unfailing_of_reaches` — this is enough, whatever the Lua thread does between the arrival of a
  request and the assertions.
-/

namespace LuaToolkit

open Dap Transition
open DebugSession (AssertFails Derefs Holding Matched Pairing PairSafe RunStep LuaStep Entry)
open LuaStackTraceProvider (Tree Extends)

variable {V : Type*} {N : Type}

/-! ## The start mode -/

/-- What the handler of a request asserts about the start mode. -/
def LuaDebugSessionController.Admits (c : LuaDebugSessionController) : ControllerCall → Prop
  | .configureLaunch => c.configureLaunch.isSome
  | .configureAttach => c.configureAttach.isSome
  | .configurationDone => c.configurationDone.isSome
  | _ => True

namespace LuaDebugSessionController

variable {c c' : LuaDebugSessionController}

theorem admits_iff {call : ControllerCall} : c.Admits call ↔
    match call with
    | .configureLaunch | .configureAttach => c.startMode = .unknown
    | .configurationDone => c.startMode ≠ .unknown
    | _ => True := by
  cases call <;> simp [Admits, configureLaunch, configureAttach, configurationDone]

theorem Admits.congr {call : ControllerCall} (h : c.Admits call)
    (hmode : c'.startMode = c.startMode) : c'.Admits call := by
  rw [admits_iff] at h ⊢
  rwa [hmode]

end LuaDebugSessionController

namespace Debugger

/-! ## The property and the condition -/

/-- A request suits the state of the session and the controller as its handler begins. -/
def Suits (d : Debugger V N) : HandlerPoint V → Prop
  | .inspectAssert _ | .resumeAssertStopped _ =>
    ∃ k, d.lifetime.session.stoppedState = some ⟨k, none⟩
  | .disconnectClose => ∀ st, d.lifetime.session.stoppedState = some st → st.continueMode = none
  | .controller .configureLaunch | .controller .configureAttach =>
    d.lifetime.controller.startMode = .unknown
  | .controller .configurationDone => d.lifetime.controller.startMode ≠ .unknown
  | _ => True

/-- A request that arrives suits the state, and its arguments have ids of the provider. -/
def RequestSafe (rt : Runtime) (args : InspectionArguments V) (d : Debugger V N) :
    Action V N → Prop
  | .other (.run .step) =>
    ∀ q, d.lifetime.session.run = .request q → d.Suits (rt.dispatch q.command)
  | .other (.run (.cast (.ok arguments))) => ∀ q r i,
    d.lifetime.session.run = .handle q r (.inspectCast i) →
      d.provider.Issued (args.request ⟨i, arguments⟩)
  | _ => True

/-! ## The invariant -/

/-- What a handler relies on before its assertion, or before its invocation is queued. -/
def Ready (args : InspectionArguments V) (d : Debugger V N) : HandlerPoint V → Prop
  | .inspectAssert _ | .resumeAssertStopped _ => ∃ k, Holding d.lifetime.session k none
  | .disconnectClose | .disconnectTest =>
    ∀ st, d.lifetime.session.stoppedState = some st → st.continueMode = none
  | .controller call => d.lifetime.controller.Admits call
  | .inspectSchedule invocation => d.provider.Issued (args.request invocation)
  | _ => True

variable {rt : Runtime} {app : Application V} {P : PathEquality} {args : InspectionArguments V}
  {d d' : Debugger V N}

theorem Ready.pairSafe {input : RunInput V}
    (h : ∀ q r p, d.lifetime.session.run = .handle q r p → Ready args d p) :
    PairSafe d.lifetime.session (.run input) := by
  intro q r p st hr hst hp
  have hready := h q r p hr
  rcases hp with rfl | ⟨i, rfl⟩ | ⟨mode, rfl⟩
  · exact hready st hst
  · obtain ⟨k, -, hst', -⟩ := hready
    cases hst.symm.trans hst'
    rfl
  · obtain ⟨k, -, hst', -⟩ := hready
    cases hst.symm.trans hst'
    rfl

/-- A handler begins in a state that its request suits. -/
theorem ready_dispatch {g : Pairing V} (hm : Matched rt d.lifetime.session g)
    {p : HandlerPoint V} (hp : Entry p) (hsuits : d.Suits p) : Ready args d p := by
  cases hp with
  | controller call =>
    have hadmits : d.lifetime.controller.Admits call := by
      rw [LuaDebugSessionController.admits_iff]
      cases call <;> exact hsuits
    exact hadmits
  | disconnect => exact hsuits
  | inspect | resume =>
    obtain ⟨k, hst⟩ := hsuits
    exact ⟨k, hm.holding hst rfl⟩
  | none => trivial

variable [DecidableEq N] [LuaNumber N]

/-- The invariant of runs in which the requests are safe. -/
structure Guarded (rt : Runtime) (P : PathEquality) (args : InspectionArguments V)
    (d : Debugger V N) : Prop where
  attached : SessionLifetime.Attached P d.lifetime
  ended : d.lifetime.assertFailed = true → d.lifetime.dropped = true
  matched : ∃ g, Matched rt d.lifetime.session g
  ready : ∀ q r p, d.lifetime.session.run = .handle q r p → Ready args d p
  issued : ∀ k, d.lifetime.session.lua.scheduler? = some k →
    ∀ invocation ∈ (d.lifetime.session.schedulers k).outstanding,
      d.provider.Issued (args.request invocation)
  tree : ∀ l, d.lifetime.hook = .stopped l → Tree d.heap l d.provider

/-! ## Steps of the Lua thread -/

theorem Guarded.ready_lua {i : LuaInput V} (h : Guarded rt P args d)
    (hs : LuaStep rt d.lifetime.session i d'.lifetime.session)
    (hmode : d'.lifetime.controller.startMode = d.lifetime.controller.startMode)
    (hext : ∀ k, d.lifetime.session.lua.scheduler? = some k → Extends d.provider d'.provider)
    {q : RequestMessage V} {r : ResponseMessage V} {p : HandlerPoint V}
    (hr : d'.lifetime.session.run = .handle q r p) : Ready args d' p := by
  rw [(DebugSession.luaStep_run hs).1] at hr
  obtain ⟨g, hm⟩ := h.matched
  have hready := h.ready q r p hr
  cases p with
  | inspectAssert | resumeAssertStopped =>
    obtain ⟨k, hk⟩ := hready
    exact ⟨k, DebugSession.holding_lua hm.tended.isClosed_of_left hs hk⟩
  | disconnectClose | disconnectTest =>
    intro st hst
    rcases DebugSession.luaStep_shared hs with hnone | ⟨k, hnew, -⟩ | ⟨hsame, -⟩
    · rw [hnone] at hst
      cases hst
    · rw [hnew] at hst
      cases hst
      rfl
    · exact hready st (hsame ▸ hst)
  | controller call => exact LuaDebugSessionController.Admits.congr hready hmode
  | inspectSchedule invocation =>
    -- The stop is the one that the request was checked in.
    obtain ⟨k, ⟨hk, -⟩, -⟩ := hm.relies q r _ hr
    exact hready.mono (hext k hk)
  | _ => trivial

theorem Guarded.issued_lua {i : LuaInput V} (h : Guarded rt P args d)
    (hs : LuaStep rt d.lifetime.session i d'.lifetime.session)
    (hext : ∀ k, d.lifetime.session.lua.scheduler? = some k → Extends d.provider d'.provider)
    {k : Nat} (hk : d'.lifetime.session.lua.scheduler? = some k) {invocation : Invocation V}
    (hi : invocation ∈ (d'.lifetime.session.schedulers k).outstanding) :
    d'.provider.Issued (args.request invocation) := by
  rcases DebugSession.outstanding_lua hs hk with hnil | ⟨hk', hsub⟩
  · rw [hnil] at hi
    cases hi
  · exact (h.issued k hk' invocation (hsub hi)).mono (hext k hk')

theorem Guarded.lua {i : LuaInput V} (h : Guarded rt P args d)
    (hs : LuaStep rt d.lifetime.session i d'.lifetime.session)
    (hmode : d'.lifetime.controller.startMode = d.lifetime.controller.startMode)
    (hext : ∀ k, d.lifetime.session.lua.scheduler? = some k → Extends d.provider d'.provider)
    (hattached : SessionLifetime.Attached P d'.lifetime)
    (hended : d'.lifetime.assertFailed = true → d'.lifetime.dropped = true)
    (htree : ∀ l, d'.lifetime.hook = .stopped l → Tree d'.heap l d'.provider) :
    Guarded rt P args d' where
  attached := hattached
  ended := hended
  matched := h.matched.imp fun _ hm => DebugSession.matched_lua hm hs
  ready _ _ _ := h.ready_lua hs hmode hext
  issued _ hk _ := h.issued_lua hs hext hk
  tree := htree

/-- A step that is none of the session. -/
theorem Guarded.idle (h : Guarded rt P args d)
    (hsession : d'.lifetime.session = d.lifetime.session)
    (hmode : d'.lifetime.controller.startMode = d.lifetime.controller.startMode)
    (hext : ∀ k, d.lifetime.session.lua.scheduler? = some k → Extends d.provider d'.provider)
    (hattached : SessionLifetime.Attached P d'.lifetime)
    (hended : d'.lifetime.assertFailed = true → d'.lifetime.dropped = true)
    (htree : ∀ l, d'.lifetime.hook = .stopped l → Tree d'.heap l d'.provider) :
    Guarded rt P args d' where
  attached := hattached
  ended := hended
  matched := hsession.symm ▸ h.matched
  ready q r p hr := by
    rw [hsession] at hr
    have hready := h.ready q r p hr
    cases p with
    | controller call => exact LuaDebugSessionController.Admits.congr hready hmode
    | inspectAssert | resumeAssertStopped | disconnectClose | disconnectTest =>
      unfold Ready
      rw [hsession]
      exact hready
    | inspectSchedule invocation =>
      obtain ⟨g, hm⟩ := h.matched
      obtain ⟨k, ⟨hk, -⟩, -⟩ := hm.relies q r _ hr
      exact hready.mono (hext k hk)
    | _ => trivial
  issued k hk invocation hi := by
    rw [hsession] at hk hi
    exact (h.issued k hk invocation hi).mono (hext k hk)
  tree := htree

/-! ## Steps of `Run` -/

/-- A handler stays ready until its assertions. -/
theorem Guarded.ready_run {input : RunInput V} {session : DebugSession V}
    {controller : LuaDebugSessionController} (h : Guarded rt P args d)
    (hok : RequestSafe rt args d (.other (.run input)))
    (hs : RunStep rt d.lifetime.session input session)
    (hcontroller : ∀ q, d.lifetime.session.run = .request q → controller = d.lifetime.controller)
    {q : RequestMessage V} {r : ResponseMessage V} {p : HandlerPoint V}
    (hr' : session.run = .handle q r p) :
    Ready args { d with
      lifetime := { d.lifetime with session := session, controller := controller } } p := by
  obtain ⟨g, hm⟩ := h.matched
  have hm' := DebugSession.matched_run hm (Ready.pairSafe h.ready) hs
  cases hs with
  | handle hr hstep =>
    have hready := h.ready _ _ _ hr
    cases hstep with
    | disconnectClose =>
      cases hr'
      exact hready
    | cast i arguments =>
      cases hr'
      exact hok _ _ i hr
    | assertFails => exact absurd hr' (by simp)
    | controllerThrows | disconnectThrows | castThrows | answerThrows | done | derefs => cases hr'
    | _ =>
      cases hr'
      trivial
  | request hr =>
    cases hr'
    obtain rfl := hcontroller _ hr
    exact ready_dispatch hm' (DebugSession.dispatch_entry _) (hok _ hr)
  | receive hr result => exact absurd hr' (DebugSession.receiveMessage_ne_handle result)
  | _ => cases hr'

theorem Guarded.run {input : RunInput V} {session : DebugSession V}
    {controller : LuaDebugSessionController} (h : Guarded rt P args d)
    (hok : RequestSafe rt args d (.other (.run input)))
    (hs : RunStep rt d.lifetime.session input session)
    (hcontroller : ∀ q, d.lifetime.session.run = .request q → controller = d.lifetime.controller)
    (hattached : SessionLifetime.Attached P
      { d.lifetime with session := session, controller := controller }) :
    Guarded rt P args { d with
      lifetime := { d.lifetime with session := session, controller := controller } } where
  attached := hattached
  ended := h.ended
  matched := by
    obtain ⟨g, hm⟩ := h.matched
    exact ⟨_, DebugSession.matched_run hm (Ready.pairSafe h.ready) hs⟩
  ready _ _ _ := h.ready_run hok hs hcontroller
  issued k hk invocation hi := by
    rcases DebugSession.mem_outstanding_run hs hi with hi | ⟨q, r, hr⟩
    · exact h.issued k ((DebugSession.runStep_shared hs).1 ▸ hk) invocation hi
    · exact h.ready q r _ hr
  tree := h.tree

/-! ## Runs -/

variable (app P args) in
/-- The Lua thread leaves a stop that has been resumed, and the handler goes on without it. -/
theorem run_to_free {g : Pairing V} (hm : Matched rt d.lifetime.session g)
    {l : LuaState (LuaValue N)} (hh : d.lifetime.hook = .stopped l)
    (hf : d.lifetime.assertFailed = false)
    (hstage : ∀ q r p, d.lifetime.session.run = .handle q r p → DebugSession.stage p = none)
    {st : StoppedExecutionState} (hst : d.lifetime.session.stoppedState = some st)
    (hmode : st.continueMode ≠ none) (run : RunPoint V) :
    ∃ t, (system V N rt app P args).Run Alone
        { d with lifetime := { d.lifetime with session := { d.lifetime.session with run := run } } }
        t ∧ t.lifetime.session.run = run ∧ t.lifetime.session.stoppedState = none := by
  obtain ⟨k, mode⟩ := st
  obtain ⟨mode, rfl⟩ := Option.ne_none_iff_exists'.1 hmode
  obtain ⟨session, hrun, hr, hnone⟩ := hm.run_to_free hstage hst run
  obtain ⟨t, hrun', rfl, -⟩ := run_of_luaSilent app P args
    (d := { d with
      lifetime := { d.lifetime with session := { d.lifetime.session with run := run } } })
    hrun hf hh
  exact ⟨t, hrun', hr, hnone⟩

/-- The arguments are those of the first frame and the first variable. -/
def plainArguments : InspectionArguments Unit where
  frameId _ := 1
  variablesArguments _ := { variablesReference := 1 }

end Debugger

end LuaToolkit
