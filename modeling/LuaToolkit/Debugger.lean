import LuaToolkit.SessionLifetime
import LuaToolkit.Variables

/-!
# A session with its controller and its provider

The invocations that the Lua thread runs in a stop are requests to the provider that the hook has
made for this stop. Here the session and the controller run with that provider, and an invocation
is run by a step that the provider takes too.

* `InspectionArguments.request` — what an invocation asks of the provider.
* `LuaStackTraceProvider.Issued` — the ids that the provider has issued; its assertions are about
  nothing else.
* `Debugger.system` — the session, the controller and the provider, with `Step` for the cases.
* `Debugger.run_of_runStep`, `Debugger.run_of_luaSilent` — runs of the two threads of the session
  are runs of the debugger.
-/

namespace LuaToolkit

open Dap Transition
open DebugSession (RunStep)
open LuaStackTraceProvider (Request)

variable {V : Type*} {N : Type}

/-! ## The provider -/

/-- What the provider reads of the arguments of an invocation. -/
structure InspectionArguments (V : Type*) where
  frameId : V → Nat
  variablesArguments : V → VariablesArguments

/-- What an invocation asks of the provider. -/
def InspectionArguments.request (args : InspectionArguments V) (invocation : Invocation V) :
    Request :=
  match invocation.inspection with
  | .stackTrace => .stackTrace
  | .scopes => .scopes (args.frameId invocation.arguments)
  | .variables => .children (args.variablesArguments invocation.arguments)

namespace LuaStackTraceProvider

variable {heap : LuaHeap N} {l : LuaState (LuaValue N)} {p p' : LuaStackTraceProvider}
  {request : Request}

/-- The id in the request is one that the provider has issued. -/
def Issued (p : LuaStackTraceProvider) : Request → Prop
  | .stackTrace => True
  | .scopes frameId => ∃ f ∈ p.stackFrames, f.id = frameId
  | .children arg => ∃ v ∈ p.variableEntries, v.referenceId = arg.variablesReference

/-- The assertion on the id in the request, made before anything else. -/
def asserts (p : LuaStackTraceProvider) : Request → Bool
  | .stackTrace => true
  | .scopes frameId => (p.getStackFrameEntry frameId).isSome
  | .children arg => (p.getVariableEntry arg.variablesReference).isSome

theorem asserts_iff : p.asserts request = true ↔ Issued p request := by
  cases request <;> simp [asserts, Issued, getStackFrameEntry, getVariableEntry]

theorem Issued.mono (h : Issued p request) (hext : Extends p p') : Issued p' request := by
  cases request with
  | stackTrace => trivial
  | scopes frameId =>
    obtain ⟨f, hf, rfl⟩ := h
    obtain ⟨f', hf', hid, -⟩ := hext.frames f hf
    exact ⟨f', hf', hid⟩
  | children arg =>
    obtain ⟨v, hv, hid⟩ := h
    obtain ⟨v', hv', hgrown⟩ := hext.entries v hv
    exact ⟨v', hv', hgrown.referenceId.trans hid⟩

variable [DecidableEq N] [LuaNumber N]

/-- An invocation is run. A failed assertion of the provider ends it with an exception, if that is
what failed assertions do; otherwise it ends the process, and the run with it. -/
def runInvocation {V : Type*} (rt : Runtime) (heap : LuaHeap N) (l : LuaState (LuaValue N))
    (request : Request) (result : Except String V) (p : LuaStackTraceProvider) :
    Option LuaStackTraceProvider :=
  if p.asserts request then (system heap l).step request p
  else
    match rt.failedAssert, result with
    | some _, .error _ => some p
    | _, _ => none

theorem runInvocation_cases {V : Type*} {rt : Runtime} {result : Except String V}
    (h : runInvocation rt heap l request result p = some p') :
    (system heap l).step request p = some p' ∨
      (¬ Issued p request ∧ p' = p ∧ ∃ what, result = .error what) := by
  unfold runInvocation at h
  split_ifs at h with hasserts
  · exact .inl h
  · refine .inr ⟨mt asserts_iff.2 hasserts, ?_⟩
    split at h
    · cases h
      exact ⟨rfl, _, rfl⟩
    · cases h

end LuaStackTraceProvider

/-! ## The debugger -/

/-- The heap and the provider are those of the last stop. -/
structure Debugger (V : Type*) (N : Type) where
  lifetime : SessionLifetime V (LuaValue N)
  heap : LuaHeap N
  provider : LuaStackTraceProvider

namespace Debugger

inductive Action (V : Type*) (N : Type) where
  /-- The hook makes a provider with its record and enters `StopExecution`. -/
  | acquire (heap : LuaHeap N) (ar : LuaDebug)
  /-- The Lua thread runs an invocation. -/
  | answer (result : Except String V)
  | other (a : SessionLifetime.Action V (LuaValue N))

/-- The invocation that the Lua thread runs next, and the Lua state that it is stopped in. -/
def next (d : Debugger V N) : Option (LuaState (LuaValue N) × Invocation V) :=
  match d.lifetime.hook, d.lifetime.session.lua with
  | .stopped l, .execute k =>
    match (d.lifetime.session.schedulers k).point with
    | .invoke _ (invocation :: _) => some (l, invocation)
    | _ => none
  | _, _ => none

variable {d d' : Debugger V N}

theorem next_eq_some {l : LuaState (LuaValue N)} {invocation : Invocation V}
    (h : d.next = some (l, invocation)) : d.lifetime.hook = .stopped l ∧
      ∃ k, d.lifetime.session.lua.scheduler? = some k ∧
        invocation ∈ (d.lifetime.session.schedulers k).outstanding := by
  unfold next at h
  split at h
  · rename_i l' k hhook hlua
    split at h
    · rename_i c i rest hpoint
      cases h
      refine ⟨hhook, k, by simp [hlua, LuaPoint.scheduler?], ?_⟩
      rw [Execution.outstanding, hpoint]
      exact List.mem_append_left _ List.mem_cons_self
    · cases h
  · cases h

/-- A step of one of the two threads that takes no message from the client and enters no stop. -/
def Alone (_ : Debugger V N) : Action V N → Prop
  | .other (.run input) => ∀ result, input ≠ .message result
  | .other (.lua .step _) | .answer _ => True
  | _ => False

/-- What the threads of the session leave alone, as long as the Lua thread is in the stop. -/
structure Within (l : LuaState (LuaValue N)) (d d' : Debugger V N) : Prop where
  heap : d'.heap = d.heap
  provider : d'.provider = d.provider
  dropped : d'.lifetime.dropped = d.lifetime.dropped
  assertFailed : d'.lifetime.assertFailed = d.lifetime.assertFailed
  hook : d'.lifetime.session.lua ≠ .running → d'.lifetime.hook = .stopped l

variable [DecidableEq N] [LuaNumber N] {rt : Runtime} {app : Application V} {P : PathEquality}
  {args : InspectionArguments V}

def step (rt : Runtime) (app : Application V) (P : PathEquality) (args : InspectionArguments V)
    (a : Action V N) (d : Debugger V N) : Option (Debugger V N) :=
  match a with
  | .acquire heap ar =>
    (SessionLifetime.step rt app P .acquire d.lifetime).map fun lifetime =>
      { lifetime := lifetime, heap := heap, provider := { ar := ar } }
  | .answer result =>
    d.next.bind fun (l, invocation) =>
      let request := args.request invocation
      (d.provider.runInvocation rt d.heap l request result).bind fun provider =>
        (SessionLifetime.step rt app P (.lua (.answer result) d.provider.ar) d.lifetime).map
          fun lifetime => { d with lifetime := lifetime, provider := provider }
  | .other .acquire | .other (.lua (.answer _) _) => none
  | .other a => (SessionLifetime.step rt app P a d.lifetime).map fun lifetime =>
      { d with lifetime := lifetime }

/-- A session from its creation on. What was left of stops before it does not matter. -/
def system (V : Type*) (N : Type) [DecidableEq N] [LuaNumber N] (rt : Runtime)
    (app : Application V) (P : PathEquality) (args : InspectionArguments V) :
    System (Debugger V N) (Action V N) where
  init d := (SessionLifetime.system V (LuaValue N) rt app P).init d.lifetime
  step := step rt app P args

/-! ## Steps -/

/-- The steps, as a relation. -/
inductive Step (rt : Runtime) (app : Application V) (P : PathEquality)
    (args : InspectionArguments V) (d : Debugger V N) : Action V N → Debugger V N → Prop
  | acquire {heap ar lifetime} (h : SessionLifetime.Step rt app P d.lifetime .acquire lifetime) :
      Step rt app P args d (.acquire heap ar)
        { lifetime := lifetime, heap := heap, provider := { ar := ar } }
  | answer {result l invocation provider lifetime} (hn : d.next = some (l, invocation))
      (hp : d.provider.runInvocation rt d.heap l (args.request invocation) result = some provider)
      (h : SessionLifetime.Step rt app P d.lifetime (.lua (.answer result) d.provider.ar)
        lifetime) :
      Step rt app P args d (.answer result) { d with lifetime := lifetime, provider := provider }
  | other {a lifetime} (ha : a ≠ .acquire)
      (h : SessionLifetime.Step rt app P d.lifetime a lifetime) :
      Step rt app P args d (.other a) { d with lifetime := lifetime }

theorem step_cases {a : Action V N} (h : (system V N rt app P args).step a d = some d') :
    d.lifetime.assertFailed = false ∧ Step rt app P args d a d' := by
  simp only [system, step] at h
  split at h
  · obtain ⟨lifetime, hs, rfl⟩ := Option.map_eq_some_iff.1 h
    exact (SessionLifetime.step_cases hs).imp_right .acquire
  · rename_i result
    obtain ⟨⟨l, invocation⟩, hn, h⟩ := Option.bind_eq_some_iff.1 h
    obtain ⟨provider, hp, h⟩ := Option.bind_eq_some_iff.1 h
    obtain ⟨lifetime, hs, rfl⟩ := Option.map_eq_some_iff.1 h
    have hstep : (SessionLifetime.system V (LuaValue N) rt app P).step
        (.lua (.answer result) d.provider.ar) d.lifetime = some lifetime := hs
    exact (SessionLifetime.step_cases hstep).imp_right (.answer hn hp)
  · cases h
  · cases h
  · rename_i b hacquire _
    obtain ⟨lifetime, hs, rfl⟩ := Option.map_eq_some_iff.1 h
    exact (SessionLifetime.step_cases hs).imp_right (.other hacquire)

/-- A statement of `Run`, with what it does to the controller. -/
theorem step_run {input : RunInput V}
    (h : (system V N rt app P args).step (.other (.run input)) d = some d') :
    d.lifetime.assertFailed = false ∧ d.lifetime.dropped = false ∧ ∃ session controller,
      RunStep rt d.lifetime.session input session ∧
      (∀ q, d.lifetime.session.run = .request q → controller = d.lifetime.controller) ∧
      d' = { d with
        lifetime := { d.lifetime with session := session, controller := controller } } := by
  obtain ⟨hf, hs⟩ := step_cases h
  cases hs with
  | other ha hs =>
    cases hs with
    | serve hd hr hs =>
      exact ⟨hf, hd, _, _, DebugSession.runStep_iff.1 hs, by simp [hr], rfl⟩
    | run hd hs =>
      exact ⟨hf, hd, _, _, DebugSession.runStep_iff.1 hs, fun _ _ => rfl, rfl⟩

/-! ## Runs of the session's threads -/

variable (app P args) in
/-- Statements of the Lua thread in a stop are steps of the debugger. -/
theorem run_of_luaSilent {l : LuaState (LuaValue N)} {session : DebugSession V}
    (hrun : (DebugSession.system V rt).Run DebugSession.LuaSilent d.lifetime.session session)
    (hf : d.lifetime.assertFailed = false) (hh : d.lifetime.hook = .stopped l) :
    ∃ d', (system V N rt app P args).Run Alone d d' ∧ d'.lifetime.session = session ∧
      Within l d d' := by
  induction hrun with
  | refl => exact ⟨d, .refl, rfl, ⟨rfl, rfl, rfl, rfl, fun _ => hh⟩⟩
  | @tail session session' a _ ha hstep ih =>
    obtain ⟨d', hrun, rfl, hin⟩ := ih
    obtain rfl := ha
    have hlua : d'.lifetime.session.lua ≠ .running := by
      intro hl
      simp [DebugSession.system, DebugSession.luaStep, hl] at hstep
    obtain ⟨lifetime, hstep', hsession, hdropped, hfailed, hhook⟩ :=
      SessionLifetime.exists_step_lua P app (hin.assertFailed.trans hf) (hin.hook hlua) hstep
        d.provider.ar
    have halone : Alone d' (.other (.lua .step d.provider.ar)) := trivial
    exact ⟨{ d' with lifetime := lifetime }, hrun.tail halone (congrArg (Option.map _) hstep'),
      hsession, hin.heap, hin.provider, hdropped.trans hin.dropped, hfailed.trans hin.assertFailed,
      fun hl => hhook (hsession ▸ hl)⟩

end Debugger

end LuaToolkit
