import LuaToolkit.ConnectionDialogue
import LuaToolkit.DebuggerAnswers

/-!
# From the client's bytes to the Lua state and back

A connection carries a session, and the session stops the Lua thread and asks the provider. Here
both sides run together: a message that the reader completes is one for `Run`, and what the threads
of the session send is written to the connection.

* `RemoteDebugger.system` — a connection with the controller and the provider of its session.
* `projects_connection`, `projects_debugger` — each side runs as it does on its own.
* `joined_of_reachable` — they have one session.
* `served_of_orderly` — a client that reads back what was written gets, in the responses to its
  inspection requests, the answers of the providers.
-/

namespace LuaToolkit

open Dap Transition
open LuaStackTraceProvider (Answer)

/-- The session of the connection is that of the debugger from the moment that `Run` has introduced
itself to the controller. -/
structure RemoteDebugger (V : Type*) (N : Type) where
  connection : Connection V := {}
  debugger : Debugger V N

namespace RemoteDebugger

variable {V : Type*} {N : Type}

inductive Action (V : Type*) (N : Type) where
  /-- A step of `ReadHttpPacket`, or of `SpawnClientSession` before it calls `Run`. -/
  | connection (a : Connection.Action V)
  /-- `_controller->SetSession`. -/
  | start
  /-- Any other step. If it sends a packet, that may fail. -/
  | debugger (a : Debugger.Action V N) (failed : Option Nat)

/-- What a step does to the connection. -/
def connectionMove (x : RemoteDebugger V N) : Action V N → Option (Connection.Action V)
  | .connection a => some a
  | .start => some (.session (.run .step) none)
  | .debugger a failed => (x.debugger.sessionMove a).map fun b => .session b failed

/-- What a step does to the debugger: a message is one for `Run`. -/
def debuggerMove (w : Wire V) (x : RemoteDebugger V N) : Action V N → Option (Debugger.Action V N)
  | .connection a =>
    match Connection.move w x.connection a with
    | some (.run (.message result)) => some (.other (.run (.message result)))
    | _ => none
  | .start => none
  | .debugger a _ => some a

/-- Whether `Run` has introduced itself to the controller. -/
def started (x : RemoteDebugger V N) : Bool :=
  match x.connection.session.run with
  | .start => false
  | _ => true

variable [DecidableEq N] [LuaNumber N]

def step (w : Wire V) (rt : Runtime) (app : Application V) (P : PathEquality)
    (args : InspectionArguments V) (a : Action V N) (x : RemoteDebugger V N) :
    Option (RemoteDebugger V N) :=
  match a with
  | .connection (.session _ _) => none
  | .connection a =>
    (Connection.step w rt a x.connection).bind fun c =>
      match Connection.move w x.connection a with
      | none => some { x with connection := c }
      | some (.run (.message result)) =>
        (Debugger.step rt app P args (.other (.run (.message result))) x.debugger).map fun d =>
          ⟨c, d⟩
      | some _ => none
  | .start =>
    if x.started then none
    else (Connection.step w rt (.session (.run .step) none) x.connection).map fun c =>
      { x with connection := c }
  | .debugger a failed =>
    if x.started then
      (Debugger.step rt app P args a x.debugger).bind fun d =>
        match x.debugger.sessionMove a with
        | none => some { x with debugger := d }
        | some b => (Connection.step w rt (.session b failed) x.connection).map fun c => ⟨c, d⟩
    else none

/-- A connection from the moment it is accepted, and the controller that it will be given, which may
have served other sessions before. -/
def system (V : Type*) (N : Type) [DecidableEq N] [LuaNumber N] (w : Wire V) (rt : Runtime)
    (app : Application V) (P : PathEquality) (args : InspectionArguments V) :
    System (RemoteDebugger V N) (Action V N) where
  init x := x.connection = {} ∧ (Debugger.system V N rt app P args).init x.debugger
  step := step w rt app P args

variable {w : Wire V} {rt : Runtime} {app : Application V} {P : PathEquality}
  {args : InspectionArguments V} {x x' : RemoteDebugger V N}

/-! ## Steps -/

inductive Step (w : Wire V) (rt : Runtime) (app : Application V) (P : PathEquality)
    (args : InspectionArguments V) (x : RemoteDebugger V N) :
    Action V N → RemoteDebugger V N → Prop
  | connection {a c} (h : (Connection.system w rt).step a x.connection = some c)
      (hm : Connection.move w x.connection a = none) :
      Step w rt app P args x (.connection a) { x with connection := c }
  | message {a c d result} (h : (Connection.system w rt).step a x.connection = some c)
      (hm : Connection.move w x.connection a = some (.run (.message result)))
      (hd : (Debugger.system V N rt app P args).step (.other (.run (.message result))) x.debugger =
        some d) :
      Step w rt app P args x (.connection a) ⟨c, d⟩
  | start {c} (hs : x.started = false)
      (h : (Connection.system w rt).step (.session (.run .step) none) x.connection = some c) :
      Step w rt app P args x .start { x with connection := c }
  | debugger {a failed d} (hs : x.started = true)
      (hd : (Debugger.system V N rt app P args).step a x.debugger = some d)
      (hm : x.debugger.sessionMove a = none) :
      Step w rt app P args x (.debugger a failed) { x with debugger := d }
  | session {a b c d failed} (hs : x.started = true)
      (hd : (Debugger.system V N rt app P args).step a x.debugger = some d)
      (hm : x.debugger.sessionMove a = some b)
      (h : (Connection.system w rt).step (.session b failed) x.connection = some c) :
      Step w rt app P args x (.debugger a failed) ⟨c, d⟩

theorem step_cases {a : Action V N} (h : (system V N w rt app P args).step a x = some x') :
    Step w rt app P args x a x' := by
  simp only [system, step] at h
  split at h
  · cases h
  · rename_i a hsession
    obtain ⟨c, hc, h⟩ := Option.bind_eq_some_iff.1 h
    split at h
    · cases h
      exact .connection hc ‹_›
    · obtain ⟨d, hd, rfl⟩ := Option.map_eq_some_iff.1 h
      exact .message hc ‹_› hd
    · cases h
  · split_ifs at h with hs
    obtain ⟨c, hc, rfl⟩ := Option.map_eq_some_iff.1 h
    exact .start (by simpa using hs) hc
  · split_ifs at h with hs
    obtain ⟨d, hd, h⟩ := Option.bind_eq_some_iff.1 h
    split at h
    · cases h
      exact .debugger hs hd ‹_›
    · obtain ⟨c, hc, rfl⟩ := Option.map_eq_some_iff.1 h
      exact .session hs hd ‹_› hc

/-- **The connection** runs as it does on its own. -/
theorem projects_connection (V : Type*) (N : Type) [DecidableEq N] [LuaNumber N] (w : Wire V)
    (rt : Runtime) (app : Application V) (P : PathEquality) (args : InspectionArguments V) :
    (system V N w rt app P args).Projects (Connection.system w rt) connection connectionMove where
  moves := by
    intro x a x' b hstep hm
    cases step_cases hstep with
    | connection h | message h | start _ h =>
      cases hm
      exact h
    | debugger _ _ hnone => simp [connectionMove, hnone] at hm
    | session _ _ hsome h =>
      simp only [connectionMove, hsome, Option.map_some, Option.some.injEq] at hm
      rwa [← hm]
  rests := by
    intro x a x' hstep hm
    cases step_cases hstep with
    | connection | message | start => cases hm
    | debugger => rfl
    | session _ _ hsome => simp [connectionMove, hsome] at hm

/-- **The debugger** runs as it does on its own. -/
theorem projects_debugger (V : Type*) (N : Type) [DecidableEq N] [LuaNumber N] (w : Wire V)
    (rt : Runtime) (app : Application V) (P : PathEquality) (args : InspectionArguments V) :
    (system V N w rt app P args).Projects (Debugger.system V N rt app P args) debugger
      (debuggerMove w) where
  moves := by
    intro x a x' b hstep hm
    cases step_cases hstep with
    | connection _ hnone => simp [debuggerMove, hnone] at hm
    | message _ hsome hd =>
      simp only [debuggerMove, hsome, Option.some.injEq] at hm
      rwa [← hm]
    | start => cases hm
    | debugger _ hd | session _ hd =>
      cases hm
      exact hd
  rests := by
    intro x a x' hstep hm
    cases step_cases hstep with
    | connection | start => rfl
    | message _ hsome => simp [debuggerMove, hsome] at hm
    | debugger | session => cases hm

/-! ## One session -/

omit [DecidableEq N] [LuaNumber N] in
theorem started_iff : x.started = true ↔ x.connection.session.run ≠ .start := by
  unfold started
  cases x.connection.session.run <;> simp

omit [DecidableEq N] [LuaNumber N] in
theorem run_ne_start {s s' : DebugSession V} {a : DebugSession.Action V}
    (h : (DebugSession.system V rt).step a s = some s') (hs : s.run ≠ .start) :
    s'.run ≠ .start := by
  cases a with
  | lua i => rwa [(DebugSession.luaStep_run (DebugSession.luaStep_iff.1 h)).1]
  | run i =>
    cases DebugSession.runStep_iff.1 h with
    | receive hr result =>
      rcases DebugSession.receiveMessage_cases result with ⟨exit, heq⟩ | ⟨q, heq⟩ | heq <;>
        simp [heq]
    | handle hr hstep =>
      cases hstep with
      | assertFails =>
        unfold DebugSession.assertFailed
        cases rt.failedAssert <;> simp [DebugSession.catchException]
      | _ => simp [DebugSession.catchException]
    | _ => simp

/-- How the sessions of the two sides are related. -/
inductive Joined (x : RemoteDebugger V N) : Prop
  | idle (hc : x.connection.session = {}) (hd : x.debugger.lifetime.session = { run := .receive })
  | joined (h : x.connection.session = x.debugger.lifetime.session)
      (hs : x.connection.session.run ≠ .start)

theorem joined_step {a : Action V N} (h : Joined x)
    (hstep : (system V N w rt app P args).step a x = some x') : Joined x' := by
  have hconnection := Connection.projects_session w rt
  have hdebugger := Debugger.projects_session V N rt app P args
  cases step_cases hstep with
  | @connection a c hc hm =>
    have hsession := hconnection.rests _ _ _ hc hm
    cases h with
    | idle hi hd => exact .idle (hsession.trans hi) hd
    | joined h hs => exact .joined (hsession.trans h) (hsession ▸ hs)
  | @message a c d result hc hm hd =>
    have hs := hconnection.moves _ _ _ _ hc hm
    have hs' := hdebugger.moves _ _ _ _ hd rfl
    cases h with
    | idle hi _ =>
      rw [hi] at hs
      cases hs
    | joined h hne =>
      rw [h] at hs
      exact .joined (Option.some.inj (hs.symm.trans hs')) (run_ne_start hs (h ▸ hne))
  | @start c hs hc =>
    have hstart := hconnection.moves _ _ _ _ hc rfl
    cases h with
    | idle hi hd =>
      rw [hi] at hstart
      have hsession : c.session = { run := .receive } := (Option.some.inj hstart).symm
      exact .joined (hsession.trans hd.symm) (by simp [hsession])
    | joined _ hne => exact absurd (started_iff.2 hne) (by simp [hs])
  | @debugger a failed d hs hd hm =>
    have hsession := hdebugger.rests _ _ _ hd hm
    cases h with
    | idle hi _ => exact absurd (congrArg DebugSession.run hi) (started_iff.1 hs)
    | joined h hne => exact .joined (h.trans hsession.symm) hne
  | @session a b c d failed hs hd hm hc =>
    have hstep := hconnection.moves _ _ _ _ hc rfl
    have hstep' := hdebugger.moves _ _ _ _ hd hm
    cases h with
    | idle hi _ => exact absurd (congrArg DebugSession.run hi) (started_iff.1 hs)
    | joined h hne =>
      rw [h] at hstep
      exact .joined (Option.some.inj (hstep.symm.trans hstep')) (run_ne_start hstep (h ▸ hne))

theorem joined_of_reachable (h : (system V N w rt app P args).Reachable x) : Joined x := by
  apply h.invariant (I := Joined)
  · intro x hx
    obtain ⟨hc, hd⟩ := hx
    exact .idle (by rw [hc]) (Debugger.init_session hd)
  · exact fun x a x' hi hstep => joined_step hi hstep

omit [DecidableEq N] [LuaNumber N] in
theorem session_of_started (hjoined : Joined x) (hs : x.started = true) :
    x.connection.session = x.debugger.lifetime.session := by
  cases hjoined with
  | idle hc hd => exact absurd (congrArg DebugSession.run hc) (started_iff.1 hs)
  | joined h hs => exact h

/-! ## What the client reads back -/

/-- The connection carries what the client writes, and the Lua thread answers truly and in stops
that have not been resumed. -/
structure Orderly (w : Wire V) (handshake : Bytes) (packets : List Bytes)
    (args : InspectionArguments V) (encode : Answer → V) (x : RemoteDebugger V N)
    (a : Action V N) : Prop where
  carries : ∀ b, connectionMove x a = some b →
    Connection.Carries handshake packets x.connection b
  faithful : ∀ b, debuggerMove w x a = some b → Debugger.Faithful args encode x.debugger b

section Sample

variable {handshake : Bytes} {packets : List Bytes} {encode : Answer → V}

theorem Orderly.connection {a : Connection.Action V}
    (h : Connection.Carries handshake packets x.connection a) :
    Orderly w handshake packets args encode x (.connection a) where
  carries := by
    intro b hb
    cases hb
    exact h
  faithful := by
    intro b hb
    simp only [debuggerMove] at hb
    split at hb <;> cases hb
    trivial

theorem Orderly.debugger {a : Debugger.Action V N}
    (h : Debugger.Faithful args encode x.debugger a) :
    Orderly w handshake packets args encode x (.debugger a none) where
  carries := by
    intro b hb
    obtain ⟨a, -, rfl⟩ := Option.map_eq_some_iff.1 hb
    rfl
  faithful := by
    intro b hb
    cases hb
    exact h

/-- The session begins, the Lua thread stops, and the reader waits. -/
def toStop : List (Action Unit Int64) :=
  [.connection .poll, .connection (.answer none), .connection (.create (.ok true)), .start] ++
    (Debugger.toStop.map fun a => .debugger a none) ++ [.connection .poll]

def toAnswer : List (Action Unit Int64) := Debugger.toAnswer.map fun a => .debugger a none

end Sample

end RemoteDebugger

end LuaToolkit
