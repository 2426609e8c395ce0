import LuaToolkit.ConnectionRest
import LuaToolkit.DebuggerRest
import LuaToolkit.RemoteDebugger

/-!
# A remote debugger at rest

Connection, session, controller and provider together: until the client sends more bytes, or the
Lua thread comes to its next stop, they make only finitely many steps, and none of them keeps the
others waiting.

* `effort` — a bound on all their steps.
* `atRest_connection` — when none of them can make a step, the connection could make none on its
  own.
* `settles_of_reaches` — so a client that only asks for what it may ask for has every request
  answered.
-/

namespace LuaToolkit.RemoteDebugger

open Dap Transition

variable {V : Type*} {N : Type}

/-! ## The effort -/

/-- No bytes arrive, Lua does not call the hook, and the application leaves the controller alone. -/
def Alone (_ : RemoteDebugger V N) : Action V N → Prop
  | .connection (.bytes _) => False
  | .debugger (.other (.event _)) _ | .debugger (.other (.lua (.stop _) _)) _ => False
  | .debugger (.other .enable) _ | .debugger (.other .disable) _ => False
  | _ => True

/-- A hook that is about to enter `StopExecution` will take nine steps there before it waits, and a
session is dropped once. -/
def hookEffort {ν : Type*} (s : SessionLifetime V ν) : Nat :=
  (match s.hook with
    | .acquire _ _ => 9
    | _ => 0) + (if s.dropped then 0 else 1) + if s.assertFailed then 0 else 1

def effort (x : RemoteDebugger V N) : Nat :=
  Connection.effort x.connection + hookEffort x.debugger.lifetime

section Hook

variable {ν : Type*} {rt : Runtime} {app : Application V} {P : PathEquality}
  {s s' : SessionLifetime V ν} {a : SessionLifetime.Action V ν}

/-- A step that the session has no part in. -/
theorem hookEffort_lt (hf : s.assertFailed = false) (hs : SessionLifetime.Step rt app P s a s')
    (hm : s.sessionMove a = none) (hevent : ∀ x, a ≠ .event x) (henable : a ≠ .enable)
    (hdisable : a ≠ .disable) : hookEffort s' < hookEffort s := by
  cases hs with
  | serve | run | leave | lua => cases hm
  | event => exact absurd rfl (hevent _)
  | enable => exact absurd rfl henable
  | disable => exact absurd rfl hdisable
  | fail hh ha => simp [hookEffort, hf]
  | acquire hh ha hs => simp [SessionLifetime.sessionMove, hh, ha] at hm
  | drop hr hd => simp [hookEffort, hd]

/-- A step of the session leaves the hook alone, or the hook enters `StopExecution` with it. -/
theorem hookEffort_session (hs : SessionLifetime.Step rt app P s a s')
    {b : DebugSession.Action V} (hm : s.sessionMove a = some b) :
    hookEffort s' ≤ hookEffort s ∧
      (a = .acquire → (∃ ev, b = .lua (.stop ev)) ∧ hookEffort s' + 9 = hookEffort s) := by
  cases hs with
  | serve | run | lua => exact ⟨Nat.le_refl _, nofun⟩
  | leave hh => exact ⟨by simp [hookEffort, hh], nofun⟩
  | event | enable | disable | drop => cases hm
  | fail hh ha => simp [SessionLifetime.sessionMove, hh, ha] at hm
  | acquire hh ha hs =>
    simp only [SessionLifetime.sessionMove, hh, ha, Option.some.injEq] at hm
    subst hm
    simp only [hookEffort, hh]
    exact ⟨by omega, fun _ => ⟨⟨_, rfl⟩, by omega⟩⟩

theorem eq_of_sessionMove_stop {ev : StoppedEventBody}
    (h : s.sessionMove a = some (.lua (.stop ev))) :
    a = .acquire ∨ ∃ ar, a = .lua (.stop ev) ar := by
  cases a with
  | acquire => exact .inl rfl
  | lua input ar =>
    cases h
    exact .inr ⟨ar, rfl⟩
  | _ => cases h

end Hook

variable [DecidableEq N] [LuaNumber N] {w : Wire V} {rt : Runtime} {app : Application V}
  {P : PathEquality} {args : InspectionArguments V} {x x' : RemoteDebugger V N}

theorem effort_stop {c c' : Connection V} {ev : StoppedEventBody} {failed : Option Nat}
    (h : Connection.Step w rt c (.session (.lua (.stop ev)) failed) c') :
    Connection.effort c' = Connection.effort c + 8 := by
  cases h with
  | session hp ha hs =>
    cases DebugSession.luaStep_iff.1 hs with
    | stop hl =>
      simp only [Connection.effort, DebugSession.effort, DebugSession.luaEffort, hl]
      omega

/-- The connection hands `Run` the messages itself. -/
theorem ne_message {c c' : Connection V} {b : DebugSession.Action V} {failed : Option Nat}
    (h : Connection.Step w rt c (.session b failed) c')
    (result : Except String (Option (IncomingMessage V))) : b ≠ .run (.message result) := by
  rintro rfl
  cases h with
  | session hp ha hs => cases ha

omit [DecidableEq N] [LuaNumber N] in
/-- A step of the connection that is none of the session, or gives it a message. -/
theorem alone_connection {a : Connection.Action V} {c : Connection V}
    (ha : Alone x (.connection a)) (h : Connection.Step w rt x.connection a c)
    (hm : ∀ b failed, a = .session b failed → ∃ result, b = .run (.message result)) :
    Connection.Alone x.connection a := by
  cases a with
  | bytes result => exact ha
  | session b failed =>
    obtain ⟨result, rfl⟩ := hm b failed rfl
    exact absurd rfl (ne_message h result)
  | poll | answer | create => trivial

theorem effort_step (hp : w.parser.Recognises) (hfit : Connection.Fitting w x.connection)
    {a : Action V N} (ha : Alone x a) (h : (system V N w rt app P args).step a x = some x') :
    effort x' < effort x := by
  cases step_cases h with
  | connection hc hm =>
    have hstep := Connection.step_cases hc
    have halone := alone_connection ha hstep fun b failed heq => by
      subst heq
      cases hm
    exact Nat.add_lt_add_right (Connection.effort_step hp hfit halone hstep) _
  | @message a c d result hc hm hd =>
    have hstep := Connection.step_cases hc
    have halone := alone_connection ha hstep fun b failed heq => by
      subst heq
      exact ⟨result, Option.some.inj hm⟩
    obtain ⟨-, -, session, controller, -, -, rfl⟩ := Debugger.step_run hd
    exact Nat.add_lt_add_right (Connection.effort_step hp hfit halone hstep) _
  | start _ hc =>
    have halone : Connection.Alone x.connection (.session (.run .step) none) := ⟨nofun, nofun⟩
    exact Nat.add_lt_add_right
      (Connection.effort_step hp hfit halone (Connection.step_cases hc)) _
  | @debugger a failed d _ hd hm =>
    obtain ⟨hf, hs⟩ := SessionLifetime.step_cases (Debugger.step_lifetime hd)
    refine Nat.add_lt_add_left (hookEffort_lt hf hs hm ?_ ?_ ?_) _
    · rintro y heq
      cases a <;> cases heq
      exact ha
    · intro heq
      cases a <;> cases heq
      exact ha
    · intro heq
      cases a <;> cases heq
      exact ha
  | @session a b c d failed _ hd hm hc =>
    have hstep := Connection.step_cases hc
    obtain ⟨-, hs⟩ := SessionLifetime.step_cases (Debugger.step_lifetime hd)
    obtain ⟨hle, hacquire⟩ := hookEffort_session hs hm
    show Connection.effort c + hookEffort d.lifetime <
      Connection.effort x.connection + hookEffort x.debugger.lifetime
    by_cases hmove : x.debugger.lifetimeMove a = .acquire
    · obtain ⟨⟨ev, rfl⟩, hhook⟩ := hacquire hmove
      have hconnection := effort_stop hstep
      omega
    · have halone : Connection.Alone x.connection (.session b failed) := by
        refine ⟨ne_message hstep, ?_⟩
        rintro ev rfl
        rcases eq_of_sessionMove_stop hm with heq | ⟨ar, heq⟩
        · exact hmove heq
        · cases a <;> cases heq
          exact ha
      have hlt := Connection.effort_step hp hfit halone hstep
      omega

theorem fitting_step (hp : w.parser.Recognises) (hfit : Connection.Fitting w x.connection)
    {a : Action V N} (ha : Alone x a) (h : (system V N w rt app P args).step a x = some x') :
    Connection.Fitting w x'.connection := by
  have hprojects := projects_connection V N w rt app P args
  cases hm : x.connectionMove a with
  | none => rwa [hprojects.rests _ _ _ h hm]
  | some b =>
    have hstep := Connection.step_cases (hprojects.moves _ _ _ _ h hm)
    refine Connection.fitting_step hp hfit (fun result heq => ?_) hstep
    subst heq
    cases a with
    | connection a =>
      cases hm
      exact ha
    | start => cases hm
    | debugger a failed =>
      obtain ⟨b, -, heq⟩ := Option.map_eq_some_iff.1 hm
      cases heq

/-- What the parts of a remote debugger rely on. -/
structure Sound (rt : Runtime) (P : PathEquality) (args : InspectionArguments V)
    (x : RemoteDebugger V N) : Prop where
  joined : Joined x
  guarded : Debugger.Guarded rt P args x.debugger
  retired : x.debugger.lifetime.Retired
  traceable : x.debugger.Traceable

section Client

variable {handshake : Bytes} {packets : List Bytes} {qs : List (RequestMessage V)}

/-- The connection carries what the client writes, `Run` does not give up during a stop, and no stop
begins once it is closing; requests suit the state that they are handled in; and the hook stops with
a record that a stack trace can begin with. -/
structure Careful (w : Wire V) (rt : Runtime) (handshake : Bytes) (packets : List Bytes)
    (args : InspectionArguments V) (x : RemoteDebugger V N) (a : Action V N) : Prop where
  carries : ∀ b, connectionMove x a = some b →
    Connection.Carries handshake packets x.connection b
  exits : ∀ b, connectionMove x a = some b → ∀ b', Connection.move w x.connection b = some b' →
    DebugSession.ExitSafe rt x.connection.session b'
  requests : ∀ b, debuggerMove w x a = some b → Debugger.RequestSafe rt args x.debugger b
  described : ∀ b, debuggerMove w x a = some b → Debugger.Described b

/-- A request that suits its state passes its check in a stop without a mode. -/
theorem Sound.inspectSafe (hx : Sound rt P args x) (b : DebugSession.Action V) :
    DebugSession.InspectSafe x.connection.session b := by
  rcases b with input | input
  · cases input with
    | step =>
      intro q r i st hr hst
      have hs : x.started = true := started_iff.2 (by simp [hr])
      rw [session_of_started hx.joined hs] at hr hst
      obtain ⟨k, -, hst', -⟩ := hx.guarded.ready q r _ hr
      cases hst.symm.trans hst'
      rfl
    | _ => trivial
  · trivial

end Client

/-! ## Steps that are careful -/

section Cautious

omit [DecidableEq N] [LuaNumber N]

variable {handshake : Bytes} {packets : List Bytes}

/-- A step of the connection that concerns no session. -/
theorem Careful.connection {a : Connection.Action V}
    (ha : Connection.Carries handshake packets x.connection a)
    (hm : Connection.move w x.connection a = none) :
    Careful w rt handshake packets args x (.connection a) where
  carries := by
    rintro b ⟨⟩
    exact ha
  exits := by
    rintro b ⟨⟩ b' hb'
    rw [hm] at hb'
    cases hb'
  requests := by simp [debuggerMove, hm]
  described := by simp [debuggerMove, hm]

/-- A request arrives. -/
theorem Careful.request {a : Connection.Action V} {q : RequestMessage V}
    (ha : Connection.Carries handshake packets x.connection a)
    (hm : Connection.move w x.connection a =
      some (.run (.message (.ok (some ⟨.ok "request", .ok q⟩))))) :
    Careful w rt handshake packets args x (.connection a) where
  carries := by
    rintro b ⟨⟩
    exact ha
  exits := by
    rintro b ⟨⟩ b' hb'
    rw [hm] at hb'
    cases hb'
    intro hgives
    cases hgives with
    | untyped _ _ htype => cases htype
    | undecodable _ _ _ hrequest => cases hrequest
  requests := by
    simp only [debuggerMove, hm, Option.some.injEq]
    rintro b rfl
    trivial
  described := by
    simp only [debuggerMove, hm, Option.some.injEq]
    rintro b rfl
    trivial

theorem Careful.debugger {a : Debugger.Action V N}
    (he : ∀ b, x.debugger.sessionMove a = some b →
      DebugSession.ExitSafe rt x.connection.session b)
    (hr : Debugger.RequestSafe rt args x.debugger a) (hd : Debugger.Described a) :
    Careful w rt handshake packets args x (.debugger a none) where
  carries := by
    intro b hb
    obtain ⟨b, -, rfl⟩ := Option.map_eq_some_iff.1 hb
    rfl
  exits := by
    intro b hb b' hb'
    obtain ⟨b, hm, rfl⟩ := Option.map_eq_some_iff.1 hb
    cases hb'
    exact he _ hm
  requests := by
    rintro b ⟨⟩
    exact hr
  described := by
    rintro b ⟨⟩
    exact hd

/-- The next request suits every state, or inspects a stop that has not been resumed. -/
def suitsNext (rt : Runtime) (s : DebugSession V) : Bool :=
  match s.run with
  | .request q =>
    match (rt.dispatch q.command : HandlerPoint V), s.stoppedState with
    | .inspectAssert _, some ⟨_, none⟩ => true
    | .controller .setBreakpoints, _ | .controller .getThreads, _ => true
    | _, _ => false
  | _ => true

/-- A check that is enough for a careful step. -/
def cautious (w : Wire V) (rt : Runtime) (handshake : Bytes) (packets : List Bytes)
    (x : RemoteDebugger V N) : Action V N → Bool
  | .connection (.bytes (.ok (some chunk))) =>
    decide (x.connection.before ++ x.connection.received ++ chunk.val <+:
        handshake ++ packets.flatten ∧
      (x.connection.written = [] → x.connection.before ++ chunk.val <+: handshake))
  | .connection .poll =>
    match Connection.move w x.connection .poll with
    | none => true
    | some (.run (.message (.ok (some ⟨.ok type, .ok _⟩)))) => type == "request"
    | some _ => false
  | .connection (.answer none) | .connection (.create _) => true
  | .start => x.connection.session.steady
  | .debugger (.acquire _ ar) none =>
    match x.connection.session.run with
    | .receive => ar.what.isSome
    | _ => false
  | .debugger (.other (.run .step)) none =>
    x.connection.session.steady && x.debugger.lifetime.session.steady &&
      suitsNext rt x.debugger.lifetime.session
  | .debugger (.other (.run (.cast (.ok _)))) none =>
    match x.debugger.lifetime.session.run with
    | .handle _ _ (.inspectCast .stackTrace) => true
    | _ => false
  | .debugger (.other (.run (.controller (.ok _)))) none => true
  | .debugger (.other (.run (.sent (.ok _)))) none => true
  | .debugger (.other (.lua .step _)) none | .debugger (.answer _) none => true
  | .debugger (.other (.event _)) none | .debugger (.other .enable) none => true
  | _ => false

theorem Careful.start (h : x.connection.session.steady = true) :
    Careful w rt handshake packets args x .start where
  carries := by
    rintro b ⟨⟩
    rfl
  exits := by
    rintro b ⟨⟩ b' ⟨⟩
    exact DebugSession.exitSafe_of_steady h
  requests := by simp [debuggerMove]
  described := by simp [debuggerMove]

theorem Careful.acquire {heap : LuaHeap N} {ar : LuaDebug}
    (h : ¬ DebugSession.Closing x.connection.session) (har : ar.what ≠ none) :
    Careful w rt handshake packets args x (.debugger (.acquire heap ar) none) := by
  refine .debugger (fun b hb => ?_) trivial har
  rcases b with input | input
  · cases SessionLifetime.eq_of_sessionMove_run hb
  · cases input with
    | stop ev => exact h
    | _ => trivial

theorem Careful.step (h : x.connection.session.steady = true)
    (hsuits : suitsNext rt x.debugger.lifetime.session = true) :
    Careful w rt handshake packets args x (.debugger (.other (.run .step)) none) := by
  refine .debugger ?_ (fun q hr => ?_) trivial
  · rintro b ⟨⟩
    exact DebugSession.exitSafe_of_steady h
  · simp only [suitsNext, hr] at hsuits
    split at hsuits
    · rename_i k hdispatch hst
      rw [hdispatch]
      exact ⟨k, hst⟩
    · rename_i hdispatch
      rw [hdispatch]
      trivial
    · rename_i hdispatch
      rw [hdispatch]
      trivial
    · cases hsuits

/-- The arguments of a request for a stack trace have no id. -/
theorem Careful.cast {q : RequestMessage V} {r : ResponseMessage V} {arguments : V}
    (hr : x.debugger.lifetime.session.run = .handle q r (.inspectCast .stackTrace)) :
    Careful w rt handshake packets args x
      (.debugger (.other (.run (.cast (.ok arguments)))) none) := by
  refine .debugger ?_ (fun q' r' i hr' => ?_) trivial
  · rintro b ⟨⟩ hgives
    cases hgives
  · cases hr.symm.trans hr'
    trivial

theorem careful_of_cautious {a : Action V N}
    (h : cautious w rt handshake packets x a = true) :
    Careful w rt handshake packets args x a := by
  unfold cautious at h
  split at h
  · have hprefix := of_decide_eq_true h
    exact .connection hprefix rfl
  · split at h
    · exact .connection trivial ‹_›
    · obtain rfl := eq_of_beq h
      exact .request trivial ‹_›
    · cases h
  · exact .connection rfl rfl
  · exact .connection trivial rfl
  · exact .start h
  · split at h
    · exact .acquire (by simp [DebugSession.Closing, *]) (Option.isSome_iff_ne_none.1 h)
    · cases h
  · obtain ⟨hsteady, hsuits⟩ := Bool.and_eq_true_iff.1 h
    exact .step (Bool.and_eq_true_iff.1 hsteady).1 hsuits
  · split at h
    · exact .cast ‹_›
    · cases h
  · exact .debugger (by rintro b ⟨⟩ hgives; cases hgives) trivial trivial
  · exact .debugger (by rintro b ⟨⟩ hgives; cases hgives) trivial trivial
  · exact .debugger (by rintro b ⟨⟩; trivial) trivial trivial
  · exact .debugger (by rintro b ⟨⟩; trivial) trivial trivial
  · exact .debugger (by rintro b ⟨⟩) trivial trivial
  · exact .debugger (by rintro b ⟨⟩) trivial trivial
  · cases h

end Cautious

/-- It is enough for an orderly step too, if that is no answer. -/
theorem orderly_of_cautious {handshake : Bytes} {packets : List Bytes}
    {encode : LuaStackTraceProvider.Answer → V} {a : Action V N}
    (h : cautious w rt handshake packets x a = true)
    (ha : ∀ result failed, a ≠ .debugger (.answer result) failed) :
    Orderly w handshake packets args encode x a where
  carries := by
    have hcareful : Careful w rt handshake packets args x a := careful_of_cautious h
    exact hcareful.carries
  faithful := by
    intro b hb
    cases a with
    | connection a =>
      simp only [debuggerMove] at hb
      split at hb <;> cases hb
      trivial
    | start => cases hb
    | debugger a failed =>
      cases hb
      rcases b with _ | result | b
      · trivial
      · exact absurd rfl (ha result failed)
      · cases b with
        | run input =>
          cases input with
          | step =>
            cases failed with
            | none =>
              simp only [cautious, Bool.and_eq_true] at h
              exact DebugSession.inspectSafe_of_steady h.1.2
            | some n => cases h
          | _ => trivial
        | _ => trivial

end LuaToolkit.RemoteDebugger
