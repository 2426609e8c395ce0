import LuaToolkit.RemoteDebugger
import LuaToolkit.SessionBreakpoints

/-!
# From the client's packets to its breakpoints

The controller's tables hold what the session has made of the client's requests, and the requests
are what the connection has made of the client's bytes. So it is the packets that decide where the
Lua thread stops.

* `Application.requested` — what a request asks of the breakpoint tables.
* `Sets` — the settings made are those that the first of the requests read ask for.
* `Deployed` — they are those that the first packets ask for, and the hook stops there.
* `deployed_of_run` — this holds however the bytes are cut and the threads take turns.
-/

namespace LuaToolkit

open Dap Transition

variable {V : Type*} {rt : Runtime} {app : Application V}

/-! ## What the requests ask for -/

/-- A request, and what it asks of the breakpoint tables. -/
def Application.requested (app : Application V) (rt : Runtime) (q : RequestMessage V) :
    Option (RequestMessage V × BreakpointCall) :=
  (app.breakpointCall q (rt.dispatch q.command)).map fun call => (q, call)

/-- The settings, without the answers. -/
def Setting.asked (settings : List (Setting V)) : List (RequestMessage V × BreakpointCall) :=
  settings.map fun x => (x.message, x.call)

namespace DebugSession

variable {s s' : DebugSession V} {d : Dialogue V}

/-- What a statement of a handler asks of the tables. -/
def asks (app : Application V) (s : DebugSession V) :
    Action V → List (RequestMessage V × BreakpointCall)
  | .lua _ => []
  | .run _ =>
    match s.run with
    | .handle q _ p => ((app.breakpointCall q p).map fun call => (q, call)).toList
    | _ => []

/-- The request whose handler has called the controller, if it does so at all. -/
def Called (s : DebugSession V) (l : List (RequestMessage V)) : Prop :=
  match s.run with
  | .handle _ _ (.controller _) => l = []
  | .handle q _ _ => l = [q]
  | .halted => True
  | _ => l = []

/-- The calls made are those that the first of the requests read ask for. -/
def Sets (rt : Runtime) (app : Application V) (s : DebugSession V) (d : Dialogue V)
    (calls : List (RequestMessage V × BreakpointCall)) : Prop :=
  ∃ l, Called s l ∧ d.outcomes.map Prod.fst ++ l <+: d.read.filterMap request? ∧
    calls = (d.outcomes.map Prod.fst ++ l).filterMap (app.requested rt)

theorem asks_of_ne_handle {a : Action V} (h : ∀ q r p, s.run ≠ .handle q r p) :
    asks app s a = [] := by
  unfold asks
  split
  · rfl
  · split
    · exact absurd ‹_› (h _ _ _)
    · rfl

theorem requested_of_ne_controller {q : RequestMessage V}
    (h : ∀ call, (rt.dispatch q.command : HandlerPoint V) ≠ .controller call) :
    app.requested rt q = none := by
  unfold Application.requested Application.breakpointCall
  split <;> first | exact absurd ‹_› (h _) | rfl

/-- A handler has called the controller after the statement that does so, and before all others. -/
theorem called_handler {q : RequestMessage V} {r : ResponseMessage V} {p : HandlerPoint V}
    {i : RunInput V} (hr : s.run = .handle q r p) (hs : HandlerStep rt q r s p i s') :
    ∃ l, Called s' l ∧ (Dialogue.record s (.run i) s' d).outcomes.map Prod.fst ++ l =
      d.outcomes.map Prod.fst ++ [q] := by
  have hgoes : (∃ r', s'.run = .respond r') ∨ Called s' [q] ∧ ∀ r', s'.run ≠ .respond r' := by
    cases hs with
    | controllerThrows | disconnectThrows | castThrows | answerThrows | done => exact .inl ⟨_, rfl⟩
    | assertFails =>
      unfold assertFailed
      cases rt.failedAssert with
      | some what => exact .inl ⟨_, rfl⟩
      | none => exact .inr ⟨trivial, nofun⟩
    | derefs => exact .inr ⟨trivial, nofun⟩
    | _ => exact .inr ⟨rfl, nofun⟩
  rcases hgoes with ⟨r', hr'⟩ | ⟨hcalled, hne⟩
  · exact ⟨[], by simp [Called, hr'], by simp [Dialogue.record, Dialogue.ran, hr, hr']⟩
  · refine ⟨[q], hcalled, ?_⟩
    simp only [Dialogue.record, Dialogue.ran, hr]

/-- What a handler asks of the tables is what its request asks for. -/
theorem calls_handler {q : RequestMessage V} {r : ResponseMessage V} {p : HandlerPoint V}
    (hplaced : Placed rt s) (hr : s.run = .handle q r p) {l : List (RequestMessage V)}
    (hcalled : Called s l) (i : RunInput V) :
    l.filterMap (app.requested rt) ++ asks app s (.run i) = [q].filterMap (app.requested rt) := by
  have hp := hplaced q r p hr
  simp only [Called, hr] at hcalled
  simp only [asks, hr]
  cases p with
  | controller call =>
    have hd : (rt.dispatch q.command : HandlerPoint V) = .controller call := hp
    subst hcalled
    simp only [List.filterMap_cons, List.filterMap_nil, List.nil_append, Application.requested, hd]
    cases app.breakpointCall q (.controller call : HandlerPoint V) <;> rfl
  | _ =>
    obtain rfl := hcalled
    exact List.append_nil _

/-- A handler that does not call the controller first has nothing to ask. -/
theorem called_dispatch {q : RequestMessage V} {r : ResponseMessage V}
    (hr : s.run = .handle q r (rt.dispatch q.command)) :
    ∃ l, Called s l ∧ l <+: [q] ∧ l.filterMap (app.requested rt) = [] := by
  by_cases hd : ∃ call, (rt.dispatch q.command : HandlerPoint V) = .controller call
  · obtain ⟨call, hd⟩ := hd
    exact ⟨[], by simp [Called, hr, hd], List.nil_prefix, rfl⟩
  · have hne : ∀ call, (rt.dispatch q.command : HandlerPoint V) ≠ .controller call :=
      fun call h => hd ⟨call, h⟩
    refine ⟨[q], ?_, List.prefix_refl _, by simp [requested_of_ne_controller hne]⟩
    simp only [Called, hr]

/-- One step of a session. -/
theorem sets_step {calls : List (RequestMessage V × BreakpointCall)} {a : Action V}
    (hplaced : Placed rt s) (hserve : Serving rt s d) (h : Sets rt app s d calls)
    (hs : (system V rt).step a s = some s') :
    Sets rt app s' (Dialogue.record s a s' d) (calls ++ asks app s a) := by
  obtain ⟨l, hl, hpre, rfl⟩ := h
  obtain ⟨cur, hcur, hrequests⟩ := hserve.requests
  cases a with
  | lua i =>
    have hrun := (luaStep_run (luaStep_iff.1 hs)).1
    refine ⟨l, ?_, by simpa using hpre, by simp [asks]⟩
    unfold Called
    rw [hrun]
    exact hl
  | run i =>
    cases runStep_iff.1 hs with
    | @handle q r p _ _ hr hstep =>
      obtain ⟨l', hl', houtcomes⟩ := called_handler (d := d) hr hstep
      have hread : (Dialogue.record s (.run i) s' d).read = d.read := by
        simp only [Dialogue.record, Dialogue.ran, hr]
        split <;> rfl
      have hcurrent : cur = [q] := by simpa [Current, hr] using hcur
      refine ⟨l', hl', ?_, ?_⟩
      · rw [houtcomes, hread, hrequests, hcurrent]
      · rw [houtcomes, List.filterMap_append, List.filterMap_append, List.append_assoc,
          calls_handler hplaced hr hl]
    | start hr | sent hr | sendThrows hr | again hr | closed hr =>
      obtain rfl : l = [] := by simpa [Called, hr] using hl
      refine ⟨[], rfl, ?_, ?_⟩
      · simpa [Dialogue.record, Dialogue.ran, hr] using hpre
      · simp [Dialogue.record, Dialogue.ran, asks, hr]
    | receive hr result =>
      obtain rfl : l = [] := by simpa [Called, hr] using hl
      have hnext : Called { s with run := receiveMessage result } [] := by
        rcases receiveMessage_cases result with ⟨exit, heq⟩ | ⟨q, heq⟩ | heq <;> simp [Called, heq]
      refine ⟨[], hnext, ?_, ?_⟩
      · rcases result with what | _ | m
        · simpa [Dialogue.record, Dialogue.ran, hr] using hpre
        · simpa [Dialogue.record, Dialogue.ran, hr] using hpre
        · simpa [Dialogue.record, Dialogue.ran, hr] using hpre.trans (List.prefix_append _ _)
      · rcases result with what | _ | m <;> simp [Dialogue.record, Dialogue.ran, asks, hr]
    | @request q hr =>
      obtain rfl : l = [] := by simpa [Called, hr] using hl
      obtain ⟨l', hl', hpre', hnone⟩ : ∃ l', Called { s.nextSeqId with
          run := .handle q (.create s.seqId q) (rt.dispatch q.command) } l' ∧
            l' <+: [q] ∧ l'.filterMap (app.requested rt) = [] := called_dispatch rfl
      have hcurrent : cur = [q] := by simpa [Current, hr] using hcur
      refine ⟨l', hl', ?_, ?_⟩
      · simp only [Dialogue.record, Dialogue.ran, hr]
        rw [hrequests, hcurrent, List.prefix_append_right_inj]
        exact hpre'
      · simp [Dialogue.record, Dialogue.ran, asks, hr, hnone]

end DebugSession

/-- What a step adds to the settings is what the session asks for. -/
theorem SessionLifetime.asked_recordBreaks {ν : Type*} {P : PathEquality}
    (s : SessionLifetime V ν) (a : Action V ν) (s' : SessionLifetime V ν) (g : Breaks V ν) :
    Setting.asked (recordBreaks app P s a s' g).settings =
      Setting.asked g.settings ++ ((s.sessionMove a).map (s.session.asks app)).getD [] := by
  cases a with
  | run i =>
    have hsettings : Setting.asked (s.settings app P) = s.session.asks app (.run i) := by
      cases hr : s.session.run with
      | handle q r p =>
        simp only [settings_of_handle hr, DebugSession.asks, hr]
        cases app.breakpointCall q p <;> rfl
      | _ => simp [settings, DebugSession.asks, Setting.asked, hr]
    exact List.map_append.trans (congrArg _ hsettings)
  | event x =>
    simp only [recordBreaks]
    split <;> exact (List.append_nil _).symm
  | acquire =>
    simp only [recordBreaks, sessionMove]
    split <;> exact (List.append_nil _).symm
  | _ => exact (List.append_nil _).symm

namespace RemoteDebugger

variable {N : Type} [DecidableEq N] [LuaNumber N] {w : Wire V} {P : PathEquality}
  {args : InspectionArguments V} {x x' : RemoteDebugger V N}

/-! ## One run, seen from both sides -/

/-- What a step does to the session, its controller and the hook. -/
def lifetimeMove (w : Wire V) (x : RemoteDebugger V N) (a : Action V N) :
    Option (SessionLifetime.Action V (LuaValue N)) :=
  (debuggerMove w x a).bind fun b => some (x.debugger.lifetimeMove b)

theorem projects_lifetime (V : Type*) (N : Type) [DecidableEq N] [LuaNumber N] (w : Wire V)
    (rt : Runtime) (app : Application V) (P : PathEquality) (args : InspectionArguments V) :
    (system V N w rt app P args).Projects (SessionLifetime.system V (LuaValue N) rt app P)
      (fun x => x.debugger.lifetime) (lifetimeMove w) :=
  (projects_debugger V N w rt app P args).trans (Debugger.projects_lifetime V N rt app P args)

/-- With a record of the dialogue. -/
abbrev dialogueSystem (V : Type*) (N : Type) [DecidableEq N] [LuaNumber N] (w : Wire V)
    (rt : Runtime) (app : Application V) (P : PathEquality) (args : InspectionArguments V) :
    System (RemoteDebugger V N × DebugSession.Dialogue V) (Action V N) :=
  (system V N w rt app P args).recorded {} (System.Projects.recordMove connection connectionMove
    (System.Projects.recordMove Connection.session (Connection.move w)
      DebugSession.Dialogue.record))

/-- With a record of the settings and stops as well. -/
abbrev breakSystem (V : Type*) (N : Type) [DecidableEq N] [LuaNumber N] (w : Wire V)
    (rt : Runtime) (app : Application V) (P : PathEquality) (args : InspectionArguments V) :
    System ((RemoteDebugger V N × DebugSession.Dialogue V) × Breaks V (LuaValue N))
      (Action V N) :=
  (dialogueSystem V N w rt app P args).recorded {} (System.Projects.recordMove
    (fun y => y.1.debugger.lifetime) (fun y => lifetimeMove w y.1)
      (SessionLifetime.recordBreaks app P))

theorem sets_step {d : DebugSession.Dialogue V} {g : Breaks V (LuaValue N)} {a : Action V N}
    (hreach : (system V N w rt app P args).Reachable x)
    (hserve : DebugSession.Serving rt x.connection.session d)
    (h : DebugSession.Sets rt app x.connection.session d (Setting.asked g.settings))
    (hstep : (system V N w rt app P args).step a x = some x') :
    DebugSession.Sets rt app x'.connection.session
      (System.Projects.recordMove connection connectionMove (System.Projects.recordMove
        Connection.session (Connection.move w) DebugSession.Dialogue.record) x a x' d)
      (Setting.asked (System.Projects.recordMove (fun x : RemoteDebugger V N => x.debugger.lifetime)
        (lifetimeMove w) (SessionLifetime.recordBreaks app P) x a x' g).settings) := by
  have hjoined := joined_of_reachable hreach
  have hplaced := DebugSession.placed_of_reachable hserve.reachable
  have hconnection := Connection.projects_session w rt
  cases step_cases hstep with
  | @connection a c hc hm =>
    simp only [System.Projects.recordMove, connectionMove, lifetimeMove, debuggerMove, hm,
      Option.bind_none, hconnection.rests _ _ _ hc hm]
    exact h
  | @message a c d' result hc hm hd =>
    have hs := hconnection.moves _ _ _ _ hc hm
    have hstarted : x.started = true := by
      refine started_iff.2 fun hr => ?_
      simp [DebugSession.system, DebugSession.runStep, hr] at hs
    simp only [System.Projects.recordMove, connectionMove, lifetimeMove, debuggerMove, hm,
      Option.bind_some, SessionLifetime.asked_recordBreaks,
      ← session_of_started hjoined hstarted]
    exact DebugSession.sets_step hplaced hserve h hs
  | @start c hs hc =>
    have hs' := hconnection.moves _ _ _ _ hc rfl
    have hne : ∀ q r p, x.connection.session.run ≠ .handle q r p := by
      intro q r p hr
      have hstarted : x.started = true := started_iff.2 (by simp [hr])
      rw [hs] at hstarted
      cases hstarted
    have hsets := DebugSession.sets_step hplaced hserve h hs'
    rw [DebugSession.asks_of_ne_handle hne, List.append_nil] at hsets
    exact hsets
  | @debugger a failed d' hs hd hm =>
    have hnone : x.debugger.lifetime.sessionMove (x.debugger.lifetimeMove a) = none := hm
    simp only [System.Projects.recordMove, connectionMove, lifetimeMove, debuggerMove, hm,
      Option.map_none, Option.bind_some, SessionLifetime.asked_recordBreaks, hnone,
      Option.getD_none, List.append_nil]
    exact h
  | @session a b c d' failed hs hd hm hc =>
    have hs' := hconnection.moves _ _ _ _ hc rfl
    have hsome : x.debugger.lifetime.sessionMove (x.debugger.lifetimeMove a) = some b := hm
    simp only [System.Projects.recordMove, connectionMove, lifetimeMove, debuggerMove, hm,
      Option.map_some, Option.bind_some, SessionLifetime.asked_recordBreaks, hsome,
      Option.getD_some, ← session_of_started hjoined hs]
    exact DebugSession.sets_step hplaced hserve h hs'

/-! ## What the client has set -/

section Client

variable {handshake : Bytes} {packets : List Bytes} {qs : List (RequestMessage V)}
  {encode : List Breakpoint → V} {old : BreakpointLog}

/-- The connection carries what the client writes, and `Run` is told what the controller returns. -/
structure Conveys (w : Wire V) (rt : Runtime) (app : Application V) (P : PathEquality)
    (handshake : Bytes) (packets : List Bytes) (encode : List Breakpoint → V)
    (x : RemoteDebugger V N) (a : Action V N) : Prop where
  carries : ∀ b, connectionMove x a = some b →
    Connection.Carries handshake packets x.connection b
  conveys : ∀ b, lifetimeMove w x a = some b →
    SessionLifetime.Conveys rt app P encode x.debugger.lifetime b

/-- The debuggee stops where the packets of the client ask for it. -/
structure Deployed (rt : Runtime) (app : Application V) (P : PathEquality)
    (encode : List Breakpoint → V) (packets : List Bytes) (qs : List (RequestMessage V))
    (old : BreakpointLog) (x : RemoteDebugger V N) (g : Breaks V (LuaValue N)) : Prop where
  /-- The hook decides by the settings, and the client is told of the stops. -/
  debugged : SessionLifetime.Debugged rt app P encode old x.debugger.lifetime g
  /-- The settings are those that the first packets ask for, in their order; and each packet that
  has arrived whole is one of them when the reader waits. -/
  asked : ∃ n, Setting.asked g.settings = (qs.take n).filterMap (app.requested rt) ∧
    (x.connection.awaiting = true → ∀ k ≤ packets.length,
      (packets.take k).flatten <+: x.connection.received → k ≤ n)

theorem reaches_connection {d : DebugSession.Dialogue V}
    (h : (dialogueSystem V N w rt app P args).Reaches
      (fun y a => Conveys w rt app P handshake packets encode y.1 a) (x, d)) :
    (Connection.dialogueSystem w rt).Reaches
      (fun y a => Connection.Carries handshake packets y.1 a) (x.connection, d) :=
  ((projects_connection V N w rt app P args).recorded {} (System.Projects.recordMove
    Connection.session (Connection.move w) DebugSession.Dialogue.record)).reaches
      (fun _ hx => .init ⟨hx.1.1, hx.2⟩)
      (fun _ _ _ b _ hok _ hm => Conveys.carries hok b hm) h

theorem sets_of_run (hp : w.parser.Recognises) (hh : w.parser.IsPacket handshake)
    (hq : List.Forall₂ (Connection.Asks w) packets qs) {x₀ : RemoteDebugger V N}
    (h₀ : (system V N w rt app P args).init x₀) {d : DebugSession.Dialogue V}
    {g : Breaks V (LuaValue N)}
    (h : (breakSystem V N w rt app P args).Run
      (fun z a => Conveys w rt app P handshake packets encode z.1.1 a) ((x₀, {}), {})
        ((x, d), g)) :
    (dialogueSystem V N w rt app P args).Reaches
        (fun y a => Conveys w rt app P handshake packets encode y.1 a) (x, d) ∧
      DebugSession.Sets rt app x.connection.session d (Setting.asked g.settings) := by
  refine h.invariant (I := fun z => (dialogueSystem V N w rt app P args).Reaches
      (fun y a => Conveys w rt app P handshake packets encode y.1 a) z.1 ∧
    DebugSession.Sets rt app z.1.1.connection.session z.1.2 (Setting.asked z.2.settings)) ?_ ?_
  · rintro ⟨⟨x, d⟩, g⟩ a ⟨⟨x', d'⟩, g'⟩ ⟨hreach, hsets⟩ hok hstep
    obtain ⟨hd, rfl⟩ := System.recorded_step_iff.1 hstep
    obtain ⟨hx, rfl⟩ := System.recorded_step_iff.1 hd
    have hserve := Connection.serving_of_reaches hp hh hq (reaches_connection hreach)
    exact ⟨hreach.step hok hd, sets_step hreach.of_recorded.reachable hserve hsets hx⟩
  · refine ⟨.init ⟨h₀, rfl⟩, [], ?_, List.nil_prefix, rfl⟩
    rw [h₀.1]
    rfl

/-- **Deployment.** However its bytes are cut and the threads take turns, the debuggee of a client
stops where its packets ask for it. -/
theorem deployed_of_run (hp : w.parser.Recognises) (hc : w.parser.ReadsContentLength)
    (hh : w.parser.IsPacket handshake) (hq : List.Forall₂ (Connection.Asks w) packets qs)
    {t : Stepping (LuaValue N)} (ht : (Stepping.logSystem (LuaValue N) P).Reachable (t, old))
    {x₀ : RemoteDebugger V N} (hconnection : x₀.connection = {}) (hlifetime : x₀.debugger.lifetime =
      { session := { run := .receive }, controller := t.controller.setSession 0 })
    (h : (system V N w rt app P args).Run (Conveys w rt app P handshake packets encode) x₀ x) :
    ∃ g, (SessionLifetime.breakSystem V (LuaValue N) rt app P).Run
        (fun y a => SessionLifetime.Conveys rt app P encode y.1 a) (x₀.debugger.lifetime, {})
          (x.debugger.lifetime, g) ∧
      Deployed rt app P encode packets qs old x g := by
  obtain ⟨d, hd⟩ : ∃ d, (dialogueSystem V N w rt app P args).Run
    (fun y a => Conveys w rt app P handshake packets encode y.1 a) (x₀, {}) (x, d) := h.recorded _
  obtain ⟨g, hg⟩ : ∃ g, (breakSystem V N w rt app P args).Run
    (fun z a => Conveys w rt app P handshake packets encode z.1.1 a) ((x₀, {}), {}) ((x, d), g) :=
      hd.recorded _
  have hbreaks : (SessionLifetime.breakSystem V (LuaValue N) rt app P).Run
      (fun y a => SessionLifetime.Conveys rt app P encode y.1 a) (x₀.debugger.lifetime, {})
        (x.debugger.lifetime, g) :=
    (((System.Projects.of_recorded _ _ _).trans (projects_lifetime V N w rt app P args)).recorded {}
      (SessionLifetime.recordBreaks app P)).run (fun _ _ b hok hm => hok.conveys b hm) hg
  obtain ⟨hreach, hsets⟩ := sets_of_run hp hh hq ⟨hconnection, t, ht.of_recorded, hlifetime⟩ hg
  have hdialogue := reaches_connection hreach
  obtain ⟨hdel, hcar⟩ := Connection.carried_of_reaches hp hh hdialogue
  have hserve := Connection.serving_of_reaches hp hh hq hdialogue
  obtain ⟨l, -, hpre, hcalls⟩ := hsets
  obtain ⟨xs, -, hrequests, -⟩ := hcar.requests hp hq hdel
  have hfirst : d.outcomes.map Prod.fst ++ l <+: qs :=
    (hrequests ▸ hpre).trans (List.take_prefix _ _)
  refine ⟨g, hbreaks, ?_, (d.outcomes.map Prod.fst ++ l).length, ?_, fun ha k hk harrived => ?_⟩
  · rw [hlifetime] at hbreaks
    obtain ⟨hlife, hkept⟩ := SessionLifetime.kept_of_run ht hbreaks
    exact hkept.debugged (SessionLifetime.attached_of_reachable hlife)
  · rw [hcalls, ← List.prefix_iff_eq_take.1 hfirst]
  · have hprompt := (hcar.conversation hp hc hq hdel hserve).prompt ha k hk harrived
    have hresponses := hserve.responses.length_eq
    simp only [List.length_append, List.length_map] at hresponses ⊢
    omega

end Client

end RemoteDebugger

end LuaToolkit
