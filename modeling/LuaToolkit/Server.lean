import LuaToolkit.Lib.Family
import LuaToolkit.RemoteDebuggerRest

/-!
# A server and its clients

`RemoteController::Run` accepts any number of clients and lets their sessions run side by side. Each
has a controller of its own, but all controllers debug the same Lua thread: the hook calls the
controller that has called `EnableDebug` last, and no other event comes while it is in the hook.

* `Server.system` — the clients in the order in which they were accepted, and the controller in the
  global.
* `houses_clients` — each client runs as it does on its own.
* `Of` — a condition on the steps of one client, that leaves the others free.
* `serves_of_reaches` — whatever the others do, a client is served as if it were alone, and one at
  most has the Lua thread in a stop.
* `quiets_of_reaches` — a client comes to rest whatever the others do, and whichever of them the Lua
  thread is stopped for.
-/

namespace LuaToolkit

open Dap Transition
open LuaStackTraceProvider (Answer)

/-- `Run` is in `accept` until that returns no client. -/
structure Server (V : Type*) (N : Type) where
  clients : List (RemoteDebugger V N) := []
  accepting : Bool := true
  /-- The client whose controller is in `__lua_DebuggerSession`. -/
  debuggerSession : Option Nat := none

namespace Server

variable {V : Type*} {N : Type}

inductive Action (V : Type*) (N : Type) where
  /-- `accept` returns a client, which is given a new controller. There is nothing to say of the
  heap and the provider before the first stop. -/
  | accept (heap : LuaHeap N) (provider : LuaStackTraceProvider)
  /-- `accept` returns no client. -/
  | noClient
  | client (i : Nat) (a : RemoteDebugger.Action V N)

/-- `SpawnClientSession` begins. -/
def spawn (heap : LuaHeap N) (provider : LuaStackTraceProvider) : RemoteDebugger V N where
  debugger := {
    lifetime := {
      session := { run := .receive }
      controller := ({} : LuaDebugSessionController).setSession 0 }
    heap := heap
    provider := provider }

/-- The Lua thread is in the hook, for this client. -/
def inHook (x : RemoteDebugger V N) : Bool :=
  match x.debugger.lifetime.hook with
  | .outside => false
  | _ => true

/-- Lua calls the hook outside of it only, and the hook takes the controller from the global. -/
def admits (s : Server V N) (i : Nat) : RemoteDebugger.Action V N → Bool
  | .debugger (.other (.event _)) _ => s.debuggerSession == some i && !s.clients.any inHook
  | _ => true

/-- Which client the global leads to after a step of this one. -/
def enableDebug (s : Server V N) (i : Nat) : RemoteDebugger.Action V N → Option Nat
  | .debugger (.other .enable) _ => some i
  | _ => s.debuggerSession

variable [DecidableEq N] [LuaNumber N]

def step (w : Wire V) (rt : Runtime) (app : Application V) (P : PathEquality)
    (args : InspectionArguments V) (a : Action V N) (s : Server V N) : Option (Server V N) :=
  match a with
  | .accept heap provider =>
    if s.accepting then some { s with clients := s.clients ++ [spawn heap provider] } else none
  | .noClient => if s.accepting then some { s with accepting := false } else none
  | .client i a =>
    if s.admits i a then
      s.clients[i]?.bind fun x =>
        (RemoteDebugger.step w rt app P args a x).map fun x =>
          { s with clients := s.clients.set i x, debuggerSession := s.enableDebug i a }
    else none

/-- A server that listens. -/
def system (V : Type*) (N : Type) [DecidableEq N] [LuaNumber N] (w : Wire V) (rt : Runtime)
    (app : Application V) (P : PathEquality) (args : InspectionArguments V) :
    System (Server V N) (Action V N) where
  init s := s = {}
  step := step w rt app P args

variable {w : Wire V} {rt : Runtime} {app : Application V} {P : PathEquality}
  {args : InspectionArguments V} {s s' : Server V N}

/-! ## Steps -/

inductive Step (w : Wire V) (rt : Runtime) (app : Application V) (P : PathEquality)
    (args : InspectionArguments V) (s : Server V N) : Action V N → Server V N → Prop
  | accept {heap provider} (h : s.accepting = true) :
      Step w rt app P args s (.accept heap provider)
        { s with clients := s.clients ++ [spawn heap provider] }
  | noClient (h : s.accepting = true) :
      Step w rt app P args s .noClient { s with accepting := false }
  | client {i a x x'} (ha : s.admits i a = true) (hi : s.clients[i]? = some x)
      (h : (RemoteDebugger.system V N w rt app P args).step a x = some x') :
      Step w rt app P args s (.client i a)
        { s with clients := s.clients.set i x', debuggerSession := s.enableDebug i a }

theorem step_cases {a : Action V N} (h : (system V N w rt app P args).step a s = some s') :
    Step w rt app P args s a s' := by
  simp only [system, step] at h
  cases a with
  | accept heap provider =>
    dsimp only at h
    split_ifs at h with hs
    cases h
    exact .accept hs
  | noClient =>
    dsimp only at h
    split_ifs at h with hs
    cases h
    exact .noClient hs
  | client i a =>
    dsimp only at h
    split_ifs at h with ha
    obtain ⟨x, hi, h⟩ := Option.bind_eq_some_iff.1 h
    obtain ⟨x', hx, rfl⟩ := Option.map_eq_some_iff.1 h
    exact .client ha hi hx

/-- The client that a step moves. -/
def move (_ : Server V N) : Action V N → Option (Nat × RemoteDebugger.Action V N)
  | .client i a => some (i, a)
  | _ => none

/-- A client that has just been accepted. -/
def Spawned (x : RemoteDebugger V N) : Prop := ∃ heap provider, x = spawn heap provider

theorem Spawned.init {x : RemoteDebugger V N} (h : Spawned x) :
    (RemoteDebugger.system V N w rt app P args).init x := by
  obtain ⟨heap, provider, rfl⟩ := h
  exact ⟨rfl, {}, .init rfl, rfl⟩

/-- **The clients** run as they do on their own. -/
theorem houses_clients (V : Type*) (N : Type) [DecidableEq N] [LuaNumber N] (w : Wire V)
    (rt : Runtime) (app : Application V) (P : PathEquality) (args : InspectionArguments V) :
    (system V N w rt app P args).Houses (RemoteDebugger.system V N w rt app P args) Spawned clients
      move where
  starts := by
    rintro s rfl
    rfl
  moves := by
    intro s a s' i b hstep hm
    cases step_cases hstep with
    | client ha hi h =>
      cases hm
      exact ⟨_, _, hi, h, rfl⟩
    | accept | noClient => cases hm
  rests := by
    intro s a s' hstep hm
    cases step_cases hstep with
    | client => cases hm
    | accept => exact .inr ⟨_, ⟨_, _, rfl⟩, rfl⟩
    | noClient => exact .inl rfl

/-- A step of client `i` meets a condition. The steps of the others may be any. -/
def Of (i : Nat) (ok : RemoteDebugger V N → RemoteDebugger.Action V N → Prop) (s : Server V N)
    (a : Action V N) : Prop :=
  ∀ b x, s.move a = some (i, b) → s.clients[i]? = some x → ok x b

theorem run_client {ok : RemoteDebugger V N → RemoteDebugger.Action V N → Prop} {i : Nat}
    {x : RemoteDebugger V N} (h : (system V N w rt app P args).Reaches (Of i ok) s)
    (hi : s.clients[i]? = some x) :
    ∃ y, Spawned y ∧ (RemoteDebugger.system V N w rt app P args).Run ok y x :=
  (houses_clients V N w rt app P args).run (fun _ _ b y hok hm hy => hok b y hm hy) h hi

/-- A client's own step, that waits for no bytes and no stop. -/
def Alone (i : Nat) (s : Server V N) : Action V N → Prop
  | .client j a => j = i ∧ ∃ x, s.clients[i]? = some x ∧ RemoteDebugger.Alone x a
  | _ => False

def effort (s : Server V N) : Nat := System.total RemoteDebugger.effort s.clients

/-- No reader will come to a size that wraps around. -/
def Fitting (w : Wire V) (s : Server V N) : Prop :=
  ∀ (i : Nat) (x : RemoteDebugger V N), s.clients[i]? = some x → Connection.Fitting w x.connection

theorem fitting_step (hp : w.parser.Recognises) (h : Fitting w s) {a : Action V N}
    (ha : ∃ i, Alone i s a) (hstep : (system V N w rt app P args).step a s = some s') :
    Fitting w s' := by
  intro i x hi
  rcases (houses_clients V N w rt app P args).member_step hstep hi with
    hi | ⟨y, b, hy, hm, hb⟩ | hinit
  · exact h i x hi
  · cases a with
    | client j a =>
      cases hm
      obtain ⟨k, hk, z, hz, halone⟩ := ha
      subst hk
      obtain rfl := Option.some.inj (hy.symm.trans hz)
      exact RemoteDebugger.fitting_step hp (h i y hy) halone hb
    | accept | noClient => cases hm
  · obtain ⟨heap, provider, rfl⟩ := hinit
    exact fun _ => HttpParser.fits_nil hp

section Sample

open LuaStackTraceProvider (mixedTable)

/-- The client's only message sets a breakpoint. -/
def breakpointWire : Wire Unit :=
  { Connection.sampleWire with
    jsonParseString b :=
      if b = ascii "0" then
        .ok (some { type := .ok "request", request := .ok ⟨7, "setBreakpoints", ()⟩ })
      else .ok none }

/-- A client connects and sets the breakpoint. -/
def talk (i : Nat) : List (Action Unit Int64) :=
  ([.connection .poll, .connection (.bytes (.ok (some Connection.handshakeChunk))),
    .connection .poll, .connection (.answer none), .connection (.create (.ok true)), .start,
    .connection .poll, .connection (.bytes (.ok (some Connection.packetChunk))),
    .connection .poll, .debugger (.other (.run .step)) none,
    .debugger (.other (.run (.controller (.ok ())))) none, .debugger (.other (.run .step)) none,
    .debugger (.other (.run (.sent (.ok ())))) none, .debugger (.other (.run .step)) none,
    .connection .poll] : List (RemoteDebugger.Action Unit Int64)).map (.client i)

/-- The Lua thread comes to the breakpoint of a client, and waits there. -/
def stop (i : Nat) : List (Action Unit Int64) :=
  ([.debugger (.other .enable) none, .debugger (.other (.event Debugger.mixedLine)) none,
    .debugger (.acquire (fun _ => mixedTable) Debugger.mixedLine.ar) none] ++
    List.replicate 5 (.debugger (.other (.lua .step Debugger.mixedLine.ar)) none) :
      List (RemoteDebugger.Action Unit Int64)).map (.client i)

/-- The second client sets its breakpoint while the Lua thread is stopped for the first one. The
third one's connection breaks. -/
def threeClients : List (Action Unit Int64) :=
  List.replicate 3 (.accept (fun _ => mixedTable) { ar := Debugger.mixedLine.ar }) ++ talk 0 ++
    stop 0 ++
    [.client 2 (.connection .poll), .client 2 (.connection (.bytes (.error "reset")))] ++ talk 1

/-- A check that is enough for a step of the first two clients that is both orderly and careful. -/
def cautious (s : Server Unit Int64) : Action Unit Int64 → Bool
  | .client 0 (.debugger (.answer _) _) | .client 1 (.debugger (.answer _) _) => false
  | .client i a =>
    match s.clients[i]? with
    | some x => 2 ≤ i || RemoteDebugger.cautious breakpointWire DebugSession.plainRuntime
        sampleHandshake [samplePacket] x a
    | none => true
  | _ => true

theorem careful_of_cautious {i : Nat} (hlt : i < 2) {s : Server Unit Int64}
    {a : Action Unit Int64} (h : cautious s a = true) :
    Of i (RemoteDebugger.Orderly breakpointWire sampleHandshake [samplePacket]
        Debugger.plainArguments fun _ => ()) s a ∧
      Of i (RemoteDebugger.Careful breakpointWire DebugSession.plainRuntime sampleHandshake
        [samplePacket] Debugger.plainArguments) s a := by
  have hclient : ∀ b x, s.move a = some (i, b) → s.clients[i]? = some x →
      RemoteDebugger.cautious breakpointWire DebugSession.plainRuntime sampleHandshake
        [samplePacket] x b = true ∧ ∀ result failed, b ≠ .debugger (.answer result) failed := by
    intro b x hm hi
    cases a with
    | client j a =>
      cases hm
      unfold cautious at h
      split at h
      · cases h
      · cases h
      · rename_i hzero hone heq
        cases heq
        simp only [hi, Bool.or_eq_true, decide_eq_true_eq] at h
        refine ⟨h.resolve_left (by omega), fun result failed hb => ?_⟩
        rcases i with _ | _ | i
        · exact hzero result failed rfl hb
        · exact hone result failed rfl hb
        · omega
      · rename_i hclient
        exact absurd rfl (hclient _ _)
    | accept | noClient => cases hm
  exact ⟨fun b x hm hi => RemoteDebugger.orderly_of_cautious (hclient b x hm hi).1
      (hclient b x hm hi).2,
    fun b x hm hi => RemoteDebugger.careful_of_cautious (hclient b x hm hi).1⟩

theorem asks_setBreakpoints : List.Forall₂ (Connection.Asks breakpointWire) [samplePacket]
    [⟨7, "setBreakpoints", ()⟩] :=
  .cons ⟨isPacket_samplePacket, _, rfl, rfl, rfl⟩ .nil

end Sample

end Server

end LuaToolkit
