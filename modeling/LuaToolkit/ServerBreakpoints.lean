import LuaToolkit.RemoteBreakpoints
import LuaToolkit.Server

/-!
# The breakpoints of many clients

Each client sets breakpoints of its own, in the tables of its own controller. While its controller
is in the global, the Lua thread stops where this client's packets ask for it, whatever the packets
of the other clients are.

* `deploys_of_reaches` — so it is for a client of a server, whatever its other clients do.
-/

namespace LuaToolkit.Server

open Dap Transition

variable {V : Type*} {N : Type} [DecidableEq N] [LuaNumber N] {w : Wire V} {rt : Runtime}
  {app : Application V} {P : PathEquality} {args : InspectionArguments V} {s : Server V N}
  {handshake : Bytes} {packets : List Bytes} {qs : List (RequestMessage V)}
  {encode : List Breakpoint → V}

/-- **Breakpoints.** Where the connection of a client carries what it writes and its session is told
what its controller returns, the hook decides for it by the breakpoints that its packets ask for,
all of them when its reader waits, and tells it of its stops. The other clients may do anything. -/
theorem deploys_of_reaches (hp : w.parser.Recognises) (hc : w.parser.ReadsContentLength)
    (hh : w.parser.IsPacket handshake) (hq : List.Forall₂ (Connection.Asks w) packets qs)
    (i : Nat) (x : RemoteDebugger V N) (hi : s.clients[i]? = some x)
    (h : (system V N w rt app P args).Reaches
      (Of i (RemoteDebugger.Conveys w rt app P handshake packets encode)) s) :
    ∃ g, (SessionLifetime.breakSystem V (LuaValue N) rt app P).Run
        (fun y a => SessionLifetime.Conveys rt app P encode y.1 a)
          ({ session := { run := .receive }
             controller := ({} : LuaDebugSessionController).setSession 0 }, {})
          (x.debugger.lifetime, g) ∧
      RemoteDebugger.Deployed rt app P encode packets qs [] x g := by
  have hstore : (Stepping.logSystem (LuaValue N) P).Reachable ({}, []) := .init ⟨rfl, rfl⟩
  obtain ⟨y, ⟨heap, provider, rfl⟩, hrun⟩ := run_client h hi
  exact RemoteDebugger.deployed_of_run hp hc hh hq hstore rfl rfl hrun

/-- A check that is enough for a step of the first client that conveys. -/
def conveying (s : Server Unit Int64) (a : Action Unit Int64) : Bool :=
  cautious s a &&
    match a with
    | .client 0 (.debugger (.other (.run (.controller _))) _) =>
      match (s.clients[0]?).map fun x => x.debugger.lifetime.session.run with
      | some (RunPoint.handle _ _ (.controller .setBreakpoints)) => true
      | _ => false
    | _ => true

theorem conveys_of_conveying {s : Server Unit Int64} {a : Action Unit Int64}
    (h : conveying s a = true) : Of 0 (RemoteDebugger.Conveys breakpointWire
      DebugSession.plainRuntime (SessionLifetime.plainApplication false) Stepping.exactPaths
      sampleHandshake [samplePacket] fun _ => ()) s a := by
  obtain ⟨hcautious, hcheck⟩ := Bool.and_eq_true_iff.1 h
  intro b x hm hi
  have hcareful := (careful_of_cautious (by decide) hcautious).2 b x hm hi
  refine ⟨hcareful.carries, fun c hc => ?_⟩
  cases b with
  | connection b =>
    simp only [RemoteDebugger.lifetimeMove, RemoteDebugger.debuggerMove] at hc
    split at hc <;> cases hc
    trivial
  | start => cases hc
  | debugger b failed =>
    cases hc
    rcases b with _ | _ | b
    · trivial
    · trivial
    · cases b with
      | run input =>
        cases input with
        | controller result =>
          cases a with
          | client =>
            cases hm
            simp only [hi, Option.map_some] at hcheck
            rintro q r p hr
            have hr' : x.debugger.lifetime.session.run = .handle q r p := hr
            rw [hr'] at hcheck
            split at hcheck
            · rename_i heq
              cases heq
              cases result with
              | ok value => rfl
              | error what => simp [cautious, hi, RemoteDebugger.cautious] at hcautious
            · cases hcheck
          | accept | noClient => cases hm
        | _ => trivial
      | _ => trivial

/-- The Lua thread is stopped for the first client, whose packet has set one breakpoint, and another
client's connection is broken. -/
theorem deploys_of_reaches_threeClients :
    ∃ (s : Server Unit Int64) (x z : RemoteDebugger Unit Int64)
        (g : Breaks Unit (LuaValue Int64)),
      s.clients[0]? = some x ∧ s.clients[2]? = some z ∧ z.connection.point = .closed ∧
        x.connection.session.lua = .execute 0 ∧ g.settings.length = 1 ∧
          RemoteDebugger.Deployed DebugSession.plainRuntime (SessionLifetime.plainApplication false)
            Stepping.exactPaths (fun _ => ()) [samplePacket]
            [⟨7, "setBreakpoints", ()⟩] [] x g := by
  let T := system Unit Int64 breakpointWire DebugSession.plainRuntime
    (SessionLifetime.plainApplication false) Stepping.exactPaths Debugger.plainArguments
  obtain ⟨s, hreach, x, z, hi, hz, hclosed, hlua, hwaits, hreceived⟩ : ∃ s, T.Reaches
      (Of 0 (RemoteDebugger.Conveys breakpointWire DebugSession.plainRuntime
        (SessionLifetime.plainApplication false) Stepping.exactPaths sampleHandshake [samplePacket]
        fun _ => ())) s ∧ ∃ x z, s.clients[0]? = some x ∧ s.clients[2]? = some z ∧
          z.connection.point = .closed ∧ x.connection.session.lua = .execute 0 ∧
            x.connection.awaiting = true ∧ x.connection.received = samplePacket :=
    ⟨_, ⟨{}, rfl, .of_guarded (fun _ _ => conveys_of_conveying)
      (show (T.guarded conveying).exec threeClients _ = some _ by rfl)⟩, _, _, by rfl, by rfl,
      by rfl, by rfl, by rfl, by rfl⟩
  obtain ⟨g, -, hdeployed⟩ := deploys_of_reaches HttpParser.plain_recognises
    HttpParser.plain_readsContentLength isPacket_sampleHandshake asks_setBreakpoints 0 x hi hreach
  obtain ⟨n, hasked, hall⟩ := hdeployed.asked
  have hn : 1 ≤ n := hall hwaits 1 (Nat.le_refl 1) (by simp [hreceived])
  refine ⟨s, x, z, g, hi, hz, hclosed, hlua, ?_, hdeployed⟩
  rw [List.take_of_length_le hn] at hasked
  have hlength := congrArg List.length hasked
  rwa [Setting.asked, List.length_map] at hlength

end LuaToolkit.Server
