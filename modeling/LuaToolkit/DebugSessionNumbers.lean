import LuaToolkit.DebugSessionProof
import LuaToolkit.Lib.Recorded
import LuaToolkit.Lib.Tickets

/-!
# Sequence numbers

Responses and events take their sequence numbers from one counter of 32 bits, and each thread has
a message under construction at most once. So the numbers of the messages are tickets.

* `Numbered` — the counter and the messages of a session, as numbers drawn and used.
* `nodup_seq` — the sequence numbers of fewer than 2^32 messages are different.
-/

namespace LuaToolkit

namespace Dap

def Message.seq {V : Type*} : Message V → UInt32
  | .event message => message.seq
  | .response message => message.seq

end Dap

namespace DebugSession

open Transition

variable {V : Type*} {rt : Runtime} {s s' : DebugSession V}

/-- The two threads that send messages. -/
inductive Sender where
  | run
  | lua
  deriving DecidableEq

instance : Fintype Sender where
  elems := {.run, .lua}
  complete x := by cases x <;> simp

instance : Nonempty Sender := ⟨.run⟩

/-- A number is drawn when a message is created, and used when it is sent. -/
def numberRecord (s : DebugSession V) : Action V → DebugSession V → Tickets Sender → Tickets Sender
  | .run _, _, t =>
    match s.run with
    | .request _ => t.draw .run
    | .respond _ => t.use .run
    | _ => t
  | .lua _, _, t =>
    match s.lua with
    | .event _ _ => t.draw .lua
    | .announce _ _ => t.use .lua
    | _ => t

abbrev numberSystem (V : Type*) (rt : Runtime) :
    System (DebugSession V × Tickets Sender) (Action V) :=
  (system V rt).recorded {} numberRecord

/-- The sequence number of the message that `Run` is about to send. -/
def runSeq (s : DebugSession V) : Option UInt32 :=
  match s.run with
  | .handle _ r _ | .respond r => some r.seq
  | _ => none

/-- The sequence number of the message that the Lua thread is about to send. -/
def luaSeq (s : DebugSession V) : Option UInt32 :=
  match s.lua with
  | .announce _ m => some m.seq
  | _ => none

/-- The counter and the messages of a session are those of the tickets. -/
structure Numbered (s : DebugSession V) (t : Tickets Sender) : Prop where
  sound : t.Sound
  next : s.seqId = UInt32.ofNat (t.drawn + 1)
  sent : s.sent.map Dap.Message.seq = t.used.map UInt32.ofNat
  /-- A number that `Run` does not get to use is that of a `Run` that has halted. -/
  run : s.run ≠ .halted → (t.hand .run).map UInt32.ofNat = runSeq s
  lua : (t.hand .lua).map UInt32.ofNat = luaSeq s

/-- A thread that has no message under construction holds no number. -/
theorem hand_eq_none {n : Option Nat} (h : n.map UInt32.ofNat = none) : n = none :=
  Option.map_eq_none_iff.1 h

theorem seqId_draw {t : Tickets Sender} (h : s.seqId = UInt32.ofNat (t.drawn + 1)) (x : Sender) :
    s.seqId + 1 = UInt32.ofNat ((t.draw x).drawn + 1) := by
  rw [h, Tickets.draw, UInt32.ofNat_add (t.drawn + 1) 1]
  rfl

/-- The number that was held is that of the message sent. -/
theorem sent_use {t : Tickets Sender} {x : Sender} {m : Dap.Message V}
    (h : s.sent.map Dap.Message.seq = t.used.map UInt32.ofNat)
    (hx : (t.hand x).map UInt32.ofNat = some m.seq) :
    (s.sent ++ [m]).map Dap.Message.seq = (t.use x).used.map UInt32.ofNat := by
  obtain ⟨n, hn, heq⟩ := Option.map_eq_some_iff.1 hx
  simp [Tickets.use, hn, h, heq]

theorem runSeq_goesOn {q : Dap.RequestMessage V} {r : Dap.ResponseMessage V} {p : HandlerPoint V}
    (h : GoesOn q r p s'.run) (hne : s'.run ≠ .halted) : runSeq s' = some r.seq := by
  unfold runSeq
  generalize s'.run = point at h hne ⊢
  cases h with
  | halts => exact absurd rfl hne
  | _ => rfl

theorem runSeq_receive (result : Except String (Option (IncomingMessage V))) :
    runSeq { s with run := receiveMessage result } = none := by
  rcases receiveMessage_cases result with ⟨exit, heq⟩ | ⟨q, heq⟩ | heq <;>
    simp [runSeq, heq]

theorem seqId_run {i : RunInput V} (hs : RunStep rt s i s') (hq : ∀ q, s.run ≠ .request q) :
    s'.seqId = s.seqId := by
  cases hs with
  | request hr => exact absurd hr (hq _)
  | handle hr hstep =>
    cases hstep with
    | assertFails => simp
    | _ => rfl
  | _ => rfl

theorem numbered_run {t : Tickets Sender} {i : RunInput V} (h : Numbered s t)
    (hs : RunStep rt s i s') : Numbered s' (numberRecord s (.run i) s' t) := by
  have hlua : (t.hand .lua).map UInt32.ofNat = luaSeq s' := by
    unfold luaSeq
    rw [(runStep_shared hs).1]
    exact h.lua
  have hseq := seqId_run hs
  have hsent := sent_run hs
  have hkeep : (∀ q, s.run ≠ .request q) → (∀ r, s.run ≠ .respond r) →
      (s'.run ≠ .halted → s.run ≠ .halted ∧ runSeq s' = runSeq s) → Numbered s' t := by
    intro hq hr hrun
    obtain ⟨heq, -⟩ := hsent.resolve_right fun ⟨r, hr', _⟩ => hr r hr'
    exact {
      sound := h.sound
      next := (hseq hq).trans h.next
      sent := heq ▸ h.sent
      run := fun hne => (h.run (hrun hne).1).trans (hrun hne).2.symm
      lua := hlua }
  cases hs with
  | request hr =>
    have hnone := hand_eq_none ((h.run (by simp [hr])).trans (by simp [runSeq, hr]))
    simp only [numberRecord, hr]
    exact {
      sound := h.sound.draw hnone
      next := seqId_draw h.next _
      sent := h.sent
      run := fun _ => by simp [Tickets.draw, runSeq, Dap.ResponseMessage.create, h.next]
      lua := by simpa [Tickets.draw] using hlua }
  | @sent r hr | @sendThrows r hr =>
    have hsome : (t.hand .run).map UInt32.ofNat = some r.seq :=
      (h.run (by simp [hr])).trans (by simp [runSeq, hr])
    obtain ⟨n, hn, -⟩ := Option.map_eq_some_iff.1 hsome
    simp only [numberRecord, hr]
    exact {
      sound := h.sound.use hn
      next := h.next
      sent := sent_use h.sent hsome
      run := fun _ => by simp [Tickets.use, runSeq]
      lua := by simpa [Tickets.use] using hlua }
  | @handle q r p _ _ hr hstep =>
    simp only [numberRecord, hr]
    refine hkeep (by simp [hr]) (by simp [hr]) fun hne => ⟨by simp [hr], ?_⟩
    rw [runSeq_goesOn hstep.goesOn hne, runSeq, hr]
  | receive hr result =>
    simp only [numberRecord, hr]
    refine hkeep (by simp [hr]) (by simp [hr]) fun _ => ⟨by simp [hr], ?_⟩
    rw [runSeq_receive, runSeq, hr]
  | start hr | again hr | closed hr =>
    simp only [numberRecord, hr]
    refine hkeep (by simp [hr]) (by simp [hr]) fun _ => ⟨by simp [hr], ?_⟩
    simp only [runSeq, hr]

theorem numbered_lua {t : Tickets Sender} {i : LuaInput V} (h : Numbered s t)
    (hs : LuaStep rt s i s') : Numbered s' (numberRecord s (.lua i) s' t) := by
  have hrun : s'.run ≠ .halted → (t.hand .run).map UInt32.ofNat = runSeq s' := by
    unfold runSeq
    rw [(luaStep_run hs).1]
    exact h.run
  have hsent := sent_lua hs
  have hkeep : (∀ k ev, s.lua ≠ .event k ev) → (∀ k m, s.lua ≠ .announce k m) →
      s'.seqId = s.seqId → luaSeq s' = luaSeq s →
        Numbered s' (numberRecord s (.lua i) s' t) := by
    intro hev hl hseq hlua
    obtain ⟨heq, -⟩ := hsent.resolve_right fun ⟨k, m, hl', _⟩ => hl k m hl'
    have hrecord : numberRecord s (.lua i) s' t = t := by
      simp only [numberRecord]
    rw [hrecord]
    exact {
      sound := h.sound
      next := hseq.trans h.next
      sent := heq ▸ h.sent
      run := hrun
      lua := h.lua.trans hlua.symm }
  cases hs with
  | event hl =>
    have hnone := hand_eq_none (h.lua.trans (by simp [luaSeq, hl]))
    simp only [numberRecord, hl]
    exact {
      sound := h.sound.draw hnone
      next := seqId_draw h.next _
      sent := h.sent
      run := fun hne => by simpa [Tickets.draw] using hrun hne
      lua := by simp [Tickets.draw, luaSeq, h.next] }
  | @announce k m hl =>
    have hsome : (t.hand .lua).map UInt32.ofNat = some m.seq :=
      h.lua.trans (by simp [luaSeq, hl])
    obtain ⟨n, hn, -⟩ := Option.map_eq_some_iff.1 hsome
    simp only [numberRecord, hl]
    exact {
      sound := h.sound.use hn
      next := h.next
      sent := sent_use h.sent hsome
      run := fun hne => by simpa [Tickets.use] using hrun hne
      lua := by simp [Tickets.use, luaSeq] }
  | notFree hl | noMode hl =>
    unfold stopAssertFailed at hkeep ⊢
    split_ifs at hkeep ⊢
    · exact hkeep (by simp [hl]) (by simp [hl]) rfl (by simp [luaSeq, hl, scopeLeave])
    · exact hkeep (by simp [hl]) (by simp [hl]) rfl (by simp [luaSeq, hl])
  | _ =>
    have hl := ‹s.lua = _›
    exact hkeep (by simp [hl]) (by simp [hl]) rfl (by simp [luaSeq, hl, scopeLeave])

theorem numbered_of_reachable {t : Tickets Sender} (h : (numberSystem V rt).Reachable (s, t)) :
    Numbered s t := by
  refine System.Reachable.recorded (fun s hs => ?_) (fun s t a s' hi hstep => ?_) h
  · rw [show s = {} from hs]
    exact {
      sound := Tickets.sound_init
      next := rfl
      sent := rfl
      run := fun _ => rfl
      lua := rfl }
  · cases a with
    | run i => exact numbered_run hi (runStep_iff.1 hstep)
    | lua i => exact numbered_lua hi (luaStep_iff.1 hstep)

/-- **Sequence numbers.** They are pairwise different as long as fewer than 2^32 messages have been
sent. -/
theorem nodup_seq (h : (system V rt).Reachable s) (hlt : s.sent.length < UInt32.size) :
    (s.sent.map Dap.Message.seq).Nodup := by
  obtain ⟨s₀, hinit, hrun⟩ := h
  obtain ⟨t, hrun'⟩ : ∃ t, (numberSystem V rt).Run (fun _ _ => True) (s₀, {}) (s, t) :=
    hrun.recorded ({} : Tickets Sender)
  have hn : Numbered s t := numbered_of_reachable ⟨(s₀, {}), ⟨hinit, rfl⟩, hrun'⟩
  have hlength : t.used.length = s.sent.length := by
    simpa using (congrArg List.length hn.sent).symm
  have hnodup := hn.sound.nodup_mod (N := UInt32.size) (by
    rw [hlength]
    exact Nat.succ_le_succ hlt)
  rw [hn.sent]
  refine List.Nodup.of_map UInt32.toNat ?_
  rw [List.map_map]
  exact hnodup

end DebugSession

end LuaToolkit
