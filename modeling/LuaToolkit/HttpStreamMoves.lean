import LuaToolkit.HttpRoundTrip
import Mathlib.Data.List.Induction
import Mathlib.Data.List.Infix

/-!
# Moves inside the buffer

`PopLastPacketBytes` moves the bytes behind the last packet to the front of the buffer, and does so
with `memcpy`, whose two ranges must not overlap. How many bytes there are is up to the peer and to
the chunks that its bytes come in.

* `stream`, `unread` — a stream after some calls, and what the calls have brought and not taken.
* `MovesApart` — the next removal keeps to the precondition of `memcpy`.
* `movesApart_iff` — in all states of a history it does exactly when no packet is handed out in
  front of more bytes than its own.
-/

namespace LuaToolkit

/-- The size that is computed for the packet at the front, when that many bytes are there. -/
def HttpParser.frontSize (p : HttpParser) (b : Bytes) : Option Nat :=
  (p.headersLength b).bind fun h =>
    let size := (h + p.contentLength b) % sizeBound
    if b.length < size then none else some size

namespace HttpStream

variable {p : HttpParser} {s : HttpStream}

/-! ## Histories -/

inductive Call where
  | append (bytes : Bytes)
  | get
  deriving DecidableEq, Repr

def call (p : HttpParser) (s : HttpStream) : Call → HttpStream
  | .append bytes => s.appendBytes bytes
  | .get => (s.getNextPacket p).2

/-- A fresh stream after some calls. -/
def stream (p : HttpParser) (calls : List Call) : HttpStream := calls.foldl (call p) fresh

/-- The bytes that the calls have appended, without the packets that they have returned. -/
def unread (p : HttpParser) (calls : List Call) : Bytes :=
  calls.foldl (fun b c => match c with
    | .append bytes => b ++ bytes
    | .get => b.drop ((p.frontSize b).getD 0)) []

theorem stream_concat (p : HttpParser) (calls : List Call) (c : Call) :
    stream p (calls ++ [c]) = (stream p calls).call p c := by
  simp [stream, List.foldl_append]

theorem getNextPacket_snd (p : HttpParser) (s : HttpStream) :
    (s.getNextPacket p).2.inboundBuffer = s.pending ∧
      (s.getNextPacket p).2.lastPacketSize = (p.frontSize s.pending).getD 0 := by
  unfold HttpParser.frontSize
  cases hh : p.headersLength s.pending with
  | none =>
    have hnone : ∀ h, p.headersLength s.pending ≠ some h := by simp [hh]
    rw [getNextPacket_empty fun h hk => absurd hk (hnone h)]
    exact ⟨rfl, rfl⟩
  | some h =>
    by_cases hlt : s.pending.length < (h + p.contentLength s.pending) % sizeBound
    · have hshort : ∀ k, p.headersLength s.pending = some k →
          s.pending.length < (k + p.contentLength s.pending) % sizeBound := by
        intro k hk
        rw [hh] at hk
        cases hk
        exact hlt
      rw [getNextPacket_empty hshort]
      simp [hlt]
    · rw [getNextPacket_full hh (Nat.le_of_not_lt hlt)]
      simp [hlt]

/-- What is pending in a stream is what its calls leave unread. -/
theorem pending_stream (p : HttpParser) (calls : List Call) :
    (stream p calls).pending = unread p calls := by
  induction calls using List.reverseRecOn with
  | nil => rfl
  | append_singleton calls c ih =>
    rw [stream_concat]
    cases c with
    | append bytes =>
      rw [call, pending_appendBytes, ih]
      simp [unread, List.foldl_append]
    | get =>
      obtain ⟨hbuffer, hlast⟩ := getNextPacket_snd p (stream p calls)
      rw [call, pending, hbuffer, hlast, ih]
      simp [unread, List.foldl_append]

/-! ## The ranges -/

/-- When `PopLastPacketBytes` calls `memcpy`, the places that it reads and those that it writes are
different ones. -/
def MovesApart (s : HttpStream) : Prop :=
  let newSize := s.inboundBuffer.length - s.lastPacketSize
  s.lastPacketSize ≠ 0 → ∀ i < newSize, ∀ j < newSize, s.lastPacketSize + i ≠ j

/-- There is room in the place of the last packet for the bytes behind it. -/
theorem movesApart_iff_le :
    s.MovesApart ↔ (s.lastPacketSize ≠ 0 → s.pending.length ≤ s.lastPacketSize) := by
  have hlength : s.pending.length = s.inboundBuffer.length - s.lastPacketSize := by
    rw [pending, List.length_drop]
  unfold MovesApart
  rw [hlength]
  refine forall_congr' fun _ => ⟨fun h => ?_, fun h i _ j hj heq => ?_⟩
  · by_contra hlt
    exact h 0 (by omega) s.lastPacketSize (by omega) rfl
  · omega

/-- Behind the packet at the front, if there is one, there are no more bytes than its own. -/
def Outweighs (p : HttpParser) (b : Bytes) : Prop :=
  ∀ size, p.frontSize b = some size → size ≠ 0 → b.length ≤ 2 * size

theorem movesApart_append (s : HttpStream) (bytes : Bytes) : (s.appendBytes bytes).MovesApart := by
  intro hlast
  exact absurd (congrArg lastPacketSize (popLastPacketBytes_eq s)) hlast

theorem movesApart_get : (s.getNextPacket p).2.MovesApart ↔ Outweighs p s.pending := by
  obtain ⟨hbuffer, hlast⟩ := getNextPacket_snd p s
  rw [movesApart_iff_le, pending, hbuffer, hlast, List.length_drop]
  unfold Outweighs
  cases p.frontSize s.pending with
  | none => simp
  | some size =>
    simp only [Option.getD_some, Option.some.injEq, forall_eq']
    exact imp_congr_right fun _ => by omega

/-- **Room for the rest.** In all states of a history the ranges of `memcpy` are apart exactly when
every call of `GetNextPacket` that returns a packet finds no more than its size behind it. -/
theorem movesApart_iff (p : HttpParser) (calls : List Call) :
    (∀ front, front <+: calls → (stream p front).MovesApart) ↔
      ∀ front, front ++ [.get] <+: calls → Outweighs p (unread p front) := by
  induction calls using List.reverseRecOn with
  | nil =>
    refine ⟨fun _ front hfront => ?_, fun _ front hfront => ?_⟩
    · simp at hfront
    · rw [List.prefix_nil.1 hfront]
      exact fun hlast => absurd rfl hlast
  | append_singleton calls c ih =>
    have hlatest : (stream p (calls ++ [c])).MovesApart ↔
        (c = .get → Outweighs p (unread p calls)) := by
      rw [stream_concat]
      cases c with
      | append bytes => simp [call, movesApart_append]
      | get => simp [call, movesApart_get, pending_stream]
    have hstates : (∀ front, front <+: calls ++ [c] → (stream p front).MovesApart) ↔
        (∀ front, front <+: calls → (stream p front).MovesApart) ∧
          (stream p (calls ++ [c])).MovesApart := by
      simp only [List.prefix_concat_iff, or_imp, forall_and, forall_eq]
      exact and_comm
    have hcalls : (∀ front, front ++ [.get] <+: calls ++ [c] → Outweighs p (unread p front)) ↔
        (∀ front, front ++ [.get] <+: calls → Outweighs p (unread p front)) ∧
          (c = .get → Outweighs p (unread p calls)) := by
      simp only [List.prefix_concat_iff, or_imp, forall_and]
      rw [and_comm]
      refine and_congr_right' ⟨fun h hc => h calls (by rw [hc]), fun h front heq => ?_⟩
      obtain ⟨rfl, hc⟩ := List.append_inj' heq rfl
      exact h (List.singleton_inj.1 hc).symm
    rw [hstates, hcalls, ih, hlatest]

/-- A packet without a body, and one with 20 bytes that has come with it. -/
def pipelinedBytes : Bytes :=
  ascii "Content-Length: 0\r\n\r\nContent-Length: 20\r\n\r\n" ++ List.replicate 20 32

/-- The first packet is handed out in front of 42 bytes and has 21. -/
theorem not_movesApart :
    ¬ (stream HttpParser.plain [.append pipelinedBytes, .get]).MovesApart := by
  rw [movesApart_iff_le]
  decide

end HttpStream

end LuaToolkit
