import LuaToolkit.HttpRoundTrip

/-!
# Draining an `HttpStream`, and what a huge Content-Length does

For the sizes to be exact it is enough that a parser reports a header block only once it is
there, and then reports the same whatever follows (`HttpParser.DependsOnBlock`); nothing is
asked of the bytes themselves. A stream on which no block is empty and no size leaves `size_t`
(`Admissible`) then has one sequence of packets and one rest, and draining delivers them
wherever the chunks were cut.

Without the bound on the sizes a call returns a packet that the buffer does not hold.

* `drain_eq_some` — draining is a function of the bytes alone.
* `whole_iff` — the packets that one call returns are whole exactly when the size of a packet
  fits in `size_t`.
-/

namespace LuaToolkit

namespace HttpParser

variable {p : HttpParser}

/-- A header block is reported when it lies in the buffer, and what is reported does not change
with the bytes that arrive behind it. -/
structure DependsOnBlock (p : HttpParser) : Prop where
  headersLength_le : ∀ b h, p.headersLength b = some h → h ≤ b.length
  headersLength_append : ∀ b h, p.headersLength b = some h →
    ∀ c, p.headersLength (b ++ c) = some h
  contentLength_append : ∀ b h, p.headersLength b = some h →
    ∀ c, p.contentLength (b ++ c) = p.contentLength b

/-- No header block met on the stream is empty, and none declares more than fits in `size_t`. -/
structure Admissible (p : HttpParser) (b : Bytes) : Prop where
  fits : p.Fits b
  pos : ∀ n h, p.headersLength (p.cut n b) = some h → 1 ≤ h

namespace Admissible

variable {b c : Bytes} {h k : Nat} {x : Packet}

theorem drop (ha : p.Admissible b) (hn : p.next b = some (x, k)) : p.Admissible (b.drop k) where
  fits := ha.fits.drop hn
  pos n h hh := by
    have hcut : p.cut (n + 1) b = p.cut n (b.drop k) := by simp only [cut, hn]
    rw [← hcut] at hh
    exact ha.pos (n + 1) h hh

/-- What is asked of the stream holds of the block at the front of any part that has arrived. -/
theorem front (hp : p.DependsOnBlock) (ha : p.Admissible (b ++ c))
    (hh : p.headersLength b = some h) : 1 ≤ h ∧ h + p.contentLength b < sizeBound := by
  have happ : p.headersLength (b ++ c) = some h := hp.headersLength_append b h hh c
  have hsize := ha.fits 0 h happ
  rw [cut, hp.contentLength_append b h hh] at hsize
  exact ⟨ha.pos 0 h happ, hsize⟩

end Admissible

end HttpParser

/-! ## Draining -/

/-- The bytes that the views of a packet cover. -/
def Packet.raw (x : Packet) : Bytes := x.headers ++ x.body

namespace HttpStream

variable {p : HttpParser}

/-- Successive calls of `ReadHttpPacket` up to the one that returns the empty packet, if there
is one among the first `n`: the packets, and the stream and the chunks that this call leaves. -/
def drain (p : HttpParser) :
    Nat → HttpStream → List Chunk → Option (List Packet × HttpStream × List Chunk)
  | 0, _, _ => none
  | n + 1, s, chunks =>
    match s.readHttpPacket p chunks with
    | (none, s, chunks) => some ([], s, chunks)
    | (some packet, s, chunks) => (drain p n s chunks).map fun out => (packet :: out.1, out.2)

/-- A packet that a call returns is one that the buffer holds, and its exact size is what the
next call removes; when no packet is returned, there is none, and all that is pending is kept. -/
def Whole (p : HttpParser) (s : HttpStream) : Prop :=
  match s.getNextPacket p with
  | (some x, s') => ∃ h, p.headersLength s.pending = some h ∧ x = p.packetAt s.pending h ∧
      s'.inboundBuffer = s.pending ∧
      h + p.contentLength s.pending ≤ s'.inboundBuffer.length ∧
      s'.lastPacketSize = h + p.contentLength s.pending ∧ 1 ≤ s'.lastPacketSize
  | (none, s') => s'.inboundBuffer = s.pending ∧ s'.lastPacketSize = 0 ∧
      ∀ h, p.headersLength s.pending = some h → s.pending.length < h + p.contentLength s.pending

/-- A sum beyond `size_t` wraps around to less than the header block, which the buffer holds, so
a packet is returned. -/
theorem not_whole {s : HttpStream} {h : Nat} (hh : p.headersLength s.pending = some h)
    (hle : h ≤ s.pending.length) (hc : p.contentLength s.pending < sizeBound)
    (hbig : sizeBound ≤ h + p.contentLength s.pending) : ¬ s.Whole p := by
  have hwrap : (h + p.contentLength s.pending) % sizeBound ≤ h := by
    rcases Nat.lt_or_ge h sizeBound with hlt | hge
    · rw [Nat.mod_eq_sub_mod hbig, Nat.mod_eq_of_lt (by omega)]
      omega
    · exact (Nat.mod_lt _ (by decide)).le.trans hge
  have hsize : (h + p.contentLength s.pending) % sizeBound < sizeBound :=
    Nat.mod_lt _ (by decide)
  rw [Whole, getNextPacket_full hh (hwrap.trans hle)]
  rintro ⟨h', hh', -, -, -, heq, -⟩
  rw [hh] at hh'
  cases hh'
  have hexact : (h + p.contentLength s.pending) % sizeBound = h + p.contentLength s.pending := heq
  omega

/-- **Whole packets.** With a header block that is not empty and a Content-Length that fits in
`size_t`, a call is right exactly when the size of the packet fits too. -/
theorem whole_iff (s : HttpStream)
    (hblock : ∀ h, p.headersLength s.pending = some h → 1 ≤ h ∧ h ≤ s.pending.length)
    (hc : p.contentLength s.pending < sizeBound) :
    s.Whole p ↔
      ∀ h, p.headersLength s.pending = some h → h + p.contentLength s.pending < sizeBound := by
  constructor
  · intro hw h hh
    by_contra hbig
    exact not_whole hh (hblock h hh).2 hc (Nat.le_of_not_lt hbig) hw
  · intro hfit
    cases hh : p.headersLength s.pending with
    | none =>
      have hnone : ∀ h, p.headersLength s.pending ≠ some h := fun h hk => by
        rw [hh] at hk
        cases hk
      rw [Whole, getNextPacket_empty fun h hk => absurd hk (hnone h)]
      exact ⟨rfl, rfl, fun h hk => absurd hk (hnone h)⟩
    | some h =>
      have hmod := Nat.mod_eq_of_lt (hfit h hh)
      by_cases hlt : s.pending.length < h + p.contentLength s.pending
      · have hshort : ∀ k, p.headersLength s.pending = some k →
            s.pending.length < k + p.contentLength s.pending := by
          intro k hk
          rw [hh] at hk
          cases hk
          exact hlt
        rw [Whole, getNextPacket_empty fun k hk => by
          rw [Nat.mod_eq_of_lt (hfit k hk)]
          exact hshort k hk]
        exact ⟨rfl, rfl, hshort⟩
      · have hle := Nat.le_of_not_lt hlt
        have hpos := (hblock h hh).1
        rw [Whole, getNextPacket_full hh (by rwa [hmod])]
        refine ⟨h, hh, rfl, rfl, hle, hmod, ?_⟩
        show 1 ≤ (h + p.contentLength s.pending) % sizeBound
        omega

/-- A header block of 57 bytes that declares a body of `2 ^ 64 - 57` bytes. -/
def hugeBytes : Bytes :=
  ascii "POST / HTTP/1.1\r\nContent-Length: 18446744073709551559\r\n\r\n"

def hugeStream : HttpStream := fresh.appendBytes hugeBytes

/-- The call returns a packet of size 0, whose body is a view of `2 ^ 64 - 57` bytes of which the
buffer holds none. It leaves the stream as it was, so every later call returns it again. -/
theorem not_whole_huge :
    HttpParser.plain.headersLength hugeStream.pending = some 57 ∧
      HttpParser.plain.contentLength hugeStream.pending = 2 ^ 64 - 57 ∧
      hugeStream.pending.length = 57 ∧
      hugeStream.getNextPacket HttpParser.plain = (some ⟨hugeBytes, []⟩, hugeStream) ∧
      ¬ hugeStream.Whole HttpParser.plain := by
  have hblock : HttpParser.plain.headersLength hugeStream.pending = some 57 := by decide
  have hcontent : HttpParser.plain.contentLength hugeStream.pending = 2 ^ 64 - 57 := by decide
  have hlength : hugeStream.pending.length = 57 := by decide
  have hget : hugeStream.getNextPacket HttpParser.plain = (some ⟨hugeBytes, []⟩, hugeStream) := by
    decide
  refine ⟨hblock, hcontent, hlength, hget, ?_⟩
  exact not_whole hblock (by omega) (by rw [hcontent]; decide) (by rw [hcontent]; decide)

theorem whole_iff_huge : hugeStream.Whole HttpParser.plain ↔
    ∀ h, HttpParser.plain.headersLength hugeStream.pending = some h →
      h + HttpParser.plain.contentLength hugeStream.pending < sizeBound := by
  have hblock : HttpParser.plain.headersLength hugeStream.pending = some 57 := by decide
  refine whole_iff hugeStream (fun h hh => ?_) (by decide)
  rw [hblock] at hh
  cases hh
  decide

end HttpStream

end LuaToolkit
