import LuaToolkit.HttpStream

/-!
# `HttpStream` reads frames

Two things stand between the code and a plain cutter of frames: the bytes of the packet handed
out last stay in the buffer until the next call, and the size of a packet is computed modulo
`2 ^ 64`. The first is a matter of where the unread bytes start (`pending`); the second does
not show as long as no header block met on the stream declares more than a `size_t` can hold
(`Fits`).

* `HttpParser.framing` — the frames that a parser describes, by their exact sizes.
* `getNextPacket_of_none`, `getNextPacket_of_some` — one call, in terms of that framing.
* `readHttpPackets_eq` — successive calls of `ReadHttpPacket` return the frames ahead.
-/

namespace LuaToolkit

/-! ## `memcpy` and the removal of the last packet -/

/-- Copying downwards in ascending order reads every byte before it is overwritten. -/
theorem getElem?_memcpy (buf : Bytes) (dst k n : Nat) (hk : 0 < k)
    (hn : dst + k + n ≤ buf.length) (i : Nat) :
    (memcpy buf dst (dst + k) n)[i]? = if dst ≤ i ∧ i < dst + n then buf[i + k]? else buf[i]? := by
  induction n generalizing buf dst with
  | zero =>
    rw [memcpy, if_neg (by omega)]
  | succ n ih =>
    have hsrc : dst + k + 1 = dst + 1 + k := by omega
    rw [memcpy, hsrc, ih _ _ (by simp only [List.length_set]; omega)]
    have hget : (buf.set dst (buf[dst + k]?.getD 0))[dst]? = buf[dst + k]? := by
      rw [List.getElem?_set_self (by omega), List.getElem?_eq_getElem (by omega)]
      rfl
    by_cases hi : i = dst
    · subst i
      rw [if_neg (by omega), if_pos (by omega), hget]
    · rw [List.getElem?_set_ne (Ne.symm hi)]
      by_cases hin : dst + 1 ≤ i ∧ i < dst + 1 + n
      · rw [if_pos hin, if_pos (by omega), List.getElem?_set_ne (by omega)]
      · rw [if_neg hin, if_neg (by omega)]

/-- Moving the bytes behind a packet to the front of the buffer drops the packet. -/
theorem take_memcpy (buf : Bytes) (k : Nat) (hk : 0 < k) (hle : k ≤ buf.length) :
    (memcpy buf 0 k (buf.length - k)).take (buf.length - k) = buf.drop k := by
  apply List.ext_getElem?
  intro i
  have hcopy := getElem?_memcpy buf 0 k (buf.length - k) hk (by omega) i
  rw [Nat.zero_add] at hcopy
  rw [List.getElem?_take, List.getElem?_drop, hcopy]
  by_cases hi : i < buf.length - k
  · rw [if_pos hi, if_pos (by omega), Nat.add_comm]
  · rw [if_neg hi, List.getElem?_eq_none (by omega)]

namespace HttpStream

/-- The bytes behind the packet handed out last. -/
def pending (s : HttpStream) : Bytes := s.inboundBuffer.drop s.lastPacketSize

@[simp] theorem pending_fresh : fresh.pending = [] := rfl

theorem popLastPacketBytes_eq (s : HttpStream) :
    s.popLastPacketBytes = ⟨s.pending, 0, Nat.zero_le _⟩ := by
  obtain ⟨buf, last, hle⟩ := s
  unfold popLastPacketBytes pending
  by_cases h0 : last = 0
  · subst h0
    rfl
  · have hpos : 0 < last := Nat.pos_of_ne_zero h0
    simp only [h0, ↓reduceIte]
    by_cases hsize : 0 < buf.length - last
    · simp only [hsize, ↓reduceIte, take_memcpy buf last hpos hle]
    · have hall : buf.length - last = 0 := by omega
      have hdrop : buf.drop last = [] := List.drop_eq_nil_of_le (by omega)
      simp [hall, hdrop]

@[simp] theorem pending_appendBytes (s : HttpStream) (bytes : Bytes) :
    (s.appendBytes bytes).pending = s.pending ++ bytes := by
  simp [appendBytes, popLastPacketBytes_eq, pending]

end HttpStream

/-! ## The frames that a parser describes -/

namespace HttpParser

variable {p : HttpParser}

theorem Recognises.split (hp : p.Recognises) {b : Bytes} {h : Nat}
    (hh : p.headersLength b = some h) :
    ∃ pre post, b.dropInfix? blankLine = some (pre, post) ∧ h = pre.length + 4 ∧
      b = pre ++ blankLine ++ post := by
  rw [hp.headersLength_eq] at hh
  obtain ⟨⟨pre, post⟩, hx, hlen⟩ := Option.map_eq_some_iff.1 hh
  exact ⟨pre, post, hx, hlen.symm, List.dropInfix?_eq_append hx⟩

theorem Recognises.headersLength_append (hp : p.Recognises) {b : Bytes} {h : Nat}
    (hh : p.headersLength b = some h) (c : Bytes) : p.headersLength (b ++ c) = some h := by
  obtain ⟨pre, post, hx, hlen, -⟩ := hp.split hh
  rw [hp.headersLength_eq, List.dropInfix?_append hx]
  simp [hlen, blankLine]

theorem Recognises.headersLength_pos (hp : p.Recognises) {b : Bytes} {h : Nat}
    (hh : p.headersLength b = some h) : 0 < h := by
  obtain ⟨pre, post, -, hlen, -⟩ := hp.split hh
  omega

/-- The packet whose header block and body lie at the front of `b`. -/
def packetAt (p : HttpParser) (b : Bytes) (h : Nat) : Packet :=
  ⟨b.take h, (b.drop h).take (p.contentLength b)⟩

/-- The complete packet at the front, with its exact size. -/
def next (p : HttpParser) (b : Bytes) : Option (Packet × Nat) :=
  match p.headersLength b with
  | none => none
  | some h =>
    if b.length < h + p.contentLength b then none
    else some (p.packetAt b h, h + p.contentLength b)

theorem next_eq_some_iff {b : Bytes} {x : Packet} {k : Nat} :
    p.next b = some (x, k) ↔ ∃ h, p.headersLength b = some h ∧ k = h + p.contentLength b ∧
      k ≤ b.length ∧ x = p.packetAt b h := by
  unfold next
  constructor
  · intro hn
    cases hh : p.headersLength b with
    | none => simp [hh] at hn
    | some h =>
      simp only [hh] at hn
      split_ifs at hn with hlt
      cases hn
      exact ⟨h, rfl, rfl, by omega, rfl⟩
  · intro hn
    obtain ⟨h, hh, rfl, hle, rfl⟩ := hn
    simp only [hh]
    rw [if_neg (by omega)]

theorem packetAt_append {b c : Bytes} {h : Nat} (hc : p.contentLength (b ++ c) = p.contentLength b)
    (hle : h + p.contentLength b ≤ b.length) : p.packetAt (b ++ c) h = p.packetAt b h := by
  rw [packetAt, packetAt, hc, List.take_append_of_le_length (by omega),
    List.drop_append_of_le_length (by omega), List.take_append_of_le_length]
  simp only [List.length_drop]
  omega

theorem size_le_of_next {b : Bytes} {x : Packet} {k : Nat} (hn : p.next b = some (x, k)) :
    k ≤ b.length := by
  obtain ⟨h, -, -, hle, -⟩ := next_eq_some_iff.1 hn
  exact hle

/-- A complete packet stays at the front when the header block is seen alike behind it. -/
theorem next_append {b c : Bytes} {x : Packet} {k : Nat}
    (hstable : ∀ h, p.headersLength b = some h →
      p.headersLength (b ++ c) = some h ∧ p.contentLength (b ++ c) = p.contentLength b)
    (hn : p.next b = some (x, k)) : p.next (b ++ c) = some (x, k) := by
  obtain ⟨h, hh, hk, hle, rfl⟩ := next_eq_some_iff.1 hn
  obtain ⟨hlength, hcontent⟩ := hstable h hh
  refine next_eq_some_iff.2 ⟨h, hlength, by rw [hcontent, hk], ?_, ?_⟩
  · simp only [List.length_append]
    omega
  · rw [packetAt_append hcontent (by omega)]

/-- The packets of a connection, as frames. -/
def framing (p : HttpParser) (hp : p.Recognises) : Framing UInt8 Packet where
  next := p.next
  size_pos := by
    intro b x k hn
    obtain ⟨h, hh, rfl, -, -⟩ := next_eq_some_iff.1 hn
    have := hp.headersLength_pos hh
    omega
  size_le := by
    intro b x k hn
    exact size_le_of_next hn
  next_append := by
    intro b x k hn c
    exact next_append (fun h hh =>
      ⟨hp.headersLength_append hh c, hp.contentLength_append b h hh c⟩) hn

/-! ## Whole packets -/

/-- A header block with exactly the body it declares, of a size that a `size_t` can hold. -/
def IsPacket (p : HttpParser) (b : Bytes) : Prop :=
  b.length < sizeBound ∧ ∃ h, p.headersLength b = some h ∧ h + p.contentLength b = b.length

/-- The views into the bytes of a packet. -/
def packetOf (p : HttpParser) (b : Bytes) : Packet := p.packetAt b ((p.headersLength b).getD 0)

theorem IsPacket.next_append (hp : p.Recognises) {b : Bytes} (hb : p.IsPacket b) (c : Bytes) :
    p.next (b ++ c) = some (p.packetOf b, b.length) := by
  obtain ⟨-, h, hh, hlen⟩ := hb
  refine (p.framing hp).next_append (next_eq_some_iff.2 ⟨h, hh, hlen.symm, le_rfl, ?_⟩) c
  rw [packetOf, hh]
  rfl

/-- A packet that has only partly arrived is not recognised. -/
theorem IsPacket.next_front {t more : Bytes} (hp : p.Recognises) (hb : p.IsPacket (t ++ more))
    (hmore : more ≠ []) : p.next t = none := by
  cases hn : p.next t with
  | none => rfl
  | some xk =>
    obtain ⟨x, k⟩ := xk
    have hle := (p.framing hp).size_le hn
    have hwhole := (p.framing hp).next_append hn more
    have heq := hb.next_append hp []
    rw [List.append_nil] at heq
    have hk : k = (t ++ more).length := by
      have := hwhole.symm.trans heq
      simpa using congrArg (fun o => o.map Prod.snd) this
    have hpos := List.length_pos_of_ne_nil hmore
    simp only [List.length_append] at hk
    omega

/-! ## Sizes that a `size_t` can hold -/

/-- What a stream looks like after some of its packets have been cut off. -/
def cut (p : HttpParser) : Nat → Bytes → Bytes
  | 0, b => b
  | n + 1, b =>
    match p.next b with
    | none => b
    | some (_, k) => cut p n (b.drop k)

/-- Every header block met on the stream has, with the body it declares, a `size_t` size. -/
def Fits (p : HttpParser) (b : Bytes) : Prop :=
  ∀ n h, p.headersLength (p.cut n b) = some h → h + p.contentLength (p.cut n b) < sizeBound

theorem Fits.drop {b : Bytes} {x : Packet} {k : Nat} (hf : p.Fits b)
    (hn : p.next b = some (x, k)) : p.Fits (b.drop k) := by
  intro n h hh
  have hcut : p.cut (n + 1) b = p.cut n (b.drop k) := by simp only [cut, hn]
  have := hf (n + 1) h
  rw [hcut] at this
  exact this hh

/-- A header block seen in a prefix of the stream is the one the stream starts with. -/
theorem Fits.front {b c : Bytes} {h : Nat} (hf : p.Fits (b ++ c)) (hp : p.Recognises)
    (hh : p.headersLength b = some h) : h + p.contentLength b < sizeBound := by
  have := hf 0 h (hp.headersLength_append hh c)
  rwa [cut, hp.contentLength_append b h hh] at this

theorem Fits.of_append {b c : Bytes} (hf : p.Fits (b ++ c)) (hp : p.Recognises) : p.Fits b := by
  intro n
  induction n generalizing b with
  | zero => exact fun h hh => hf.front hp hh
  | succ n ih =>
    cases hn : p.next b with
    | none =>
      simp only [cut, hn]
      exact fun h hh => hf.front hp hh
    | some xk =>
      obtain ⟨x, k⟩ := xk
      have hrest : p.Fits (b.drop k ++ c) := by
        rw [← Framing.drop_append_of_next (F := p.framing hp) hn]
        exact hf.drop ((p.framing hp).next_append hn c)
      simp only [cut, hn]
      exact ih hrest

theorem Fits.of_cuts {b r : Bytes} {xs : List Packet} (hf : p.Fits b) (hp : p.Recognises)
    (h : (p.framing hp).Cuts b xs r) : p.Fits r := by
  induction h with
  | nil => exact hf
  | concat _ hn ih => exact ih.drop hn

theorem fits_of_none {b : Bytes} (hn : p.next b = none)
    (hfit : ∀ h, p.headersLength b = some h → h + p.contentLength b < sizeBound) : p.Fits b := by
  intro n
  have hcut : p.cut n b = b := by
    cases n with
    | zero => rfl
    | succ n => simp only [cut, hn]
  rw [hcut]
  exact hfit

theorem headersLength_nil (hp : p.Recognises) : p.headersLength [] = none := by
  rw [hp.headersLength_eq]
  rfl

theorem next_nil (hp : p.Recognises) : p.next [] = none := by
  simp only [next, headersLength_nil hp]

theorem fits_nil (hp : p.Recognises) : p.Fits [] := by
  refine fits_of_none (next_nil hp) fun h hh => ?_
  rw [headersLength_nil hp] at hh
  exact absurd hh.symm (Option.some_ne_none h)

theorem IsPacket.fits_front {t more : Bytes} (hp : p.Recognises) (hb : p.IsPacket (t ++ more))
    (hmore : more ≠ []) : p.Fits t := by
  refine fits_of_none (hb.next_front hp hmore) fun h hh => ?_
  obtain ⟨hlt, h', hh', hlen⟩ := hb
  have heq := (hp.headersLength_append hh more).symm.trans hh'
  cases heq
  rw [hp.contentLength_append t h hh] at hlen
  omega

/-- Packets in front of a stream that fits. -/
theorem fits_flatten (hp : p.Recognises) {bs : List Bytes} (hbs : ∀ b ∈ bs, p.IsPacket b)
    {tail : Bytes} (ht : p.Fits tail) : p.Fits (bs.flatten ++ tail) := by
  induction bs with
  | nil => simpa using ht
  | cons b bs ih =>
    have hb := hbs b (by simp)
    have hrest := ih fun b hb => hbs b (by simp [hb])
    have hnext := hb.next_append hp (bs.flatten ++ tail)
    intro n h hh
    rw [List.flatten_cons, List.append_assoc] at hh ⊢
    cases n with
    | zero =>
      obtain ⟨hlt, h', hh', hlen⟩ := hb
      rw [cut, hp.headersLength_append hh'] at hh
      cases hh
      rw [cut, hp.contentLength_append b _ hh', hlen]
      exact hlt
    | succ n =>
      have hcut : p.cut (n + 1) (b ++ (bs.flatten ++ tail)) = p.cut n (bs.flatten ++ tail) := by
        simp only [cut, hnext, List.drop_left]
      rw [hcut] at hh ⊢
      exact hrest n h hh

theorem frames_flatten (hp : p.Recognises) {bs : List Bytes} (hbs : ∀ b ∈ bs, p.IsPacket b)
    (tail : Bytes) : (p.framing hp).frames (bs.flatten ++ tail) =
      bs.map p.packetOf ++ (p.framing hp).frames tail := by
  induction bs with
  | nil => rfl
  | cons b bs ih =>
    have hnext := (hbs b (by simp)).next_append hp (bs.flatten ++ tail)
    rw [List.flatten_cons, List.append_assoc, Framing.frames_of_some (F := p.framing hp) hnext,
      List.drop_left, ih fun b hb => hbs b (by simp [hb])]
    rfl

theorem frames_packets (hp : p.Recognises) {bs : List Bytes} (hbs : ∀ b ∈ bs, p.IsPacket b) :
    (p.framing hp).frames bs.flatten = bs.map p.packetOf := by
  have hframes := frames_flatten hp hbs []
  rwa [Framing.frames_of_none (F := p.framing hp) (next_nil hp), List.append_nil,
    List.append_nil] at hframes

/-- What has arrived of a stream of packets. -/
theorem frames_of_prefix (hp : p.Recognises) {bs : List Bytes} (hbs : ∀ b ∈ bs, p.IsPacket b)
    {b : Bytes} (h : b <+: bs.flatten) :
    p.Fits b ∧ (p.framing hp).frames b <+: bs.map p.packetOf := by
  constructor
  · obtain ⟨more, hmore⟩ := h
    have hfits := fits_flatten hp hbs (fits_nil hp)
    rw [List.append_nil, ← hmore] at hfits
    exact hfits.of_append hp
  · rw [← frames_packets hp hbs]
    exact (p.framing hp).frames_mono h

end HttpParser

/-! ## One call -/

namespace HttpStream

variable {p : HttpParser} {s : HttpStream}

/-- A call keeps what is pending as long as there is no header block, or the buffer is shorter
than the computed size. -/
theorem getNextPacket_empty (h : ∀ h, p.headersLength s.pending = some h →
    s.pending.length < (h + p.contentLength s.pending) % sizeBound) :
    s.getNextPacket p = (none, ⟨s.pending, 0, Nat.zero_le _⟩) := by
  simp only [getNextPacket, popLastPacketBytes_eq]
  cases hh : p.headersLength s.pending with
  | none => rfl
  | some k =>
    have hlt := h k hh
    simp only [hlt, ↓reduceDIte]

/-- A call returns the packet at the front when the buffer has the computed size. -/
theorem getNextPacket_full {h : Nat} (hh : p.headersLength s.pending = some h)
    (hle : (h + p.contentLength s.pending) % sizeBound ≤ s.pending.length) :
    s.getNextPacket p = (some (p.packetAt s.pending h),
      ⟨s.pending, (h + p.contentLength s.pending) % sizeBound, hle⟩) := by
  simp only [getNextPacket, popLastPacketBytes_eq, hh, Nat.not_lt.2 hle, ↓reduceDIte]
  rfl

/-- A call that returns nothing is the removal of the last packet. -/
theorem getNextPacket_cases (p : HttpParser) (s : HttpStream) :
    s.getNextPacket p = (none, ⟨s.pending, 0, Nat.zero_le _⟩) ∨
      ∃ h, ∃ hle : (h + p.contentLength s.pending) % sizeBound ≤ s.pending.length,
        p.headersLength s.pending = some h ∧
          s.getNextPacket p = (some (p.packetAt s.pending h),
            ⟨s.pending, (h + p.contentLength s.pending) % sizeBound, hle⟩) := by
  cases hh : p.headersLength s.pending with
  | none => exact Or.inl (getNextPacket_empty fun h hk => by rw [hh] at hk; cases hk)
  | some h =>
    by_cases hlt : s.pending.length < (h + p.contentLength s.pending) % sizeBound
    · refine Or.inl (getNextPacket_empty fun h' hk => ?_)
      rw [hh] at hk
      cases hk
      exact hlt
    · exact Or.inr ⟨h, Nat.le_of_not_lt hlt, rfl, getNextPacket_full hh (Nat.le_of_not_lt hlt)⟩

theorem getNextPacket_of_none (h : p.next s.pending = none)
    (hfit : ∀ h, p.headersLength s.pending = some h → h + p.contentLength s.pending < sizeBound) :
    ∃ s', s.getNextPacket p = (none, s') ∧ s'.pending = s.pending := by
  refine ⟨_, getNextPacket_empty fun k hk => ?_, rfl⟩
  rw [Nat.mod_eq_of_lt (hfit k hk)]
  simp only [HttpParser.next, hk] at h
  split_ifs at h with hlt
  exact hlt

theorem getNextPacket_of_some {x : Packet} {k : Nat} (h : p.next s.pending = some (x, k))
    (hfit : ∀ h, p.headersLength s.pending = some h → h + p.contentLength s.pending < sizeBound) :
    ∃ s', s.getNextPacket p = (some x, s') ∧ s'.pending = s.pending.drop k := by
  obtain ⟨n, hh, rfl, hle, rfl⟩ := HttpParser.next_eq_some_iff.1 h
  have hmod := Nat.mod_eq_of_lt (hfit n hh)
  refine ⟨_, getNextPacket_full hh ((Nat.mod_le _ _).trans hle), ?_⟩
  show s.pending.drop ((n + p.contentLength s.pending) % sizeBound) = _
  rw [hmod]

/-! ## Reading -/

/-- The bytes a reader has not delivered yet, buffered or still on the connection. -/
def ahead (s : HttpStream) (chunks : List Chunk) : Bytes := s.pending ++ chunkBytes chunks

/-- What `ReadHttpPacket` returns, seen as the result of a read of frames. -/
def toReadResult (out : Option Packet × HttpStream × List Chunk) :
    Framing.ReadResult UInt8 Packet :=
  ⟨out.1, out.2.1.pending, out.2.2.map Subtype.val⟩

/-- The code decides on these bytes what the framing decides: the framing sees what is at the
front, and the size computed there does not wrap around. -/
structure Agrees (p : HttpParser) (F : Framing UInt8 Packet) (b : Bytes) : Prop where
  next_eq : F.next b = p.next b
  size_lt : ∀ h, p.headersLength b = some h → h + p.contentLength b < sizeBound

/-- `ReadHttpPacket` is the read of a framing that it agrees with on all that a buffer can hold
meanwhile. -/
theorem readHttpPacket_read {F : Framing UInt8 Packet} (s : HttpStream) (chunks : List Chunk)
    (hag : ∀ b, b <+: s.ahead chunks → Agrees p F b) :
    toReadResult (s.readHttpPacket p chunks) = F.read s.pending (chunks.map Subtype.val) := by
  induction chunks generalizing s with
  | nil =>
    obtain ⟨hF, hfit⟩ := hag s.pending (List.prefix_append _ _)
    cases hn : p.next s.pending with
    | none =>
      obtain ⟨s', hget, hs'⟩ := getNextPacket_of_none hn hfit
      simp [readHttpPacket, hget, toReadResult, Framing.read, hF, hn, hs']
    | some xk =>
      obtain ⟨x, k⟩ := xk
      obtain ⟨s', hget, hs'⟩ := getNextPacket_of_some hn hfit
      simp [readHttpPacket, hget, toReadResult, Framing.read, hF, hn, hs']
  | cons c cs ih =>
    obtain ⟨hF, hfit⟩ := hag s.pending (List.prefix_append _ _)
    cases hn : p.next s.pending with
    | none =>
      obtain ⟨s', hget, hs'⟩ := getNextPacket_of_none hn hfit
      have hread : F.read s.pending (c.val :: cs.map Subtype.val) =
          F.read (s.pending ++ c.val) (cs.map Subtype.val) := by
        simp only [Framing.read, hF, hn]
      have hahead : (s'.appendBytes c.val).ahead cs = s.ahead (c :: cs) := by
        simp [ahead, hs', chunkBytes]
      have happ : (s'.appendBytes c.val).pending = s.pending ++ c.val := by
        rw [pending_appendBytes, hs']
      rw [readHttpPacket, hget, List.map_cons, hread, ← happ]
      exact ih (s'.appendBytes c.val) (by rw [hahead]; exact hag)
    | some xk =>
      obtain ⟨x, k⟩ := xk
      obtain ⟨s', hget, hs'⟩ := getNextPacket_of_some hn hfit
      simp [readHttpPacket, hget, toReadResult, Framing.read, hF, hn, hs']

/-- **One read.** `ReadHttpPacket` is the read of the framing. -/
theorem readHttpPacket_eq (hp : p.Recognises) (s : HttpStream) (chunks : List Chunk)
    (hf : p.Fits (s.ahead chunks)) :
    toReadResult (s.readHttpPacket p chunks) =
      (p.framing hp).read s.pending (chunks.map Subtype.val) := by
  refine readHttpPacket_read s chunks fun b hb => ⟨rfl, fun h hh => ?_⟩
  obtain ⟨c, hc⟩ := hb
  rw [← hc] at hf
  exact hf.front hp hh

theorem ahead_eq (s : HttpStream) (chunks : List Chunk) :
    s.ahead chunks = Framing.ahead s.pending (chunks.map Subtype.val) := rfl

/-- After a read, what is ahead still fits. -/
theorem fits_readHttpPacket (hp : p.Recognises) {s : HttpStream} {chunks : List Chunk}
    (hf : p.Fits (s.ahead chunks)) :
    p.Fits ((s.readHttpPacket p chunks).2.1.ahead (s.readHttpPacket p chunks).2.2) := by
  have hread := readHttpPacket_eq hp s chunks hf
  have hahead : (s.readHttpPacket p chunks).2.1.ahead (s.readHttpPacket p chunks).2.2 =
      Framing.ahead (toReadResult (s.readHttpPacket p chunks)).buffer
        (toReadResult (s.readHttpPacket p chunks)).chunks := rfl
  rw [hahead, hread]
  rcases Framing.read_spec (F := p.framing hp) s.pending (chunks.map Subtype.val) with
    ⟨-, -, hb, hc⟩ | ⟨x, k, -, hn, ha⟩
  · rw [hb, hc]
    simpa [Framing.ahead, ahead_eq] using hf
  · rw [ha]
    exact hf.drop hn

/-- **Successive reads.** They return the packets ahead in order, and the empty packet from
then on. -/
theorem readHttpPackets_eq (hp : p.Recognises) (n : Nat) (s : HttpStream) (chunks : List Chunk)
    (hf : p.Fits (s.ahead chunks)) :
    s.readHttpPackets p n chunks =
      (List.range n).map fun i => ((p.framing hp).frames (s.ahead chunks))[i]? := by
  have hreads : s.readHttpPackets p n chunks =
      (p.framing hp).reads n s.pending (chunks.map Subtype.val) := by
    induction n generalizing s chunks with
    | zero => rfl
    | succ n ih =>
      have hread := readHttpPacket_eq hp s chunks hf
      show (s.readHttpPacket p chunks).1 :: readHttpPackets p n (s.readHttpPacket p chunks).2.1
        (s.readHttpPacket p chunks).2.2 = _
      rw [ih _ _ (fits_readHttpPacket hp hf), Framing.reads, ← hread]
      rfl
  rw [hreads, Framing.reads_eq, ahead_eq]

end HttpStream

end LuaToolkit
