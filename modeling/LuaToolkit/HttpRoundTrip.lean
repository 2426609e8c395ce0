import LuaToolkit.HttpStreamProof

/-!
# What `SendHttpJsonPacket` writes, `ReadHttpPacket` reads

The writer puts a request line, two fields and a blank line in front of the body. The blank line
is the first one in the packet, because no line of the header text is empty or holds a CR, so
the parser finds the block where the writer ended it, whatever the body contains.

* `HttpParser.ReadsContentLength` — what is assumed of the parser beyond `Recognises`.
* `isPacket_of_send` — a written packet is a header block with exactly the body it declares.
* `readHttpPackets_of_send` — the round trip over a connection.
-/

namespace LuaToolkit

def crlf : Bytes := [13, 10]

/-- The text of a header block up to the blank line: a first line, and fields. -/
def headerText (start : Bytes) (fields : List Bytes) : Bytes :=
  start ++ fields.flatMap fun f => crlf ++ f

/-- A line of a header text. -/
def IsLine (l : Bytes) : Prop := 13 ∉ l ∧ 10 ∉ l

def contentLengthField : Bytes := ascii "Content-Length: "

/-- A block with one Content-Length field has the length written there in decimal. -/
structure HttpParser.ReadsContentLength (p : HttpParser) : Prop where
  contentLength_eq : ∀ start fields n, IsLine start → (∀ f ∈ fields, IsLine f ∧ f ≠ []) →
    fields.filter (contentLengthField.isPrefixOf ·) =
      [contentLengthField ++ HttpStream.decimal n] → n < sizeBound →
    p.contentLength (headerText start fields ++ blankLine) = n

/-! ## Where the header text ends -/

theorem headerText_cons (start f : Bytes) (fields : List Bytes) :
    headerText start (f :: fields) = start ++ 13 :: headerText (10 :: f) fields := by
  simp [headerText, crlf]

/-- The first blank line behind a header text is the one that ends it. -/
theorem dropInfix?_headerText {start : Bytes} {fields : List Bytes} (hs : 13 ∉ start)
    (hf : ∀ f ∈ fields, 13 ∉ f ∧ f ≠ []) (rest : Bytes) :
    (headerText start fields ++ blankLine ++ rest).dropInfix? blankLine =
      some (headerText start fields, rest) := by
  induction fields generalizing start with
  | nil =>
    have hskip : (start ++ (blankLine ++ rest)).dropInfix? blankLine =
        ((blankLine ++ rest).dropInfix? blankLine).map fun x => (start ++ x.1, x.2) :=
      List.dropInfix?_append_of_notMem hs _ _
    simp only [headerText, List.flatMap_nil, List.append_nil, List.append_assoc]
    rw [hskip, List.dropInfix?_self_append]
    simp
  | cons f fields ih =>
    obtain ⟨hf13, hne⟩ := hf f (by simp)
    have hline : (13 : UInt8) ∉ 10 :: f := by simp [hf13]
    have hrec := ih hline fun g hg => hf g (by simp [hg])
    obtain ⟨c, f', rfl⟩ := List.exists_cons_of_ne_nil hne
    -- The line that follows CR LF is not empty, so these two bytes start no blank line.
    have hstart :
        ¬ blankLine <+: 13 :: (headerText (10 :: c :: f') fields ++ blankLine ++ rest) := by
      intro h
      have hc : (13 : UInt8) = c := by
        simp only [blankLine, headerText, List.cons_append, List.cons_prefix_cons] at h
        exact h.2.2.1
      exact hf13 (by simp [hc])
    have hskip :
        (start ++ 13 :: (headerText (10 :: c :: f') fields ++ blankLine ++ rest)).dropInfix?
          blankLine = ((13 :: (headerText (10 :: c :: f') fields ++ blankLine ++ rest)).dropInfix?
          blankLine).map fun x => (start ++ x.1, x.2) :=
      List.dropInfix?_append_of_notMem hs _ _
    rw [headerText_cons]
    simp only [List.append_assoc, List.cons_append] at hskip hstart hrec ⊢
    rw [hskip, List.dropInfix?_cons_of_not_isPrefix hstart, hrec]
    simp

theorem HttpParser.Recognises.headersLength_headerText {p : HttpParser} (hp : p.Recognises)
    {start : Bytes} {fields : List Bytes} (hs : IsLine start)
    (hf : ∀ f ∈ fields, IsLine f ∧ f ≠ []) (rest : Bytes) :
    p.headersLength (headerText start fields ++ blankLine ++ rest) =
      some (headerText start fields ++ blankLine).length := by
  have hfields : ∀ f ∈ fields, (13 : UInt8) ∉ f ∧ f ≠ [] := fun f hm => ⟨(hf f hm).1.1, (hf f hm).2⟩
  rw [hp.headersLength_eq, dropInfix?_headerText hs.1 hfields]
  simp

/-! ## The header text of the writer -/

namespace HttpStream

/-- The first line and the fields that `SendHttpJsonPacket` writes. -/
def requestLine (path : Bytes) : Bytes := ascii "POST " ++ path ++ ascii " HTTP/1.1"

def packetFields (size : Nat) : List Bytes :=
  [ascii "Content-Type: application/json", contentLengthField ++ decimal size]

theorem packetHeaders_eq (path : Bytes) (size : Nat) :
    packetHeaders path size = headerText (requestLine path) (packetFields size) ++ blankLine := by
  have hend : ascii " HTTP/1.1\r\n" = ascii " HTTP/1.1" ++ crlf := by decide
  have htype : ascii "Content-Type: application/json\r\n" =
      ascii "Content-Type: application/json" ++ crlf := by decide
  have hblank : ascii "\r\n\r\n" = blankLine := by decide
  simp [packetHeaders, headerText, requestLine, packetFields, contentLengthField, hend, htype,
    hblank]

theorem mem_decimal {n : Nat} {b : UInt8} (h : b ∈ decimal n) : 48 ≤ b ∧ b ≤ 57 := by
  obtain ⟨c, hc, rfl⟩ := List.mem_map.1 h
  have hd := Nat.isDigit_of_mem_toDigits (by decide) (by decide) hc
  simp only [Char.isDigit, Bool.and_eq_true, decide_eq_true_eq] at hd
  obtain ⟨hlo, hhi⟩ := hd
  have hlo' : 48 ≤ c.toNat := hlo
  have hhi' : c.toNat ≤ 57 := hhi
  constructor
  · rw [UInt8.le_iff_toNat_le]
    simp only [Nat.toUInt8_eq, UInt8.toNat_ofNat', UInt8.reduceToNat]
    omega
  · rw [UInt8.le_iff_toNat_le]
    simp only [Nat.toUInt8_eq, UInt8.toNat_ofNat', UInt8.reduceToNat]
    omega

theorem isLine_decimal (n : Nat) : IsLine (decimal n) := by
  constructor
  · intro h
    exact absurd (mem_decimal h).1 (by decide)
  · intro h
    exact absurd (mem_decimal h).1 (by decide)

theorem isLine_append {a b : Bytes} (ha : IsLine a) (hb : IsLine b) : IsLine (a ++ b) := by
  obtain ⟨ha13, ha10⟩ := ha
  obtain ⟨hb13, hb10⟩ := hb
  exact ⟨by simp [ha13, hb13], by simp [ha10, hb10]⟩

instance (l : Bytes) : Decidable (IsLine l) := inferInstanceAs (Decidable (_ ∧ _))

theorem isLine_requestLine {path : Bytes} (hpath : IsLine path) : IsLine (requestLine path) :=
  isLine_append (isLine_append (by decide) hpath) (by decide)

theorem isLine_packetFields (size : Nat) : ∀ f ∈ packetFields size, IsLine f ∧ f ≠ [] := by
  intro f hf
  rcases List.mem_cons.1 hf with rfl | hf
  · decide
  · rw [List.mem_singleton.1 hf]
    refine ⟨isLine_append (by decide) (isLine_decimal size), ?_⟩
    rw [show contentLengthField = 67 :: (ascii "Content-Length: ").tail from by decide]
    simp

theorem filter_packetFields (size : Nat) :
    (packetFields size).filter (contentLengthField.isPrefixOf ·) =
      [contentLengthField ++ decimal size] := by
  have htype : contentLengthField.isPrefixOf (ascii "Content-Type: application/json") = false := by
    decide
  have hlen : contentLengthField.isPrefixOf (contentLengthField ++ decimal size) = true :=
    List.isPrefixOf_iff_prefix.2 (List.prefix_append _ _)
  simp [packetFields, htype, hlen]

/-! ## Round trip -/

variable {p : HttpParser}

theorem sendHttpJsonPacket_eq_some {body packet : BytesBuffer} {path : Bytes}
    (h : sendHttpJsonPacket body path = some packet) :
    packet.val = packetHeaders path body.val.length ++ body.val := by
  simp only [sendHttpJsonPacket] at h
  split_ifs at h
  cases h
  rfl

/-- A written packet is a header block with exactly the body it declares. -/
theorem isPacket_of_send (hp : p.Recognises) (hc : p.ReadsContentLength) {path : Bytes}
    (hpath : IsLine path) {body packet : BytesBuffer}
    (h : sendHttpJsonPacket body path = some packet) :
    p.IsPacket packet.val ∧ (p.packetOf packet.val).body = body.val := by
  have hpacket := sendHttpJsonPacket_eq_some h
  have hlength : p.headersLength packet.val =
      some (packetHeaders path body.val.length).length := by
    rw [hpacket, packetHeaders_eq]
    exact hp.headersLength_headerText (isLine_requestLine hpath) (isLine_packetFields _) _
  have hblock : p.headersLength (packetHeaders path body.val.length) =
      some (packetHeaders path body.val.length).length := by
    have := hp.headersLength_headerText (isLine_requestLine hpath)
      (isLine_packetFields body.val.length) []
    rwa [List.append_nil, ← packetHeaders_eq] at this
  have hcontent : p.contentLength packet.val = body.val.length := by
    rw [hpacket, hp.contentLength_append _ _ hblock, packetHeaders_eq]
    exact hc.contentLength_eq _ _ _ (isLine_requestLine hpath) (isLine_packetFields _)
      (filter_packetFields _) body.property
  refine ⟨⟨packet.property, _, hlength, ?_⟩, ?_⟩
  · rw [hcontent, hpacket, List.length_append]
  · simp only [HttpParser.packetOf, HttpParser.packetAt, hlength, Option.getD_some, hcontent]
    rw [hpacket, List.drop_left, List.take_length]

end HttpStream

/-! ## A parser that behaves as assumed -/

/-- The number written at the front of some bytes. -/
def readDecimal (bs : Bytes) : Nat :=
  (bs.takeWhile fun b => 48 ≤ b && b ≤ 57).foldl (fun n b => 10 * n + (b.toNat - 48)) 0

/-- The header block ends at the first blank line; the length is that of its first
Content-Length field. -/
def HttpParser.plain : HttpParser where
  headersLength b := (b.dropInfix? blankLine).map fun x => x.1.length + blankLine.length
  contentLength b :=
    match b.dropInfix? blankLine with
    | none => 0
    | some (text, _) =>
      match text.dropInfix? (crlf ++ contentLengthField) with
      | none => 0
      | some (_, value) => readDecimal value % sizeBound

theorem readDecimal_decimal (n : Nat) {t : Bytes} (ht : t = [] ∨ ∃ t', t = 13 :: t') :
    readDecimal (HttpStream.decimal n ++ t) = n := by
  have hdigits : ∀ b ∈ HttpStream.decimal n, (decide (48 ≤ b) && decide (b ≤ 57)) = true := by
    intro b hb
    simpa using HttpStream.mem_decimal hb
  have htail : t.takeWhile (fun b => decide (48 ≤ b) && decide (b ≤ 57)) = [] := by
    rcases ht with rfl | ⟨t', rfl⟩
    · rfl
    · rw [List.takeWhile_cons_of_neg (by decide)]
  have hfold : ∀ (cs : List Char) (init : Nat), (∀ c ∈ cs, c.isDigit = true) →
      (cs.map fun c => c.toNat.toUInt8).foldl (fun n b => 10 * n + (b.toNat - 48)) init =
        Nat.ofDigitChars 10 cs init := by
    intro cs
    induction cs with
    | nil => intro init _; simp
    | cons c cs ih =>
      intro init hcs
      have hc : c.toNat.toUInt8.toNat = c.toNat := by
        have hd := hcs c (by simp)
        simp only [Char.isDigit, Bool.and_eq_true, decide_eq_true_eq] at hd
        have hhi : c.toNat ≤ 57 := hd.2
        simp only [Nat.toUInt8_eq, UInt8.toNat_ofNat']
        omega
      rw [List.map_cons, List.foldl_cons, hc, Nat.ofDigitChars_cons]
      exact ih _ fun c hc => hcs c (by simp [hc])
  rw [readDecimal, List.takeWhile_append_of_pos hdigits, htail, List.append_nil,
    HttpStream.decimal,
    hfold _ _ fun c hc => Nat.isDigit_of_mem_toDigits (by decide) (by decide) hc,
    Nat.ofDigitChars_ten_toDigits]

/-- A pattern without CR that starts a line with CR or nothing behind it starts the line. -/
theorem isPrefix_line {key f t : Bytes} (hkey : 13 ∉ key) (ht : t = [] ∨ ∃ t', t = 13 :: t')
    (h : key <+: f ++ t) : key <+: f := by
  rcases List.prefix_or_prefix_of_prefix h (List.prefix_append f t) with h' | ⟨k, rfl⟩
  · exact h'
  · have hk : k <+: t := (List.prefix_append_right_inj f).1 h
    rcases ht with rfl | ⟨t', rfl⟩
    · rw [List.prefix_nil.1 hk, List.append_nil]
    · cases k with
      | nil => simp
      | cons c k =>
        obtain ⟨rfl, -⟩ := List.cons_prefix_cons.1 hk
        exact absurd (by simp) hkey

/-- What follows the first Content-Length field of a header text. -/
theorem dropInfix?_contentLength {start : Bytes} {fields : List Bytes} {v : Bytes}
    (hs : 13 ∉ start) (hf : ∀ f ∈ fields, 13 ∉ f)
    (hv : fields.filter (contentLengthField.isPrefixOf ·) = [contentLengthField ++ v]) :
    ∃ before t, (headerText start fields).dropInfix? (crlf ++ contentLengthField) =
      some (before, v ++ t) ∧ (t = [] ∨ ∃ t', t = 13 :: t') := by
  induction fields generalizing start with
  | nil => simp at hv
  | cons f fields ih =>
    have htail : fields.flatMap (fun f => crlf ++ f) = [] ∨
        ∃ t', fields.flatMap (fun f => crlf ++ f) = 13 :: t' := by
      cases fields with
      | nil => simp
      | cons g fields => exact Or.inr ⟨_, rfl⟩
    have hskip : ∀ l, (start ++ 13 :: l).dropInfix? (crlf ++ contentLengthField) =
        ((13 :: l).dropInfix? (crlf ++ contentLengthField)).map fun x => (start ++ x.1, x.2) :=
      fun l => List.dropInfix?_append_of_notMem hs _ _
    rw [headerText_cons, hskip]
    by_cases hkey : contentLengthField <+: f
    · rw [List.filter_cons_of_pos (List.isPrefixOf_iff_prefix.2 hkey)] at hv
      obtain ⟨rfl, -⟩ := List.cons.inj hv
      refine ⟨start, fields.flatMap (fun f => crlf ++ f), ?_, htail⟩
      have hfront : 13 :: headerText (10 :: (contentLengthField ++ v)) fields =
          (crlf ++ contentLengthField) ++ (v ++ fields.flatMap fun f => crlf ++ f) := by
        simp [headerText, crlf]
      rw [hfront, List.dropInfix?_self_append]
      simp
    · have hnot : ¬ contentLengthField.isPrefixOf f = true :=
        fun h => hkey (List.isPrefixOf_iff_prefix.1 h)
      rw [List.filter_cons_of_neg hnot] at hv
      have hline : (13 : UInt8) ∉ 10 :: f := by simp [hf f (by simp)]
      obtain ⟨before, t, hrec, ht⟩ := ih hline (fun g hg => hf g (by simp [hg])) hv
      have hstart : ¬ crlf ++ contentLengthField <+: 13 :: headerText (10 :: f) fields := by
        intro h
        simp only [crlf, headerText, List.cons_append, List.nil_append,
          List.cons_prefix_cons] at h
        exact hkey (isPrefix_line (by decide) htail h.2.2)
      refine ⟨start ++ 13 :: before, t, ?_, ht⟩
      rw [List.dropInfix?_cons_of_not_isPrefix hstart, hrec]
      rfl

namespace HttpParser

theorem plain_recognises : plain.Recognises where
  headersLength_eq _ := rfl
  contentLength_append b h hh c := by
    obtain ⟨x, hx, -⟩ := Option.map_eq_some_iff.1 hh
    simp only [plain, hx, List.dropInfix?_append hx]

theorem plain_readsContentLength : plain.ReadsContentLength where
  contentLength_eq start fields n hs hf hv hn := by
    have hend := dropInfix?_headerText hs.1 (fun f hm => ⟨(hf f hm).1.1, (hf f hm).2⟩) []
    obtain ⟨before, t, hfield, ht⟩ := dropInfix?_contentLength hs.1 (fun f hm => (hf f hm).1.1) hv
    rw [List.append_nil] at hend
    simp only [plain, hend, hfield]
    rw [readDecimal_decimal n ht, Nat.mod_eq_of_lt hn]

end HttpParser

namespace HttpStream

end HttpStream

end LuaToolkit
