import LuaToolkit.ConnectionProof

/-!
# A conversation over a connection

From the client's bytes to the client's bytes: what the readers and the session do with a
connection, seen from its other end.

* `Carries` — the client waits for the answer to its handshake, and nothing fails on the way.
* `Carried` — then the first reader takes the handshake and nothing else, and what goes back are
  the packets of the answer and of the messages that the session has sent.
* `conversation_of_reaches` — so the client has its requests answered in order, and can read all
  answers and events back from the bytes it gets.
-/

namespace LuaToolkit.Connection

open Transition

variable {V : Type*} {w : Wire V} {rt : Runtime} {c c' : Connection V}

/-! ## A client that waits for the answer to its handshake -/

/-- A packet of the client, and the request in it. -/
structure Asks (w : Wire V) (b : Bytes) (q : Dap.RequestMessage V) : Prop where
  isPacket : w.parser.IsPacket b
  request : ∃ m, w.jsonParseString (w.parser.packetOf b).body = .ok (some m) ∧
    m.type = .ok "request" ∧ m.request = .ok q

/-- The connection carries without a failure what the client writes: a handshake, and once it has
had an answer, packets. -/
def Carries (handshake : Bytes) (packets : List Bytes) (c : Connection V) : Action V → Prop
  | .bytes (.ok (some chunk)) =>
    c.before ++ c.received ++ chunk.val <+: handshake ++ packets.flatten ∧
      (c.written = [] → c.before ++ chunk.val <+: handshake)
  | .bytes (.ok none) => True
  | .bytes (.error _) => False
  | .answer failed | .session _ failed => failed = none
  | _ => True

/-- The packets of some texts. -/
def packetBytes (texts : List JsonText) : Bytes := (texts.map fun text => text.packet.val).flatten

/-- What has been written at the different points. -/
def Outbound (w : Wire V) (c : Connection V) (texts : List JsonText) : Prop :=
  match c.point with
  | .handshake | .answer => texts = []
  | .create => texts = [w.handshakeResponse]
  | .session => texts = w.handshakeResponse :: c.session.sent.map w.jsonWrite
  | .closed => texts <+: [w.handshakeResponse]

structure Carried (w : Wire V) (handshake : Bytes) (packets : List Bytes) (c : Connection V) :
    Prop where
  before : c.before <+: handshake
  pending : c.point = .handshake → c.httpStream.pending = c.before
  whole : c.point ≠ .handshake → c.point ≠ .closed → c.before = handshake
  received : c.received <+: packets.flatten
  fresh : c.point ≠ .session → c.session = {}
  written : ∃ texts, Outbound w c texts ∧ c.written = packetBytes texts

theorem sent_outgoing {s s' : DebugSession V} {a : DebugSession.Action V}
    (hs : (DebugSession.system V rt).step a s = some s') :
    s'.sent = s.sent ++ (outgoing s a).toList := by
  cases a with
  | run i =>
    have h := DebugSession.runStep_iff.1 hs
    rcases DebugSession.sent_run h with ⟨heq, hr⟩ | ⟨r, hr, heq⟩
    · have hnone : outgoing s (.run i) = none := by
        cases i with
        | sent result => cases hp : s.run <;> simp_all [outgoing]
        | _ => rfl
      rw [heq, hnone, Option.toList_none, List.append_nil]
    · cases h with
      | sent hr' | sendThrows hr' => simp [outgoing, hr']
      | start hr' | receive hr' | request hr' | handle hr' _ | again hr' | closed hr' =>
        cases hr.symm.trans hr'
  | lua i =>
    have h := DebugSession.luaStep_iff.1 hs
    rcases DebugSession.sent_lua h with ⟨heq, hl⟩ | ⟨k, m, hl, heq⟩
    · have hnone : outgoing s (.lua i) = none := by
        cases i with
        | step => cases hp : s.lua <;> simp_all [outgoing]
        | _ => rfl
      rw [heq, hnone, Option.toList_none, List.append_nil]
    · cases h with
      | announce hl' => simp [outgoing, hl']
      | stop hl' | assertFree hl' | notFree hl' | emplace hl' | event hl' | execute hl' | answer hl'
      | returned hl' | assertMode hl' | noMode hl' | leave hl' => cases hl.symm.trans hl'

theorem packetBytes_append (texts texts' : List JsonText) :
    packetBytes (texts ++ texts') = packetBytes texts ++ packetBytes texts' := by
  simp [packetBytes]

theorem sends_eq (s : DebugSession V) (a : DebugSession.Action V) :
    sends w s a none = packetBytes ((outgoing s a).toList.map w.jsonWrite) := by
  unfold sends
  cases outgoing s a <;> simp [packetBytes, transmit]

/-- The first reader returns a packet when it has the handshake, all of it and nothing more. -/
theorem before_of_shaken (hp : w.parser.Recognises) {handshake : Bytes} {packets : List Bytes}
    (hh : w.parser.IsPacket handshake) (h : Carried w handshake packets c)
    (hpt : c.point = .handshake) {x : Packet} {t : HttpStream}
    (hget : c.httpStream.getNextPacket w.parser = (some x, t)) : c.before = handshake := by
  obtain ⟨more, hmore⟩ := h.before
  by_contra hne
  have hnil : more ≠ [] := by
    rintro rfl
    exact hne (by simpa using hmore)
  rw [← hmore, ← h.pending hpt] at hh
  rcases getNextPacket_next (hh.fits_front hp hnil) with ⟨u, hget', -⟩ | ⟨y, k, u, -, hn, -⟩
  · cases hget.symm.trans hget'
  · cases (hh.next_front hp hnil).symm.trans hn

theorem Outbound.of_eq {texts : List JsonText} (h : Outbound w c texts)
    (hpt : c'.point = c.point) (hsent : c'.session.sent = c.session.sent) :
    Outbound w c' texts := by
  unfold Outbound
  rw [hpt, hsent]
  exact h

theorem carried_step (hp : w.parser.Recognises) {handshake : Bytes} {packets : List Bytes}
    (hh : w.parser.IsPacket handshake) {g : DebugSession.Dialogue V} (hdel : Delivered hp c g)
    (h : Carried w handshake packets c) {a : Action V} (hok : Carries handshake packets c a)
    (hs : Step w rt c a c') : Carried w handshake packets c' := by
  obtain ⟨texts, hout, hwritten⟩ := h.written
  cases hs with
  | shaken hpt ha hget =>
    have hbefore := before_of_shaken hp hh h hpt hget
    simp only [Outbound, hpt] at hout
    exact {
      before := h.before
      pending := by simp
      whole := fun _ _ => hbefore
      received := h.received
      fresh := fun _ => h.fresh (by simp [hpt])
      written := ⟨texts, hout, hwritten⟩ }
  | packet hpt hr ha hget =>
    exact {
      before := h.before
      pending := fun hc => by simp [hpt] at hc
      whole := h.whole
      received := h.received
      fresh := fun hc => absurd hpt hc
      written := ⟨texts, hout.of_eq rfl rfl, hwritten⟩ }
  | @wait t hr ha hget =>
    exact {
      before := h.before
      pending := fun hc => (HttpStream.pending_of_getNextPacket_none hget).trans (h.pending hc)
      whole := h.whole
      received := h.received
      fresh := h.fresh
      written := ⟨texts, hout.of_eq rfl rfl, hwritten⟩ }
  | chunk chunk ha =>
    obtain ⟨hstream, hwaits⟩ := hok
    rcases hdel.reading ha with hpt | hpt
    · simp only [Outbound, hpt] at hout
      rw [appendBytes_of_handshake hpt]
      exact {
        before := hwaits (by simp [hwritten, hout, packetBytes])
        pending := fun _ => by simp [h.pending hpt]
        whole := fun hc => absurd hpt hc
        received := h.received
        fresh := h.fresh
        written := ⟨texts, by simpa only [Outbound, hpt] using hout, hwritten⟩ }
    · rw [h.whole (by simp [hpt]) (by simp [hpt]), List.append_assoc,
        List.prefix_append_right_inj] at hstream
      rw [appendBytes_of_session hpt]
      exact {
        before := h.before
        pending := fun hc => by simp [hpt] at hc
        whole := h.whole
        received := hstream
        fresh := h.fresh
        written := ⟨texts, hout.of_eq rfl rfl, hwritten⟩ }
  | noHandshake hpt ha hn =>
    simp only [Outbound, hpt] at hout
    exact {
      before := h.before
      pending := by simp
      whole := by simp
      received := h.received
      fresh := fun _ => h.fresh (by simp [hpt])
      written := ⟨texts, by simp [Outbound, hout], hwritten⟩ }
  | ended hpt hr ha | broken what hpt hr ha =>
    exact {
      before := h.before
      pending := fun hc => by simp [hpt] at hc
      whole := h.whole
      received := h.received
      fresh := fun hc => absurd hpt hc
      written := ⟨texts, hout.of_eq rfl rfl, hwritten⟩ }
  | answer failed hpt =>
    obtain rfl : failed = none := hok
    simp only [Outbound, hpt] at hout
    exact {
      before := h.before
      pending := by simp
      whole := fun _ _ => h.whole (by simp [hpt]) (by simp [hpt])
      received := h.received
      fresh := fun _ => h.fresh (by simp [hpt])
      written := ⟨[w.handshakeResponse], rfl, by
        simp [hwritten, hout, packetBytes, transmit]⟩ }
  | create hpt =>
    simp only [Outbound, hpt] at hout
    exact {
      before := h.before
      pending := by simp
      whole := fun _ _ => h.whole (by simp [hpt]) (by simp [hpt])
      received := h.received
      fresh := by simp
      written := ⟨texts, by simp [Outbound, hout, h.fresh (by simp [hpt])], hwritten⟩ }
  | noController hpt =>
    simp only [Outbound, hpt] at hout
    exact {
      before := h.before
      pending := by simp
      whole := by simp
      received := h.received
      fresh := fun _ => h.fresh (by simp [hpt])
      written := ⟨texts, by simp [Outbound, hout], hwritten⟩ }
  | @session a failed s hpt ha hs =>
    obtain rfl : failed = none := hok
    simp only [Outbound, hpt] at hout
    refine {
      before := h.before
      pending := fun hc => by simp [hpt] at hc
      whole := h.whole
      received := h.received
      fresh := fun hc => absurd hpt hc
      written := ⟨texts ++ (outgoing c.session a).toList.map w.jsonWrite, ?_, ?_⟩ }
    · simp [Outbound, hpt, hout, sent_outgoing hs]
    · rw [packetBytes_append, ← hwritten, sends_eq]

theorem carried_of_reaches (hp : w.parser.Recognises) {handshake : Bytes} {packets : List Bytes}
    (hh : w.parser.IsPacket handshake) {g : DebugSession.Dialogue V}
    (h : (dialogueSystem w rt).Reaches (fun x a => Carries handshake packets x.1 a) (c, g)) :
    Delivered hp c g ∧ Carried w handshake packets c := by
  refine h.recorded (Carries handshake packets)
    (I := fun c g => Delivered hp c g ∧ Carried w handshake packets c) (fun c hc => ?_)
    fun c g a c' hi ha hstep => ?_
  · rw [show c = {} from hc]
    exact ⟨⟨fun _ => ⟨rfl, rfl⟩, nofun, nofun⟩, {
      before := List.nil_prefix
      pending := fun _ => rfl
      whole := fun hc => absurd rfl hc
      received := List.nil_prefix
      fresh := fun _ => rfl
      written := ⟨[], rfl, rfl⟩ }⟩
  · have hs := step_cases hstep
    exact ⟨delivered_step hp hi.1 hs, carried_step hp hh hi.1 hi.2 ha hs⟩

/-! ## The messages of the client -/

section Client

variable {packets : List Bytes} {qs : List (Dap.RequestMessage V)}

theorem isPacket_of_asks (hq : List.Forall₂ (Asks w) packets qs) :
    ∀ b ∈ packets, w.parser.IsPacket b := by
  induction hq with
  | nil => simp
  | cons hb _ ih =>
    simp only [List.forall_mem_cons]
    exact ⟨hb.isPacket, ih⟩

/-- The request in a packet of the client. -/
theorem Asks.message {b : Bytes} {q : Dap.RequestMessage V} (h : Asks w b q) :
    ∃ m, w.jsonParseString (w.parser.packetOf b).body = .ok (some m) ∧
      m.type = .ok "request" ∧ DebugSession.request? m = some q := by
  obtain ⟨m, hparse, htype, hrequest⟩ := h.request
  exact ⟨m, hparse, htype, by simp [DebugSession.request?, htype, hrequest]⟩

theorem requests_eq (hq : List.Forall₂ (Asks w) packets qs) :
    ((packets.map w.parser.packetOf).filterMap w.message?).filterMap DebugSession.request? =
      qs := by
  induction hq with
  | nil => rfl
  | @cons b q _ _ hb _ ih =>
    obtain ⟨m, hparse, -, hm⟩ := hb.message
    have hmessage : w.message? (w.parser.packetOf b) = some m := by
      simp only [Wire.message?, hparse]
      rfl
    simp only [List.map_cons, List.filterMap_cons, hmessage, hm, ih]

theorem requests_prefix (hq : List.Forall₂ (Asks w) packets qs) {xs : List Packet}
    (h : xs <+: packets.map w.parser.packetOf) :
    (xs.filterMap w.message?).filterMap DebugSession.request? = qs.take xs.length := by
  have hxs := List.prefix_iff_eq_take.1 h
  rw [← List.map_take] at hxs
  conv_lhs => rw [hxs]
  exact requests_eq (List.forall₂_take xs.length hq)

/-- `Run` is handed requests and the end of the stream. -/
theorem wellFormed_move (hp : w.parser.Recognises) {handshake : Bytes}
    (hq : List.Forall₂ (Asks w) packets qs) {g : DebugSession.Dialogue V}
    (hdel : Delivered hp c g) (h : Carried w handshake packets c) {a : Action V}
    (hok : Carries handshake packets c a) (hs : Step w rt c a c') {b : DebugSession.Action V}
    (hm : move w c a = some b) : DebugSession.WellFormed c.session b := by
  cases hs with
  | @packet x t hpt hr ha hget =>
    simp only [move, hpt, hget, Option.map_some, Option.some.injEq] at hm
    subst hm
    obtain ⟨hfit, hframes⟩ :=
      HttpParser.frames_of_prefix hp (isPacket_of_asks hq) h.received
    obtain ⟨xs, hcuts, -, -⟩ := hdel.session hpt hfit
    have hx : x ∈ packets.map w.parser.packetOf := by
      refine hframes.subset ?_
      rcases getNextPacket_next (hfit.of_cuts hp hcuts) with ⟨u, hget', -⟩ | ⟨y, k, u, hget', hn, -⟩
      · cases hget.symm.trans hget'
      · cases hget.symm.trans hget'
        rw [(hcuts.concat hn).frames_eq]
        simp
    obtain ⟨b, hb, rfl⟩ := List.mem_map.1 hx
    obtain ⟨i, hi, rfl⟩ := List.getElem_of_mem hb
    have hask := hq.get hi (hq.length_eq ▸ hi)
    obtain ⟨m, hparse, htype, hrequest⟩ := hask.request
    refine ⟨some m, hparse, fun m' hm' => ?_⟩
    cases hm'
    exact ⟨_, htype, fun _ => ⟨_, hrequest⟩⟩
  | ended hpt hr ha =>
    simp only [move, hpt, Option.some.injEq] at hm
    subst hm
    exact ⟨none, rfl, by simp⟩
  | broken => exact absurd hok id
  | session hpt ha hs =>
    cases hm
    exact wellFormed_of_admits ha
  | shaken hpt ha hget => simp [move, hpt] at hm
  | wait hr ha hget => cases hpt : c.point <;> simp [move, hpt, hget] at hm
  | noHandshake hpt ha hn =>
    rw [move_bytes_none (by simp [hpt])] at hm
    cases hm
  | chunk | answer | create | noController => cases hm

theorem serving_of_reaches (hp : w.parser.Recognises) {handshake : Bytes}
    (hh : w.parser.IsPacket handshake) (hq : List.Forall₂ (Asks w) packets qs)
    {g : DebugSession.Dialogue V}
    (h : (dialogueSystem w rt).Reaches (fun x a => Carries handshake packets x.1 a) (c, g)) :
    DebugSession.Serving rt c.session g := by
  refine DebugSession.serving_of_reaches
    (((projects_session w rt).recorded {} DebugSession.Dialogue.record).reaches
      (fun _ hx => .init ⟨init_session hx.1, hx.2⟩) ?_ h)
  rintro ⟨c, g⟩ a ⟨c', g'⟩ b hreach hok hstep hm
  obtain ⟨hdel, hcar⟩ := carried_of_reaches hp hh hreach
  exact wellFormed_move hp hq hdel hcar hok (step_cases (System.recorded_step_iff.1 hstep).1) hm

/-! ## What the client reads back -/

theorem isPacket_packet (hp : w.parser.Recognises) (hc : w.parser.ReadsContentLength)
    (text : JsonText) : w.parser.IsPacket text.packet.val ∧
      (w.parser.packetOf text.packet.val).body = text.bytes.val :=
  HttpStream.isPacket_of_send hp hc (by decide) (Option.some_get text.fits).symm

/-- Reading what has been written, or the beginning of it. -/
theorem read_packetBytes (hp : w.parser.Recognises) (hc : w.parser.ReadsContentLength)
    {texts : List JsonText} {chunks : List Chunk} (h : chunkBytes chunks <+: packetBytes texts) :
    ∃ read, read <+: texts ∧ (chunkBytes chunks = packetBytes texts → read = texts) ∧ ∀ n,
      (HttpStream.fresh.readHttpPackets w.parser n chunks).map (Option.map Packet.body) =
        (List.range n).map fun i => (read.map fun text => text.bytes.val)[i]? := by
  have hps : ∀ b ∈ texts.map fun text => text.packet.val, w.parser.IsPacket b := by
    intro b hb
    obtain ⟨text, -, rfl⟩ := List.mem_map.1 hb
    exact (isPacket_packet hp hc text).1
  obtain ⟨hfits, hframes⟩ := HttpParser.frames_of_prefix hp hps h
  rw [List.map_map] at hframes
  obtain ⟨read, hpre, hread⟩ := List.prefix_map_iff.1 hframes
  refine ⟨read, hpre, fun heq => ?_, fun n => ?_⟩
  · have hlen := congrArg List.length hread
    rw [heq, packetBytes, HttpParser.frames_packets hp hps] at hlen
    exact hpre.eq_of_length (by simpa using hlen.symm)
  · rw [HttpStream.readHttpPackets_eq hp n .fresh chunks hfits, List.map_map]
    refine List.map_congr_left fun i _ => ?_
    have hahead : HttpStream.fresh.ahead chunks = chunkBytes chunks := rfl
    rw [Function.comp_apply, hahead, hread, ← List.getElem?_map, List.map_map]
    congr 1
    refine List.map_congr_left fun text _ => ?_
    exact (isPacket_packet hp hc text).2

/-- What a client can rely on that sends these requests. -/
structure Conversation (w : Wire V) (packets : List Bytes) (qs : List (Dap.RequestMessage V))
    (c : Connection V) : Prop where
  /-- The responses answer the first requests, one by one and in their order. -/
  responses : ∃ handled, handled.map Prod.fst <+: qs ∧
    List.Forall₂ DebugSession.Replies (c.session.sent.filterMap DebugSession.response?) handled
  /-- When the reader waits, every request that has arrived whole has been answered. -/
  prompt : c.awaiting = true → ∀ n ≤ packets.length, (packets.take n).flatten <+: c.received →
    n ≤ (c.session.sent.filterMap DebugSession.response?).length
  numbers : c.session.sent.length < UInt32.size → (c.session.sent.map Dap.Message.seq).Nodup
  /-- A reader of the bytes that come back, at any moment and in any chunks, gets the texts of what
  was sent, in this order. -/
  readBack : ∃ texts, Outbound w c texts ∧ ∀ chunks, chunkBytes chunks <+: c.written →
    ∃ read, read <+: texts ∧ (chunkBytes chunks = c.written → read = texts) ∧ ∀ n,
      (HttpStream.fresh.readHttpPackets w.parser n chunks).map (Option.map Packet.body) =
        (List.range n).map fun i => (read.map fun text => text.bytes.val)[i]?

theorem responses_of_serving {s : DebugSession V} {g : DebugSession.Dialogue V}
    (h : DebugSession.Serving rt s g) : ∃ handled, handled.map Prod.fst <+:
        g.read.filterMap DebugSession.request? ∧
      List.Forall₂ DebugSession.Replies (s.sent.filterMap DebugSession.response?) handled := by
  obtain ⟨l, -, hrequests⟩ := h.requests
  have htake := List.forall₂_take (s.sent.filterMap DebugSession.response?).length h.responses
  rw [List.take_left] at htake
  refine ⟨_, ?_, htake⟩
  rw [hrequests, List.map_take]
  exact (List.take_prefix _ _).trans (List.prefix_append _ _)

/-- A session that reads has answered what it has read. -/
theorem length_responses {s : DebugSession V} {g : DebugSession.Dialogue V}
    (h : DebugSession.Serving rt s g) (hr : s.run = .receive) :
    (s.sent.filterMap DebugSession.response?).length =
      (g.read.filterMap DebugSession.request?).length := by
  obtain ⟨l, hl, hrequests⟩ := h.requests
  have hresponses := h.responses.length_eq
  simp only [DebugSession.Current, hr] at hl
  simp only [DebugSession.unsent, hr, List.append_nil] at hresponses
  rw [hrequests, hl, hresponses, List.append_nil, List.length_map]

/-- `Run` has read the first requests of the client, all that have arrived when the reader waits. -/
theorem Carried.requests (hp : w.parser.Recognises) (hq : List.Forall₂ (Asks w) packets qs)
    {handshake : Bytes} {g : DebugSession.Dialogue V} (h : Carried w handshake packets c)
    (hdel : Delivered hp c g) : ∃ xs, xs.length ≤ qs.length ∧
      g.read.filterMap DebugSession.request? = qs.take xs.length ∧
      (c.awaiting = true → xs = (w.parser.framing hp).frames c.received) := by
  obtain ⟨hfit, hframes⟩ := HttpParser.frames_of_prefix hp (isPacket_of_asks hq) h.received
  obtain ⟨xs, hxs, hread, hall⟩ := hdel.frames hfit
  have hle := (hxs.trans hframes).length_le
  rw [List.length_map, hq.length_eq] at hle
  exact ⟨xs, hle, by rw [hread, requests_prefix hq (hxs.trans hframes)], hall⟩

theorem Carried.conversation (hp : w.parser.Recognises) (hc : w.parser.ReadsContentLength)
    (hq : List.Forall₂ (Asks w) packets qs) {handshake : Bytes} {g : DebugSession.Dialogue V}
    (h : Carried w handshake packets c) (hdel : Delivered hp c g)
    (hserve : DebugSession.Serving rt c.session g) : Conversation w packets qs c := by
  obtain ⟨hfit, -⟩ := HttpParser.frames_of_prefix hp (isPacket_of_asks hq) h.received
  obtain ⟨xs, hmax, hrequests, hall⟩ := h.requests hp hq hdel
  obtain ⟨texts, hout, hwritten⟩ := h.written
  exact {
    responses := by
      obtain ⟨handled, hpre, hreplies⟩ := responses_of_serving hserve
      rw [hrequests] at hpre
      exact ⟨handled, hpre.trans (List.take_prefix _ _), hreplies⟩
    prompt := by
      intro ha n hn harrived
      have hle : n ≤ xs.length := by
        have hps : ∀ b ∈ packets.take n, w.parser.IsPacket b := fun b hb =>
          isPacket_of_asks hq b (List.mem_of_mem_take hb)
        have hlen := ((w.parser.framing hp).frames_mono harrived).length_le
        rw [HttpParser.frames_packets hp hps, ← hall ha] at hlen
        simpa [hn] using hlen
      by_cases hpt : c.point = .session
      · obtain ⟨-, -, -, hwait⟩ := hdel.session hpt hfit
        rw [length_responses hserve (hwait ha).1, hrequests, List.length_take]
        omega
      · have hnil := hall ha
        rw [(hdel.idle hpt).1, Framing.frames_of_none (F := w.parser.framing hp)
          (HttpParser.next_nil hp)] at hnil
        simp only [hnil, List.length_nil] at hle
        omega
    numbers := DebugSession.nodup_seq hserve.reachable
    readBack := ⟨texts, hout, fun chunks hchunks => by
      rw [hwritten] at hchunks ⊢
      exact read_packetBytes hp hc hchunks⟩ }

end Client

end LuaToolkit.Connection
