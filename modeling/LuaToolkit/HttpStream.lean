import LuaToolkit.Lib.FirstInfix
import LuaToolkit.Lib.Framing
import Mathlib.Algebra.Group.Nat.Defs

/-!
# `HttpStream`: the byte buffer of a connection

`HttpStream` collects the chunks a connection delivers and cuts HTTP packets off the front. A
packet is returned as a view into the buffer, so its bytes are dropped only at the next call,
by `PopLastPacketBytes`.

`HttpParser` comes from another library. It is a parameter here, and what `HttpStream` relies
on is stated in `HttpParser.Recognises`.
-/

namespace LuaToolkit

abbrev Bytes := List UInt8

/-- The bytes of a text of ASCII characters. -/
def ascii (s : String) : Bytes := s.toList.map fun c => c.toNat.toUInt8

/-- One more than the largest `size_t`. -/
abbrev sizeBound : Nat := 2 ^ 64

/-- The contents of a buffer in memory, whose size is a `size_t`. -/
abbrev BytesBuffer := { b : Bytes // b.length < sizeBound }

/-- CR LF CR LF, the end of a header block. -/
def blankLine : Bytes := [13, 10, 13, 10]

/-! ## The parser -/

/-- What the code asks of an `HttpParser` made over some bytes: `headersLength`, which is there
when the parser converts to `true`, and `contentLength`. -/
structure HttpParser where
  headersLength : Bytes → Option Nat
  contentLength : Bytes → Nat

/-- A header block is recognised exactly when it is complete, that is when the blank line
ending it is there, which its length includes; and its Content-Length does not depend on what
follows the block. -/
structure HttpParser.Recognises (p : HttpParser) : Prop where
  headersLength_eq : ∀ b, p.headersLength b =
    (b.dropInfix? blankLine).map fun x => x.1.length + blankLine.length
  contentLength_append : ∀ b h, p.headersLength b = some h →
    ∀ c, p.contentLength (b ++ c) = p.contentLength b

/-! ## The buffer -/

/-- A packet, as the views into the buffer that it consists of. -/
structure Packet where
  headers : Bytes
  body : Bytes
  deriving DecidableEq, Repr

/-- The two fields; the packet handed out last lies inside the buffer. -/
structure HttpStream where
  inboundBuffer : Bytes
  lastPacketSize : Nat
  lastPacketSize_le : lastPacketSize ≤ inboundBuffer.length
  deriving DecidableEq, Repr

/-- `memcpy` of `n` bytes inside one buffer, in ascending order. For overlapping ranges the C
library leaves the order open; that they do not overlap is not assumed here. -/
def memcpy (buf : Bytes) (dst src : Nat) : Nat → Bytes
  | 0 => buf
  | n + 1 => memcpy (buf.set dst (buf[src]?.getD 0)) (dst + 1) (src + 1) n

namespace HttpStream

/-- A freshly constructed stream. -/
def fresh : HttpStream := ⟨[], 0, Nat.le_refl 0⟩

/-- The assertion of this function, that the last packet lies inside the buffer, is the field
`lastPacketSize_le`. -/
def popLastPacketBytes (s : HttpStream) : HttpStream :=
  if s.lastPacketSize = 0 then s
  else
    let newSize := s.inboundBuffer.length - s.lastPacketSize
    let data :=
      if 0 < newSize then memcpy s.inboundBuffer 0 s.lastPacketSize newSize else s.inboundBuffer
    ⟨data.take newSize, 0, Nat.zero_le _⟩

def appendBytes (s : HttpStream) (bytes : Bytes) : HttpStream :=
  let s := s.popLastPacketBytes
  ⟨s.inboundBuffer ++ bytes, s.lastPacketSize,
    s.lastPacketSize_le.trans (by simp only [List.length_append]; omega)⟩

/-- The size of the packet is computed in `size_t`, and wraps around. -/
def getNextPacket (p : HttpParser) (s : HttpStream) : Option Packet × HttpStream :=
  let s := s.popLastPacketBytes
  match p.headersLength s.inboundBuffer with
  | none => (none, s)
  | some headersLength =>
    let contentLen := p.contentLength s.inboundBuffer
    let packetSize := (headersLength + contentLen) % sizeBound
    if h : s.inboundBuffer.length < packetSize then (none, s)
    else
      (some ⟨s.inboundBuffer.take headersLength,
          (s.inboundBuffer.drop headersLength).take contentLen⟩,
        ⟨s.inboundBuffer, packetSize, Nat.le_of_not_lt h⟩)

end HttpStream

/-! ## Reading and writing -/

/-- What a read from the transport delivers; end of stream is the absence of a chunk. -/
abbrev Chunk := { c : Bytes // c ≠ [] }

/-- The bytes that a list of chunks carries. -/
def chunkBytes (chunks : List Chunk) : Bytes := (chunks.map Subtype.val).flatten

namespace HttpStream

/-- `ReadHttpPacket`, with the stream and the chunks it leaves behind. -/
def readHttpPacket (p : HttpParser) (s : HttpStream) :
    List Chunk → Option Packet × HttpStream × List Chunk
  | [] =>
    let (packet, s) := s.getNextPacket p
    (packet, s, [])
  | chunk :: chunks =>
    match s.getNextPacket p with
    | (some packet, s) => (some packet, s, chunk :: chunks)
    | (none, s) => readHttpPacket p (s.appendBytes chunk.val) chunks

/-- The results of successive calls of `ReadHttpPacket` on one stream and connection. -/
def readHttpPackets (p : HttpParser) : Nat → HttpStream → List Chunk → List (Option Packet)
  | 0, _, _ => []
  | n + 1, s, chunks =>
    let (packet, s, chunks) := s.readHttpPacket p chunks
    packet :: readHttpPackets p n s chunks

/-- `std::to_string` of a size. -/
def decimal (n : Nat) : Bytes := (Nat.toDigits 10 n).map fun c => c.toNat.toUInt8

/-- The header text that `SendHttpJsonPacket` writes in front of a body of `size` bytes. -/
def packetHeaders (path : Bytes) (size : Nat) : Bytes :=
  ascii "POST " ++ path ++ ascii " HTTP/1.1\r\n" ++
    (ascii "Content-Type: application/json\r\n" ++ ascii "Content-Length: " ++ decimal size ++
      ascii "\r\n\r\n")

/-- `SendHttpJsonPacket` of a value already written as `bodyBytes`: the one buffer handed to the
stream. There is no packet when no buffer has the size of headers and body together. -/
def sendHttpJsonPacket (bodyBytes : BytesBuffer) (path : Bytes) : Option BytesBuffer :=
  let packetBytes := packetHeaders path bodyBytes.val.length ++ bodyBytes.val
  if h : packetBytes.length < sizeBound then some ⟨packetBytes, h⟩ else none

end HttpStream

end LuaToolkit
