import LuaToolkit.DebugSession
import LuaToolkit.HttpStream

/-!
# A connection, byte by byte

`SpawnClientSession` and what it calls, from the chunks that the client's bytes arrive in to the
packets that go back. `ReadHttpPacket` is taken statement by statement, so that the Lua thread can
send an event while it waits for bytes; a `write` puts its packet on the connection as a whole, or
breaks off inside it.

`Connection.system` begins with the reader of the handshake and goes on with a session, which has
a reader of its own.
-/

namespace LuaToolkit

open Transition

/-! ## The connection -/

/-- A JSON text that there is room for in a buffer together with the headers of its packet. -/
structure JsonText where
  bytes : BytesBuffer
  fits : (HttpStream.sendHttpJsonPacket bytes (ascii "/dap")).isSome

/-- The buffer that `SendHttpJsonPacket` hands to the stream. -/
def JsonText.packet (text : JsonText) : BytesBuffer :=
  (HttpStream.sendHttpJsonPacket text.bytes (ascii "/dap")).get text.fits

/-- Of the runtime library: the parser of header blocks, and JSON. A text may be unreadable, or its
value may be no message. -/
structure Wire (V : Type*) where
  parser : HttpParser
  jsonParseString : Bytes → Except String (Option (IncomingMessage V))
  jsonWrite : Dap.Message V → JsonText
  /-- The text of `HandshakeResponse`. -/
  handshakeResponse : JsonText

/-- `GetDapMessage`, once `ReadHttpPacket` has returned or thrown. -/
def Wire.getDapMessage {V : Type*} (w : Wire V) :
    Except String (Option Packet) → Except String (Option (IncomingMessage V))
  | .error what => .error what
  | .ok none => .ok none
  | .ok (some packet) => w.jsonParseString packet.body

/-- Where `SpawnClientSession` stands. -/
inductive ClientPoint where
  /-- `ReadHttpPacket`, of the handshake. -/
  | handshake
  /-- `SendHttpJsonPacket`, of the answer to it. -/
  | answer
  /-- `CreateDebugSession`. -/
  | create
  /-- The session's `Run`. -/
  | session
  /-- At its end, without a session. -/
  | closed
  deriving DecidableEq, Repr

/-- The stream reader in use (the local one of `SpawnClientSession`, then the one in the message
stream of the session), whether it waits for bytes, and the session, which is as it was created
until `Run` is called; and what has gone over the connection: the bytes given to the first reader,
those given to the second, and those written. -/
structure Connection (V : Type*) where
  point : ClientPoint := .handshake
  httpStream : HttpStream := .fresh
  awaiting : Bool := false
  session : DebugSession V := {}
  before : Bytes := []
  received : Bytes := []
  written : Bytes := []

namespace Connection

variable {V : Type*}

inductive Action (V : Type*) where
  /-- `GetNextPacket`. -/
  | poll
  /-- `co_await bytesStream.read()`. -/
  | bytes (result : Except String (Option Chunk))
  /-- The answer to the handshake is written, or a failure comes after some bytes of it. -/
  | answer (failed : Option Nat)
  /-- Whether `CreateDebugSession` returns a controller. -/
  | create (result : Except String Bool)
  /-- Any step of the session but `GetDapMessage`. If it sends a packet, that may fail too. -/
  | session (a : DebugSession.Action V) (failed : Option Nat)

/-- Inside `ReadHttpPacket`. -/
def reads (c : Connection V) : Bool :=
  match c.point with
  | .handshake => true
  | .session =>
    match c.session.run with
    | .receive => true
    | _ => false
  | _ => false

/-- `ReadHttpPacket` returns or throws. -/
def leaveRead (w : Wire V) (rt : Runtime) (result : Except String (Option Packet))
    (c : Connection V) : Option (Connection V) :=
  match c.point with
  | .handshake =>
    match result with
    | .ok (some _) => some { c with point := .answer }
    | _ => some { c with point := .closed }
  | .session =>
    (c.session.runStep rt (.message (w.getDapMessage result))).map fun s => { c with session := s }
  | _ => none

/-- The reader is given a chunk. -/
def appendBytes (chunk : Chunk) (c : Connection V) : Connection V :=
  let c := { c with awaiting := false, httpStream := c.httpStream.appendBytes chunk.val }
  match c.point with
  | .handshake => { c with before := c.before ++ chunk.val }
  | _ => { c with received := c.received ++ chunk.val }

/-- What gets onto the connection when a packet is written. -/
def transmit (packet : BytesBuffer) : Option Nat → Bytes
  | none => packet.val
  | some n => packet.val.take n

/-- The message that a step of the session sends. -/
def outgoing (s : DebugSession V) : DebugSession.Action V → Option (Dap.Message V)
  | .run (.sent _) =>
    match s.run with
    | .respond response => some (.response response)
    | _ => none
  | .lua .step =>
    match s.lua with
    | .announce _ message => some (.event message)
    | _ => none
  | _ => none

/-- What a step of the session writes. -/
def sends (w : Wire V) (s : DebugSession V) (a : DebugSession.Action V) (failed : Option Nat) :
    Bytes :=
  match outgoing s a with
  | some message => transmit (w.jsonWrite message).packet failed
  | none => []

/-- The message does not come from elsewhere, and `Run` is told truly whether its response was
sent. The send of an event is detached. -/
def Admits : DebugSession.Action V → Option Nat → Bool
  | .run (.message _), _ => false
  | .run (.sent (.ok _)), failed => failed.isNone
  | .run (.sent (.error _)), failed => failed.isSome
  | _, _ => true

def step (w : Wire V) (rt : Runtime) (a : Action V) (c : Connection V) : Option (Connection V) :=
  match a with
  | .poll =>
    if c.reads && !c.awaiting then
      match c.httpStream.getNextPacket w.parser with
      | (some packet, httpStream) => { c with httpStream }.leaveRead w rt (.ok (some packet))
      | (none, httpStream) => some { c with httpStream, awaiting := true }
    else none
  | .bytes result =>
    if c.awaiting then
      match result with
      | .ok (some chunk) => some (c.appendBytes chunk)
      | .ok none => { c with awaiting := false }.leaveRead w rt (.ok none)
      | .error what => { c with awaiting := false }.leaveRead w rt (.error what)
    else none
  | .answer failed =>
    match c.point with
    | .answer =>
      some { c with
        written := c.written ++ transmit w.handshakeResponse.packet failed
        point := if failed.isNone then .create else .closed }
    | _ => none
  | .create result =>
    match c.point with
    | .create =>
      match result with
      -- The message stream of the session has a reader of its own.
      | .ok true => some { c with point := .session, httpStream := .fresh }
      | _ => some { c with point := .closed }
    | _ => none
  | .session a failed =>
    match c.point with
    | .session =>
      if Admits a failed then
        ((DebugSession.system V rt).step a c.session).map fun s =>
          { c with
            session := s
            written := c.written ++ sends w c.session a failed }
      else none
    | _ => none

/-- A connection from the moment it is accepted. -/
def system (w : Wire V) (rt : Runtime) : System (Connection V) (Action V) where
  init c := c = {}
  step := step w rt

end Connection

end LuaToolkit
