import LuaToolkit.Connection
import LuaToolkit.DebugSessionDialogue
import LuaToolkit.Lib.Projection
import LuaToolkit.RemoteController

/-!
# A connection carries a session

* `Step` — the steps of a connection, one constructor for each outcome.
* `projects_session` — its session moves as `DebugSession.system` does.
* `exec_readHttpPacket` — without interruption, the statements of `ReadHttpPacket` are the function.
* `delivers_of_reachable` — the session reads the packets at the front of what its reader was given,
  wherever the chunk boundaries lie and whatever fails.
-/

namespace LuaToolkit

open Transition

/-- The message in a packet. -/
def Wire.message? {V : Type*} (w : Wire V) (x : Packet) : Option (IncomingMessage V) :=
  (w.jsonParseString x.body).toOption.join

namespace Connection

variable {V : Type*} {w : Wire V} {rt : Runtime} {c c' : Connection V}

/-! ## The steps -/

/-- The steps of a connection. -/
inductive Step (w : Wire V) (rt : Runtime) (c : Connection V) : Action V → Connection V → Prop
  /-- The handshake is complete. -/
  | shaken {x : Packet} {t : HttpStream} (hp : c.point = .handshake) (ha : c.awaiting = false)
      (hget : c.httpStream.getNextPacket w.parser = (some x, t)) :
      Step w rt c .poll { c with httpStream := t, point := .answer }
  /-- A message is complete. -/
  | packet {x : Packet} {t : HttpStream} (hp : c.point = .session) (hr : c.session.run = .receive)
      (ha : c.awaiting = false) (hget : c.httpStream.getNextPacket w.parser = (some x, t)) :
      Step w rt c .poll
        { c with
          httpStream := t
          session := { c.session with
            run := DebugSession.receiveMessage (w.getDapMessage (.ok (some x))) } }
  | wait {t : HttpStream} (hr : c.reads = true) (ha : c.awaiting = false)
      (hget : c.httpStream.getNextPacket w.parser = (none, t)) :
      Step w rt c .poll { c with httpStream := t, awaiting := true }
  | chunk (chunk : Chunk) (ha : c.awaiting = true) :
      Step w rt c (.bytes (.ok (some chunk))) (c.appendBytes chunk)
  /-- The stream ends or fails before the handshake is complete. -/
  | noHandshake {result : Except String (Option Chunk)} (hp : c.point = .handshake)
      (ha : c.awaiting = true) (hn : ∀ chunk, result ≠ .ok (some chunk)) :
      Step w rt c (.bytes result) { c with awaiting := false, point := .closed }
  | ended (hp : c.point = .session) (hr : c.session.run = .receive) (ha : c.awaiting = true) :
      Step w rt c (.bytes (.ok none))
        { c with
          awaiting := false
          session := { c.session with run := .finished .endOfStream } }
  | broken (what : String) (hp : c.point = .session) (hr : c.session.run = .receive)
      (ha : c.awaiting = true) :
      Step w rt c (.bytes (.error what))
        { c with
          awaiting := false
          session := { c.session with run := .finished (.exception what) } }
  | answer (failed : Option Nat) (hp : c.point = .answer) :
      Step w rt c (.answer failed)
        { c with
          written := c.written ++ transmit w.handshakeResponse.packet failed
          point := if failed.isNone then .create else .closed }
  | create (hp : c.point = .create) :
      Step w rt c (.create (.ok true)) { c with point := .session, httpStream := .fresh }
  | noController {result : Except String Bool} (hp : c.point = .create) :
      Step w rt c (.create result) { c with point := .closed }
  | session {a : DebugSession.Action V} {failed : Option Nat} {s : DebugSession V}
      (hp : c.point = .session) (ha : Admits a failed = true)
      (hs : (DebugSession.system V rt).step a c.session = some s) :
      Step w rt c (.session a failed)
        { c with
          session := s
          written := c.written ++ sends w c.session a failed }

theorem run_of_message {s s' : DebugSession V}
    {result : Except String (Option (IncomingMessage V))}
    (h : s.runStep rt (.message result) = some s') :
    s.run = .receive ∧ s' = { s with run := DebugSession.receiveMessage result } := by
  cases DebugSession.runStep_iff.1 h with
  | receive hr => exact ⟨hr, rfl⟩
  | handle hr hs => cases hs

theorem step_cases {a : Action V} (h : (system w rt).step a c = some c') : Step w rt c a c' := by
  simp only [system, step] at h
  cases a with
  | poll =>
    dsimp only at h
    by_cases hra : (c.reads && !c.awaiting) = true
    · rw [if_pos hra] at h
      obtain ⟨hr, ha⟩ : c.reads = true ∧ c.awaiting = false := by simpa using hra
      cases hget : c.httpStream.getNextPacket w.parser with
      | mk packet t =>
        rw [hget] at h
        cases packet with
        | none =>
          cases h
          exact .wait hr ha hget
        | some x =>
          simp only [leaveRead] at h
          cases hp : c.point with
          | handshake =>
            rw [hp] at h
            cases h
            exact .shaken hp ha hget
          | session =>
            rw [hp] at h
            obtain ⟨s, hs, rfl⟩ := Option.map_eq_some_iff.1 h
            obtain ⟨hrun, rfl⟩ := run_of_message hs
            exact hp ▸ Step.packet hp hrun ha hget
          | _ => simp [reads, hp] at hr
    · rw [if_neg hra] at h
      cases h
  | bytes result =>
    dsimp only at h
    by_cases ha : c.awaiting = true
    · rw [if_pos ha] at h
      have hleave : ∀ {r : Except String (Option Packet)}, r.toOption.bind id = none →
          { c with awaiting := false }.leaveRead w rt r = some c' →
            (c.point = .handshake ∧ c' = { c with awaiting := false, point := .closed }) ∨
              (c.point = .session ∧ c.session.run = .receive ∧
                c' = { c with
                  awaiting := false
                  session := { c.session with
                    run := DebugSession.receiveMessage (w.getDapMessage r) } }) := by
        intro r hr h
        simp only [leaveRead] at h
        cases hp : c.point with
        | handshake =>
          rw [hp] at h
          rcases r with what | _ | x
          · exact .inl ⟨rfl, (Option.some.inj h).symm⟩
          · exact .inl ⟨rfl, (Option.some.inj h).symm⟩
          · cases hr
        | session =>
          rw [hp] at h
          obtain ⟨s, hs, rfl⟩ := Option.map_eq_some_iff.1 h
          obtain ⟨hrun, rfl⟩ := run_of_message hs
          exact .inr ⟨rfl, hrun, rfl⟩
        | _ =>
          rw [hp] at h
          cases h
      rcases result with what | _ | chunk
      · rcases hleave rfl h with ⟨hp, rfl⟩ | ⟨hp, hr, rfl⟩
        · exact .noHandshake hp ha nofun
        · exact .broken what hp hr ha
      · rcases hleave rfl h with ⟨hp, rfl⟩ | ⟨hp, hr, rfl⟩
        · exact .noHandshake hp ha nofun
        · exact .ended hp hr ha
      · cases h
        exact .chunk chunk ha
    · rw [if_neg ha] at h
      cases h
  | answer failed =>
    cases hp : c.point with
    | answer =>
      rw [hp] at h
      cases h
      exact .answer failed hp
    | _ => simp [hp] at h
  | create result =>
    cases hp : c.point with
    | create =>
      rw [hp] at h
      rcases result with what | _ | _
      all_goals
        cases h
        first | exact .create hp | exact .noController hp
    | _ => simp [hp] at h
  | session a failed =>
    cases hp : c.point with
    | session =>
      rw [hp] at h
      dsimp only at h
      by_cases ha : Admits a failed = true
      · rw [if_pos ha] at h
        obtain ⟨s, hs, rfl⟩ := Option.map_eq_some_iff.1 h
        simpa only [hp] using Step.session (w := w) hp ha hs
      · rw [if_neg ha] at h
        cases h
    | _ => simp [hp] at h

/-! ## The session of a connection -/

/-- The step of the session that a step of the connection makes. -/
def move (w : Wire V) (c : Connection V) : Action V → Option (DebugSession.Action V)
  | .poll =>
    match c.point with
    | .session => (c.httpStream.getNextPacket w.parser).1.map fun x =>
        .run (.message (w.getDapMessage (.ok (some x))))
    | _ => none
  | .bytes (.ok none) =>
    match c.point with
    | .session => some (.run (.message (.ok none)))
    | _ => none
  | .bytes (.error what) =>
    match c.point with
    | .session => some (.run (.message (.error what)))
    | _ => none
  | .session a _ => some a
  | _ => none

@[simp] theorem appendBytes_session (chunk : Chunk) :
    (c.appendBytes chunk).session = c.session := by
  unfold appendBytes
  cases c.point <;> rfl

theorem move_bytes_none {result : Except String (Option Chunk)} (hp : c.point ≠ .session) :
    move w c (.bytes result) = none := by
  rcases result with what | _ | chunk
  · cases hc : c.point <;> simp_all [move]
  · cases hc : c.point <;> simp_all [move]
  · rfl

theorem init_session (h : (system w rt).init c) : (DebugSession.system V rt).init c.session := by
  rw [show c = {} from h]
  exact rfl

/-- **The session of a connection** moves as a session does. -/
theorem projects_session (w : Wire V) (rt : Runtime) :
    (system w rt).Projects (DebugSession.system V rt) Connection.session (move w) where
  moves := by
    intro c a c' b h hm
    cases step_cases h with
    | packet hp hr ha hget =>
      simp only [move, hp, hget, Option.map_some, Option.some.injEq] at hm
      subst hm
      exact (DebugSession.RunStep.receive hr _).step
    | ended hp hr ha | broken what hp hr ha =>
      simp only [move, hp, Option.some.injEq] at hm
      subst hm
      exact (DebugSession.RunStep.receive hr _).step
    | session hp ha hs =>
      cases hm
      exact hs
    | shaken hp ha hget => simp [move, hp] at hm
    | wait hr ha hget => cases hp : c.point <;> simp [move, hp, hget] at hm
    | noHandshake hp ha hn =>
      rw [move_bytes_none (by simp [hp])] at hm
      cases hm
    | chunk | answer | create | noController => cases hm
  rests := by
    intro c a c' h hm
    cases step_cases h with
    | packet hp hr ha hget => simp [move, hp, hget] at hm
    | ended hp hr ha | broken what hp hr ha => simp [move, hp] at hm
    | session hp ha hs => cases hm
    | chunk chunk ha => exact appendBytes_session chunk
    | _ => rfl

/-- A connection with a record of the dialogue that its session carries on. -/
abbrev dialogueSystem (w : Wire V) (rt : Runtime) :
    System (Connection V × DebugSession.Dialogue V) (Action V) :=
  (system w rt).recorded {}
    (System.Projects.recordMove Connection.session (move w) DebugSession.Dialogue.record)

/-! ## `ReadHttpPacket` without interruption -/

/-- The statements of `ReadHttpPacket` in a session, with the chunks that it fetches and the packet
that it returns. -/
def readActions (fetched : List Chunk) (packet : Option Packet) : List (Action V) :=
  (fetched.flatMap fun chunk => [.poll, .bytes (.ok (some chunk))]) ++
    .poll :: if packet.isSome then [] else [.bytes (.ok none)]

theorem exec_readHttpPacket (hpt : c.point = .session) (hr : c.session.run = .receive)
    (ha : c.awaiting = false) {chunks rest : List Chunk} {packet : Option Packet} {t : HttpStream}
    (h : c.httpStream.readHttpPacket w.parser chunks = (packet, t, rest)) :
    ∃ fetched, chunks = fetched ++ rest ∧
      (system w rt).exec (readActions fetched packet) c = some { c with
        httpStream := t
        received := c.received ++ chunkBytes fetched
        session := { c.session with
          run := DebugSession.receiveMessage (w.getDapMessage (.ok packet)) } } := by
  induction chunks generalizing c with
  | nil =>
    have hreads : c.reads = true := by simp [reads, hpt, hr]
    simp only [HttpStream.readHttpPacket, Prod.mk.injEq] at h
    obtain ⟨rfl, rfl, rfl⟩ := h
    refine ⟨[], rfl, ?_⟩
    cases hget : c.httpStream.getNextPacket w.parser with
    | mk packet t =>
      cases packet <;>
        simp [readActions, System.exec, system, step, hreads, ha, hget, leaveRead, hpt,
          DebugSession.runStep, hr, chunkBytes]
  | cons chunk chunks ih =>
    have hreads : c.reads = true := by simp [reads, hpt, hr]
    rw [HttpStream.readHttpPacket] at h
    cases hget : c.httpStream.getNextPacket w.parser with
    | mk x u =>
      cases x with
      | some x =>
        simp only [hget, Prod.mk.injEq] at h
        obtain ⟨rfl, rfl, rfl⟩ := h
        refine ⟨[], rfl, ?_⟩
        simp [readActions, System.exec, system, step, hreads, ha, hget, leaveRead, hpt,
          DebugSession.runStep, hr, chunkBytes]
      | none =>
        simp only [hget] at h
        obtain ⟨fetched, rfl, hexec⟩ := ih (c := { c with
          awaiting := false
          httpStream := u.appendBytes chunk.val
          received := c.received ++ chunk.val }) hpt hr rfl h
        refine ⟨chunk :: fetched, rfl, ?_⟩
        have hwait : (system w rt).step .poll c =
            some { c with httpStream := u, awaiting := true } := by
          simp [system, step, hreads, ha, hget]
        have hchunk : (system w rt).step (.bytes (.ok (some chunk)))
            { c with httpStream := u, awaiting := true } = some { c with
              awaiting := false
              httpStream := u.appendBytes chunk.val
              received := c.received ++ chunk.val } := by
          simp [system, step, appendBytes, hpt]
        have hactions : readActions (chunk :: fetched) packet =
            .poll :: .bytes (.ok (some chunk)) :: readActions (V := V) fetched packet := rfl
        rw [hactions, System.exec, hwait, Option.bind_some, System.exec, hchunk, Option.bind_some,
          hexec]
        simp only [ha, chunkBytes_cons, List.append_assoc]

/-! ## What the session reads -/

/-- The messages read are those of the first frames of what the session's reader was given; of all
its frames, when the reader waits for more. -/
structure Delivered (hp : w.parser.Recognises) (c : Connection V) (g : DebugSession.Dialogue V) :
    Prop where
  idle : c.point ≠ .session → c.received = [] ∧ g.read = []
  reading : c.awaiting = true → c.point = .handshake ∨ c.point = .session
  session : c.point = .session → w.parser.Fits c.received →
    ∃ xs, (w.parser.framing hp).Cuts c.received xs c.httpStream.pending ∧
      g.read = xs.filterMap w.message? ∧
      (c.awaiting = true → c.session.run = .receive ∧ w.parser.next c.httpStream.pending = none)

/-- One call, when the size at the front of the buffer does not wrap around. -/
theorem getNextPacket_next {p : HttpParser} {s : HttpStream} (hf : p.Fits s.pending) :
    (∃ t, s.getNextPacket p = (none, t) ∧ p.next s.pending = none ∧ t.pending = s.pending) ∨
      ∃ x k t, s.getNextPacket p = (some x, t) ∧ p.next s.pending = some (x, k) ∧
        t.pending = s.pending.drop k := by
  cases hn : p.next s.pending with
  | none =>
    obtain ⟨t, hget, ht⟩ := HttpStream.getNextPacket_of_none hn (hf 0)
    exact .inl ⟨t, hget, rfl, ht⟩
  | some xk =>
    obtain ⟨x, k⟩ := xk
    obtain ⟨t, hget, ht⟩ := HttpStream.getNextPacket_of_some hn (hf 0)
    exact .inr ⟨x, k, t, hget, rfl, ht⟩

theorem read_receive {s s' : DebugSession V} (hr : s.run = .receive)
    (result : Except String (Option (IncomingMessage V))) (g : DebugSession.Dialogue V) :
    (DebugSession.Dialogue.record s (.run (.message result)) s' g).read =
      g.read ++ result.toOption.join.toList := by
  simp only [DebugSession.Dialogue.record, DebugSession.Dialogue.ran, hr]
  rcases result with what | _ | m <;> simp [Except.toOption]

/-- Only the step that gets a message reads one. -/
theorem read_record {s s' : DebugSession V} {a : DebugSession.Action V} {failed : Option Nat}
    (ha : Admits a failed = true) (g : DebugSession.Dialogue V) :
    (DebugSession.Dialogue.record s a s' g).read = g.read := by
  cases a with
  | lua i => exact DebugSession.Dialogue.read_lua i g
  | run i =>
    simp only [DebugSession.Dialogue.record, DebugSession.Dialogue.ran]
    cases s.run with
    | receive =>
      cases i with
      | message result => cases ha
      | _ => rfl
    | handle q r p => cases s'.run <;> rfl
    | respond r =>
      cases i with
      | sent result => cases result <;> rfl
      | _ => rfl
    | _ => rfl

theorem wellFormed_of_admits {s : DebugSession V} {a : DebugSession.Action V} {failed : Option Nat}
    (ha : Admits a failed = true) : DebugSession.WellFormed s a := by
  cases a with
  | lua i => trivial
  | run i =>
    cases i with
    | message result => cases ha
    | _ => trivial

/-- While the reader waits for bytes, only the Lua thread moves. -/
theorem run_of_receive {s s' : DebugSession V} {a : DebugSession.Action V} {failed : Option Nat}
    (hr : s.run = .receive) (ha : Admits a failed = true)
    (hs : (DebugSession.system V rt).step a s = some s') : s'.run = .receive := by
  cases a with
  | lua i => exact (DebugSession.luaStep_run (DebugSession.luaStep_iff.1 hs)).1.trans hr
  | run i =>
    cases DebugSession.runStep_iff.1 hs with
    | receive hr' result => cases ha
    | start hr' | request hr' | handle hr' _ | sent hr' | sendThrows hr' | again hr' | closed hr' =>
      cases hr.symm.trans hr'

/-- What a step of a connection adds to the record of the dialogue. -/
def extend (w : Wire V) (c : Connection V) (a : Action V) (c' : Connection V)
    (g : DebugSession.Dialogue V) : DebugSession.Dialogue V :=
  System.Projects.recordMove Connection.session (move w) DebugSession.Dialogue.record c a c' g

theorem extend_of_none {a : Action V} (h : move w c a = none) (g : DebugSession.Dialogue V) :
    extend w c a c' g = g := by
  simp only [extend, System.Projects.recordMove, h]

theorem extend_of_some {a : Action V} {b : DebugSession.Action V} (h : move w c a = some b)
    (g : DebugSession.Dialogue V) :
    extend w c a c' g = DebugSession.Dialogue.record c.session b c'.session g := by
  simp only [extend, System.Projects.recordMove, h]

/-- Outside the session nothing is read. -/
theorem Delivered.of_idle {hp : w.parser.Recognises} {g g' : DebugSession.Dialogue V}
    (h : Delivered hp c g) (hpt : c.point ≠ .session) (hpt' : c'.point ≠ .session)
    (hreceived : c'.received = c.received) (hread : g' = g)
    (hreading : c'.awaiting = true → c'.point = .handshake) : Delivered hp c' g' where
  idle _ := by
    rw [hreceived, hread]
    exact h.idle hpt
  reading ha := .inl (hreading ha)
  session hc := absurd hc hpt'

theorem delivered_packet {hp : w.parser.Recognises} {g : DebugSession.Dialogue V} {x : Packet}
    {t : HttpStream} (h : Delivered hp c g) (hpt : c.point = .session)
    (hr : c.session.run = .receive) (ha : c.awaiting = false)
    (hget : c.httpStream.getNextPacket w.parser = (some x, t)) {s : DebugSession V} :
    Delivered hp { c with httpStream := t, session := s }
      (DebugSession.Dialogue.record c.session
        (.run (.message (w.getDapMessage (.ok (some x))))) s g) where
  idle hc := absurd hpt hc
  reading _ := .inr hpt
  session _ hfit := by
    obtain ⟨xs, hcuts, hread, -⟩ := h.session hpt hfit
    rcases getNextPacket_next (hfit.of_cuts hp hcuts) with ⟨u, hget', -⟩ | ⟨y, k, u, hget', hn, hu⟩
    · cases hget.symm.trans hget'
    · cases hget.symm.trans hget'
      refine ⟨xs ++ [x], hu ▸ .concat hcuts hn, ?_, by simp [ha]⟩
      rw [read_receive hr, hread, List.filterMap_append]
      simp only [Wire.getDapMessage, List.filterMap_cons, List.filterMap_nil, Wire.message?]
      cases (w.jsonParseString x.body).toOption.join <;> rfl

theorem delivered_wait {hp : w.parser.Recognises} {g : DebugSession.Dialogue V} {t : HttpStream}
    (h : Delivered hp c g) (hr : c.reads = true)
    (hget : c.httpStream.getNextPacket w.parser = (none, t)) :
    Delivered hp { c with httpStream := t, awaiting := true } g where
  idle := h.idle
  reading _ := by
    show c.point = .handshake ∨ c.point = .session
    cases hpt : c.point <;> simp_all [reads]
  session hpt hfit := by
    obtain ⟨xs, hcuts, hread, -⟩ := h.session hpt hfit
    have hrun : c.session.run = .receive := by
      simp only [reads, show c.point = _ from hpt] at hr
      cases hrun : c.session.run <;> simp_all
    rcases getNextPacket_next (hfit.of_cuts hp hcuts) with ⟨u, hget', hn, hu⟩ | ⟨y, k, u, hget', -⟩
    · cases hget.symm.trans hget'
      rw [hu]
      exact ⟨xs, hcuts, hread, fun _ => ⟨hrun, hn⟩⟩
    · cases hget.symm.trans hget'

theorem appendBytes_of_session (hpt : c.point = .session) (chunk : Chunk) :
    c.appendBytes chunk = { c with
      awaiting := false
      httpStream := c.httpStream.appendBytes chunk.val
      received := c.received ++ chunk.val } := by
  simp only [appendBytes, hpt]

theorem appendBytes_of_handshake (hpt : c.point = .handshake) (chunk : Chunk) :
    c.appendBytes chunk = { c with
      awaiting := false
      httpStream := c.httpStream.appendBytes chunk.val
      before := c.before ++ chunk.val } := by
  simp only [appendBytes, hpt]

theorem delivered_chunk {hp : w.parser.Recognises} {g : DebugSession.Dialogue V}
    (h : Delivered hp c g) (hpt : c.point = .session) (chunk : Chunk) :
    Delivered hp (c.appendBytes chunk) g := by
  rw [appendBytes_of_session hpt]
  refine ⟨fun hc => absurd hpt hc, nofun, fun _ hfit => ?_⟩
  obtain ⟨xs, hcuts, hread, -⟩ := h.session hpt (hfit.of_append hp)
  refine ⟨xs, ?_, hread, nofun⟩
  simpa using hcuts.append chunk.val

/-- The stream ends or fails: no message is read, and `Run` is at its end. -/
theorem delivered_end {hp : w.parser.Recognises} {g : DebugSession.Dialogue V}
    (h : Delivered hp c g) (hpt : c.point = .session) (hr : c.session.run = .receive)
    {result : Except String (Option (IncomingMessage V))} (hnone : result.toOption.join = none)
    {s : DebugSession V} : Delivered hp { c with awaiting := false, session := s }
      (DebugSession.Dialogue.record c.session (.run (.message result)) s g) where
  idle hc := absurd hpt hc
  reading := nofun
  session _ hfit := by
    obtain ⟨xs, hcuts, hread, -⟩ := h.session hpt hfit
    refine ⟨xs, hcuts, ?_, nofun⟩
    rw [read_receive hr, hnone, Option.toList_none, List.append_nil, hread]

theorem delivered_step (hp : w.parser.Recognises) {g : DebugSession.Dialogue V} {a : Action V}
    (h : Delivered hp c g) (hs : Step w rt c a c') : Delivered hp c' (extend w c a c' g) := by
  cases hs with
  | shaken hpt ha hget =>
    rw [extend_of_none (by simp [move, hpt])]
    exact h.of_idle (by simp [hpt]) (by simp) rfl rfl (by simp [ha])
  | packet hpt hr ha hget =>
    rw [extend_of_some (by simp only [move, hpt, hget, Option.map_some]; rfl)]
    exact delivered_packet h hpt hr ha hget
  | wait hr ha hget =>
    rw [extend_of_none (by cases hpt : c.point <;> simp [move, hpt, hget])]
    exact delivered_wait h hr hget
  | chunk chunk ha =>
    rw [extend_of_none rfl]
    rcases h.reading ha with hpt | hpt
    · rw [appendBytes_of_handshake hpt]
      exact h.of_idle (by simp [hpt]) (by simp [hpt]) rfl rfl nofun
    · exact delivered_chunk h hpt chunk
  | noHandshake hpt ha hn =>
    rw [extend_of_none (move_bytes_none (by simp [hpt]))]
    exact h.of_idle (by simp [hpt]) (by simp) rfl rfl nofun
  | ended hpt hr ha =>
    rw [extend_of_some (by simp only [move, hpt]; rfl)]
    exact delivered_end h hpt hr rfl
  | broken what hpt hr ha =>
    rw [extend_of_some (by simp only [move, hpt]; rfl)]
    exact delivered_end h hpt hr rfl
  | answer failed hpt =>
    rw [extend_of_none rfl]
    refine h.of_idle (by simp [hpt]) ?_ rfl rfl fun ha => ?_
    · cases failed <;> simp
    · rcases h.reading ha with hc | hc <;> cases hpt.symm.trans hc
  | create hpt =>
    rw [extend_of_none rfl]
    obtain ⟨hreceived, hread⟩ := h.idle (by simp [hpt])
    refine ⟨by simp, fun _ => .inr rfl, fun _ _ => ⟨[], ?_, hread, fun ha => ?_⟩⟩
    · simp only [hreceived, HttpStream.pending_fresh]
      exact .nil
    · rcases h.reading ha with hc | hc <;> cases hpt.symm.trans hc
  | noController hpt =>
    rw [extend_of_none rfl]
    refine h.of_idle (by simp [hpt]) (by simp) rfl rfl fun ha => ?_
    rcases h.reading ha with hc | hc <;> cases hpt.symm.trans hc
  | session hpt ha hs =>
    rw [extend_of_some rfl]
    refine ⟨fun hc => absurd hpt hc, fun _ => .inr hpt, fun _ hfit => ?_⟩
    obtain ⟨xs, hcuts, hread, hwait⟩ := h.session hpt hfit
    refine ⟨xs, hcuts, (read_record ha g).trans hread, fun hc => ?_⟩
    obtain ⟨hrun, hn⟩ := hwait hc
    exact ⟨run_of_receive hrun ha hs, hn⟩

/-- In every state, the messages are those of the first frames. -/
theorem Delivered.frames {hp : w.parser.Recognises} {g : DebugSession.Dialogue V}
    (h : Delivered hp c g) (hfit : w.parser.Fits c.received) :
    ∃ xs, xs <+: (w.parser.framing hp).frames c.received ∧ g.read = xs.filterMap w.message? ∧
      (c.awaiting = true → xs = (w.parser.framing hp).frames c.received) := by
  by_cases hpt : c.point = .session
  · obtain ⟨xs, hcuts, hread, hwait⟩ := h.session hpt hfit
    refine ⟨xs, ⟨_, hcuts.frames_eq.symm⟩, hread, fun ha => ?_⟩
    obtain ⟨-, hn⟩ := hwait ha
    rw [hcuts.frames_eq, Framing.frames_of_none (F := w.parser.framing hp) hn, List.append_nil]
  · obtain ⟨hreceived, hread⟩ := h.idle hpt
    have hnil : (w.parser.framing hp).frames c.received = [] := by
      rw [hreceived]
      exact Framing.frames_of_none (HttpParser.next_nil hp)
    exact ⟨[], List.nil_prefix, hread, fun _ => hnil.symm⟩

theorem delivered_of_reachable (hp : w.parser.Recognises) {g : DebugSession.Dialogue V}
    (h : (dialogueSystem w rt).Reachable (c, g)) : Delivered hp c g := by
  refine h.recorded (fun c hc => ?_) fun c g a c' hi hstep =>
    delivered_step hp hi (step_cases hstep)
  rw [show c = {} from hc]
  exact ⟨fun _ => ⟨rfl, rfl⟩, nofun, nofun⟩

/-- **Delivery.** Whatever the chunk boundaries and the failures, the session of a connection is one
that can be reached, and has read the messages in the packets at the front of the bytes that its
reader was given; in all of them, when the reader waits for more. -/
theorem delivers_of_reachable (hp : w.parser.Recognises) (h : (system w rt).Reachable c) :
    (DebugSession.system V rt).Reachable c.session ∧ (w.parser.Fits c.received →
      ∃ g, (DebugSession.dialogueSystem V rt).Reachable (c.session, g) ∧
        ∃ xs, xs <+: (w.parser.framing hp).frames c.received ∧ g.read = xs.filterMap w.message? ∧
          (c.awaiting = true → xs = (w.parser.framing hp).frames c.received)) := by
  refine ⟨(projects_session w rt).reachable (fun _ hc => .init (init_session hc)) h, fun hfit => ?_⟩
  obtain ⟨g, hg⟩ : ∃ g, (dialogueSystem w rt).Reachable (c, g) := h.exists_record
  have hdel := delivered_of_reachable hp hg
  refine ⟨g, ?_, hdel.frames hfit⟩
  exact ((projects_session w rt).recorded {} DebugSession.Dialogue.record).reachable
    (fun _ hx => .init ⟨init_session hx.1, hx.2⟩) hg

/-! ## A connection whose handshake has been answered -/

section Sample

def sampleText : JsonText := ⟨⟨ascii "[]", by decide⟩, by decide⟩

/-- The client's only message asks for the threads. -/
def sampleWire : Wire Unit where
  parser := .plain
  jsonParseString b :=
    if b = ascii "0" then
      .ok (some { type := .ok "request", request := .ok ⟨7, "threads", ()⟩ })
    else .ok none
  jsonWrite _ := sampleText
  handshakeResponse := sampleText

def handshakeChunk : Chunk := ⟨sampleHandshake, by decide⟩

def packetChunk : Chunk := ⟨samplePacket, by decide⟩

def openActions : List (Action Unit) :=
  [.poll, .answer none, .create (.ok true), .session (.run .step) none, .poll]

theorem delivers_of_reachable_sample : ∃ c : Connection Unit, c.received = samplePacket ∧
    (DebugSession.system Unit DebugSession.plainRuntime).Reachable c.session ∧
      (sampleWire.parser.Fits c.received → ∃ g,
        (DebugSession.dialogueSystem Unit DebugSession.plainRuntime).Reachable (c.session, g) ∧
          ∃ xs, xs <+: (sampleWire.parser.framing HttpParser.plain_recognises).frames c.received ∧
            g.read = xs.filterMap sampleWire.message? ∧ (c.awaiting = true →
              xs = (sampleWire.parser.framing HttpParser.plain_recognises).frames c.received)) := by
  have hreach : (system sampleWire DebugSession.plainRuntime).Reachable _ := .of_exec
    ([.poll, .bytes (.ok (some handshakeChunk))] ++ openActions ++
      [.bytes (.ok (some packetChunk)), .poll]) (s := {}) rfl (by rfl)
  exact ⟨_, rfl, delivers_of_reachable HttpParser.plain_recognises hreach⟩

end Sample

end Connection

end LuaToolkit
