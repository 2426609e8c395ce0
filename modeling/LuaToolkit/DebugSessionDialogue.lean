import LuaToolkit.DebugSessionNumbers

/-!
# The dialogue with the client

What `Run` reads and what it answers, over whole runs and whatever the Lua thread does meanwhile.

* `Dialogue` — a record of the messages read, of how the requests were handled and of the stops.
* `Served` — each request is answered once and in order, until one of them closes the session, and
  nothing else is sent but the events of the stops.
* `served_of_reaches` — so it is when the messages are well formed.
-/

namespace LuaToolkit

/-- The event that `StopExecution` was called with and has not sent yet. -/
def LuaPoint.unannounced {V : Type*} : LuaPoint V → List Dap.StoppedEventBody
  | .assertFree ev | .emplace ev | .event _ ev => [ev]
  | .announce _ message => [message.body]
  | _ => []

namespace DebugSession

open Transition

variable {V : Type*} {rt : Runtime} {s s' : DebugSession V}

/-! ## The record and the property -/

/-- The request in a message. -/
def request? (m : IncomingMessage V) : Option (Dap.RequestMessage V) :=
  match m.type, m.request with
  | .ok messageType, .ok q => if messageType = "request" then some q else none
  | _, _ => none

/-- How a handler ended. -/
inductive Outcome where
  | completed
  | threw
  deriving DecidableEq, Repr

/-- The messages read and the end of the stream, the requests handled and how, the events that
`StopExecution` was called with, the exception of a failed send, and the number of steps that `Run`
has made. -/
structure Dialogue (V : Type*) where
  read : List (IncomingMessage V) := []
  endOfStream : Bool := false
  outcomes : List (Dap.RequestMessage V × Outcome) := []
  stops : List Dap.StoppedEventBody := []
  failed : Option String := none
  steps : Nat := 0

/-- The response is reached from the end of the handler, or by an exception. -/
def outcome : HandlerPoint V → Outcome
  | .done => .completed
  | _ => .threw

def Dialogue.ran (s : DebugSession V) (i : RunInput V) (s' : DebugSession V) (g : Dialogue V) :
    Dialogue V :=
  match s.run with
  | .receive =>
    match i with
    | .message (.ok (some m)) => { g with read := g.read ++ [m] }
    | .message (.ok none) => { g with endOfStream := true }
    | _ => g
  | .handle q _ p =>
    match s'.run with
    | .respond _ => { g with outcomes := g.outcomes ++ [(q, outcome p)] }
    | _ => g
  | .respond _ =>
    match i with
    | .sent (.error what) => { g with failed := some what }
    | _ => g
  | _ => g

def Dialogue.record (s : DebugSession V) : Action V → DebugSession V → Dialogue V → Dialogue V
  | .lua (.stop ev), _, g => { g with stops := g.stops ++ [ev] }
  | .lua _, _, g => g
  | .run i, s', g => Dialogue.ran s i s' { g with steps := g.steps + 1 }

@[simp] theorem Dialogue.read_lua (i : LuaInput V) (g : Dialogue V) :
    (Dialogue.record s (.lua i) s' g).read = g.read := by
  cases i <;> rfl

@[simp] theorem Dialogue.outcomes_lua (i : LuaInput V) (g : Dialogue V) :
    (Dialogue.record s (.lua i) s' g).outcomes = g.outcomes := by
  cases i <;> rfl

abbrev dialogueSystem (V : Type*) (rt : Runtime) :
    System (DebugSession V × Dialogue V) (Action V) :=
  (system V rt).recorded {} Dialogue.record

/-- The messages have a type, and the requests among them can be decoded. -/
def WellFormed (_ : DebugSession V) : Action V → Prop
  | .run (.message result) => ∃ message?, result = .ok message? ∧
    ∀ m ∈ message?, ∃ messageType, m.type = .ok messageType ∧
      (messageType = "request" → ∃ q, m.request = .ok q)
  | _ => True

/-- The response to a request, with the outcome of its handler. -/
structure Replies (r : Dap.ResponseMessage V) (x : Dap.RequestMessage V × Outcome) : Prop where
  request_seq : r.request_seq = x.1.seq
  command : r.command = x.1.command
  success : r.success = false ↔ x.2 = .threw
  body : x.2 = .threw → r.body = none

/-- A `disconnect`, or a request whose handler threw an exception. -/
def Closes (rt : Runtime) (x : Dap.RequestMessage V × Outcome) : Prop :=
  x.2 = .threw ∨ (rt.dispatch x.1.command : HandlerPoint V) = .disconnectClose

/-- The responses among the messages sent. -/
def response? : Dap.Message V → Option (Dap.ResponseMessage V)
  | .event _ => none
  | .response message => some message

/-- The bodies of the events that a session has sent. -/
def stoppedEvents (s : DebugSession V) : List Dap.StoppedEventBody :=
  s.sent.filterMap fun
    | .event message => some message.body
    | .response _ => none

/-- The response that is about to be sent. -/
def unsent (s : DebugSession V) : List (Dap.ResponseMessage V) :=
  match s.run with
  | .respond r => [r]
  | _ => []

/-- The request that is read, and not handled yet. -/
def Current (s : DebugSession V) (l : List (Dap.RequestMessage V)) : Prop :=
  match s.run with
  | .request q | .handle q _ _ => l = [q]
  | .halted => l.length = 1
  | _ => l = []

/-- How many steps `Run` makes at most up to the one that reads, and with it. -/
def runRank : RunPoint V → Nat
  | .finished _ | .halted => 0
  | .receive => 1
  | .start | .loopEnd => 2
  | .respond _ => 3
  | .handle _ _ p => rank p + 3
  | .request _ => 10

/-- The last message that was read is that of the current request. -/
def LastRead (s : DebugSession V) (g : Dialogue V) : Prop :=
  match s.run with
  | .request q | .handle q _ _ => ∃ ms m, g.read = ms ++ [m] ∧ request? m = some q
  | _ => True

/-- `_isClosed` is set by the handlers that close the session. -/
def Shut (rt : Runtime) (s : DebugSession V) (g : Dialogue V) : Prop :=
  match s.run with
  | .start | .receive | .request _ => s.isClosed = false ∧ ∀ x ∈ g.outcomes, ¬ Closes rt x
  | .handle q _ p =>
    (∀ x ∈ g.outcomes, ¬ Closes rt x) ∧
      (s.isClosed = true ↔
        (rt.dispatch q.command : HandlerPoint V) = .disconnectClose ∧ p ≠ .disconnectClose) ∧
      (p = .disconnectClose → (rt.dispatch q.command : HandlerPoint V) = .disconnectClose)
  | .respond _ | .loopEnd => s.isClosed = true ↔ ∃ x ∈ g.outcomes, Closes rt x
  | _ => True

structure Serving (rt : Runtime) (s : DebugSession V) (g : Dialogue V) : Prop where
  reachable : (system V rt).Reachable s
  requests : ∃ l, Current s l ∧ g.read.filterMap request? = g.outcomes.map Prod.fst ++ l
  lastRead : LastRead s g
  responses : List.Forall₂ Replies (s.sent.filterMap response? ++ unsent s) g.outcomes
  closing : ∀ pre x post, g.outcomes = pre ++ x :: post → Closes rt x →
    post = [] ∧ (∃ ms m, g.read = ms ++ [m] ∧ request? m = some x.1) ∧ s.run ≠ .receive
  finished : ∀ exit, s.run = .finished exit →
    match exit with
    | .closed => ∃ x ∈ g.outcomes, Closes rt x
    | .endOfStream => g.endOfStream = true ∧ ∀ x ∈ g.outcomes, ¬ Closes rt x
    | .exception what => g.failed = some what
  shut : Shut rt s g
  steps : g.steps + runRank s.run ≤ 10 * g.read.length + 2

theorem serving_lua {g : Dialogue V} {i : LuaInput V} (h : Serving rt s g)
    (hs : LuaStep rt s i s') : Serving rt s' (Dialogue.record s (.lua i) s' g) := by
  obtain ⟨hrun, hclosed⟩ := luaStep_run hs
  have hsent : s'.sent.filterMap response? = s.sent.filterMap response? := by
    rcases sent_lua hs with ⟨heq, -⟩ | ⟨k, m, -, heq⟩
    · rw [heq]
    · simp [heq, response?]
  have hserving : ∀ stops, Serving rt s' { g with stops := stops } := fun stops => {
    reachable := h.reachable.step hs.step
    requests := by
      unfold Current
      rw [hrun]
      exact h.requests
    lastRead := by
      unfold LastRead
      rw [hrun]
      exact h.lastRead
    responses := by
      unfold unsent
      rw [hrun, hsent]
      exact h.responses
    closing := hrun ▸ h.closing
    finished := hrun ▸ h.finished
    shut := by
      unfold Shut
      rw [hrun, hclosed]
      exact h.shut
    steps := hrun ▸ h.steps }
  cases i with
  | stop ev => exact hserving _
  | _ => exact hserving g.stops

/-! ## Steps of `Run` -/

theorem rank_done_lt {p : HandlerPoint V} (h : p ≠ .done) :
    rank (.done : HandlerPoint V) < rank p := by
  cases p <;> first | exact absurd rfl h | simp [rank]

theorem rank_le (p : HandlerPoint V) : rank p ≤ 6 := by
  cases p <;> simp [rank]

theorem isClosed_handler {q : Dap.RequestMessage V} {r : Dap.ResponseMessage V}
    {p : HandlerPoint V} {i : RunInput V} (hs : HandlerStep rt q r s p i s') :
    match s'.run with
    | .respond _ => s'.isClosed = true ↔ s.isClosed = true ∨ p ≠ .done
    | .handle _ _ _ => s'.isClosed = true ↔ s.isClosed = true ∨ p = .disconnectClose
    | _ => True := by
  cases hs with
  | assertFails ha =>
    unfold assertFailed
    cases rt.failedAssert with
    | none => trivial
    | some what =>
      have hp : p ≠ .done := by
        rintro rfl
        exact ha
      simp [catchException, hp]
  | _ => simp [catchException, onScheduler]

theorem outcome_eq_threw {p : HandlerPoint V} : outcome p = .threw ↔ p ≠ .done := by
  cases p <;> simp [outcome]

theorem receiveMessage_some {m : IncomingMessage V} {messageType : String}
    (ht : m.type = .ok messageType)
    (hq : messageType = "request" → ∃ q, m.request = .ok q) :
    (request? m = none ∧ receiveMessage (.ok (some m)) = .loopEnd) ∨
      ∃ q, request? m = some q ∧ receiveMessage (.ok (some m)) = .request q := by
  by_cases h : messageType = "request"
  · obtain ⟨q, hq⟩ := hq h
    exact .inr ⟨q, by simp [request?, ht, hq, h], by simp [receiveMessage, ht, hq, h]⟩
  · refine .inl ⟨?_, by simp [receiveMessage, ht, h]⟩
    unfold request?
    rw [ht]
    cases m.request <;> simp [h]

/-- The response to the request that is handled is the next one. -/
theorem Serving.replied {g : Dialogue V} (h : Serving rt s g) {q : Dap.RequestMessage V}
    {r r' : Dap.ResponseMessage V} {p : HandlerPoint V} (hr : s.run = .handle q r p)
    (hreply : Replies r' (q, outcome p)) :
    List.Forall₂ Replies (s.sent.filterMap response? ++ [r']) (g.outcomes ++ [(q, outcome p)]) := by
  have hold := h.responses
  rw [unsent, hr, List.append_nil] at hold
  exact List.rel_append hold (.cons hreply .nil)

/-- What was said of the closing requests stays true where `Run` does not read. -/
theorem Serving.closing_last {g : Dialogue V} (h : Serving rt s g) {P : Prop} (hP : P) :
    ∀ pre x post, g.outcomes = pre ++ x :: post → Closes rt x →
      post = [] ∧ (∃ ms m, g.read = ms ++ [m] ∧ request? m = some x.1) ∧ P := by
  intro pre x post heq hx
  obtain ⟨hpost, hread, -⟩ := h.closing pre x post heq hx
  exact ⟨hpost, hread, hP⟩

theorem closing_of_quiet {l : List (Dap.RequestMessage V × Outcome)}
    (hl : ∀ y ∈ l, ¬ Closes rt y)
    {P : Dap.RequestMessage V × Outcome → List (Dap.RequestMessage V × Outcome) → Prop} :
    ∀ pre y post, l = pre ++ y :: post → Closes rt y → P y post := by
  intro pre y post heq hy
  have hmem : y ∈ l := by simp [heq]
  exact absurd hy (hl y hmem)

/-- A closing request comes last, when it is the first. -/
theorem closing_concat {l : List (Dap.RequestMessage V × Outcome)}
    {x : Dap.RequestMessage V × Outcome} (hl : ∀ y ∈ l, ¬ Closes rt y) {P : Prop}
    {Q : Dap.RequestMessage V → Prop} (hP : P) (hx : Q x.1) :
    ∀ pre y post, l ++ [x] = pre ++ y :: post → Closes rt y → post = [] ∧ Q y.1 ∧ P := by
  intro pre y post heq hy
  rcases List.eq_nil_or_concat post with rfl | ⟨post, z, rfl⟩
  · obtain ⟨-, he⟩ := List.append_inj' heq rfl
    obtain rfl : x = y := by simpa using he
    exact ⟨rfl, hx, hP⟩
  · rw [List.concat_eq_append, ← List.cons_append, ← List.append_assoc] at heq
    obtain ⟨rfl, -⟩ := List.append_inj' heq rfl
    exact absurd hy (hl y (by simp))

theorem serving_handler {g : Dialogue V} {q : Dap.RequestMessage V} {r : Dap.ResponseMessage V}
    {p : HandlerPoint V} {i : RunInput V} (h : Serving rt s g) (hr : s.run = .handle q r p)
    (hs : HandlerStep rt q r s p i s') : Serving rt s' (Dialogue.record s (.run i) s' g) := by
  have hreach : (system V rt).Reachable s' := h.reachable.step (RunStep.handle hr hs).step
  obtain ⟨hdraft, hbody⟩ := drafted_of_reachable h.reachable q r p hr
  have hcl := isClosed_handler hs
  obtain ⟨hsent, -⟩ := (sent_run (RunStep.handle hr hs)).resolve_right
    fun ⟨r', hr', _⟩ => by simp [hr] at hr'
  have hgo := hs.goesOn
  obtain ⟨l, hl, hrequests⟩ := h.requests
  obtain rfl : l = [q] := by simpa [Current, hr] using hl
  have hlatest := h.lastRead
  have hshut := h.shut
  have hsteps := h.steps
  have hresponses := h.responses
  simp only [LastRead, Shut, unsent, runRank, hr, List.append_nil]
    at hlatest hshut hsteps hresponses
  obtain ⟨hquiet, hclosed, hclose⟩ := hshut
  have hnext : ∀ {r' : Dap.ResponseMessage V} {p' : HandlerPoint V}, s'.run = .handle q r' p' →
      rank p' < rank p → Serving rt s' (Dialogue.record s (.run i) s' g) := by
    intro r' p' hr' hlt
    simp only [hr'] at hcl
    have hp' : p' ≠ .disconnectClose := by
      rintro rfl
      cases p <;> simp [rank] at hlt
    simp only [Dialogue.record, Dialogue.ran, hr, hr']
    exact {
      reachable := hreach
      requests := ⟨[q], by simp [Current, hr'], hrequests⟩
      lastRead := by simpa [LastRead, hr'] using hlatest
      responses := by simpa [unsent, hr', hsent] using hresponses
      closing := closing_of_quiet hquiet
      finished := by simp [hr']
      shut := by
        simp only [Shut, hr']
        refine ⟨hquiet, ?_, fun hp => absurd hp hp'⟩
        rw [hcl, hclosed]
        constructor
        · rintro (⟨hd, -⟩ | hp)
          · exact ⟨hd, hp'⟩
          · exact ⟨hclose hp, hp'⟩
        · rintro ⟨hd, -⟩
          by_cases hp : p = .disconnectClose
          · exact .inr hp
          · exact .inl ⟨hd, hp⟩
      steps := by
        simp only [hr', runRank]
        omega }
  have hend : ∀ {r' : Dap.ResponseMessage V}, s'.run = .respond r' →
      Replies r' (q, outcome p) → Serving rt s' (Dialogue.record s (.run i) s' g) := by
    intro r' hr' hreply
    simp only [hr'] at hcl
    simp only [Dialogue.record, Dialogue.ran, hr, hr']
    exact {
      reachable := hreach
      requests := ⟨[], by simp [Current, hr'], by simpa using hrequests⟩
      lastRead := by simp [LastRead, hr']
      responses := by
        rw [unsent, hr', hsent]
        exact h.replied hr hreply
      closing := closing_concat (Q := fun q => ∃ ms m, g.read = ms ++ [m] ∧ request? m = some q)
        hquiet (by simp [hr']) hlatest
      finished := by simp [hr']
      shut := by
        simp only [Shut, hr']
        rw [hcl, hclosed]
        constructor
        · intro hp
          refine ⟨(q, outcome p), by simp, ?_⟩
          rcases hp with ⟨hd, -⟩ | hp
          · exact .inr hd
          · exact .inl (outcome_eq_threw.2 hp)
        · rintro ⟨x, hx, hc⟩
          rcases List.mem_append.1 hx with hx | hx
          · exact absurd hc (hquiet x hx)
          · cases List.mem_singleton.1 hx
            by_cases hp : p = .done
            · refine .inl ⟨hc.resolve_left fun ht => outcome_eq_threw.1 ht hp, ?_⟩
              rw [hp]
              simp
            · exact .inr hp
      steps := by
        have hpos := rank_pos p
        simp only [hr', runRank]
        omega }
  generalize hpoint : s'.run = point at hgo
  cases hgo with
  | next p' hlt => exact hnext hpoint hlt
  | body value hp => exact hnext hpoint (rank_done_lt hp)
  | responds hp =>
    refine hend hpoint ?_
    subst hp
    exact {
      request_seq := hdraft.1
      command := hdraft.2.1
      success := by simp [hdraft.2.2, outcome]
      body := by simp [outcome] }
  | throws hp what =>
    refine hend hpoint ?_
    have ho : outcome p = .threw := outcome_eq_threw.2 hp
    exact {
      request_seq := hdraft.1
      command := hdraft.2.1
      success := by simp [Dap.ResponseMessage.setError, ho]
      body := fun _ => hbody hp }
  | halts =>
    simp only [Dialogue.record, Dialogue.ran, hr, hpoint]
    exact {
      reachable := hreach
      requests := ⟨[q], by simp [Current, hpoint], hrequests⟩
      lastRead := by simp [LastRead, hpoint]
      responses := by simpa [unsent, hpoint, hsent] using hresponses
      closing := closing_of_quiet hquiet
      finished := by simp [hpoint]
      shut := by simp [Shut, hpoint]
      steps := by
        simp only [hpoint, runRank]
        omega }

/-- Reading goes on while no request has closed the session. -/
theorem serving_receive {g : Dialogue V} {result : Except String (Option (IncomingMessage V))}
    (h : Serving rt s g) (hr : s.run = .receive) (hok : WellFormed s (.run (.message result))) :
    Serving rt { s with run := receiveMessage result }
      (Dialogue.record s (.run (.message result)) { s with run := receiveMessage result } g) := by
  have hreach : (system V rt).Reachable { s with run := receiveMessage result } :=
    h.reachable.step (RunStep.receive hr result : RunStep rt s _ _).step
  obtain ⟨message?, rfl, hmessage⟩ := hok
  obtain ⟨l, hl, hrequests⟩ := h.requests
  obtain rfl : l = [] := by simpa [Current, hr] using hl
  have hshut := h.shut
  have hsteps := h.steps
  have hresponses := h.responses
  simp only [Shut, unsent, runRank, hr, List.append_nil] at hshut hsteps hresponses
  obtain ⟨hopen, hquiet⟩ := hshut
  simp only [Dialogue.record, Dialogue.ran, hr]
  cases message? with
  | none =>
    exact {
      reachable := hreach
      requests := ⟨[], rfl, hrequests⟩
      lastRead := trivial
      responses := by simpa [unsent, receiveMessage] using hresponses
      closing := closing_of_quiet hquiet
      finished := fun exit he => by
        cases he
        exact ⟨rfl, hquiet⟩
      shut := trivial
      steps := by
        simp only [receiveMessage, runRank]
        omega }
  | some m =>
    obtain ⟨messageType, ht, hq⟩ := hmessage m rfl
    rcases receiveMessage_some ht hq with ⟨hnone, hreceive⟩ | ⟨q, hsome, hreceive⟩
    · rw [hreceive] at hreach ⊢
      exact {
        reachable := hreach
        requests := ⟨[], rfl, by simpa [hnone] using hrequests⟩
        lastRead := trivial
        responses := by simpa [unsent] using hresponses
        closing := closing_of_quiet hquiet
        finished := by simp
        shut := by
          simp only [Shut, hopen, Bool.false_eq_true, false_iff, not_exists, not_and]
          exact hquiet
        steps := by
          simp only [runRank, List.length_append, List.length_singleton]
          omega }
    · rw [hreceive] at hreach ⊢
      exact {
        reachable := hreach
        requests := ⟨[q], rfl, by simpa [hsome] using hrequests⟩
        lastRead := ⟨_, m, rfl, hsome⟩
        responses := by simpa [unsent] using hresponses
        closing := closing_of_quiet hquiet
        finished := by simp
        shut := ⟨hopen, hquiet⟩
        steps := by
          simp only [runRank, List.length_append, List.length_singleton]
          omega }

theorem serving_run {g : Dialogue V} {i : RunInput V} (h : Serving rt s g)
    (hok : WellFormed s (.run i)) (hs : RunStep rt s i s') :
    Serving rt s' (Dialogue.record s (.run i) s' g) := by
  have hreach : (system V rt).Reachable s' := h.reachable.step hs.step
  obtain ⟨l, hl, hrequests⟩ := h.requests
  have hshut := h.shut
  have hsteps := h.steps
  have hresponses := h.responses
  cases hs with
  | handle hr hstep => exact serving_handler h hr hstep
  | receive hr result => exact serving_receive h hr hok
  | start hr =>
    obtain rfl : l = [] := by simpa [Current, hr] using hl
    simp only [Shut, unsent, runRank, hr, List.append_nil] at hshut hsteps hresponses
    simp only [Dialogue.record, Dialogue.ran, hr]
    exact {
      reachable := hreach
      requests := ⟨[], rfl, hrequests⟩
      lastRead := trivial
      responses := by simpa [unsent] using hresponses
      closing := closing_of_quiet hshut.2
      finished := by simp
      shut := hshut
      steps := by
        simp only [runRank]
        omega }
  | @request q hr =>
    obtain rfl : l = [q] := by simpa [Current, hr] using hl
    have hlatest := h.lastRead
    simp only [LastRead, Shut, unsent, runRank, hr, List.append_nil]
      at hlatest hshut hsteps hresponses
    simp only [Dialogue.record, Dialogue.ran, hr]
    exact {
      reachable := hreach
      requests := ⟨[q], rfl, hrequests⟩
      lastRead := hlatest
      responses := by simpa [unsent, nextSeqId] using hresponses
      closing := closing_of_quiet hshut.2
      finished := by simp
      shut := by
        refine ⟨hshut.2, ?_, id⟩
        simp [nextSeqId, hshut.1]
      steps := by
        have hle : rank (rt.dispatch q.command : HandlerPoint V) ≤ 6 := rank_le _
        simp only [runRank]
        omega }
  | sent hr =>
    obtain rfl : l = [] := by simpa [Current, hr] using hl
    simp only [Shut, unsent, runRank, hr] at hshut hsteps hresponses
    simp only [Dialogue.record, Dialogue.ran, hr]
    exact {
      reachable := hreach
      requests := ⟨[], rfl, hrequests⟩
      lastRead := trivial
      responses := by simpa [unsent, response?] using hresponses
      closing := h.closing_last (by simp)
      finished := by simp
      shut := hshut
      steps := by
        simp only [runRank]
        omega }
  | sendThrows hr what =>
    obtain rfl : l = [] := by simpa [Current, hr] using hl
    simp only [unsent, runRank, hr] at hsteps hresponses
    simp only [Dialogue.record, Dialogue.ran, hr]
    exact {
      reachable := hreach
      requests := ⟨[], rfl, hrequests⟩
      lastRead := trivial
      responses := by simpa [unsent, response?] using hresponses
      closing := h.closing_last (by simp)
      finished := fun exit he => by
        cases he
        rfl
      shut := trivial
      steps := by
        simp only [runRank]
        omega }
  | again hr hc =>
    obtain rfl : l = [] := by simpa [Current, hr] using hl
    simp only [Shut, unsent, runRank, hr, List.append_nil] at hshut hsteps hresponses
    simp only [Dialogue.record, Dialogue.ran, hr]
    have hquiet : ∀ x ∈ g.outcomes, ¬ Closes rt x := by
      intro x hx hcloses
      rw [hshut.2 ⟨x, hx, hcloses⟩] at hc
      cases hc
    exact {
      reachable := hreach
      requests := ⟨[], rfl, hrequests⟩
      lastRead := trivial
      responses := by simpa [unsent] using hresponses
      closing := closing_of_quiet hquiet
      finished := by simp
      shut := ⟨hc, hquiet⟩
      steps := by
        simp only [runRank]
        omega }
  | closed hr hc =>
    obtain rfl : l = [] := by simpa [Current, hr] using hl
    simp only [Shut, unsent, runRank, hr, List.append_nil] at hshut hsteps hresponses
    simp only [Dialogue.record, Dialogue.ran, hr]
    exact {
      reachable := hreach
      requests := ⟨[], rfl, hrequests⟩
      lastRead := trivial
      responses := by simpa [unsent] using hresponses
      closing := h.closing_last (by simp)
      finished := fun exit he => by
        cases he
        exact hshut.1 hc
      shut := trivial
      steps := by
        simp only [runRank]
        omega }

theorem serving_of_reaches {g : Dialogue V}
    (h : (dialogueSystem V rt).Reaches (fun x a => WellFormed x.1 a) (s, g)) : Serving rt s g := by
  refine System.Reaches.recorded WellFormed (fun s hs => ?_) (fun s g a s' hi hok hstep => ?_) h
  · have hreach : (system V rt).Reachable s := .init hs
    rw [show s = {} from hs] at hreach ⊢
    exact {
      reachable := hreach
      requests := ⟨[], rfl, rfl⟩
      lastRead := trivial
      responses := .nil
      closing := by simp
      finished := by simp
      shut := ⟨rfl, by simp⟩
      steps := Nat.le_refl _ }
  · cases a with
    | run i => exact serving_run hi hok (runStep_iff.1 hstep)
    | lua i => exact serving_lua hi (luaStep_iff.1 hstep)

/-! ## Events -/

theorem stoppedEvents_run {i : RunInput V} (h : RunStep rt s i s') :
    s'.stoppedEvents = s.stoppedEvents := by
  rcases sent_run h with ⟨heq, -⟩ | ⟨r, -, heq⟩
  · rw [stoppedEvents, heq]
    rfl
  · simp [stoppedEvents, heq]

theorem stoppedEvents_stop {ev : Dap.StoppedEventBody} (h : LuaStep rt s (.stop ev) s') :
    s'.stoppedEvents ++ s'.lua.unannounced = s.stoppedEvents ++ s.lua.unannounced ++ [ev] := by
  cases h with
  | stop hl =>
    rw [hl]
    exact (congrArg (· ++ [ev]) (List.append_nil s.stoppedEvents)).symm

/-- Inside `StopExecution` the event is sent once. -/
theorem stoppedEvents_lua {i : LuaInput V} (hs : Coherent s) (h : LuaStep rt s i s')
    (hi : ∀ ev, i ≠ .stop ev) :
    s'.stoppedEvents ++ s'.lua.unannounced = s.stoppedEvents ++ s.lua.unannounced := by
  cases h with
  | stop hl ev => exact absurd rfl (hi ev)
  | notFree hl hst => exact absurd (hs.stoppedState_eq_none (by simp [hl]) (by rw [hl]; rfl)) hst
  | announce hl => simp [stoppedEvents, hl, LuaPoint.unannounced]
  | noMode hl =>
    unfold stopAssertFailed
    split_ifs <;> simp [stoppedEvents, scopeLeave, hl, LuaPoint.unannounced]
  | _ =>
    have hl := ‹s.lua = _›
    simp [stoppedEvents, nextSeqId, scopeLeave, hl, LuaPoint.unannounced]

end DebugSession

end LuaToolkit
