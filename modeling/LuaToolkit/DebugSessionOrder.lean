import LuaToolkit.DebugSessionProof
import LuaToolkit.Lib.Recorded

/-!
# Resume responses and stopped events

A resume command disposes the scheduler of its stop before its response is sent, and the Lua
thread that this releases announces the next stop by itself. The record of a session says in which
order requests end stops and messages are handed to the message stream.

* `Ordered` — the requests that ended earlier stops are answered before a stop is announced.
* `Answering` — `Run` is between the disposal and the response.
* `ordered_of_reaches` — the order holds as long as `StopExecution` is not called meanwhile, and
  every such call can break it.
-/

namespace LuaToolkit.DebugSession

open Transition

variable {V : Type*} {rt : Runtime} {s s' : DebugSession V}

/-! ## The record and the property -/

/-- A request ends a stop, a response is sent, a stop is announced. The requests are numbered from
1 on, in the order in which they are handled. -/
inductive WireEntry (V : Type*) where
  | ended (stop request : Nat) (message : Dap.RequestMessage V)
  | response (request : Nat) (message : Dap.ResponseMessage V)
  | event (stop : Nat) (message : Dap.EventMessage)

structure WireLog (V : Type*) where
  requests : Nat := 0
  entries : List (WireEntry V) := []

/-- The message that is sent with an entry. -/
def WireEntry.message? : WireEntry V → Option (Dap.Message V)
  | .ended _ _ _ => none
  | .response _ message => some (.response message)
  | .event _ message => some (.event message)

def WireLog.add (g : WireLog V) (e : WireEntry V) : WireLog V :=
  { g with entries := g.entries ++ [e] }

def WireLog.record (s : DebugSession V) : Action V → DebugSession V → WireLog V → WireLog V
  | .lua _, _, g =>
    match s.lua with
    | .announce k message => g.add (.event k message)
    | _ => g
  | .run _, _, g =>
    match s.run, s.stoppedState with
    | .request _, _ => { g with requests := g.requests + 1 }
    | .handle q _ .resumeDispose, some st => g.add (.ended st.scheduler g.requests q)
    | .respond r, _ => g.add (.response g.requests r)
    | _, _ => g

/-- The sessions with their records. -/
abbrev wireSystem (V : Type*) (rt : Runtime) : System (DebugSession V × WireLog V) (Action V) :=
  (system V rt).recorded {} WireLog.record

/-- Before a stop is announced, the requests that ended earlier stops are answered. -/
def Ordered (entries : List (WireEntry V)) : Prop :=
  ∀ pre j m post, entries = pre ++ .event j m :: post →
    ∀ k n q, .ended k n q ∈ entries → k < j → ∃ r, .response n r ∈ pre ∧ Answers r q

/-- The command is `continue`, `next`, `stepIn` or `stepOut`. -/
def Resumes (V : Type*) (rt : Runtime) (command : String) : Prop :=
  ∃ mode, (rt.dispatch command : HandlerPoint V) = .resumeAssertStopped mode

/-- `Run` has disposed the scheduler of a stop for a resume command, and not sent the response. -/
def Answering (rt : Runtime) (s : DebugSession V) : Prop :=
  (∃ q r, s.run = .handle q r .done ∧ Resumes V rt q.command) ∨
    ∃ r, s.run = .respond r ∧ r.success = true ∧ Resumes V rt r.command

/-- The controller calls `StopExecution` when no resume command is to be answered. -/
def WireSafe (rt : Runtime) (s : DebugSession V) : Action V → Prop
  | .lua (.stop _) => ¬ Answering rt s
  | _ => True

/-! ## Appending to a record -/

theorem Ordered.concat {entries : List (WireEntry V)} (h : Ordered entries) {e : WireEntry V}
    (hended : ∀ k n q, e = .ended k n q → ∀ j m, .event j m ∈ entries → j ≤ k)
    (hevent : ∀ j m, e = .event j m → ∀ k n q, .ended k n q ∈ entries → k < j →
      ∃ r, .response n r ∈ entries ∧ Answers r q) : Ordered (entries ++ [e]) := by
  intro pre j m post heq k n q hk hlt
  rcases List.eq_nil_or_concat post with rfl | ⟨post, e', rfl⟩
  · obtain ⟨rfl, he⟩ := List.append_inj' heq rfl
    obtain rfl : e = .event j m := by simpa using he
    rcases List.mem_append.1 hk with hk | hk
    · exact hevent j m rfl k n q hk hlt
    · simp at hk
  · rw [List.concat_eq_append, ← List.cons_append, ← List.append_assoc] at heq
    obtain ⟨rfl, -⟩ := List.append_inj' heq rfl
    rcases List.mem_append.1 hk with hk | hk
    · exact h pre j m post rfl k n q hk hlt
    · obtain rfl : _ = e := by simpa using hk
      exact absurd (hended k n q rfl j m (by simp)) (Nat.not_le.2 hlt)

/-! ## The numbers of stops -/

/-- The stop in progress is the last one. -/
def Latest (s : DebugSession V) : Prop :=
  ∀ st, s.stoppedState = some st → st.scheduler + 1 = s.schedulerCount

theorem schedulerCount_run {i : RunInput V} (h : RunStep rt s i s') :
    s'.schedulerCount = s.schedulerCount := by
  cases h with
  | handle hr hs =>
    cases hs with
    | assertFails => simp
    | _ => rfl
  | _ => rfl

theorem latest_of_reachable (h : (system V rt).Reachable s) : Latest s := by
  refine h.invariant (fun s hs => ?_) fun s a s' hi hstep => ?_
  · rw [hs]
    exact nofun
  · cases a with
    | run i =>
      have hs := runStep_iff.1 hstep
      intro st hst'
      rw [schedulerCount_run hs]
      obtain ⟨-, ⟨hst, -⟩ | ⟨st₀, m, hst, hst₀, -⟩ | ⟨st₀, f, hst, hst₀, -⟩⟩ := runStep_shared hs
      · exact hi st (hst ▸ hst')
      · obtain rfl := Option.some.inj (hst₀.symm.trans hst')
        exact hi st₀ hst
      · obtain rfl := Option.some.inj (hst₀.symm.trans hst')
        exact hi st₀ hst
    | lua i =>
      have hfail : Latest (s.stopAssertFailed rt) := by
        unfold stopAssertFailed
        split_ifs
        · exact nofun
        · exact hi
      cases luaStep_iff.1 hstep with
      | notFree | noMode => exact hfail
      | emplace hl =>
        intro st hst
        cases hst
        rfl
      | leave => exact nofun
      | _ => exact hi

/-! ## The invariant -/

/-- The statements of a resume command. -/
def Resuming : HandlerPoint V → Prop
  | .resumeAssertStopped _ | .resumeAssertMode _ | .resumeMode _ | .resumeDispose => True
  | _ => False

/-- Of `Answering`, for the request that is to be answered. -/
def Owes (rt : Runtime) (s : DebugSession V) (q : Dap.RequestMessage V) : Prop :=
  Resumes V rt q.command ∧
    ((∃ r, s.run = .handle q r .done) ∨ ∃ r, s.run = .respond r ∧ Answers r q)

theorem Owes.answering {q : Dap.RequestMessage V} (h : Owes rt s q) : Answering rt s := by
  obtain ⟨hq, ⟨r, hr⟩ | ⟨r, hr, -, hcommand, hsuccess⟩⟩ := h
  · exact .inl ⟨q, r, hr, hq⟩
  · exact .inr ⟨r, hr, hsuccess, hcommand ▸ hq⟩

/-- The Lua thread announces no other stop than this one before it leaves it. -/
def Confined (s : DebugSession V) (k : Nat) : Prop :=
  match s.lua with
  | .assertFree _ | .emplace _ => False
  | .event j _ | .announce j _ => j = k
  | _ => True

/-- `Run` is not between reading a request and sending its response. -/
def Past (s : DebugSession V) : Prop :=
  match s.run with
  | .handle _ _ _ | .respond _ => False
  | _ => True

/-- The invariant of runs in which the calls of `StopExecution` are safe. -/
structure Tracked (rt : Runtime) (s : DebugSession V) (g : WireLog V) : Prop where
  reachable : (system V rt).Reachable s
  resuming : ∀ q r p, s.run = .handle q r p → p ≠ .done → (Resuming p ↔ Resumes V rt q.command)
  ended_lt : ∀ k n q, .ended k n q ∈ g.entries → k < s.schedulerCount
  event_lt : ∀ j m, .event j m ∈ g.entries → j < s.schedulerCount
  /-- A request that ended a stop is answered, or is the one that `Run` is about to answer. -/
  pending : ∀ k n q, .ended k n q ∈ g.entries →
    (∃ r, .response n r ∈ g.entries ∧ Answers r q) ∨
      (Owes rt s q ∧ n = g.requests ∧ Confined s k)
  /-- The request that `Run` is about to answer ended a stop. -/
  owed : Answering rt s → ∃ k q, .ended k g.requests q ∈ g.entries
  responded : ∀ n r, .response n r ∈ g.entries → n < g.requests ∨ (n = g.requests ∧ Past s)
  ordered : Ordered g.entries

/-! ## Steps of the Lua thread -/

theorem schedulerCount_lua {i : LuaInput V} (h : LuaStep rt s i s') :
    s.schedulerCount ≤ s'.schedulerCount := by
  cases h with
  | notFree | noMode => simp
  | emplace => exact Nat.le_succ _
  | _ => exact Nat.le_refl _

theorem confined_lua {i : LuaInput V} (hok : WireSafe rt s (.lua i)) (hs : LuaStep rt s i s')
    {q : Dap.RequestMessage V} (ho : Owes rt s q) {k : Nat} (hc : Confined s k) :
    Confined s' k := by
  have hfail : Confined (s.stopAssertFailed rt) k := by
    unfold stopAssertFailed
    split_ifs <;> trivial
  unfold Confined at hc
  cases hs with
  | stop hl ev => exact absurd ho.answering hok
  | notFree | noMode => exact hfail
  | assertFree hl | emplace hl =>
    rw [hl] at hc
    exact hc.elim
  | event hl =>
    rw [hl] at hc
    exact hc
  | execute | answer => exact hc
  | _ => trivial

/-- The event of the stop in progress is added to the record. -/
theorem Tracked.announce {g : WireLog V} (h : Tracked rt s g) {j : Nat} {m : Dap.EventMessage}
    (hl : s.lua = .announce j m) : Tracked rt s (g.add (.event j m)) := by
  obtain ⟨mode, hst⟩ := (coherent_of_reachable h.reachable).scheduler_eq (k := j)
    (by simp [hl, LuaPoint.scheduler?])
  have hj : j < s.schedulerCount := by
    have hlast : j + 1 = s.schedulerCount := latest_of_reachable h.reachable _ hst
    omega
  have hold : ∀ {e : WireEntry V}, e ∈ g.entries → e ∈ (g.add (.event j m)).entries :=
    fun he => List.mem_append_left _ he
  have hpending : ∀ k n q, .ended k n q ∈ (g.add (.event j m)).entries →
      (∃ r, .response n r ∈ g.entries ∧ Answers r q) ∨
        (Owes rt s q ∧ n = g.requests ∧ Confined s k) :=
    fun k n q hk => h.pending k n q (by simpa [WireLog.add] using hk)
  exact {
    reachable := h.reachable
    resuming := h.resuming
    ended_lt := fun k n q hk => h.ended_lt k n q (by simpa [WireLog.add] using hk)
    event_lt := by
      intro i m' hi
      rcases List.mem_append.1 hi with hi | hi
      · exact h.event_lt i m' hi
      · cases List.mem_singleton.1 hi
        exact hj
    pending := by
      intro k n q hk
      rcases hpending k n q hk with ⟨r, hr, ha⟩ | ho
      · exact .inl ⟨r, hold hr, ha⟩
      · exact .inr ho
    owed := fun ha => by
      obtain ⟨k, q, hk⟩ := h.owed ha
      exact ⟨k, q, hold hk⟩
    responded := fun n r hr => h.responded n r (by simpa [WireLog.add] using hr)
    ordered := by
      refine h.ordered.concat (by simp) fun i m' he k n q hk hlt => ?_
      cases he
      rcases h.pending k n q hk with hr | ⟨-, -, hc⟩
      · exact hr
      · -- The request has ended the very stop that is announced.
        unfold Confined at hc
        rw [hl] at hc
        exact absurd hc (Nat.ne_of_gt hlt) }

theorem tracked_lua {g : WireLog V} {i : LuaInput V} (h : Tracked rt s g)
    (hok : WireSafe rt s (.lua i)) (hs : LuaStep rt s i s') :
    Tracked rt s' (WireLog.record s (.lua i) s' g) := by
  have hrun := (luaStep_run hs).1
  have hkeep : ∀ {g : WireLog V}, Tracked rt s g → Tracked rt s' g := by
    intro g h
    exact {
      reachable := h.reachable.step hs.step
      resuming := fun q r p hr => h.resuming q r p (hrun ▸ hr)
      ended_lt := fun k n q hk => Nat.lt_of_lt_of_le (h.ended_lt k n q hk) (schedulerCount_lua hs)
      event_lt := fun j m hj => Nat.lt_of_lt_of_le (h.event_lt j m hj) (schedulerCount_lua hs)
      pending := fun k n q hk => by
        refine (h.pending k n q hk).imp_right fun ⟨ho, hn, hc⟩ =>
          ⟨?_, hn, confined_lua hok hs ho hc⟩
        unfold Owes
        rw [hrun]
        exact ho
      owed := fun ha => by
        unfold Answering at ha
        rw [hrun] at ha
        exact h.owed ha
      responded := fun n r hr => by
        unfold Past
        rw [hrun]
        exact h.responded n r hr
      ordered := h.ordered }
  simp only [WireLog.record]
  split
  · exact hkeep (h.announce ‹_›)
  · exact hkeep h

/-! ## Steps of `Run` -/

theorem resuming_entry {p : HandlerPoint V} (h : Entry p) :
    Resuming p ↔ ∃ mode, p = .resumeAssertStopped mode := by
  cases h <;> simp [Resuming]

theorem resuming_run {g : WireLog V} {i : RunInput V} (h : Tracked rt s g)
    (hs : RunStep rt s i s') {q : Dap.RequestMessage V} {r : Dap.ResponseMessage V}
    {p : HandlerPoint V} (hr' : s'.run = .handle q r p) (hp : p ≠ .done) :
    Resuming p ↔ Resumes V rt q.command := by
  cases hs with
  | handle hr hstep =>
    cases hstep with
    | assertFails => exact absurd hr' (by simp)
    | controllerThrows | disconnectThrows | castThrows | answerThrows | done | derefs => cases hr'
    | controller | disconnect | answered | resumeDispose =>
      cases hr'
      exact absurd rfl hp
    | _ =>
      cases hr'
      have hold := h.resuming _ _ _ hr (by simp)
      exact hold
  | request hr =>
    cases hr'
    exact resuming_entry (dispatch_entry _)
  | receive hr result => exact absurd hr' (receiveMessage_ne_handle result)
  | _ => cases hr'

/-- `Run` gets to answering a resume command by the disposal only. -/
theorem answering_run {g : WireLog V} {i : RunInput V} (h : Tracked rt s g)
    (hs : RunStep rt s i s') (ha : Answering rt s') :
    Answering rt s ∨ ∃ q r st, s.run = .handle q r .resumeDispose ∧ s.stoppedState = some st := by
  have hplain : ∀ {q r p}, s.run = .handle q r p → ¬ Resuming p → p ≠ .done →
      ¬ Resumes V rt q.command :=
    fun hr hp hne hq => hp ((h.resuming _ _ _ hr hne).2 hq)
  have hdrafted := drafted_of_reachable h.reachable
  cases hs with
  | @handle q r p _ _ hr hstep =>
    cases hstep with
    | resumeDispose hst => exact .inr ⟨q, r, _, hr, hst⟩
    | done =>
      rcases ha with ⟨q', r', hr', -⟩ | ⟨r', hr', -, hq⟩
      · cases hr'
      · cases hr'
        exact .inl (.inl ⟨q, r, hr, (hdrafted _ _ _ hr).1.2.1 ▸ hq⟩)
    | controller | disconnect | answered =>
      rcases ha with ⟨q', r', hr', hq⟩ | ⟨r', hr', -⟩
      · cases hr'
        exact absurd hq (hplain hr nofun nofun)
      · cases hr'
    | assertFails =>
      unfold assertFailed at ha
      split at ha
      · rcases ha with ⟨q', r', hr', -⟩ | ⟨r', hr', hsuccess, -⟩
        · cases hr'
        · cases hr'
          cases hsuccess
      · rcases ha with ⟨q', r', hr', -⟩ | ⟨r', hr', -⟩ <;> cases hr'
    | controllerThrows | disconnectThrows | castThrows | answerThrows =>
      rcases ha with ⟨q', r', hr', -⟩ | ⟨r', hr', hsuccess, -⟩
      · cases hr'
      · cases hr'
        cases hsuccess
    | _ => rcases ha with ⟨q', r', hr', -⟩ | ⟨r', hr', -⟩ <;> cases hr'
  | request hr =>
    rcases ha with ⟨q', r', hr', mode, hq⟩ | ⟨r', hr', -⟩
    · obtain ⟨rfl, -, hdone⟩ := RunPoint.handle.inj hr'
      cases hdone.symm.trans hq
    · cases hr'
  | receive hr result =>
    rcases ha with ⟨q', r', hr', -⟩ | ⟨r', hr', -⟩ <;>
      rcases receiveMessage_cases result with ⟨exit, heq⟩ | ⟨q, heq⟩ | heq <;>
        simp [heq] at hr'
  | _ => rcases ha with ⟨q', r', hr', -⟩ | ⟨r', hr', -⟩ <;> cases hr'

/-- What `Run` owes it goes on to send. -/
theorem owes_run {g : WireLog V} {i : RunInput V} (h : Tracked rt s g) (hs : RunStep rt s i s')
    {q : Dap.RequestMessage V} (ho : Owes rt s q) :
    Owes rt s' q ∨ ∃ r, s.run = .respond r ∧ Answers r q := by
  obtain ⟨hq, ⟨r, hr⟩ | hr⟩ := ho
  · refine .inl ⟨hq, ?_⟩
    cases hs with
    | handle hr' hstep =>
      rw [hr] at hr'
      cases hr'
      cases hstep with
      | done => exact .inr ⟨r, rfl, (drafted_of_reachable h.reachable _ _ _ hr).1⟩
      | assertFails ha => exact ha.elim
      | derefs hp => exact hp.elim
    | _ => simp_all
  · exact .inr hr

theorem past_run {i : RunInput V} (hs : RunStep rt s i s') (hp : Past s)
    (hq : ∀ q, s.run ≠ .request q) : Past s' := by
  unfold Past at hp ⊢
  cases hs with
  | handle hr | sent hr | sendThrows hr =>
    rw [hr] at hp
    exact hp.elim
  | request hr => exact absurd hr (hq _)
  | receive hr result =>
    rcases receiveMessage_cases result with ⟨exit, heq⟩ | ⟨q, heq⟩ | heq <;>
      simp [heq]
  | _ => trivial

theorem confined_run {i : RunInput V} (hs : RunStep rt s i s') {k : Nat} (hc : Confined s k) :
    Confined s' k := by
  unfold Confined
  rw [(runStep_shared hs).1]
  exact hc

/-- A request ends the stop in progress. -/
theorem Tracked.ended {g : WireLog V} {i : RunInput V} (h : Tracked rt s g)
    (hs : RunStep rt s i s') {q : Dap.RequestMessage V} {r : Dap.ResponseMessage V}
    {st : StoppedExecutionState} (hr : s.run = .handle q r .resumeDispose)
    (hst : s.stoppedState = some st) :
    Tracked rt s' (g.add (.ended st.scheduler g.requests q)) := by
  have hcount := schedulerCount_run hs
  have hlast := latest_of_reachable h.reachable st hst
  have hresumes : Resumes V rt q.command := (h.resuming q r _ hr nofun).1 trivial
  have hr' : s'.run = .handle q r .done := by
    cases hs with
    | handle hr₀ hstep =>
      rw [hr] at hr₀
      cases hr₀
      cases hstep with
      | resumeDispose => rfl
      | assertFails ha => exact ha.elim
      | derefs _ hnone => exact absurd (hst.symm.trans hnone) nofun
    | _ => simp_all
  have hconfined : Confined s st.scheduler := by
    have hco := coherent_of_reachable h.reachable
    unfold Confined
    split
    · rename_i hl
      exact absurd (hco.stoppedState_eq_none (by simp [hl]) (by simp [hl, LuaPoint.scheduler?]))
        (by simp [hst])
    · rename_i hl
      exact absurd (hco.stoppedState_eq_none (by simp [hl]) (by simp [hl, LuaPoint.scheduler?]))
        (by simp [hst])
    · rename_i j ev hl
      simpa [hl, LuaPoint.scheduler?] using hco.scheduler?_eq (by simp [hl]) hst
    · rename_i j m hl
      simpa [hl, LuaPoint.scheduler?] using hco.scheduler?_eq (by simp [hl]) hst
    · trivial
  have hnot : ∀ q, ¬ Owes rt s q := by
    rintro q ⟨-, ⟨r, hr₀⟩ | ⟨r, hr₀, -⟩⟩ <;> simp [hr] at hr₀
  have hpast : ¬ Past s := by simp [Past, hr]
  exact {
    reachable := h.reachable.step hs.step
    resuming := fun q r p hr hp => resuming_run h hs hr hp
    ended_lt := by
      intro k n q hk
      rw [hcount]
      rcases List.mem_append.1 hk with hk | hk
      · exact h.ended_lt k n q hk
      · cases List.mem_singleton.1 hk
        omega
    event_lt := fun j m hj => hcount ▸ h.event_lt j m (by simpa [WireLog.add] using hj)
    pending := by
      intro k n q hk
      rcases List.mem_append.1 hk with hk | hk
      · rcases h.pending k n q hk with ⟨r, hr, ha⟩ | ⟨ho, -⟩
        · exact .inl ⟨r, List.mem_append_left _ hr, ha⟩
        · exact absurd ho (hnot q)
      · cases List.mem_singleton.1 hk
        exact .inr ⟨⟨hresumes, .inl ⟨r, hr'⟩⟩, rfl, confined_run hs hconfined⟩
    owed := fun _ => ⟨st.scheduler, q, List.mem_append_right _ (List.mem_singleton.2 rfl)⟩
    responded := by
      intro n r hr
      rcases h.responded n r (by simpa [WireLog.add] using hr) with hn | ⟨-, hp⟩
      · exact .inl hn
      · exact absurd hp hpast
    ordered := by
      refine h.ordered.concat (fun k n q he j m hj => ?_) (by simp)
      cases he
      have hlt := h.event_lt j m hj
      omega }

/-- A response is sent. -/
theorem Tracked.respond {g : WireLog V} {i : RunInput V} (h : Tracked rt s g)
    (hs : RunStep rt s i s') {r : Dap.ResponseMessage V} (hr : s.run = .respond r) :
    Tracked rt s' (g.add (.response g.requests r)) := by
  have hcount := schedulerCount_run hs
  have hr' : s'.run = .loopEnd ∨ ∃ exit, s'.run = .finished exit := by
    cases hs with
    | sent => exact .inl rfl
    | sendThrows _ what => exact .inr ⟨_, rfl⟩
    | _ => simp_all
  have hnot : ¬ Answering rt s' := by
    rcases hr' with hr' | ⟨exit, hr'⟩ <;> simp [Answering, hr']
  have hpast : Past s' := by
    rcases hr' with hr' | ⟨exit, hr'⟩ <;> simp [Past, hr']
  exact {
    reachable := h.reachable.step hs.step
    resuming := fun q r p hr hp => resuming_run h hs hr hp
    ended_lt := fun k n q hk => hcount ▸ h.ended_lt k n q (by simpa [WireLog.add] using hk)
    event_lt := fun j m hj => hcount ▸ h.event_lt j m (by simpa [WireLog.add] using hj)
    pending := by
      intro k n q hk
      rcases h.pending k n q (by simpa [WireLog.add] using hk) with
        ⟨r, hr, ha⟩ | ⟨⟨-, ⟨r₀, hr₀⟩ | ⟨r₀, hr₀, ha⟩⟩, rfl, -⟩
      · exact .inl ⟨r, List.mem_append_left _ hr, ha⟩
      · simp [hr] at hr₀
      · rw [hr] at hr₀
        cases hr₀
        exact .inl ⟨r, List.mem_append_right _ (List.mem_singleton.2 rfl), ha⟩
    owed := fun ha => absurd ha hnot
    responded := by
      intro n r hr
      rcases List.mem_append.1 hr with hr | hr
      · exact (h.responded n r hr).imp_right fun ⟨hn, _⟩ => ⟨hn, hpast⟩
      · cases List.mem_singleton.1 hr
        exact .inr ⟨rfl, hpast⟩
    ordered := h.ordered.concat (by simp) (by simp) }

theorem tracked_run {g : WireLog V} {i : RunInput V} (h : Tracked rt s g)
    (hs : RunStep rt s i s') : Tracked rt s' (WireLog.record s (.run i) s' g) := by
  have hcount := schedulerCount_run hs
  simp only [WireLog.record]
  split
  · rename_i q _ hr
    exact {
      reachable := h.reachable.step hs.step
      resuming := fun q r p hr hp => resuming_run h hs hr hp
      ended_lt := fun k n q hk => hcount ▸ h.ended_lt k n q hk
      event_lt := fun j m hj => hcount ▸ h.event_lt j m hj
      pending := by
        intro k n q hk
        rcases h.pending k n q hk with ha | ⟨⟨-, ⟨r₀, hr₀⟩ | ⟨r₀, hr₀, -⟩⟩, -⟩
        · exact .inl ha
        · simp [hr] at hr₀
        · simp [hr] at hr₀
      owed := fun ha => by
        rcases answering_run h hs ha with
          (⟨q₀, r₀, hr₀, -⟩ | ⟨r₀, hr₀, -⟩) | ⟨q₀, r₀, st, hr₀, -⟩ <;>
            simp [hr] at hr₀
      responded := fun n r hr => by
        rcases h.responded n r hr with hn | ⟨rfl, -⟩
        · exact .inl (Nat.lt_succ_of_lt hn)
        · exact .inl (Nat.lt_succ_self _)
      ordered := h.ordered }
  · exact h.ended hs ‹_› ‹_›
  · exact h.respond hs ‹_›
  · rename_i hrequest hrespond hdispose
    exact {
      reachable := h.reachable.step hs.step
      resuming := fun q r p hr hp => resuming_run h hs hr hp
      ended_lt := fun k n q hk => hcount ▸ h.ended_lt k n q hk
      event_lt := fun j m hj => hcount ▸ h.event_lt j m hj
      pending := by
        intro k n q hk
        rcases h.pending k n q hk with ha | ⟨ho, hn, hc⟩
        · exact .inl ha
        · rcases owes_run h hs ho with ho' | ⟨r, hr, -⟩
          · exact .inr ⟨ho', hn, confined_run hs hc⟩
          · exact (hrespond r hr).elim
      owed := fun ha => by
        rcases answering_run h hs ha with ha | ⟨q, r, st, hr, hst⟩
        · exact h.owed ha
        · exact (hdispose q r st hr hst).elim
      responded := fun n r hr =>
        (h.responded n r hr).imp_right fun ⟨hn, hp⟩ => ⟨hn, past_run hs hp hrequest⟩
      ordered := h.ordered }

theorem tracked_of_reaches {g : WireLog V}
    (h : (wireSystem V rt).Reaches (fun x a => WireSafe rt x.1 a) (s, g)) : Tracked rt s g := by
  refine System.Reaches.recorded (WireSafe rt) (fun s hs => ?_) (fun s g a s' hi hok hstep => ?_) h
  · have hreach : (system V rt).Reachable s := .init hs
    rw [show s = {} from hs] at hreach ⊢
    exact {
      reachable := hreach
      resuming := nofun
      ended_lt := nofun
      event_lt := nofun
      pending := nofun
      owed := by rintro (⟨q, r, hr, -⟩ | ⟨r, hr, -⟩) <;> cases hr
      responded := nofun
      ordered := fun pre _ _ _ heq => by simp at heq }
  · cases a with
    | run i => exact tracked_run hi (runStep_iff.1 hstep)
    | lua i => exact tracked_lua hi hok (luaStep_iff.1 hstep)

/-! ## The condition -/

/-- The entries of a record that carry a message are what the session has sent. -/
theorem sent_eq_messages {g : WireLog V} (h : (wireSystem V rt).Reachable (s, g)) :
    s.sent = g.entries.filterMap WireEntry.message? := by
  refine System.Reachable.recorded
    (I := fun s g => s.sent = g.entries.filterMap WireEntry.message?)
    (fun s hs => ?_) (fun s g a s' hi hstep => ?_) h
  · rw [show s = {} from hs]
    rfl
  · cases a with
    | run i =>
      simp only [WireLog.record]
      rcases sent_run (runStep_iff.1 hstep) with ⟨heq, hr⟩ | ⟨r, hr, heq⟩
      · split <;> simp_all [WireLog.add, WireEntry.message?]
      · simp [hr, heq, hi, WireLog.add, WireEntry.message?]
    | lua i =>
      simp only [WireLog.record]
      rcases sent_lua (luaStep_iff.1 hstep) with ⟨heq, hl⟩ | ⟨k, m, hl, heq⟩
      · split <;> simp_all
      · simp [hl, heq, hi, WireLog.add, WireEntry.message?]

/-- The Lua thread comes to the next stop and announces it before `Run` sends its response. -/
theorem disordered_of_unsafe {g : WireLog V} (h : Tracked rt s g) {ev : Dap.StoppedEventBody}
    (hs : LuaStep rt s (.stop ev) s') (ha : Answering rt s) :
    ∃ t g', (wireSystem V rt).Run (fun x a => LuaAlone x.1 a)
      (s', WireLog.record s (.lua (.stop ev)) s' g) (t, g') ∧ ¬ Ordered g'.entries := by
  cases hs with
  | stop hl ev =>
    have hnone := (coherent_of_reachable h.reachable).stoppedState_eq_none (by simp [hl])
      (by simp [hl, LuaPoint.scheduler?])
    have hrecord : WireLog.record s (.lua (.stop ev)) { s with lua := .assertFree ev } g = g := by
      simp only [WireLog.record, hl]
    have hassert : LuaStep rt { s with lua := .assertFree ev } .step
        { s with lua := .emplace ev } :=
      .assertFree rfl hnone
    have hemplace : LuaStep rt { s with lua := .emplace ev } .step _ := .emplace rfl
    have hevent : LuaStep rt _ .step _ :=
      .event (s := { s with
        stoppedState := some { scheduler := s.schedulerCount }
        schedulers := Function.update s.schedulers s.schedulerCount {}
        schedulerCount := s.schedulerCount + 1
        lua := .event s.schedulerCount ev }) rfl
    rw [hrecord]
    refine ⟨_, _, (((System.Run.refl.tail (.inl rfl)
      (System.recorded_step_iff.2 ⟨hassert.step, rfl⟩)).tail (.inl rfl)
      (System.recorded_step_iff.2 ⟨hemplace.step, rfl⟩)).tail (.inl rfl)
      (System.recorded_step_iff.2 ⟨hevent.step, rfl⟩)).tail (.inl rfl)
      (System.recorded_step_iff.2 ⟨(LuaStep.announce rfl).step, rfl⟩), fun hordered => ?_⟩
    obtain ⟨k, q, hk⟩ := h.owed ha
    obtain ⟨r, hr, -⟩ := hordered g.entries _ _ [] rfl k _ q (List.mem_append_left _ hk)
      (h.ended_lt k _ q hk)
    have hpast : ¬ Past s := by
      rcases ha with ⟨q, r, hr, -⟩ | ⟨r, hr, -⟩ <;> simp [Past, hr]
    rcases h.responded _ r hr with hlt | ⟨-, hp⟩
    · exact absurd hlt (Nat.lt_irrefl _)
    · exact hpast hp

/-- **Resume responses.** The entries of the record are the messages as they were sent. As long as
`StopExecution` is called when no resume command is to be answered, the request that ended a stop
is answered before a later stop is announced. After any other call the Lua thread alone can
announce the stop before the response. -/
theorem ordered_of_reaches (V : Type*) (rt : Runtime) :
    (∀ s g, (wireSystem V rt).Reachable (s, g) →
      s.sent = g.entries.filterMap WireEntry.message?) ∧
      (∀ s g, (wireSystem V rt).Reaches (fun x a => WireSafe rt x.1 a) (s, g) →
        Ordered g.entries) ∧
      ∀ s g a s' g', (wireSystem V rt).Reaches (fun x a => WireSafe rt x.1 a) (s, g) →
        (wireSystem V rt).step a (s, g) = some (s', g') → ¬ WireSafe rt s a →
          ∃ t g'', (wireSystem V rt).Run (fun x a => LuaAlone x.1 a) (s', g') (t, g'') ∧
            ¬ Ordered g''.entries := by
  refine ⟨fun s g h => sent_eq_messages h, fun s g h => (tracked_of_reaches h).ordered,
    fun s g a s' g' h hstep hbad => ?_⟩
  obtain ⟨hs, rfl⟩ := System.recorded_step_iff.1 hstep
  cases a with
  | run i => exact absurd trivial hbad
  | lua i =>
    cases i with
    | stop ev =>
      exact disordered_of_unsafe (tracked_of_reaches h) (luaStep_iff.1 hs) (not_not.1 hbad)
    | _ => exact absurd trivial hbad

/-- The Lua thread is released by `continue`, and stops again before the response is sent. -/
def overtakenContinue : List (Action Unit) :=
  [.run .step, .lua (.stop { reason := "breakpoint" }), .lua .step, .lua .step, .lua .step,
    .lua .step, .lua .step] ++
  [clientRequest 1 "continue", .run .step, .run .step, .run .step, .run .step, .run .step] ++
  [.lua .step, .lua .step, .lua .step, .lua .step, .lua .step] ++
  [.lua (.stop { reason := "breakpoint" }), .lua .step, .lua .step, .lua .step, .lua .step]

/-- A resume command is answered after the next stop has been announced. -/
theorem disordered_reachable :
    ¬ ∀ s g, (wireSystem Unit plainRuntime).Reachable (s, g) → Ordered g.entries := by
  intro h
  have hstart : (wireSystem Unit plainRuntime).init ({}, {}) := ⟨rfl, rfl⟩
  obtain ⟨s, g, hreach, hg⟩ : ∃ s g, (wireSystem Unit plainRuntime).Reachable (s, g) ∧
      g.entries = [.event 0 ⟨1, "stopped", { reason := "breakpoint" }⟩,
        .ended 0 1 ⟨1, "continue", ()⟩, .event 1 ⟨3, "stopped", { reason := "breakpoint" }⟩] :=
    ⟨_, _, System.Reachable.of_exec overtakenContinue hstart rfl, rfl⟩
  have hordered := h s g hreach
  rw [hg] at hordered
  obtain ⟨r, hr, -⟩ := hordered [_, _] 1 _ [] rfl 0 1 ⟨1, "continue", ()⟩ (by simp) Nat.one_pos
  simp at hr

end LuaToolkit.DebugSession
