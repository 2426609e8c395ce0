import LuaToolkit.DebugSessionDialogue
import LuaToolkit.DebugSessionInspection

/-!
# Whose answer a response carries

An inspection request is answered by two threads: `Run` queues an invocation on the scheduler of the
stop that its check has found, the Lua thread runs it, and `Run` puts the result into the response.

* `bodies`, `bodies_run` — what the responses carry, and what a statement of `Run` adds to it.
* `Inspections` — a record of what was asked, what was run and what `Run` was told.
* `Exchange` — a request with the invocation queued for it, the stop in which it was run, and its
  result.
* `inspected_of_reaches` — under the condition of `stranded_unreachable`, everything asked, run and
  told are the same exchanges, in the same order, and the bodies of the responses are their results.
-/

namespace LuaToolkit.DebugSession

open Transition

variable {V : Type*} {rt : Runtime} {s s' : DebugSession V}

/-! ## What the responses carry -/

/-- The response that `Run` has under construction. -/
def drafts (s : DebugSession V) : List (Dap.ResponseMessage V) :=
  match s.run with
  | .handle _ r _ | .respond r => [r]
  | _ => []

/-- The bodies of the responses to some commands, in order, with the numbers of the requests. -/
def bodies (asks : String → Bool) (s : DebugSession V) : List (UInt32 × V) :=
  (s.sent.filterMap response? ++ drafts s).filterMap fun r =>
    if asks r.command then r.body.map fun body => (r.request_seq, body) else none

/-- What a statement of `Run` puts into the response. -/
def given (s : DebugSession V) (i : RunInput V) : Option (Dap.RequestMessage V × V) :=
  match s.run, i, s.answer with
  | .handle q _ (.controller call), .controller (.ok value), _ =>
    if call.hasBody then some (q, value) else none
  | .handle q _ (.inspectAwait _), _, some (.ok value) => some (q, value)
  | _, _, _ => none

variable {asks : String → Bool}

theorem given_request {q : Dap.RequestMessage V} {r : Dap.ResponseMessage V} {p : HandlerPoint V}
    (hr : s.run = .handle q r p) (i : RunInput V) : ∀ x ∈ given s i, x.1 = q := by
  intro x hx
  simp only [given, hr, Option.mem_def] at hx
  split at hx
  · rename_i hrun
    split_ifs at hx
    cases hx
    cases hrun
    rfl
  · rename_i hrun hanswer
    cases hx
    cases hrun
    rfl
  · cases hx

/-- An unfinished response carries nothing. -/
theorem bodies_eq (h : ∀ r ∈ drafts s, r.body = none) : bodies asks s =
    (s.sent.filterMap response?).filterMap fun r =>
      if asks r.command then r.body.map fun body => (r.request_seq, body) else none := by
  have hnil : (drafts s).filterMap (fun r =>
      if asks r.command then r.body.map fun body => (r.request_seq, body) else none) = [] := by
    rw [List.filterMap_eq_nil_iff]
    intro r hr
    simp [h r hr]
  rw [bodies, List.filterMap_append, hnil, List.append_nil]

/-- A step that sends no response and leaves unfinished ones unfinished. -/
theorem bodies_of_unfinished (hsent : s'.sent.filterMap response? = s.sent.filterMap response?)
    (h : ∀ r ∈ drafts s, r.body = none) (h' : ∀ r ∈ drafts s', r.body = none) :
    bodies asks s' = bodies asks s := by
  rw [bodies_eq h, bodies_eq h', hsent]

theorem bodies_lua {i : LuaInput V} (h : LuaStep rt s i s') : bodies asks s' = bodies asks s := by
  have hsent : s'.sent.filterMap response? = s.sent.filterMap response? := by
    rcases sent_lua h with ⟨heq, -⟩ | ⟨k, m, -, heq⟩
    · rw [heq]
    · simp [heq, response?]
  unfold bodies drafts
  rw [(luaStep_run h).1, hsent]

theorem unfinished_of_drafted (hdraft : Drafted s) {q : Dap.RequestMessage V}
    {r : Dap.ResponseMessage V} {p : HandlerPoint V} (hr : s.run = .handle q r p) (hp : p ≠ .done) :
    ∀ r ∈ drafts s, r.body = none := by
  simpa [drafts, hr] using (hdraft q r p hr).2 hp

/-- The response to `q` gets its body. -/
theorem bodies_of_body {q : Dap.RequestMessage V} {r : Dap.ResponseMessage V} {value : V}
    (hsent : s'.sent = s.sent) (hanswers : Answers r q) (h : ∀ r ∈ drafts s, r.body = none)
    (hr : s'.run = .handle q { r with body := some value } .done) :
    bodies asks s' = bodies asks s ++
      ([(q, value)].filter fun x => asks x.1.command).map fun x => (x.1.seq, x.2) := by
  obtain ⟨hseq, hcommand, -⟩ := hanswers
  rw [bodies_eq h, bodies, List.filterMap_append, hsent]
  congr 1
  by_cases hasks : asks q.command = true <;> simp [drafts, hr, hcommand, hseq, hasks]

theorem bodies_handler (hdraft : Drafted s) {q : Dap.RequestMessage V} {r : Dap.ResponseMessage V}
    {p : HandlerPoint V} {i : RunInput V} (hr : s.run = .handle q r p)
    (hstep : HandlerStep rt q r s p i s') : bodies asks s' = bodies asks s ++
      ((given s i).toList.filter fun x => asks x.1.command).map fun x => (x.1.seq, x.2) := by
  obtain ⟨hsent, -⟩ := (sent_run (RunStep.handle hr hstep)).resolve_right
    fun ⟨r', hr', _⟩ => by simp [hr] at hr'
  have hanswers := (hdraft q r p hr).1
  have hold := unfinished_of_drafted hdraft hr
  have hstay : p ≠ .done → (∀ r ∈ drafts s', r.body = none) → given s i = none →
      bodies asks s' = bodies asks s ++
        ((given s i).toList.filter fun x => asks x.1.command).map fun x => (x.1.seq, x.2) := by
    intro hp hnew hgiven
    rw [hgiven, bodies_of_unfinished (by rw [hsent]) (hold hp) hnew]
    simp
  have hbody := (hdraft q r p hr).2
  cases hstep with
  | controller call value =>
    by_cases hb : call.hasBody = true
    · have hgiven : given s (.controller (.ok value)) = some (q, value) := by simp [given, hr, hb]
      rw [hgiven]
      exact bodies_of_body hsent hanswers (hold (by simp)) (by simp [hb])
    · exact hstay (by simp) (by simpa [drafts, hb] using hbody (by simp)) (by simp [given, hr, hb])
  | @answered k value ha =>
    have hgiven : given s .step = some (q, value) := by simp [given, hr, ha]
    rw [hgiven]
    exact bodies_of_body hsent hanswers (hold (by simp)) rfl
  | @answerThrows k what ha =>
    have hnew : r.body = none := hbody (by simp)
    exact hstay (by simp)
      (by simpa [drafts, catchException, Dap.ResponseMessage.setError] using hnew)
      (by simp [given, hr, ha])
  | done => simp [bodies, drafts, given, hr]
  | assertFails ha =>
    have hp : p ≠ .done := by
      rintro rfl
      exact ha
    refine hstay hp ?_ ?_
    · unfold assertFailed
      cases rt.failedAssert with
      | none => simp [drafts]
      | some what => simpa [drafts, catchException, Dap.ResponseMessage.setError] using hbody hp
    · cases p with
      | inspectAwait => exact ha.elim
      | _ => simp [given, hr]
  | derefs hp hst =>
    refine hstay (by rintro rfl; exact hp) (by simp [drafts]) ?_
    cases p with
    | inspectAwait => exact hp.elim
    | _ => simp [given, hr]
  | _ =>
    have hnew : r.body = none := hbody (by simp)
    exact hstay (by simp)
      (by simpa [drafts, catchException, Dap.ResponseMessage.setError] using hnew)
      (by simp [given, hr])

/-- What a statement of `Run` adds to the bodies. -/
theorem bodies_run (hdraft : Drafted s) {i : RunInput V} (h : RunStep rt s i s') :
    bodies asks s' = bodies asks s ++
      ((given s i).toList.filter fun x => asks x.1.command).map fun x => (x.1.seq, x.2) := by
  cases h with
  | handle hr hstep => exact bodies_handler hdraft hr hstep
  | request hr =>
    simp [bodies, drafts, given, hr, nextSeqId, Dap.ResponseMessage.create]
  | start hr | again hr | closed hr | sent hr | sendThrows hr =>
    simp [bodies, drafts, given, hr, response?]
  | receive hr result =>
    rcases receiveMessage_cases result with ⟨exit, heq⟩ | ⟨q, heq⟩ | heq <;>
      simp [bodies, drafts, given, hr, heq]

/-! ## The record and the property -/

/-- An inspection request on its way through the two threads. -/
structure Exchange (V : Type*) where
  request : Dap.RequestMessage V
  scheduler : Nat
  invocation : Invocation V
  result : Except String V

/-- The invocations that `Run` has queued, with the request and the scheduler; those that the Lua
thread has run; and the results that `Run` has read. -/
structure Inspections (V : Type*) where
  asked : List (Dap.RequestMessage V × Nat × Invocation V) := []
  ran : List (Nat × Invocation V × Except String V) := []
  told : List (Dap.RequestMessage V × Except String V) := []

def Inspections.record (s : DebugSession V) :
    Action V → DebugSession V → Inspections V → Inspections V
  | .run _, _, g =>
    match s.run, s.stoppedState, s.answer with
    | .handle q _ (.inspectSchedule invocation), some st, _ =>
      { g with asked := g.asked ++ [(q, st.scheduler, invocation)] }
    | .handle q _ (.inspectAwait _), _, some result => { g with told := g.told ++ [(q, result)] }
    | _, _, _ => g
  | .lua (.answer result), _, g =>
    match s.lua with
    | .execute k =>
      match (s.schedulers k).point with
      | .invoke _ (invocation :: _) => { g with ran := g.ran ++ [(k, invocation, result)] }
      | _ => g
    | _ => g
  | .lua _, _, g => g

abbrev inspectionSystem (V : Type*) (rt : Runtime) :
    System (DebugSession V × Inspections V) (Action V) :=
  (system V rt).recorded {} Inspections.record

/-- The request that `Run` waits for, and its result if it is there. -/
inductive InFlight (s : DebugSession V) : List (Dap.RequestMessage V × Nat × Invocation V) →
    List (Nat × Invocation V × Except String V) → Prop
  | none (h : ∀ q r k, s.run ≠ .handle q r (.inspectAwait k)) : InFlight s [] []
  | queued {q r k i} (hr : s.run = .handle q r (.inspectAwait k)) (ha : s.answer = none)
      (ho : (s.schedulers k).outstanding = [i]) : InFlight s [(q, k, i)] []
  | answered {q r k result} (i : Invocation V) (hr : s.run = .handle q r (.inspectAwait k))
      (ha : s.answer = some result) : InFlight s [(q, k, i)] [(k, i, result)]

/-- What was asked, run and told are the same exchanges, apart from what is in flight. -/
def Exchanged (g : Inspections V) (xs : List (Exchange V))
    (asked : List (Dap.RequestMessage V × Nat × Invocation V))
    (ran : List (Nat × Invocation V × Except String V)) : Prop :=
  g.asked = xs.map (fun x => (x.request, x.scheduler, x.invocation)) ++ asked ∧
    g.ran = xs.map (fun x => (x.scheduler, x.invocation, x.result)) ++ ran ∧
    g.told = xs.map (fun x => (x.request, x.result))

/-- The command is one that asks the provider. -/
def Inspects (V : Type*) (rt : Runtime) (command : String) : Bool :=
  match (rt.dispatch command : HandlerPoint V) with
  | .inspectAssert _ => true
  | _ => false

/-- The results that are no exceptions. -/
def results (told : List (Dap.RequestMessage V × Except String V)) : List (UInt32 × V) :=
  told.filterMap fun x => x.2.toOption.map fun value => (x.1.seq, value)

structure Inspected (rt : Runtime) (s : DebugSession V) (g : Inspections V) : Prop where
  /-- What was asked is run, in this order, on the scheduler that it was queued on, and the result
  goes to the request that asked. -/
  exchanges : ∃ xs asked ran, InFlight s asked ran ∧ Exchanged g xs asked ran
  /-- The responses carry the results. -/
  responses : bodies (Inspects V rt) s = results g.told
  /-- Only inspection requests ask. -/
  requests : ∀ x ∈ g.asked, (rt.dispatch x.1.command : HandlerPoint V) =
    .inspectAssert x.2.2.inspection

/-! ## The invariant -/

/-- A handler is at the statements of its own command. -/
def Placed (rt : Runtime) (s : DebugSession V) : Prop :=
  ∀ q r p, s.run = .handle q r p →
    match p with
    | .inspectAssert i | .inspectCast i =>
      (rt.dispatch q.command : HandlerPoint V) = .inspectAssert i
    | .inspectSchedule invocation =>
      (rt.dispatch q.command : HandlerPoint V) = .inspectAssert invocation.inspection
    | .inspectAwait _ => Inspects V rt q.command = true
    | .controller call => (rt.dispatch q.command : HandlerPoint V) = .controller call
    | _ => True

theorem placed_run {i : RunInput V} (h : Placed rt s) (hs : RunStep rt s i s') : Placed rt s' := by
  intro q r p hr'
  cases hs with
  | handle hr hstep =>
    have hp := h _ _ _ hr
    cases hstep with
    | assertFails => exact absurd hr' (by simp)
    | controllerThrows | disconnectThrows | castThrows | answerThrows | done | derefs => cases hr'
    | inspectAssert | cast =>
      cases hr'
      exact hp
    | schedule invocation =>
      cases hr'
      simp only at hp
      simp only [Inspects, hp]
    | _ =>
      cases hr'
      trivial
  | @request q hr =>
    cases hr'
    cases hd : (rt.dispatch q.command : HandlerPoint V) with
    | inspectAssert i => rfl
    | controller call => rfl
    | _ =>
      have hentry : Entry (rt.dispatch q.command : HandlerPoint V) := dispatch_entry q.command
      rw [hd] at hentry
      cases hentry <;> trivial
  | receive hr result => exact absurd hr' (receiveMessage_ne_handle result)
  | _ => cases hr'

theorem placed_of_reachable (h : (system V rt).Reachable s) : Placed rt s := by
  apply h.invariant (I := Placed rt)
  · rintro s rfl q r p hr
    cases hr
  · intro s a s' hi hstep
    cases a with
    | run i => exact placed_run hi (runStep_iff.1 hstep)
    | lua i =>
      unfold Placed
      rw [(luaStep_run (luaStep_iff.1 hstep)).1]
      exact hi

/-! ## Steps of the Lua thread -/

/-- The Lua thread leaves alone what `Run` has asked for, until it runs it. -/
theorem outstanding_keep (hs : Tended s) {q : Dap.RequestMessage V} {r : Dap.ResponseMessage V}
    {k : Nat} (hr : s.run = .handle q r (.inspectAwait k)) {i : LuaInput V}
    (h : LuaStep rt s i s') (hi : ∀ result, i ≠ .answer result) :
    (s'.schedulers k).outstanding = (s.schedulers k).outstanding ∧ s'.answer = s.answer := by
  have hh := hs.held
  unfold Held at hh
  rw [hr] at hh
  obtain ⟨hk, -, -⟩ := hh
  cases h with
  | notFree | noMode =>
    unfold stopAssertFailed
    split_ifs <;> exact ⟨rfl, rfl⟩
  | emplace hl =>
    rw [hl] at hk
    cases hk
  | @execute j hl e hp he =>
    obtain rfl : k = j := Option.some.inj (hk.symm.trans (congrArg LuaPoint.scheduler? hl))
    rcases Execution.outstanding_execute he with ⟨c, i, rest, hinvoke, -⟩ | ⟨-, heq⟩
    · exact absurd hinvoke (hp c i rest)
    · exact ⟨by simpa using heq, rfl⟩
  | answer hl hp he result => exact absurd rfl (hi result)
  | _ => exact ⟨rfl, rfl⟩

theorem InFlight.keep {asked : List (Dap.RequestMessage V × Nat × Invocation V)}
    {ran : List (Nat × Invocation V × Except String V)} (h : InFlight s asked ran)
    (hrun : s'.run = s.run) (hkeep : ∀ q r k, s.run = .handle q r (.inspectAwait k) →
      (s'.schedulers k).outstanding = (s.schedulers k).outstanding ∧ s'.answer = s.answer) :
    InFlight s' asked ran := by
  cases h with
  | none h => exact .none fun q r k hr => h q r k (hrun ▸ hr)
  | queued hr ha ho =>
    obtain ⟨hout, hanswer⟩ := hkeep _ _ _ hr
    exact .queued (hrun ▸ hr) (hanswer.trans ha) (hout.trans ho)
  | answered i hr ha => exact .answered i (hrun ▸ hr) ((hkeep _ _ _ hr).2.trans ha)

/-- The Lua thread runs what `Run` waits for. -/
theorem awaited_of_invoke (hs : Tended s) {k : Nat} (hl : s.lua = .execute k) {c : Bool}
    {i : Invocation V} {rest : List (Invocation V)}
    (hp : (s.schedulers k).point = .invoke c (i :: rest)) :
    ∃ q r, s.run = .handle q r (.inspectAwait k) ∧ s.answer = none ∧
      (s.schedulers k).outstanding = [i] := by
  have hk : s.lua.scheduler? = some k := by simp [hl, LuaPoint.scheduler?]
  have hout : (s.schedulers k).outstanding =
      i :: (rest ++ (s.schedulers k).scheduler.invocations) := by
    rw [Execution.outstanding, hp]
    rfl
  have hf := hs.flight
  have hh := hs.held
  unfold Flight Held at *
  split at hf
  · rename_i q r j hr
    simp only [hr] at hh
    obtain ⟨hj, -, -⟩ := hh
    obtain rfl : k = j := Option.some.inj (hk.symm.trans hj)
    rcases hf with ⟨ha, i', hi'⟩ | ⟨-, hnil⟩
    · have heq := hout.symm.trans hi'
      obtain ⟨rfl, -⟩ := List.cons.inj heq
      exact ⟨q, r, hr, ha, hi'⟩
    · cases hout.symm.trans hnil
  · obtain ⟨mode, hst⟩ := hs.coherent.scheduler_eq hk
    cases hout.symm.trans (hf.2 k mode hst)

theorem inspected_lua {g : Inspections V} (hs : Tended s) (h : Inspected rt s g) {i : LuaInput V}
    (hstep : LuaStep rt s i s') : Inspected rt s' (Inspections.record s (.lua i) s' g) := by
  obtain ⟨xs, asked, ran, hflight, hex⟩ := h.exchanges
  have hrun := (luaStep_run hstep).1
  have hresponses : bodies (Inspects V rt) s' = results g.told :=
    (bodies_lua hstep).trans h.responses
  have hother : (∀ result, i ≠ .answer result) →
      Inspected rt s' (Inspections.record s (.lua i) s' g) := by
    intro hi
    have hrecord : Inspections.record s (.lua i) s' g = g := by
      cases i with
      | answer result => exact absurd rfl (hi result)
      | _ => rfl
    rw [hrecord]
    have hkeep := hflight.keep hrun fun q r k hr => outstanding_keep hs hr hstep hi
    exact ⟨⟨xs, asked, ran, hkeep, hex⟩, hresponses, h.requests⟩
  cases hstep with
  | @answer k hl e c i rest hp he result =>
    obtain ⟨q, r, hr, ha, ho⟩ := awaited_of_invoke hs hl hp
    obtain ⟨hasked, hran, htold⟩ := hex
    simp only [Inspections.record, hl, hp]
    refine ⟨⟨xs, [(q, k, i)], [(k, i, result)], .answered i hr rfl, ?_, ?_, htold⟩,
      hresponses, h.requests⟩
    all_goals
      cases hflight with
      | none hne => exact absurd hr (hne q r k)
      | queued hr' ha' ho' =>
        cases hr.symm.trans hr'
        cases ho.symm.trans ho'
        simp [hasked, hran]
      | answered i hr' ha' => cases ha.symm.trans ha'
  | _ => exact hother nofun

/-! ## Steps of `Run` -/

/-- What is put into the responses to inspection requests is what `Run` has been told. -/
theorem told_given (hplaced : Placed rt s) (i : RunInput V) (g : Inspections V) :
    results (Inspections.record s (.run i) s' g).told = results g.told ++
      ((given s i).toList.filter fun x => Inspects V rt x.1.command).map
        fun x => (x.1.seq, x.2) := by
  cases hr : s.run with
  | handle q r p =>
    have hplace := hplaced q r p hr
    cases p with
    | inspectAwait k =>
      have hasks : Inspects V rt q.command = true := hplace
      cases ha : s.answer with
      | none => simp [Inspections.record, given, hr, ha]
      | some result =>
        cases result <;>
          simp [Inspections.record, given, hr, ha, results, hasks, Except.toOption]
    | inspectSchedule invocation =>
      cases hst : s.stoppedState <;> simp [Inspections.record, given, hr, hst]
    | controller call =>
      have hasks : Inspects V rt q.command = false := by
        unfold Inspects
        rw [show (rt.dispatch q.command : HandlerPoint V) = .controller call from hplace]
      have hnil : ((given s i).toList.filter fun x => Inspects V rt x.1.command) = [] := by
        refine List.filter_eq_nil_iff.2 fun x hx => ?_
        rw [given_request hr i x (Option.mem_toList.1 hx), hasks]
        exact Bool.false_ne_true
      simp [Inspections.record, hr, hnil]
    | _ => simp [Inspections.record, given, hr]
  | _ => simp [Inspections.record, given, hr]

theorem responses_run {g : Inspections V} {i : RunInput V} (hplaced : Placed rt s)
    (hdraft : Drafted s) (h : bodies (Inspects V rt) s = results g.told) (hs : RunStep rt s i s') :
    bodies (Inspects V rt) s' = results (Inspections.record s (.run i) s' g).told := by
  rw [bodies_run hdraft hs, told_given hplaced, h]

theorem InFlight.eq_nil {asked : List (Dap.RequestMessage V × Nat × Invocation V)}
    {ran : List (Nat × Invocation V × Except String V)} (h : InFlight s asked ran)
    (hr : ∀ q r k, s.run ≠ .handle q r (.inspectAwait k)) : asked = [] ∧ ran = [] := by
  cases h with
  | none => exact ⟨rfl, rfl⟩
  | queued hr' | answered i hr' => exact absurd hr' (hr _ _ _)

/-- The result that `Run` reads is that of the invocation that it queued. -/
theorem InFlight.answer {asked : List (Dap.RequestMessage V × Nat × Invocation V)}
    {ran : List (Nat × Invocation V × Except String V)} (h : InFlight s asked ran)
    {q : Dap.RequestMessage V} {r : Dap.ResponseMessage V} {k : Nat} {result : Except String V}
    (hr : s.run = .handle q r (.inspectAwait k)) (ha : s.answer = some result) :
    ∃ i, asked = [(q, k, i)] ∧ ran = [(k, i, result)] := by
  cases h with
  | none hne => exact absurd hr (hne q r k)
  | queued hr' ha' => cases ha.symm.trans ha'
  | answered i hr' ha' =>
    cases hr.symm.trans hr'
    cases ha.symm.trans ha'
    exact ⟨i, rfl, rfl⟩

theorem exchanges_handler {g : Inspections V} (hs : Tended s)
    {xs : List (Exchange V)} {asked : List (Dap.RequestMessage V × Nat × Invocation V)}
    {ran : List (Nat × Invocation V × Except String V)} (hflight : InFlight s asked ran)
    (h : Exchanged g xs asked ran) {q : Dap.RequestMessage V} {r : Dap.ResponseMessage V}
    {p : HandlerPoint V} {i : RunInput V} (hr : s.run = .handle q r p)
    (hstep : HandlerStep rt q r s p i s') :
    ∃ xs asked ran, InFlight s' asked ran ∧
      Exchanged (Inspections.record s (.run i) s' g) xs asked ran := by
  have htold : ∀ {k : Nat} {result : Except String V}, s.run = .handle q r (.inspectAwait k) →
      s.answer = some result →
        ∃ xs, Exchanged { g with told := g.told ++ [(q, result)] } xs [] [] := by
    intro k result hr ha
    obtain ⟨i, rfl, rfl⟩ := hflight.answer hr ha
    obtain ⟨hasked, hran, htold⟩ := h
    exact ⟨xs ++ [⟨q, k, i, result⟩], by simp [hasked], by simp [hran], by simp [htold]⟩
  have hstay : (∀ k, p ≠ .inspectAwait k) → (∀ q r k, s'.run ≠ .handle q r (.inspectAwait k)) →
      Inspections.record s (.run i) s' g = g → ∃ xs asked ran, InFlight s' asked ran ∧
        Exchanged (Inspections.record s (.run i) s' g) xs asked ran := by
    intro hp hp' hrecord
    obtain ⟨rfl, rfl⟩ := hflight.eq_nil fun q' r' k hr' => by
      cases hr.symm.trans hr'
      exact hp k rfl
    rw [hrecord]
    exact ⟨xs, [], [], .none hp', h⟩
  cases hstep with
  | @answered k value ha =>
    obtain ⟨xs, hex⟩ := htold hr ha
    simp only [Inspections.record, hr, ha]
    exact ⟨xs, [], [], .none (by simp), hex⟩
  | @answerThrows k what ha =>
    obtain ⟨xs, hex⟩ := htold hr ha
    simp only [Inspections.record, hr, ha]
    exact ⟨xs, [], [], .none (by simp [catchException]), hex⟩
  | @schedule invocation st hst =>
    obtain ⟨rfl, rfl⟩ := hflight.eq_nil (by simp [hr])
    have hidle : Idle s := by
      have hf := hs.flight
      unfold Flight at hf
      rwa [hr] at hf
    obtain ⟨hasked, hran, htold⟩ := h
    simp only [Inspections.record, hr, hst]
    refine ⟨xs, [(q, st.scheduler, invocation)], [], .queued rfl hidle.1 ?_, ?_⟩
    · simpa [onScheduler] using hidle.2 _ _ hst
    · exact ⟨by simp [hasked], hran, htold⟩
  | assertFails ha =>
    refine hstay (by rintro k rfl; exact ha) (by simp) ?_
    cases p with
    | inspectSchedule | inspectAwait => exact ha.elim
    | _ => simp only [Inspections.record, hr]
  | derefs hp hst =>
    refine hstay (by rintro k rfl; exact hp) (by simp) ?_
    cases p with
    | inspectAwait => exact hp.elim
    | _ => simp only [Inspections.record, hr, hst]
  | _ => exact hstay (by simp) (by simp [catchException]) (by simp only [Inspections.record, hr])

theorem exchanges_run {g : Inspections V} (hs : Tended s)
    (h : ∃ xs asked ran, InFlight s asked ran ∧ Exchanged g xs asked ran) {i : RunInput V}
    (hstep : RunStep rt s i s') : ∃ xs asked ran, InFlight s' asked ran ∧
      Exchanged (Inspections.record s (.run i) s' g) xs asked ran := by
  obtain ⟨xs, asked, ran, hflight, hex⟩ := h
  have hstay : (∀ q r p, s.run ≠ .handle q r p) →
      (∀ q r k, s'.run ≠ .handle q r (.inspectAwait k)) → ∃ xs asked ran, InFlight s' asked ran ∧
        Exchanged (Inspections.record s (.run i) s' g) xs asked ran := by
    intro hr hr'
    obtain ⟨rfl, rfl⟩ := hflight.eq_nil fun q r k => hr q r _
    have hrecord : Inspections.record s (.run i) s' g = g := by
      cases hrun : s.run with
      | handle q r p => exact absurd hrun (hr q r p)
      | _ => simp only [Inspections.record, hrun]
    rw [hrecord]
    exact ⟨xs, [], [], .none hr', hex⟩
  cases hstep with
  | handle hr hstep => exact exchanges_handler hs hflight hex hr hstep
  | receive hr result =>
    exact hstay (by simp [hr]) fun q r k => receiveMessage_ne_handle result
  | request hr =>
    refine hstay (by simp [hr]) fun q r k heq => ?_
    have hentry : Entry (.inspectAwait k : HandlerPoint V) := by
      simp only [RunPoint.handle.injEq] at heq
      rw [← heq.2.2]
      exact dispatch_entry _
    cases hentry
  | start hr | sent hr | sendThrows hr | again hr | closed hr =>
    exact hstay (by simp [hr]) (by simp)

theorem requests_run {g : Inspections V} (hplaced : Placed rt s)
    (h : ∀ x ∈ g.asked, (rt.dispatch x.1.command : HandlerPoint V) =
      .inspectAssert x.2.2.inspection) (i : RunInput V) :
    ∀ x ∈ (Inspections.record s (.run i) s' g).asked,
      (rt.dispatch x.1.command : HandlerPoint V) = .inspectAssert x.2.2.inspection := by
  intro x hx
  simp only [Inspections.record] at hx
  split at hx
  · rename_i q r invocation st hr hst
    rcases List.mem_append.1 hx with hx | hx
    · exact h x hx
    · rw [List.mem_singleton.1 hx]
      exact hplaced q r _ hr
  · exact h x hx
  · exact h x hx

theorem inspected_run {g : Inspections V} (hs : Tended s) (hplaced : Placed rt s)
    (hdraft : Drafted s) (h : Inspected rt s g) {i : RunInput V} (hstep : RunStep rt s i s') :
    Inspected rt s' (Inspections.record s (.run i) s' g) where
  exchanges := exchanges_run hs h.exchanges hstep
  responses := responses_run hplaced hdraft h.responses hstep
  requests := requests_run hplaced h.requests i

theorem placed_inspected {g : Inspections V}
    (h : (inspectionSystem V rt).Reaches (fun x a => InspectSafe x.1 a) (s, g)) :
    Placed rt s ∧ Inspected rt s g := by
  have hall : (system V rt).Reaches InspectSafe s ∧ Placed rt s ∧ Inspected rt s g := by
    refine h.recorded InspectSafe
      (I := fun s g => (system V rt).Reaches InspectSafe s ∧ Placed rt s ∧ Inspected rt s g)
      (fun s hs => ?_) fun s g a s' hi hok hstep => ?_
    · refine ⟨.init hs, ?_, ?_⟩ <;> rw [show s = {} from hs]
      · exact nofun
      · exact ⟨⟨[], [], [], .none nofun, rfl, rfl, rfl⟩, rfl, nofun⟩
    · obtain ⟨hreach, hplaced, hinspected⟩ := hi
      refine ⟨hreach.step hok hstep, ?_⟩
      have htended := tended_of_reaches hreach
      cases a with
      | run i =>
        have hs := runStep_iff.1 hstep
        exact ⟨placed_run hplaced hs,
          inspected_run htended hplaced (drafted_of_reachable hreach.reachable) hinspected hs⟩
      | lua i =>
        have hs := luaStep_iff.1 hstep
        refine ⟨?_, inspected_lua htended hinspected hs⟩
        unfold Placed
        rw [(luaStep_run hs).1]
        exact hplaced
  exact hall.2

/-- **Inspection.** When the inspection requests are safe, each is run once, in the stop that it was
asked in and in the order of asking, and its response carries its own result. -/
theorem inspected_of_reaches (V : Type*) (rt : Runtime) :
    ∀ s g, (inspectionSystem V rt).Reaches (fun x a => InspectSafe x.1 a) (s, g) →
      Inspected rt s g :=
  fun _ _ h => (placed_inspected h).2

/-- If `Run` is about to check an inspection request, the stop has not been resumed. -/
def Unresumed (s : DebugSession V) : Prop :=
  match s.run, s.stoppedState with
  | .handle _ _ (.inspectAssert _), some st => st.continueMode = none
  | _, _ => True

theorem Unresumed.inspectSafe (h : s.Unresumed) : InspectSafe s (.run .step) := by
  intro q r i st hr hst
  rwa [Unresumed, hr, hst] at h

/-- A stop, and a request for the stack that it answers. -/
theorem inspected_of_reaches_stackTrace : ∃ (s : DebugSession Unit) (g : Inspections Unit),
    g.told.length = 1 ∧ s.sent.length = 2 ∧ Inspected plainRuntime s g := by
  have hstep : ∀ (s : DebugSession Unit) (g : Inspections Unit), Unresumed s →
      InspectSafe (s, g).1 (.run .step) := fun s g h => h.inspectSafe
  have hstop : ∀ x : DebugSession Unit × Inspections Unit, ∀ a ∈
      ([.lua (.stop { reason := "breakpoint" }), .lua .step, .lua .step, .lua .step, .lua .step,
        .lua .step, clientRequest 1 "stackTrace"] : List (Action Unit)), InspectSafe x.1 a := by
    simp [InspectSafe, clientRequest]
  have hanswer : ∀ x : DebugSession Unit × Inspections Unit, ∀ a ∈
      ([.lua .step, .lua .step, .lua (.answer (.ok ()))] : List (Action Unit)),
        InspectSafe x.1 a := by
    simp [InspectSafe]
  have hcast : ∀ x : DebugSession Unit × Inspections Unit,
      InspectSafe x.1 (.run (.cast (.ok ()))) := fun _ => trivial
  have hsent : ∀ x : DebugSession Unit × Inspections Unit,
      InspectSafe x.1 (.run (.sent (.ok ()))) := fun _ => trivial
  have hinit : (inspectionSystem Unit plainRuntime).Reaches (fun x a => InspectSafe x.1 a)
      ({}, {}) := .init ⟨rfl, rfl⟩
  have hasked := (hinit.step (hstep _ _ trivial) rfl).run (.of_exec hstop (by rfl))
  have hchecked := ((hasked.step (hstep _ _ trivial) rfl).step (hstep _ _ rfl) rfl).step
    (hcast _) rfl
  have hran := (hchecked.step (hstep _ _ trivial) rfl).run (.of_exec hanswer (by rfl))
  have hreach := ((hran.step (hstep _ _ trivial) rfl).step (hstep _ _ trivial) rfl).step
    (hsent _) rfl
  exact ⟨_, _, rfl, rfl, inspected_of_reaches Unit plainRuntime _ _ hreach⟩

end LuaToolkit.DebugSession
