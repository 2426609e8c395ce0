import LuaToolkit.DebugSession

/-!
# The steps of a session, one by one

* `HandlerStep`, `RunStep`, `LuaStep` — the steps of the two threads, one constructor for each
  statement and outcome; `runStep_iff` and `luaStep_iff` relate them to the functions.
* `reachable_scheduler` — every scheduler of a session runs as `Execution.system` does.
* `Coherent` — `_stoppedState` is filled exactly while the Lua thread is between filling it and
  leaving `StopExecution`, and it points to the scheduler of that stop.
* `ClosedLate` — from the statement that closes the session on, `Run` is on its way out.
-/

namespace LuaToolkit.DebugSession

open Transition

variable {V : Type*} {rt : Runtime}

/-! ## `Run` -/

/-- The assertion at this point fails. -/
def AssertFails (s : DebugSession V) : HandlerPoint V → Prop
  | .inspectAssert _ | .resumeAssertStopped _ => s.stoppedState = none
  | .resumeAssertMode _ => ∃ st, s.stoppedState = some st ∧ st.continueMode ≠ none
  | _ => False

/-- The statement dereferences `_stoppedState`. -/
def Derefs : HandlerPoint V → Prop
  | .disconnectMode | .disconnectDispose | .inspectSchedule _ | .resumeAssertMode _
  | .resumeMode _ | .resumeDispose => True
  | _ => False

/-- The statements of a handler. -/
inductive HandlerStep (rt : Runtime) (q : Dap.RequestMessage V) (r : Dap.ResponseMessage V)
    (s : DebugSession V) : HandlerPoint V → RunInput V → DebugSession V → Prop
  | controller (call : ControllerCall) (value : V) :
      HandlerStep rt q r s (.controller call) (.controller (.ok value))
        { s with run :=
            .handle q (if call.hasBody then { r with body := some value } else r) .done }
  | controllerThrows (call : ControllerCall) (what : String) :
      HandlerStep rt q r s (.controller call) (.controller (.error what)) (s.catchException r what)
  | disconnectClose : HandlerStep rt q r s .disconnectClose .step
      { s with isClosed := true, run := .handle q r .disconnectTest }
  | disconnectStopped {st} (h : s.stoppedState = some st) :
      HandlerStep rt q r s .disconnectTest .step { s with run := .handle q r .disconnectMode }
  | disconnectRunning (h : s.stoppedState = none) :
      HandlerStep rt q r s .disconnectTest .step { s with run := .handle q r .disconnectController }
  | disconnectMode {st} (h : s.stoppedState = some st) :
      HandlerStep rt q r s .disconnectMode .step
        { s with
          stoppedState := some { st with continueMode := some .stopped }
          run := .handle q r .disconnectDispose }
  | disconnectDispose {st} (h : s.stoppedState = some st) :
      HandlerStep rt q r s .disconnectDispose .step
        { s.onScheduler st.scheduler Execution.dispose with
          run := .handle q r .disconnectController }
  | disconnect (value : V) : HandlerStep rt q r s .disconnectController (.controller (.ok value))
      { s with run := .handle q r .done }
  | disconnectThrows (what : String) :
      HandlerStep rt q r s .disconnectController (.controller (.error what))
        (s.catchException r what)
  | inspectAssert (i : Inspection) {st} (h : s.stoppedState = some st) :
      HandlerStep rt q r s (.inspectAssert i) .step { s with run := .handle q r (.inspectCast i) }
  | cast (i : Inspection) (arguments : V) :
      HandlerStep rt q r s (.inspectCast i) (.cast (.ok arguments))
        { s with run := .handle q r (.inspectSchedule ⟨i, arguments⟩) }
  | castThrows (i : Inspection) (what : String) :
      HandlerStep rt q r s (.inspectCast i) (.cast (.error what)) (s.catchException r what)
  | schedule (invocation : Invocation V) {st} (h : s.stoppedState = some st) :
      HandlerStep rt q r s (.inspectSchedule invocation) .step
        { s.onScheduler st.scheduler (Execution.scheduleInvocation invocation) with
          run := .handle q r (.inspectAwait st.scheduler) }
  | answered (k : Nat) {value : V} (h : s.answer = some (.ok value)) :
      HandlerStep rt q r s (.inspectAwait k) .step
        { s with answer := none, run := .handle q { r with body := some value } .done }
  | answerThrows (k : Nat) {what : String} (h : s.answer = some (.error what)) :
      HandlerStep rt q r s (.inspectAwait k) .step ({ s with answer := none }.catchException r what)
  | resumeAssertStopped (mode : ContinueExecutionMode) {st} (h : s.stoppedState = some st) :
      HandlerStep rt q r s (.resumeAssertStopped mode) .step
        { s with run := .handle q r (.resumeAssertMode mode) }
  | resumeAssertMode (mode : ContinueExecutionMode) {st} (h : s.stoppedState = some st)
      (hm : st.continueMode = none) : HandlerStep rt q r s (.resumeAssertMode mode) .step
        { s with run := .handle q r (.resumeMode mode) }
  | resumeMode (mode : ContinueExecutionMode) {st} (h : s.stoppedState = some st) :
      HandlerStep rt q r s (.resumeMode mode) .step
        { s with
          stoppedState := some { st with continueMode := some mode }
          run := .handle q r .resumeDispose }
  | resumeDispose {st} (h : s.stoppedState = some st) :
      HandlerStep rt q r s .resumeDispose .step
        { s.onScheduler st.scheduler Execution.dispose with run := .handle q r .done }
  | done : HandlerStep rt q r s .done .step { s with run := .respond r }
  | assertFails {p : HandlerPoint V} (h : s.AssertFails p) :
      HandlerStep rt q r s p .step (s.assertFailed rt r)
  | derefs {p : HandlerPoint V} (hp : Derefs p) (h : s.stoppedState = none) :
      HandlerStep rt q r s p .step { s with run := .halted }

theorem handlerStep_iff {q : Dap.RequestMessage V} {r : Dap.ResponseMessage V}
    {p : HandlerPoint V} {i : RunInput V} {s s' : DebugSession V} :
    s.handlerStep rt q r p i = some s' ↔ HandlerStep rt q r s p i s' := by
  constructor
  · intro h
    unfold handlerStep at h
    split at h
    · cases h; exact .controller _ _
    · cases h; exact .controllerThrows _ _
    · cases h; exact .disconnectClose
    · split at h <;> cases h
      · exact .disconnectStopped (Option.eq_some_of_isSome ‹_›)
      · exact .disconnectRunning (Option.not_isSome_iff_eq_none.1 ‹_›)
    · split at h <;> cases h
      · exact .disconnectMode ‹_›
      · exact .derefs (p := .disconnectMode) trivial ‹_›
    · split at h <;> cases h
      · exact .disconnectDispose ‹_›
      · exact .derefs (p := .disconnectDispose) trivial ‹_›
    · cases h; exact .disconnect _
    · cases h; exact .disconnectThrows _
    · split at h <;> cases h
      · exact .inspectAssert _ (Option.eq_some_of_isSome ‹_›)
      · exact .assertFails (Option.not_isSome_iff_eq_none.1 ‹_›)
    · cases h; exact .cast _ _
    · cases h; exact .castThrows _ _
    · split at h <;> cases h
      · exact .schedule _ ‹_›
      · exact .derefs (p := .inspectSchedule _) trivial ‹_›
    · split at h <;> cases h
      · exact .answered _ ‹_›
      · exact .answerThrows _ ‹_›
    · split at h <;> cases h
      · exact .resumeAssertStopped _ (Option.eq_some_of_isSome ‹_›)
      · exact .assertFails (Option.not_isSome_iff_eq_none.1 ‹_›)
    · split at h
      · rename_i st hs
        split at h <;> cases h
        · exact .resumeAssertMode _ hs (Option.isNone_iff_eq_none.1 ‹_›)
        · exact .assertFails ⟨st, hs, mt Option.isNone_iff_eq_none.2 ‹_›⟩
      · cases h
        exact .derefs (p := .resumeAssertMode _) trivial ‹_›
    · split at h <;> cases h
      · exact .resumeMode _ ‹_›
      · exact .derefs (p := .resumeMode _) trivial ‹_›
    · split at h <;> cases h
      · exact .resumeDispose ‹_›
      · exact .derefs (p := .resumeDispose) trivial ‹_›
    · cases h; exact .done
    · cases h
  · intro h
    cases h with
    | assertFails h =>
      cases p with
      | resumeAssertMode mode =>
        obtain ⟨st, hs, hm⟩ := h
        simp [handlerStep, hs, hm]
      | _ => simp_all [AssertFails, handlerStep]
    | derefs hp h => cases p <;> simp_all [Derefs, handlerStep]
    | _ => simp_all [handlerStep]

/-- How many statements of a handler are left at most. -/
def rank : HandlerPoint V → Nat
  | .done => 1
  | .controller _ | .disconnectController | .inspectAwait _ | .resumeDispose => 2
  | .disconnectDispose | .inspectSchedule _ | .resumeMode _ => 3
  | .disconnectMode | .inspectCast _ | .resumeAssertMode _ => 4
  | .disconnectTest | .inspectAssert _ | .resumeAssertStopped _ => 5
  | .disconnectClose => 6

/-- Where a handler comes to by one statement: on to a later one, with the body of the response
filled in for the last, to the response, with an error when an exception was thrown, or nowhere. -/
inductive GoesOn (q : Dap.RequestMessage V) (r : Dap.ResponseMessage V) (p : HandlerPoint V) :
    RunPoint V → Prop
  | next (p' : HandlerPoint V) (h : rank p' < rank p) : GoesOn q r p (.handle q r p')
  | body (value : V) (h : p ≠ .done) : GoesOn q r p (.handle q { r with body := some value } .done)
  | responds (h : p = .done) : GoesOn q r p (.respond r)
  | throws (h : p ≠ .done) (what : String) : GoesOn q r p (.respond (r.setError what))
  | halts : GoesOn q r p .halted

theorem HandlerStep.goesOn {q : Dap.RequestMessage V} {r : Dap.ResponseMessage V}
    {p : HandlerPoint V} {i : RunInput V} {s s' : DebugSession V}
    (h : HandlerStep rt q r s p i s') : GoesOn q r p s'.run := by
  cases h with
  | controller call value =>
    by_cases hb : call.hasBody
    · simp only [hb, if_true]
      exact .body value (by simp)
    · simp only [hb, if_false, Bool.false_eq_true]
      exact .next .done (by simp [rank])
  | controllerThrows | disconnectThrows | castThrows | answerThrows =>
    exact .throws (by simp) _
  | answered => exact .body _ (by simp)
  | done => exact .responds rfl
  | assertFails ha =>
    unfold assertFailed
    split
    · refine .throws (fun hp => ?_) _
      subst hp
      exact ha
    · exact .halts
  | derefs => exact .halts
  | _ => exact .next _ (by simp [rank])

/-- The points at which a handler begins. -/
inductive Entry : HandlerPoint V → Prop
  | controller (call : ControllerCall) : Entry (.controller call)
  | disconnect : Entry .disconnectClose
  | inspect (i : Inspection) : Entry (.inspectAssert i)
  | resume (mode : ContinueExecutionMode) : Entry (.resumeAssertStopped mode)
  | none : Entry .done

theorem Entry.ite {c : Prop} [Decidable c] {p p' : HandlerPoint V} (h : Entry p) (h' : Entry p') :
    Entry (if c then p else p') := by
  by_cases hc : c
  · rwa [if_pos hc]
  · rwa [if_neg hc]

theorem dispatch_entry (command : String) : Entry (rt.dispatch command : HandlerPoint V) := by
  unfold Runtime.dispatch
  repeat' apply Entry.ite
  all_goals constructor

theorem receiveMessage_cases (result : Except String (Option (IncomingMessage V))) :
    (∃ exit, receiveMessage result = .finished exit) ∨ (∃ q, receiveMessage result = .request q) ∨
      receiveMessage result = .loopEnd := by
  rcases result with what | _ | m
  · exact .inl ⟨_, rfl⟩
  · exact .inl ⟨_, rfl⟩
  · cases ht : m.type with
    | error what => exact .inl ⟨.exception what, by simp [receiveMessage, ht]⟩
    | ok messageType =>
      by_cases htype : messageType = "request"
      · cases hq : m.request with
        | error what => exact .inl ⟨.exception what, by simp [receiveMessage, ht, htype, hq]⟩
        | ok q => exact .inr (.inl ⟨q, by simp [receiveMessage, ht, htype, hq]⟩)
      · exact .inr (.inr (by simp [receiveMessage, ht, htype]))

/-- No handler begins before the response is created. -/
theorem receiveMessage_ne_handle (result : Except String (Option (IncomingMessage V)))
    {q : Dap.RequestMessage V} {r : Dap.ResponseMessage V} {p : HandlerPoint V} :
    receiveMessage result ≠ .handle q r p := by
  rcases receiveMessage_cases result with ⟨exit, heq⟩ | ⟨q, heq⟩ | heq <;> simp [heq]

/-- The statements of `Run`. -/
inductive RunStep (rt : Runtime) (s : DebugSession V) : RunInput V → DebugSession V → Prop
  | start (h : s.run = .start) : RunStep rt s .step { s with run := .receive }
  | receive (h : s.run = .receive) (result : Except String (Option (IncomingMessage V))) :
      RunStep rt s (.message result) { s with run := receiveMessage result }
  | request {q : Dap.RequestMessage V} (h : s.run = .request q) :
      RunStep rt s .step
        { s.nextSeqId with run := .handle q (.create s.seqId q) (rt.dispatch q.command) }
  | handle {q : Dap.RequestMessage V} {r : Dap.ResponseMessage V} {p : HandlerPoint V}
      {i : RunInput V} {s' : DebugSession V} (h : s.run = .handle q r p)
      (hs : HandlerStep rt q r s p i s') : RunStep rt s i s'
  | sent {r : Dap.ResponseMessage V} (h : s.run = .respond r) :
      RunStep rt s (.sent (.ok ())) { s with sent := s.sent ++ [.response r], run := .loopEnd }
  | sendThrows {r : Dap.ResponseMessage V} (h : s.run = .respond r) (what : String) :
      RunStep rt s (.sent (.error what))
        { s with sent := s.sent ++ [.response r], run := .finished (.exception what) }
  | again (h : s.run = .loopEnd) (hc : s.isClosed = false) :
      RunStep rt s .step { s with run := .receive }
  | closed (h : s.run = .loopEnd) (hc : s.isClosed = true) :
      RunStep rt s .step { s with run := .finished .closed }

theorem runStep_iff {i : RunInput V} {s s' : DebugSession V} :
    s.runStep rt i = some s' ↔ RunStep rt s i s' := by
  constructor
  · intro h
    unfold runStep at h
    split at h
    · cases h; exact .start ‹_›
    · cases h; exact .receive ‹_› _
    · cases h; exact .request ‹_›
    · exact .handle ‹_› (handlerStep_iff.1 h)
    · rename_i r result hr
      cases result with
      | ok value => cases h; exact .sent hr
      | error what => cases h; exact .sendThrows hr what
    · rename_i hr
      by_cases hc : s.isClosed = true
      · rw [if_pos hc] at h
        cases h
        exact .closed hr hc
      · rw [if_neg hc] at h
        cases h
        exact .again hr (Bool.not_eq_true _ ▸ hc)
    · cases h
  · intro h
    cases h with
    | handle h hs =>
      simp only [runStep, h]
      exact handlerStep_iff.2 hs
    | _ => simp_all [runStep]

theorem RunStep.step {i : RunInput V} {s s' : DebugSession V} (h : RunStep rt s i s') :
    (system V rt).step (.run i) s = some s' :=
  runStep_iff.2 h

/-! ## The Lua thread -/

/-- The statements of the Lua thread. -/
inductive LuaStep (rt : Runtime) (s : DebugSession V) : LuaInput V → DebugSession V → Prop
  | stop (h : s.lua = .running) (ev : Dap.StoppedEventBody) :
      LuaStep rt s (.stop ev) { s with lua := .assertFree ev }
  | assertFree {ev : Dap.StoppedEventBody} (h : s.lua = .assertFree ev)
      (hs : s.stoppedState = none) : LuaStep rt s .step { s with lua := .emplace ev }
  | notFree {ev : Dap.StoppedEventBody} (h : s.lua = .assertFree ev)
      (hs : s.stoppedState ≠ none) : LuaStep rt s .step (s.stopAssertFailed rt)
  | emplace {ev : Dap.StoppedEventBody} (h : s.lua = .emplace ev) :
      LuaStep rt s .step
        { s with
          stoppedState := some { scheduler := s.schedulerCount }
          schedulers := Function.update s.schedulers s.schedulerCount {}
          schedulerCount := s.schedulerCount + 1
          lua := .event s.schedulerCount ev }
  | event {k : Nat} {ev : Dap.StoppedEventBody} (h : s.lua = .event k ev) :
      LuaStep rt s .step { s.nextSeqId with lua := .announce k ⟨s.seqId, "stopped", ev⟩ }
  | announce {k : Nat} {message : Dap.EventMessage} (h : s.lua = .announce k message) :
      LuaStep rt s .step { s with sent := s.sent ++ [.event message], lua := .execute k }
  | execute {k : Nat} (h : s.lua = .execute k) {e : Execution (Invocation V)}
      (hp : ∀ c i rest, (s.schedulers k).point ≠ .invoke c (i :: rest))
      (he : Execution.ExecuteStep (s.schedulers k) e) :
      LuaStep rt s .step { s with schedulers := Function.update s.schedulers k e }
  | answer {k : Nat} (h : s.lua = .execute k) {e : Execution (Invocation V)} {c : Bool}
      {i : Invocation V} {rest : List (Invocation V)}
      (hp : (s.schedulers k).point = .invoke c (i :: rest))
      (he : Execution.ExecuteStep (s.schedulers k) e) (result : Except String V) :
      LuaStep rt s (.answer result)
        { s with schedulers := Function.update s.schedulers k e, answer := some result }
  | returned {k : Nat} (h : s.lua = .execute k) (hp : (s.schedulers k).point = .returned) :
      LuaStep rt s .step { s with lua := .assertMode k }
  | assertMode {k : Nat} {mode : ContinueExecutionMode} (h : s.lua = .assertMode k)
      (hm : s.stoppedState.bind (·.continueMode) = some mode) :
      LuaStep rt s .step { s with lua := .leave k mode }
  | noMode {k : Nat} (h : s.lua = .assertMode k)
      (hm : s.stoppedState.bind (·.continueMode) = none) :
      LuaStep rt s .step (s.stopAssertFailed rt)
  | leave {k : Nat} {mode : ContinueExecutionMode} (h : s.lua = .leave k mode) :
      LuaStep rt s .step s.scopeLeave

theorem luaStep_iff {i : LuaInput V} {s s' : DebugSession V} :
    s.luaStep rt i = some s' ↔ LuaStep rt s i s' := by
  constructor
  · intro h
    unfold luaStep at h
    split at h
    · cases h; exact .stop ‹_› _
    · rename_i hl
      split at h <;> cases h
      · exact .assertFree hl (Option.isNone_iff_eq_none.1 ‹_›)
      · exact .notFree hl (mt Option.isNone_iff_eq_none.2 ‹_›)
    · cases h; exact .emplace ‹_›
    · cases h; exact .event ‹_›
    · cases h; exact .announce ‹_›
    · rename_i k i hl
      split at h
      · obtain ⟨e, he, rfl⟩ := Option.map_eq_some_iff.1 h
        exact .answer hl ‹_› (Execution.executeStep_iff.1 he) _
      · cases h
      · cases h; exact .returned hl ‹_›
      · obtain ⟨e, he, rfl⟩ := Option.map_eq_some_iff.1 h
        refine .execute hl ?_ (Execution.executeStep_iff.1 he)
        intro c i rest hp
        simp_all
      · cases h
    · split at h <;> cases h
      · exact .assertMode ‹_› ‹_›
      · exact .noMode ‹_› ‹_›
    · cases h; exact .leave ‹_›
    · cases h
  · intro h
    cases h with
    | answer h hp he result => simp [luaStep, h, hp, Execution.executeStep_iff.2 he]
    | @execute k h e hp he =>
      have hx := Execution.executeStep_iff.2 he
      cases hpt : (s.schedulers k).point with
      | invoke c rest =>
        cases rest with
        | nil => simp [luaStep, h, hpt, hx]
        | cons i rest => exact absurd hpt (hp c i rest)
      | returned => simp [Execution.executeStep, hpt] at hx
      | take => simp [luaStep, h, hpt, hx]
      | wait => simp [luaStep, h, hpt, hx]
    | assertMode h hm => simp only [luaStep, h, hm]
    | noMode h hm => simp only [luaStep, h, hm]
    | _ => simp_all [luaStep]

theorem LuaStep.step {i : LuaInput V} {s s' : DebugSession V} (h : LuaStep rt s i s') :
    (system V rt).step (.lua i) s = some s' :=
  luaStep_iff.2 h

/-! ## What the threads leave alone -/

section Frame

variable {s s' : DebugSession V}

@[simp] theorem assertFailed_lua (r : Dap.ResponseMessage V) :
    (s.assertFailed rt r).lua = s.lua := by
  unfold assertFailed
  cases rt.failedAssert <;> rfl

@[simp] theorem assertFailed_stoppedState (r : Dap.ResponseMessage V) :
    (s.assertFailed rt r).stoppedState = s.stoppedState := by
  unfold assertFailed
  cases rt.failedAssert <;> rfl

@[simp] theorem assertFailed_schedulers (r : Dap.ResponseMessage V) :
    (s.assertFailed rt r).schedulers = s.schedulers := by
  unfold assertFailed
  cases rt.failedAssert <;> rfl

@[simp] theorem assertFailed_schedulerCount (r : Dap.ResponseMessage V) :
    (s.assertFailed rt r).schedulerCount = s.schedulerCount := by
  unfold assertFailed
  cases rt.failedAssert <;> rfl

@[simp] theorem assertFailed_seqId (r : Dap.ResponseMessage V) :
    (s.assertFailed rt r).seqId = s.seqId := by
  unfold assertFailed
  cases rt.failedAssert <;> rfl

@[simp] theorem assertFailed_sent (r : Dap.ResponseMessage V) :
    (s.assertFailed rt r).sent = s.sent := by
  unfold assertFailed
  cases rt.failedAssert <;> rfl

/-- A handler ends with a failed assertion. -/
@[simp] theorem assertFailed_run_ne_handle (r₀ : Dap.ResponseMessage V) {q : Dap.RequestMessage V}
    {r : Dap.ResponseMessage V} {p : HandlerPoint V} :
    (s.assertFailed rt r₀).run ≠ .handle q r p := by
  unfold assertFailed
  cases rt.failedAssert <;> nofun

@[simp] theorem stopAssertFailed_run : (s.stopAssertFailed rt).run = s.run := by
  unfold stopAssertFailed
  split_ifs <;> rfl

@[simp] theorem stopAssertFailed_isClosed : (s.stopAssertFailed rt).isClosed = s.isClosed := by
  unfold stopAssertFailed
  split_ifs <;> rfl

@[simp] theorem stopAssertFailed_schedulers :
    (s.stopAssertFailed rt).schedulers = s.schedulers := by
  unfold stopAssertFailed
  split_ifs <;> rfl

@[simp] theorem stopAssertFailed_schedulerCount :
    (s.stopAssertFailed rt).schedulerCount = s.schedulerCount := by
  unfold stopAssertFailed
  split_ifs <;> rfl

@[simp] theorem stopAssertFailed_sent : (s.stopAssertFailed rt).sent = s.sent := by
  unfold stopAssertFailed
  split_ifs <;> rfl

/-- The stop is over, or the process has ended in it. -/
theorem stopAssertFailed_stoppedState :
    (s.stopAssertFailed rt).stoppedState = none ∨
      (s.stopAssertFailed rt).stoppedState = s.stoppedState := by
  unfold stopAssertFailed
  split_ifs
  · exact .inl rfl
  · exact .inr rfl

/-- What `Run` does to `_stoppedState` and the schedulers in one step: nothing, or a mode is set,
or the scheduler of the current stop is disposed or given an invocation. -/
theorem runStep_shared {i : RunInput V} (h : RunStep rt s i s') :
    s'.lua = s.lua ∧
      ((s'.stoppedState = s.stoppedState ∧ s'.schedulers = s.schedulers) ∨
        (∃ st mode, s.stoppedState = some st ∧
          s'.stoppedState = some { st with continueMode := some mode } ∧
          s'.schedulers = s.schedulers) ∨
        (∃ st f, s.stoppedState = some st ∧ s'.stoppedState = some st ∧
          s'.schedulers =
            Function.update s.schedulers st.scheduler (f (s.schedulers st.scheduler)) ∧
          (f = Execution.dispose ∨
            ∃ invocation, f = Execution.scheduleInvocation invocation))) := by
  cases h with
  | handle hr hs =>
    cases hs with
    | disconnectMode hst => exact ⟨rfl, .inr (.inl ⟨_, _, hst, rfl, rfl⟩)⟩
    | resumeMode mode hst => exact ⟨rfl, .inr (.inl ⟨_, _, hst, rfl, rfl⟩)⟩
    | disconnectDispose hst => exact ⟨rfl, .inr (.inr ⟨_, _, hst, hst, rfl, .inl rfl⟩)⟩
    | resumeDispose hst => exact ⟨rfl, .inr (.inr ⟨_, _, hst, hst, rfl, .inl rfl⟩)⟩
    | schedule invocation hst =>
      exact ⟨rfl, .inr (.inr ⟨_, _, hst, hst, rfl, .inr ⟨_, rfl⟩⟩)⟩
    | assertFails ha => simp
    | _ => exact ⟨rfl, .inl ⟨rfl, rfl⟩⟩
  | _ => exact ⟨rfl, .inl ⟨rfl, rfl⟩⟩

/-- Each scheduler takes part in a step of `Run` by one of its two calls, or not at all. -/
theorem scheduler_run {i : RunInput V} (h : RunStep rt s i s') (k : Nat) :
    s'.schedulers k = s.schedulers k ∨ s'.schedulers k = (s.schedulers k).dispose ∨
      ∃ invocation, s'.schedulers k = (s.schedulers k).scheduleInvocation invocation := by
  obtain ⟨-, ⟨-, hsch⟩ | ⟨-, -, -, -, hsch⟩ | ⟨st, f, -, -, hsch, hf⟩⟩ := runStep_shared h
  · exact .inl (by rw [hsch])
  · exact .inl (by rw [hsch])
  · rw [hsch]
    by_cases hk : k = st.scheduler
    · subst hk
      rw [Function.update_self]
      rcases hf with rfl | ⟨invocation, rfl⟩
      · exact .inr (.inl rfl)
      · exact .inr (.inr ⟨invocation, rfl⟩)
    · exact .inl (Function.update_of_ne hk _ _)

/-- Each scheduler takes part in a step of the Lua thread by a step of its `Execute`, unless it
is the one that is created. -/
theorem scheduler_lua {i : LuaInput V} (h : LuaStep rt s i s') (k : Nat) :
    s'.schedulers k = s.schedulers k ∨ s'.schedulers k = {} ∨
      (s.lua = .execute k ∧ Execution.ExecuteStep (s.schedulers k) (s'.schedulers k)) := by
  cases h with
  | notFree | noMode => exact .inl (by simp)
  | emplace hl =>
    by_cases hk : k = s.schedulerCount
    · exact .inr (.inl (by simp [hk]))
    · exact .inl (Function.update_of_ne hk _ _)
  | @execute j hl e hp he =>
    by_cases hk : k = j
    · subst hk
      exact .inr (.inr ⟨hl, by simpa using he⟩)
    · exact .inl (Function.update_of_ne hk _ _)
  | @answer j hl e c i rest hp he result =>
    by_cases hk : k = j
    · subst hk
      exact .inr (.inr ⟨hl, by simpa using he⟩)
    · exact .inl (Function.update_of_ne hk _ _)
  | _ => exact .inl rfl

/-- What the Lua thread does to `_stoppedState` in one step: nothing, then no scheduler is closed
or opened either, or it resets it, or fills it for a stop of its own. -/
theorem luaStep_shared {i : LuaInput V} (h : LuaStep rt s i s') :
    s'.stoppedState = none ∨
      (∃ k, s'.stoppedState = some ⟨k, none⟩ ∧ (s'.schedulers k).scheduler.isClosed = false) ∨
      (s'.stoppedState = s.stoppedState ∧
        ∀ k, (s'.schedulers k).scheduler.isClosed = (s.schedulers k).scheduler.isClosed) := by
  cases h with
  | notFree | noMode =>
    exact stopAssertFailed_stoppedState.imp_right fun hst => .inr ⟨hst, fun k => by simp⟩
  | leave => exact .inl rfl
  | emplace => exact .inr (.inl ⟨_, rfl, by simp⟩)
  | @execute j hl e hp he | @answer j hl e c i rest hp he result =>
    refine .inr (.inr ⟨rfl, fun k => ?_⟩)
    by_cases hk : k = j
    · subst hk
      simp [Execution.isClosed_execute he]
    · simp [Function.update_of_ne hk]
  | _ => exact .inr (.inr ⟨rfl, fun _ => rfl⟩)

theorem luaStep_run {i : LuaInput V} (h : LuaStep rt s i s') :
    s'.run = s.run ∧ s'.isClosed = s.isClosed := by
  cases h with
  | notFree | noMode => simp
  | _ => exact ⟨rfl, rfl⟩

/-- `Run` sends responses, one by one. -/
theorem sent_run {i : RunInput V} (h : RunStep rt s i s') :
    (s'.sent = s.sent ∧ ∀ r, s.run ≠ .respond r) ∨
      ∃ r, s.run = .respond r ∧ s'.sent = s.sent ++ [.response r] := by
  cases h with
  | sent hr | sendThrows hr => exact .inr ⟨_, hr, rfl⟩
  | handle hr hs =>
    refine .inl ⟨?_, by simp [hr]⟩
    cases hs with
    | assertFails => simp
    | _ => rfl
  | start hr | receive hr | request hr | again hr | closed hr => exact .inl ⟨rfl, by simp [hr]⟩

/-- The Lua thread sends events, one by one. -/
theorem sent_lua {i : LuaInput V} (h : LuaStep rt s i s') :
    (s'.sent = s.sent ∧ ∀ k m, s.lua ≠ .announce k m) ∨
      ∃ k m, s.lua = .announce k m ∧ s'.sent = s.sent ++ [.event m] := by
  cases h with
  | announce hl => exact .inr ⟨_, _, hl, rfl⟩
  | notFree hl | noMode hl => exact .inl ⟨by simp, by simp [hl]⟩
  | _ =>
    have hl := ‹s.lua = _›
    exact .inl ⟨rfl, by simp [hl]⟩

/-- **The schedulers of a session.** Each one goes through states that `Execution.system` can
reach. -/
theorem reachable_scheduler (h : (system V rt).Reachable s) (k : Nat) :
    (Execution.system (Invocation V)).Reachable (s.schedulers k) := by
  revert k
  refine h.invariant (I := fun s => ∀ k, (Execution.system _).Reachable (s.schedulers k)) ?_ ?_
  · intro s hs k
    rw [hs]
    exact .init rfl
  · intro s a s' hi hstep k
    cases a with
    | run i =>
      rcases scheduler_run (runStep_iff.1 hstep) k with hk | hk | ⟨invocation, hk⟩
      · rw [hk]
        exact hi k
      · exact (hi k).step (a := .dispose) (congrArg some hk.symm)
      · exact (hi k).step (a := .scheduleInvocation invocation) (congrArg some hk.symm)
    | lua i =>
      rcases scheduler_lua (luaStep_iff.1 hstep) k with hk | hk | ⟨-, hk⟩
      · rw [hk]
        exact hi k
      · rw [hk]
        exact .init rfl
      · exact (hi k).step (a := .execute) (Execution.executeStep_iff.2 hk)

end Frame

end LuaToolkit.DebugSession

namespace LuaToolkit

/-- The scheduler of the stop that the Lua thread is in, once it is there. -/
def LuaPoint.scheduler? {V : Type*} : LuaPoint V → Option Nat
  | .event k _ | .announce k _ | .execute k | .assertMode k | .leave k _ => some k
  | .running | .assertFree _ | .emplace _ | .halted => none

namespace DebugSession

open Transition

variable {V : Type*} {rt : Runtime} {s s' : DebugSession V}

/-! ## `_stoppedState` belongs to the stop in progress -/

/-- `_stoppedState` points to the scheduler of the stop in progress, and is empty otherwise. -/
def Coherent (s : DebugSession V) : Prop :=
  s.lua ≠ .halted → s.stoppedState.map StoppedExecutionState.scheduler = s.lua.scheduler?

theorem coherent_run {i : RunInput V} (hs : Coherent s) (h : RunStep rt s i s') :
    Coherent s' := by
  obtain ⟨hl, ⟨hst, -⟩ | ⟨st, mode, hst, hst', -⟩ | ⟨st, f, hst, hst', -⟩⟩ := runStep_shared h
  · unfold Coherent
    rw [hl, hst]
    exact hs
  · unfold Coherent at hs ⊢
    rw [hst] at hs
    rw [hl, hst']
    exact hs
  · unfold Coherent
    rw [hl, hst', ← hst]
    exact hs

theorem coherent_lua {i : LuaInput V} (hs : Coherent s) (h : LuaStep rt s i s') :
    Coherent s' := by
  have hleave : Coherent s.scopeLeave := fun _ => rfl
  have hfail : Coherent (s.stopAssertFailed rt) := by
    unfold stopAssertFailed
    by_cases hf : rt.failedAssert.isSome
    · rw [if_pos hf]
      exact hleave
    · rw [if_neg hf]
      exact fun hl => absurd rfl hl
  cases h with
  | emplace hl => exact fun _ => rfl
  | notFree hl hst => exact hfail
  | noMode hl hm => exact hfail
  | leave hl => exact hleave
  | _ =>
    -- The step moves between two points of the same stop.
    have hl := ‹s.lua = _›
    intro _
    simpa [hl, LuaPoint.scheduler?, nextSeqId] using hs (by simp [hl])

theorem coherent_of_reachable (h : (system V rt).Reachable s) : Coherent s := by
  refine h.invariant (fun s hs => ?_) fun s a s' hi hstep => ?_
  · rw [hs]
    exact fun _ => rfl
  · cases a with
    | run i => exact coherent_run hi (runStep_iff.1 hstep)
    | lua i => exact coherent_lua hi (luaStep_iff.1 hstep)

theorem Coherent.scheduler_eq (hs : Coherent s) {k : Nat} (hk : s.lua.scheduler? = some k) :
    ∃ mode, s.stoppedState = some ⟨k, mode⟩ := by
  have hl : s.lua ≠ .halted := by
    intro hl
    rw [hl] at hk
    exact absurd hk.symm (Option.some_ne_none k)
  obtain ⟨st, hst, rfl⟩ := Option.map_eq_some_iff.1 ((hs hl).trans hk)
  exact ⟨st.continueMode, hst⟩

theorem Coherent.stoppedState_eq_none (hs : Coherent s) (hl : s.lua ≠ .halted)
    (hk : s.lua.scheduler? = none) : s.stoppedState = none :=
  Option.map_eq_none_iff.1 ((hs hl).trans hk)

theorem Coherent.scheduler?_eq (hs : Coherent s) (hl : s.lua ≠ .halted)
    {st : StoppedExecutionState} (hst : s.stoppedState = some st) :
    s.lua.scheduler? = some st.scheduler := by
  rw [← hs hl, hst]
  rfl

/-! ## `_isClosed` -/

/-- A closed session has `Run` in the handler that closed it, or behind it. -/
def ClosedLate (s : DebugSession V) : Prop :=
  s.isClosed = true →
    match s.run with
    | .handle _ _ .disconnectTest | .handle _ _ .disconnectMode | .handle _ _ .disconnectDispose
    | .handle _ _ .disconnectController | .handle _ _ .done | .respond _ | .loopEnd
    | .finished _ | .halted => True
    | _ => False

theorem closedLate_run {i : RunInput V} (hs : ClosedLate s) (h : RunStep rt s i s') :
    ClosedLate s' := by
  cases h with
  | handle hr hs =>
    cases hs with
    | assertFails ha =>
      unfold assertFailed
      cases rt.failedAssert <;> exact fun _ => trivial
    | _ => simp_all [ClosedLate, catchException, onScheduler]
  | receive hr result => simp_all [ClosedLate]
  | _ => simp_all [ClosedLate, nextSeqId]

theorem closedLate_lua {i : LuaInput V} (hs : ClosedLate s) (h : LuaStep rt s i s') :
    ClosedLate s' := by
  obtain ⟨hr, hc⟩ := luaStep_run h
  unfold ClosedLate
  rw [hr, hc]
  exact hs

/-! ## The response under construction -/

/-- The response of a request that was handled to its end. -/
def Answers (r : Dap.ResponseMessage V) (q : Dap.RequestMessage V) : Prop :=
  r.request_seq = q.seq ∧ r.command = q.command ∧ r.success = true

/-- A response under construction is that of its request, and has no body before the end. -/
def Drafted (s : DebugSession V) : Prop :=
  ∀ q r p, s.run = .handle q r p → Answers r q ∧ (p ≠ .done → r.body = none)

theorem rank_pos (p : HandlerPoint V) : 0 < rank p := by
  cases p <;> exact Nat.succ_pos _

/-- A statement that another one follows is not the end. -/
theorem ne_done_of_rank_lt {p p' : HandlerPoint V} (h : rank p' < rank p) : p ≠ .done := by
  rintro rfl
  exact absurd (rank_pos p') (Nat.not_lt.2 (Nat.le_of_lt_succ h))

theorem drafted_of_reachable (h : (system V rt).Reachable s) : Drafted s := by
  refine h.invariant (fun s hs => ?_) fun s a s' hi hstep => ?_
  · rw [hs]
    exact nofun
  · cases a with
    | lua i =>
      unfold Drafted
      rw [(luaStep_run (luaStep_iff.1 hstep)).1]
      exact hi
    | run i =>
      intro q r p hr'
      cases runStep_iff.1 hstep with
      | handle hr hs =>
        have hd := hi _ _ _ hr
        have hgo := hs.goesOn
        rw [hr'] at hgo
        cases hgo with
        | next _ hlt => exact ⟨hd.1, fun _ => hd.2 (ne_done_of_rank_lt hlt)⟩
        | body value => exact ⟨hd.1, fun hp => absurd rfl hp⟩
      | request hr =>
        cases hr'
        exact ⟨⟨rfl, rfl, rfl⟩, fun _ => rfl⟩
      | receive hr result => exact absurd hr' (receiveMessage_ne_handle result)
      | _ => cases hr'

/-! ## The threads on their own -/

/-- A step of one of the two threads that takes no message from the client and enters no stop. -/
def Alone (_ : DebugSession V) (a : Action V) : Prop :=
  (∀ result, a ≠ .run (.message result)) ∧ ∀ ev, a ≠ .lua (.stop ev)

theorem alone_run {i : RunInput V} (hi : ∀ result, i ≠ .message result) :
    Alone s (.run i) := by
  refine ⟨fun result h => hi result ?_, nofun⟩
  exact Action.run.inj h

theorem alone_lua : Alone s (.lua .step) := ⟨nofun, nofun⟩

/-- A step of the Lua thread inside `StopExecution`. -/
def LuaAlone (_ : DebugSession V) (a : Action V) : Prop :=
  a = .lua .step ∨ ∃ result, a = .lua (.answer result)

theorem LuaAlone.alone {a : Action V} (h : LuaAlone s a) : Alone s a := by
  rcases h with rfl | ⟨result, rfl⟩ <;> exact ⟨nofun, nofun⟩

/-- A step of the Lua thread inside `StopExecution` that runs no invocation. -/
def LuaSilent (_ : DebugSession V) (a : Action V) : Prop := a = .lua .step

theorem LuaSilent.luaAlone {a : Action V} (h : LuaSilent s a) : LuaAlone s a := .inl h

/-- Command names without regard to case, and assertions that throw. -/
def plainRuntime : Runtime where
  icaseEqual a b := a.toList.map Char.toLower == b.toList.map Char.toLower
  failedAssert := some "Assertion failed"

/-- A request from the client. -/
def clientRequest (seq : UInt32) (command : String) : Action Unit :=
  .run (.message (.ok (some ⟨.ok "request", .ok ⟨seq, command, ()⟩⟩)))

end DebugSession

end LuaToolkit
