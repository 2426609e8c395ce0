import LuaToolkit.DebugSessionProof

/-!
# Stops and the end of the session

Only the handlers of `disconnect` and of the resume commands release a stop, and `Run` can end
without passing through one of them.

* `Blocked` — `Run` has finished and the Lua thread is in a stop that nobody has released.
* `GivesUp` — the steps of `Run` after which it goes on to its end and releases nothing.
* `ExitSafe` — no such step is taken during a stop, and no stop begins after one.
* `blocked_unreachable` — this is the exact condition: under it no run is blocked, and after a
  step that violates it the two threads, left alone, come to a blocked state.
-/

namespace LuaToolkit.DebugSession

open Transition

variable {V : Type*} {rt : Runtime} {s s' t : DebugSession V}

/-! ## The property and the condition -/

/-- The Lua thread is inside `StopExecution`, its scheduler was never disposed and no mode is
set. -/
def Unreleased (s : DebugSession V) (k : Nat) : Prop :=
  s.lua.scheduler? = some k ∧ (s.schedulers k).scheduler.isClosed = false ∧
    s.stoppedState.bind (·.continueMode) = none

def Blocked (s : DebugSession V) : Prop :=
  (∃ exit, s.run = .finished exit) ∧ ∃ k, s.Unreleased k

/-- The Lua thread has entered `StopExecution` and was not released. -/
def Stopping (s : DebugSession V) : Prop :=
  (∃ ev, s.lua = .assertFree ev ∨ s.lua = .emplace ev) ∨ ∃ k, s.Unreleased k

/-- `Run` is past the last statement that could release a stop, and ends from here. -/
def Closing (s : DebugSession V) : Prop :=
  match s.run with
  | .handle _ _ .disconnectController | .finished _ => True
  | .handle _ _ .done | .respond _ | .loopEnd => s.isClosed = true
  | _ => False

/-- The steps that make `Run` end without releasing a stop: it reads the end of the stream or
something that is no message, a handler throws, a response cannot be sent, or a disconnect
finds `_stoppedState` empty. -/
inductive GivesUp (rt : Runtime) (s : DebugSession V) : RunInput V → Prop
  | endOfStream (h : s.run = .receive) : GivesUp rt s (.message (.ok none))
  | unreadable (h : s.run = .receive) (what : String) : GivesUp rt s (.message (.error what))
  | untyped (h : s.run = .receive) (m : IncomingMessage V) {what : String}
      (hm : m.type = .error what) : GivesUp rt s (.message (.ok (some m)))
  | undecodable (h : s.run = .receive) (m : IncomingMessage V) (hm : m.type = .ok "request")
      {what : String} (hq : m.request = .error what) : GivesUp rt s (.message (.ok (some m)))
  | controller {q r call} (h : s.run = .handle q r (.controller call)) (what : String) :
      GivesUp rt s (.controller (.error what))
  | cast {q r i} (h : s.run = .handle q r (.inspectCast i)) (what : String) :
      GivesUp rt s (.cast (.error what))
  | answer {q r k} (h : s.run = .handle q r (.inspectAwait k)) {what : String}
      (ha : s.answer = some (.error what)) : GivesUp rt s .step
  | assert {q r p} (h : s.run = .handle q r p) (ha : s.AssertFails p)
      (hf : rt.failedAssert ≠ none) : GivesUp rt s .step
  | disconnect {q r} (h : s.run = .handle q r .disconnectTest) (hs : s.stoppedState = none) :
      GivesUp rt s .step
  | send {r} (h : s.run = .respond r) (what : String) : GivesUp rt s (.sent (.error what))

/-- `Run` does not give up during a stop, and no stop begins once it is closing. -/
def ExitSafe (rt : Runtime) (s : DebugSession V) : Action V → Prop
  | .run i => GivesUp rt s i → ¬ Stopping s
  | .lua (.stop _) => ¬ Closing s
  | .lua _ => True

/-! ## No step undoes a release -/

theorem Blocked.stopping (h : Blocked s) : Stopping s := .inr h.2

theorem Blocked.closing (h : Blocked s) : Closing s := by
  obtain ⟨⟨exit, hr⟩, -⟩ := h
  unfold Closing
  rw [hr]
  trivial

theorem unreleased_run {i : RunInput V} {k : Nat} (h : RunStep rt s i s')
    (hu : Unreleased s' k) : Unreleased s k := by
  obtain ⟨hk, hc, hm⟩ := hu
  obtain ⟨hl, ⟨hst, hsch⟩ | ⟨st, mode, hst, hst', -⟩ | ⟨st, f, hst, hst', hsch, hf⟩⟩ :=
    runStep_shared h
  · exact ⟨hl ▸ hk, by rwa [hsch] at hc, by rwa [hst] at hm⟩
  · rw [hst'] at hm
    exact absurd hm (Option.some_ne_none mode)
  · refine ⟨hl ▸ hk, ?_, by rwa [hst', ← hst] at hm⟩
    rw [hsch] at hc
    by_cases hk' : k = st.scheduler
    · subst hk'
      rw [Function.update_self] at hc
      rcases hf with rfl | ⟨invocation, rfl⟩
      · exact absurd hc (by simp [Execution.dispose, InplaceExecutionScheduler.dispose])
      · exact hc
    · rwa [Function.update_of_ne hk'] at hc

theorem stopping_run {i : RunInput V} (h : RunStep rt s i s') (hs : Stopping s') :
    Stopping s := by
  have hl := (runStep_shared h).1
  rcases hs with ⟨ev, hev⟩ | ⟨k, hu⟩
  · exact .inl ⟨ev, hl ▸ hev⟩
  · exact .inr ⟨k, unreleased_run h hu⟩

/-- A stop that the Lua thread is in after a step, unreleased, it was in before, or it has
just entered it. -/
theorem stopping_lua {i : LuaInput V} (h : LuaStep rt s i s') (hs : Stopping s') :
    Stopping s ∨ ∃ ev, i = .stop ev := by
  have hgone : ∀ t : DebugSession V, t.lua = .running ∨ t.lua = .halted → ¬ Stopping t := by
    rintro t (ht | ht) (⟨ev, hev | hev⟩ | ⟨k, hk, -⟩) <;> simp_all [LuaPoint.scheduler?]
  have hfail : ¬ Stopping (s.stopAssertFailed rt) := by
    unfold stopAssertFailed
    by_cases hf : rt.failedAssert.isSome
    · rw [if_pos hf]
      exact hgone _ (.inl rfl)
    · rw [if_neg hf]
      exact hgone _ (.inr rfl)
  have hsame : ∀ {k : Nat} {e : Execution (Invocation V)},
      s.lua = .execute k → Execution.ExecuteStep (s.schedulers k) e →
        Unreleased { s with schedulers := Function.update s.schedulers k e } k →
          Unreleased s k := by
    rintro k e hl he ⟨hk, hc, hm⟩
    refine ⟨hk, ?_, hm⟩
    rw [← Execution.isClosed_execute he]
    simpa using hc
  cases h with
  | stop hl ev => exact .inr ⟨ev, rfl⟩
  | assertFree hl hst => exact .inl (.inl ⟨_, .inl hl⟩)
  | notFree hl hst => exact absurd hs hfail
  | emplace hl => exact .inl (.inl ⟨_, .inr hl⟩)
  | noMode hl hm => exact absurd hs hfail
  | leave hl => exact absurd hs (hgone _ (.inl rfl))
  | execute hl hp he =>
    rcases hs with ⟨ev, hev⟩ | ⟨k, hu⟩
    · exact .inl (.inl ⟨ev, hev⟩)
    · obtain rfl : _ = k := Option.some.inj ((congrArg _ hl).symm.trans hu.1)
      exact .inl (.inr ⟨_, hsame hl he hu⟩)
  | answer hl hp he result =>
    rcases hs with ⟨ev, hev⟩ | ⟨k, hu⟩
    · exact .inl (.inl ⟨ev, hev⟩)
    · obtain rfl : _ = k := Option.some.inj ((congrArg _ hl).symm.trans hu.1)
      exact .inl (.inr ⟨_, hsame hl he hu⟩)
  | _ =>
    have hl := ‹s.lua = _›
    rcases hs with ⟨ev, hev⟩ | ⟨k, hk, hc, hm⟩
    · simp at hev
    · exact .inl (.inr ⟨k, by rw [hl]; exact hk, hc, hm⟩)

/-! ## `Run` on its way out -/

/-- `Run` starts closing when it gives up, or when it has disposed the scheduler of the current
stop. -/
theorem closing_run {i : RunInput V} (hlate : ClosedLate s) (h : RunStep rt s i s')
    (hc : Closing s') :
    Closing s ∨ GivesUp rt s i ∨ ∃ st, s'.stoppedState = some st ∧
      (s'.schedulers st.scheduler).scheduler.isClosed = true := by
  have hdispose : ∀ st : StoppedExecutionState,
      ((s.onScheduler st.scheduler Execution.dispose).schedulers
        st.scheduler).scheduler.isClosed = true := by
    intro st
    simp [onScheduler, Execution.dispose, InplaceExecutionScheduler.dispose]
  unfold ClosedLate at hlate
  cases h with
  | start hr => exact hc.elim
  | receive hr result =>
    rw [hr] at hlate
    rcases result with what | _ | m
    · exact .inr (.inl (.unreadable hr what))
    · exact .inr (.inl (.endOfStream hr))
    · cases ht : m.type with
      | error what => exact .inr (.inl (.untyped hr m ht))
      | ok messageType =>
        by_cases htype : messageType = "request"
        · subst htype
          cases hq : m.request with
          | error what => exact .inr (.inl (.undecodable hr m ht hq))
          | ok q => simp [receiveMessage, ht, hq, Closing] at hc
        · simp only [receiveMessage, ht, if_neg htype] at hc
          exact (hlate hc).elim
  | @request q hr =>
    rw [hr] at hlate
    have hentry : Entry (rt.dispatch q.command : HandlerPoint V) := dispatch_entry q.command
    unfold Closing at hc
    cases hp : (rt.dispatch q.command : HandlerPoint V) with
    | disconnectController => rw [hp] at hentry; cases hentry
    | done => rw [hp] at hc; exact (hlate hc).elim
    | _ => rw [hp] at hc; exact hc.elim
  | handle hr hs =>
    rw [hr] at hlate
    cases hs with
    | controllerThrows call what => exact .inr (.inl (.controller hr what))
    | castThrows i what => exact .inr (.inl (.cast hr what))
    | answerThrows k h => exact .inr (.inl (.answer hr h))
    | disconnectRunning h => exact .inr (.inl (.disconnect hr h))
    | disconnectDispose h => exact .inr (.inr ⟨_, h, hdispose _⟩)
    | resumeDispose h => exact .inr (.inr ⟨_, h, hdispose _⟩)
    | controller call value => exact (hlate hc).elim
    | answered k h => exact (hlate hc).elim
    | disconnect value => exact .inl (by unfold Closing; rw [hr]; trivial)
    | disconnectThrows what => exact .inl (by unfold Closing; rw [hr]; trivial)
    | done => exact .inl (by unfold Closing; rw [hr]; exact hc)
    | assertFails ha =>
      refine .inr (.inl (.assert hr ha ?_))
      intro hf
      simp [assertFailed, hf, Closing] at hc
    | _ => exact hc.elim
  | sent hr => exact .inl (by unfold Closing; rw [hr]; exact hc)
  | sendThrows hr what => exact .inr (.inl (.send hr what))
  | again hr hcl => exact hc.elim
  | closed hr hcl => exact .inl (by unfold Closing; rw [hr]; exact hcl)

/-! ## Safe runs -/

/-- The invariant of safe runs: while `Run` is closing, no stop is waiting to be released. -/
def Settled (s : DebugSession V) : Prop := Closing s → ¬ Stopping s

theorem settled_run {i : RunInput V} (hco : Coherent s) (hlate : ClosedLate s)
    (hs : Settled s) (hok : ExitSafe rt s (.run i)) (h : RunStep rt s i s') : Settled s' := by
  intro hc hstop
  have hstop₀ := stopping_run h hstop
  rcases closing_run hlate h hc with hc | hg | ⟨st, hst, hclosed⟩
  · exact hs hc hstop₀
  · exact hok hg hstop₀
  · have hco' := coherent_run hco h
    rcases hstop with ⟨ev, hev⟩ | ⟨k, hk, hopen, -⟩
    · -- Before `_stoppedState` is filled there is nothing to dispose.
      have hnone : s'.stoppedState = none := by
        rcases hev with hev | hev <;>
          exact hco'.stoppedState_eq_none (by simp [hev]) (by simp [hev, LuaPoint.scheduler?])
      rw [hst] at hnone
      exact absurd hnone (Option.some_ne_none st)
    · obtain ⟨mode, hk'⟩ := hco'.scheduler_eq hk
      obtain rfl : st = ⟨k, mode⟩ := Option.some.inj (hst.symm.trans hk')
      rw [hclosed] at hopen
      exact absurd hopen.symm Bool.false_ne_true

theorem settled_lua {i : LuaInput V} (hs : Settled s) (hok : ExitSafe rt s (.lua i))
    (h : LuaStep rt s i s') : Settled s' := by
  intro hc hstop
  obtain ⟨hr, hcl⟩ := luaStep_run h
  have hc₀ : Closing s := by
    unfold Closing at hc ⊢
    rwa [hr, hcl] at hc
  rcases stopping_lua h hstop with hstop₀ | ⟨ev, rfl⟩
  · exact hs hc₀ hstop₀
  · exact hok hc₀

theorem settled_of_reaches (h : (system V rt).Reaches (ExitSafe rt) s) : Settled s := by
  have hinv : Coherent s ∧ ClosedLate s ∧ Settled s := by
    refine h.invariant (I := fun s => Coherent s ∧ ClosedLate s ∧ Settled s) ?_ ?_
    · intro s hs
      rw [hs]
      exact ⟨fun _ => rfl, fun hc => absurd hc Bool.false_ne_true, fun hc => False.elim hc⟩
    · rintro s a s' ⟨hco, hlate, hset⟩ hok hstep
      cases a with
      | run i =>
        have hrun := runStep_iff.1 hstep
        exact ⟨coherent_run hco hrun, closedLate_run hlate hrun,
          settled_run hco hlate hset hok hrun⟩
      | lua i =>
        have hlua := luaStep_iff.1 hstep
        exact ⟨coherent_lua hco hlua, closedLate_lua hlate hlua, settled_lua hset hok hlua⟩
  exact hinv.2.2

/-! ## After an unsafe step -/

/-- The states differ at most in what belongs to `Run`. -/
def SameStop (s t : DebugSession V) : Prop :=
  t.lua = s.lua ∧ t.stoppedState = s.stoppedState ∧ t.schedulers = s.schedulers

theorem SameStop.stopping (h : SameStop s t) (hs : Stopping s) : Stopping t := by
  obtain ⟨hl, hst, hsch⟩ := h
  unfold Stopping Unreleased
  rw [hl, hst, hsch]
  exact hs

theorem SameStop.coherent (h : SameStop s t) (hs : Coherent s) : Coherent t := by
  obtain ⟨hl, hst, -⟩ := h
  unfold Coherent
  rw [hl, hst]
  exact hs

theorem SameStop.trans {u : DebugSession V} (h : SameStop s t) (h' : SameStop t u) :
    SameStop s u :=
  ⟨h'.1.trans h.1, h'.2.1.trans h.2.1, h'.2.2.trans h.2.2⟩

/-- `Run` alone reaches its end, and leaves the stop in progress as it is. -/
def Finishes (rt : Runtime) (s : DebugSession V) : Prop :=
  ∃ t, (system V rt).Run Alone s t ∧ (∃ exit, t.run = .finished exit) ∧ SameStop s t

theorem Finishes.head {i : RunInput V} (h : RunStep rt s i s')
    (hi : ∀ result, i ≠ .message result) (hsame : SameStop s s') (hf : Finishes rt s') :
    Finishes rt s := by
  obtain ⟨t, hrun, hexit, hst⟩ := hf
  exact ⟨t, .head (alone_run hi) h.step hrun, hexit, hsame.trans hst⟩

theorem finishes_of_loopEnd (h : s.run = .loopEnd) (hc : s.isClosed = true) : Finishes rt s :=
  .head (.closed h hc) nofun ⟨rfl, rfl, rfl⟩ ⟨_, .refl, ⟨_, rfl⟩, rfl, rfl, rfl⟩

theorem finishes_of_respond {r : Dap.ResponseMessage V} (h : s.run = .respond r)
    (hc : s.isClosed = true) : Finishes rt s :=
  .head (.sent h) nofun ⟨rfl, rfl, rfl⟩ (finishes_of_loopEnd rfl hc)

theorem finishes_of_closing (h : Closing s) : Finishes rt s := by
  unfold Closing at h
  split at h
  · exact .head (.handle ‹_› (.disconnectThrows "")) nofun ⟨rfl, rfl, rfl⟩
      (finishes_of_respond rfl rfl)
  · exact ⟨s, .refl, ⟨_, ‹_›⟩, rfl, rfl, rfl⟩
  · exact .head (.handle ‹_› .done) nofun ⟨rfl, rfl, rfl⟩ (finishes_of_respond rfl h)
  · exact finishes_of_respond ‹_› h
  · exact finishes_of_loopEnd ‹_› h
  · exact h.elim

/-- The Lua thread alone comes to wait for a release. -/
theorem blocked_of_finished {exit : RunExit} (hr : s.run = .finished exit) (hco : Coherent s)
    (hs : Stopping s) : ∃ t, (system V rt).Run Alone s t ∧ Blocked t := by
  have hemplace : ∀ (s : DebugSession V) (ev : Dap.StoppedEventBody), s.run = .finished exit →
      s.lua = .emplace ev → ∃ t, (system V rt).Run Alone s t ∧ Blocked t := by
    intro s ev hr hl
    refine ⟨_, .single alone_lua (LuaStep.emplace hl).step, ⟨_, hr⟩, s.schedulerCount, rfl,
      ?_, rfl⟩
    simp
  rcases hs with ⟨ev, hl | hl⟩ | hu
  · have hnone := hco.stoppedState_eq_none (by simp [hl]) (by simp [hl, LuaPoint.scheduler?])
    obtain ⟨t, hrun, hb⟩ := hemplace { s with lua := .emplace ev } ev hr rfl
    exact ⟨t, .head alone_lua (LuaStep.assertFree hl hnone).step hrun, hb⟩
  · exact hemplace s ev hr hl
  · exact ⟨s, .refl, ⟨_, hr⟩, hu⟩

theorem blocked_of_closing (hc : Closing s) (hco : Coherent s) (hs : Stopping s) :
    ∃ t, (system V rt).Run Alone s t ∧ Blocked t := by
  obtain ⟨t, hrun, ⟨exit, hexit⟩, hsame⟩ := finishes_of_closing hc
  obtain ⟨u, hrun', hb⟩ := blocked_of_finished hexit (hsame.coherent hco) (hsame.stopping hs)
  exact ⟨u, hrun.trans hrun', hb⟩

/-- Giving up, `Run` starts closing and leaves the stop in progress as it is. -/
theorem givesUp_run {i : RunInput V} (hg : GivesUp rt s i) (h : RunStep rt s i s') :
    Closing s' ∧ SameStop s s' := by
  have hs : some s' = s.runStep rt i := (runStep_iff.2 h).symm
  cases hg with
  | endOfStream hr | unreadable hr what =>
    simp only [runStep, hr, Option.some.injEq] at hs
    subst hs
    exact ⟨trivial, rfl, rfl, rfl⟩
  | untyped hr m hm =>
    simp only [runStep, hr, receiveMessage, hm, Option.some.injEq] at hs
    subst hs
    exact ⟨trivial, rfl, rfl, rfl⟩
  | undecodable hr m hm hq =>
    simp only [runStep, hr, receiveMessage, hm, hq, if_true, Option.some.injEq] at hs
    subst hs
    exact ⟨trivial, rfl, rfl, rfl⟩
  | controller hr what | cast hr what | send hr what =>
    simp only [runStep, handlerStep, hr, Option.some.injEq] at hs
    subst hs
    exact ⟨by first | exact rfl | trivial, rfl, rfl, rfl⟩
  | answer hr ha =>
    simp only [runStep, handlerStep, hr, ha, Option.some.injEq] at hs
    subst hs
    exact ⟨rfl, rfl, rfl, rfl⟩
  | disconnect hr hst =>
    simp only [runStep, handlerStep, hr, hst, Option.isSome_none, Bool.false_eq_true, if_false,
      Option.some.injEq] at hs
    subst hs
    exact ⟨trivial, rfl, hst.symm, rfl⟩
  | assert hr ha hf =>
    have hfail := (runStep_iff.2 (.handle hr (.assertFails ha))).symm.trans (runStep_iff.2 h)
    obtain ⟨what, hwhat⟩ := Option.ne_none_iff_exists'.1 hf
    simp only [assertFailed, hwhat, Option.some.injEq] at hfail
    subst hfail
    exact ⟨rfl, rfl, rfl, rfl⟩

/-- **Stops and the end of the session.** In runs whose steps are all safe, `Run` never ends and
leaves the Lua thread in a stop that nobody has released; after any unsafe step the two threads
alone can come to that. -/
theorem blocked_unreachable (V : Type*) (rt : Runtime) :
    (∀ s, (system V rt).Reaches (ExitSafe rt) s → ¬ Blocked s) ∧
      ∀ s a s', (system V rt).Reachable s → (system V rt).step a s = some s' → ¬ ExitSafe rt s a →
        ∃ t, (system V rt).Run Alone s' t ∧ Blocked t := by
  refine ⟨fun s h hb => settled_of_reaches h hb.closing hb.stopping, ?_⟩
  intro s a s' h hstep hbad
  have hco := coherent_of_reachable h
  cases a with
  | run i =>
    have hrun := runStep_iff.1 hstep
    obtain ⟨hg, hs⟩ := Classical.not_imp.1 hbad
    obtain ⟨hc, hsame⟩ := givesUp_run hg hrun
    exact blocked_of_closing hc (coherent_run hco hrun) (hsame.stopping (not_not.1 hs))
  | lua i =>
    have hlua := luaStep_iff.1 hstep
    cases i with
    | stop ev =>
      obtain ⟨hr, hcl⟩ := luaStep_run hlua
      have hc : Closing s' := by
        have := not_not.1 hbad
        unfold Closing at this ⊢
        rwa [hr, hcl]
      have hs : Stopping s' := by
        cases hlua with
        | stop hl ev => exact .inl ⟨ev, .inl rfl⟩
      exact blocked_of_closing hc (coherent_lua hco hlua) hs
    | step => exact absurd trivial hbad
    | answer result => exact absurd trivial hbad

/-- The Lua thread stops at a breakpoint, and then the client closes the connection. -/
def closedConnection : List (Action Unit) :=
  [.run .step, .lua (.stop { reason := "breakpoint" }), .lua .step, .lua .step, .lua .step,
    .lua .step, .run (.message (.ok none))]

/-- The Lua thread executes a scheduler on which nothing will be scheduled any more. -/
theorem blocked_reachable :
    ¬ ∀ s, (system Unit plainRuntime).Reachable s → ¬ Blocked s := by
  intro h
  exact h _ (System.Reachable.of_exec closedConnection rfl rfl) ⟨⟨_, rfl⟩, 0, rfl, rfl, rfl⟩

end LuaToolkit.DebugSession
