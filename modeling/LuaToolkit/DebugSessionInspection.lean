import LuaToolkit.DebugSessionProof

/-!
# Inspection requests during a stop

The handlers of `stackTrace`, `scopes` and `variables` queue an invocation on the scheduler of
the current stop and wait until the Lua thread has run it. They check that there is a stop, but
not that it has not been resumed.

* `Stranded` — `Run` waits for an invocation on a scheduler whose `Execute` has returned.
* `InspectSafe` — an inspection request passes its check in a stop without a mode only.
* `stranded_unreachable` — this is the exact condition: under it every invocation that `Run`
  waits for is run by the Lua thread in the same stop, and after a step that violates it the
  two threads can come to a state where `Run` waits for good.
-/

namespace LuaToolkit.DebugSession

open Transition

variable {V : Type*} {rt : Runtime} {s s' : DebugSession V}

/-! ## The property and the condition -/

/-- `Run` awaits an invocation that was queued on a scheduler whose `Execute` made its final
take without it. -/
def Stranded (s : DebugSession V) : Prop :=
  ∃ q r k, s.run = .handle q r (.inspectAwait k) ∧ s.answer = none ∧
    (s.schedulers k).point = .returned

/-- The check of an inspection request is made in a stop that has not been resumed. -/
def InspectSafe (s : DebugSession V) : Action V → Prop
  | .run .step => ∀ q r i st, s.run = .handle q r (.inspectAssert i) → s.stoppedState = some st →
      st.continueMode = none
  | _ => True

/-! ## The invariant -/

/-- The stop with scheduler `k` is in progress and cannot end before `Run` disposes of it. -/
def Holding (s : DebugSession V) (k : Nat) (mode : Option ContinueExecutionMode) : Prop :=
  s.lua.scheduler? = some k ∧ s.stoppedState = some ⟨k, mode⟩ ∧
    (s.schedulers k).scheduler.isClosed = false

/-- What `Run` relies on between two of its statements. -/
def Held (s : DebugSession V) : Prop :=
  match s.run with
  | .handle _ _ .disconnectTest | .handle _ _ .disconnectMode | .handle _ _ .disconnectDispose
  | .handle _ _ .disconnectController => s.isClosed = true
  | .handle _ _ (.inspectCast _) | .handle _ _ (.inspectSchedule _)
  | .handle _ _ (.resumeMode _) => ∃ k, Holding s k none
  | .handle _ _ (.inspectAwait k) => Holding s k none
  | .handle _ _ .resumeDispose => ∃ k mode, Holding s k (some mode)
  | _ => True

/-- Until the session is closed, the scheduler of a stop is disposed exactly when the mode is
set, except between the two statements of a resume command. -/
def Released (s : DebugSession V) : Prop :=
  s.isClosed = false → (∀ q r, s.run ≠ .handle q r .resumeDispose) →
    ∀ k mode, s.stoppedState = some ⟨k, mode⟩ →
      ((s.schedulers k).scheduler.isClosed = true ↔ mode ≠ none)

/-- Nothing is outstanding on the scheduler of the current stop. -/
def Idle (s : DebugSession V) : Prop :=
  s.answer = none ∧ ∀ k mode, s.stoppedState = some ⟨k, mode⟩ → (s.schedulers k).outstanding = []

/-- The one invocation that `Run` awaits is either outstanding or answered. -/
def Flight (s : DebugSession V) : Prop :=
  match s.run with
  | .handle _ _ (.inspectAwait k) =>
    (s.answer = none ∧ ∃ i, (s.schedulers k).outstanding = [i]) ∨
      (s.answer ≠ none ∧ (s.schedulers k).outstanding = [])
  | _ => Idle s

/-- Once `Execute` has been left it has returned. -/
def Returned (s : DebugSession V) : Prop :=
  ∀ k, (s.lua = .assertMode k ∨ ∃ mode, s.lua = .leave k mode) →
    (s.schedulers k).point = .returned

/-- The invariant of runs in which the inspection requests are safe. -/
structure Tended (s : DebugSession V) : Prop where
  coherent : Coherent s
  late : ClosedLate s
  returned : Returned s
  halted : s.lua = .halted → s.isClosed = true
  schedulers : ∀ k, (Execution.system (Invocation V)).Reaches Execution.TakeSafe (s.schedulers k)
  held : Held s
  released : Released s
  flight : Flight s

namespace Tended

theorem isClosed_of_returned (h : Tended s) {k : Nat} (hp : (s.schedulers k).point = .returned) :
    (s.schedulers k).scheduler.isClosed = true :=
  Execution.isClosed_of_returned (h.schedulers k).reachable hp

theorem isClosed_of_left (h : Tended s) {k : Nat}
    (hl : s.lua = .assertMode k ∨ ∃ mode, s.lua = .leave k mode) :
    (s.schedulers k).scheduler.isClosed = true :=
  h.isClosed_of_returned (h.returned k hl)

/-- A stop without a mode is held while the session is open. -/
theorem holding (h : Tended s) (hc : s.isClosed = false)
    (hd : ∀ q r, s.run ≠ .handle q r .resumeDispose) {st : StoppedExecutionState}
    (hst : s.stoppedState = some st) (hm : st.continueMode = none) :
    Holding s st.scheduler none := by
  obtain ⟨k, mode⟩ := st
  obtain rfl : mode = none := hm
  have hl : s.lua ≠ .halted := by
    intro hl
    rw [h.halted hl] at hc
    exact absurd hc.symm Bool.false_ne_true
  have hopen := mt (h.released hc hd k none hst).1 (not_not.2 rfl)
  exact ⟨h.coherent.scheduler?_eq hl hst, hst, Bool.not_eq_true _ ▸ hopen⟩

end Tended

/-! ## Steps of the Lua thread -/

/-- The Lua thread does not end a stop that `Run` holds. -/
theorem holding_lua {i : LuaInput V} {k : Nat} {mode : Option ContinueExecutionMode}
    (hleft : (s.lua = .assertMode k ∨ ∃ mode, s.lua = .leave k mode) →
      (s.schedulers k).scheduler.isClosed = true)
    (h : LuaStep rt s i s') (hh : Holding s k mode) : Holding s' k mode := by
  obtain ⟨hk, hst, hopen⟩ := hh
  have hstay : ¬ (s.lua = .assertMode k ∨ ∃ mode, s.lua = .leave k mode) := by
    intro hl
    rw [hleft hl] at hopen
    exact absurd hopen.symm Bool.false_ne_true
  have hexec : ∀ {j : Nat} {e : Execution (Invocation V)}, s.lua = .execute j →
      Execution.ExecuteStep (s.schedulers j) e →
        ((Function.update s.schedulers j e) k).scheduler.isClosed = false := by
    intro j e hl he
    obtain rfl : j = k := Option.some.inj ((congrArg LuaPoint.scheduler? hl).symm.trans hk)
    rw [Function.update_self, Execution.isClosed_execute he, hopen]
  cases h with
  | stop hl | assertFree hl | notFree hl | emplace hl =>
    rw [hl] at hk
    cases hk
  | event hl | announce hl | returned hl =>
    exact ⟨by rw [hl] at hk; exact hk, hst, hopen⟩
  | execute hl hp he => exact ⟨hk, hst, hexec hl he⟩
  | answer hl hp he result => exact ⟨hk, hst, hexec hl he⟩
  | assertMode hl hm => exact ⟨by rw [hl] at hk; exact hk, hst, hopen⟩
  | noMode hl hm =>
    rw [hl] at hk
    cases hk
    exact absurd (.inl hl) hstay
  | leave hl =>
    rw [hl] at hk
    cases hk
    exact absurd (.inr ⟨_, hl⟩) hstay

theorem held_lua {i : LuaInput V} (hs : Tended s) (h : LuaStep rt s i s') : Held s' := by
  have hh := hs.held
  obtain ⟨hr, hc⟩ := luaStep_run h
  unfold Held at hh ⊢
  rw [hr]
  split at hh <;> simp_all only
  · obtain ⟨k, hk⟩ := hh
    exact ⟨k, holding_lua hs.isClosed_of_left h hk⟩
  · obtain ⟨k, hk⟩ := hh
    exact ⟨k, holding_lua hs.isClosed_of_left h hk⟩
  · obtain ⟨k, hk⟩ := hh
    exact ⟨k, holding_lua hs.isClosed_of_left h hk⟩
  · exact holding_lua hs.isClosed_of_left h hh
  · obtain ⟨k, mode, hk⟩ := hh
    exact ⟨k, mode, holding_lua hs.isClosed_of_left h hk⟩

theorem returned_lua {i : LuaInput V} (hs : Returned s) (h : LuaStep rt s i s') :
    Returned s' := by
  have hfail : Returned (s.stopAssertFailed rt) := by
    unfold stopAssertFailed
    split_ifs <;> rintro k (hl | ⟨mode, hl⟩) <;> cases hl
  cases h with
  | notFree => exact hfail
  | noMode => exact hfail
  | @returned k hl hp =>
    rintro j (hj | ⟨mode, hj⟩) <;> cases hj
    exact hp
  | @assertMode k mode hl hm =>
    rintro j (hj | ⟨mode, hj⟩) <;> cases hj
    exact hs k (.inl hl)
  | execute hl | answer hl =>
    rintro j (hj | ⟨mode, hj⟩) <;> simp [hl] at hj
  | _ => rintro k (hk | ⟨mode, hk⟩) <;> cases hk

/-- A failed assertion of `StopExecution` is that of a closed session. -/
theorem halted_lua {i : LuaInput V} (hs : Tended s) (h : LuaStep rt s i s')
    (hl' : s'.lua = .halted) : s'.isClosed = true := by
  rw [(luaStep_run h).2]
  cases h with
  | notFree hl hst =>
    have hnone :=
      hs.coherent.stoppedState_eq_none (by simp [hl]) (by simp [hl, LuaPoint.scheduler?])
    exact absurd hnone hst
  | @noMode k hl hm =>
    have hclosed := hs.isClosed_of_left (.inl hl)
    obtain ⟨mode, hst⟩ := hs.coherent.scheduler_eq (k := k) (by simp [hl, LuaPoint.scheduler?])
    obtain rfl : mode = none := by simpa [hst] using hm
    by_contra hc
    have hopen : s.isClosed = false := Bool.not_eq_true _ ▸ hc
    by_cases hd : ∃ q r, s.run = .handle q r .resumeDispose
    · obtain ⟨q, r, hr⟩ := hd
      have hh := hs.held
      unfold Held at hh
      rw [hr] at hh
      obtain ⟨j, mode, -, hst', -⟩ := hh
      rw [hst] at hst'
      cases hst'
    · exact (hs.released hopen (fun q r hr => hd ⟨q, r, hr⟩) k none hst).1 hclosed rfl
  | execute hl | answer hl => exact hs.halted hl'
  | _ => cases hl'

theorem released_lua {i : LuaInput V} (hs : Tended s) (h : LuaStep rt s i s') : Released s' := by
  obtain ⟨hr, hc⟩ := luaStep_run h
  intro hopen hd k mode hst
  rcases luaStep_shared h with hnone | ⟨j, hnew, hopen'⟩ | ⟨hsame, hclosed⟩
  · rw [hnone] at hst
    cases hst
  · rw [hnew] at hst
    cases hst
    simp [hopen']
  · rw [hr] at hd
    rw [hc] at hopen
    rw [hclosed]
    exact hs.released hopen hd k mode (hsame ▸ hst)

theorem idle_lua {i : LuaInput V} (hco : Coherent s) (hs : Idle s) (h : LuaStep rt s i s') :
    Idle s' := by
  obtain ⟨ha, hout⟩ := hs
  have hfail : Idle (s.stopAssertFailed rt) := by
    unfold stopAssertFailed
    split_ifs
    · exact ⟨ha, nofun⟩
    · exact ⟨ha, hout⟩
  cases h with
  | notFree => exact hfail
  | noMode => exact hfail
  | leave => exact ⟨ha, nofun⟩
  | emplace hl =>
    refine ⟨ha, fun k mode hst => ?_⟩
    cases hst
    simp only [Function.update_self]
    rfl
  | @execute j hl e hp he =>
    refine ⟨ha, fun k mode hst => ?_⟩
    have hk := hout k mode hst
    by_cases hj : k = j
    · subst hj
      rcases Execution.outstanding_execute he with ⟨c, i, rest, hi, -⟩ | ⟨-, heq⟩
      · exact absurd hi (hp c i rest)
      · simp only [Function.update_self, heq, hk]
    · simpa only [Function.update_of_ne hj] using hk
  | @answer j hl e c i rest hp he result =>
    -- There is nothing to run.
    obtain ⟨mode, hst⟩ := hco.scheduler_eq (k := j) (by simp [hl, LuaPoint.scheduler?])
    have hnil := hout j mode hst
    rw [Execution.outstanding, hp] at hnil
    cases hnil
  | _ => exact ⟨ha, hout⟩

theorem flight_lua {i : LuaInput V} (hs : Tended s) (h : LuaStep rt s i s') : Flight s' := by
  have hf := hs.flight
  have hh := hs.held
  unfold Flight Held at *
  rw [(luaStep_run h).1]
  split at hf
  · rename_i q r k hr
    simp only [hr] at hh ⊢
    obtain ⟨hk, -, -⟩ := hh
    have hat : ∀ {j : Nat}, s.lua = .execute j → k = j := fun hl =>
      Option.some.inj (hk.symm.trans (congrArg LuaPoint.scheduler? hl))
    cases h with
    | notFree | noMode =>
      unfold stopAssertFailed
      split_ifs <;> exact hf
    | emplace hl =>
      rw [hl] at hk
      cases hk
    | execute hl hp he =>
      obtain rfl := hat hl
      rcases Execution.outstanding_execute he with ⟨c, i, rest, hi, -⟩ | ⟨-, heq⟩
      · exact absurd hi (hp c i rest)
      · simpa [heq] using hf
    | @answer j hl e c i rest hp he result =>
      obtain rfl := hat hl
      rcases Execution.outstanding_execute he with ⟨c, i, rest, -, heq⟩ | ⟨hne, -⟩
      · rcases hf with ⟨-, i', hi'⟩ | ⟨-, hnil⟩
        · rw [heq] at hi'
          simp [(List.cons.inj hi').2]
        · rw [heq] at hnil
          cases hnil
      · exact absurd hp (hne c i rest)
    | _ => exact hf
  · exact idle_lua hs.coherent hf h

/-- `Execute` takes invocations from open schedulers only. -/
theorem takeSafe_lua (hs : Tended s) {k : Nat} (hl : s.lua = .execute k) :
    Execution.TakeSafe (s.schedulers k) .execute := by
  intro _ _ hclosed hne
  have hk : s.lua.scheduler? = some k := by simp [hl, LuaPoint.scheduler?]
  obtain ⟨mode, hst⟩ := hs.coherent.scheduler_eq hk
  have hout : (s.schedulers k).outstanding ≠ [] := by simp [Execution.outstanding, hne]
  have hf := hs.flight
  have hh := hs.held
  unfold Flight Held at *
  split at hf
  · rename_i q r j hr
    simp only [hr] at hh
    obtain ⟨hj, -, hopen⟩ := hh
    obtain rfl : k = j := Option.some.inj (hk.symm.trans hj)
    rw [hclosed] at hopen
    cases hopen
  · exact absurd (hf.2 k mode hst) hout

theorem tended_lua {i : LuaInput V} (hs : Tended s) (h : LuaStep rt s i s') : Tended s' where
  coherent := coherent_lua hs.coherent h
  late := closedLate_lua hs.late h
  returned := returned_lua hs.returned h
  halted := halted_lua hs h
  schedulers k := by
    rcases scheduler_lua h k with hk | hk | ⟨hl, hx⟩
    · rw [hk]
      exact hs.schedulers k
    · rw [hk]
      exact .init rfl
    · exact (hs.schedulers k).step (takeSafe_lua hs hl) (Execution.executeStep_iff.2 hx)
  held := held_lua hs h
  released := released_lua hs h
  flight := flight_lua hs h

/-! ## Steps of `Run` -/

theorem isClosed_run {i : RunInput V} (h : RunStep rt s i s') (hc : s.isClosed = true) :
    s'.isClosed = true := by
  cases h with
  | handle hr hs =>
    cases hs with
    | assertFails =>
      unfold assertFailed
      cases rt.failedAssert
      · exact hc
      · rfl
    | disconnectClose | controllerThrows | disconnectThrows | castThrows | answerThrows => rfl
    | _ => exact hc
  | _ => exact hc

theorem returned_run {i : RunInput V} (hs : Returned s) (h : RunStep rt s i s') :
    Returned s' := by
  intro k hk
  rw [(runStep_shared h).1] at hk
  have hp := hs k hk
  rcases scheduler_run h k with heq | heq | ⟨invocation, heq⟩ <;> rw [heq] <;> exact hp

/-- At its other points a handler is in an open session. -/
theorem Tended.isOpen (hs : Tended s) {q : Dap.RequestMessage V} {r : Dap.ResponseMessage V}
    {p : HandlerPoint V} (hr : s.run = .handle q r p)
    (hp : match p with
      | .disconnectTest | .disconnectMode | .disconnectDispose | .disconnectController
      | .done => False
      | _ => True) : s.isClosed = false := by
  by_contra hc
  have hlate := hs.late (by simpa using hc)
  rw [hr] at hlate
  cases p <;> first | exact hlate | exact hp

theorem held_run {i : RunInput V} (hs : Tended s) (hok : InspectSafe s (.run i))
    (h : RunStep rt s i s') : Held s' := by
  have hh := hs.held
  unfold Held at hh
  cases h with
  | handle hr hstep =>
    rw [hr] at hh
    cases hstep with
    | disconnectClose => rfl
    | disconnectStopped | disconnectRunning | disconnectMode | disconnectDispose => exact hh
    | inspectAssert i hst =>
      exact ⟨_, hs.holding (hs.isOpen hr trivial) (by simp [hr]) hst (hok _ _ i _ hr hst)⟩
    | cast i arguments => exact hh
    | schedule invocation hst =>
      obtain ⟨k, hk, hst', hopen⟩ := hh
      obtain rfl := Option.some.inj (hst.symm.trans hst')
      refine ⟨hk, hst, ?_⟩
      simp only [onScheduler, Function.update_self]
      exact hopen
    | resumeAssertMode mode hst hm =>
      exact ⟨_, hs.holding (hs.isOpen hr trivial) (by simp [hr]) hst hm⟩
    | resumeMode mode hst =>
      obtain ⟨k, hk, hst', hopen⟩ := hh
      obtain rfl := Option.some.inj (hst.symm.trans hst')
      exact ⟨k, mode, hk, rfl, hopen⟩
    | assertFails =>
      unfold assertFailed
      cases rt.failedAssert <;> exact trivial
    | _ => exact trivial
  | @request q hr =>
    have hentry : Entry (rt.dispatch q.command : HandlerPoint V) := dispatch_entry q.command
    generalize (rt.dispatch q.command : HandlerPoint V) = p at hentry
    cases hentry <;> exact trivial
  | receive hr result =>
    unfold Held
    rcases receiveMessage_cases result with ⟨exit, heq⟩ | ⟨q, heq⟩ | heq <;>
      simp only [heq]
  | _ => exact trivial

theorem released_run {i : RunInput V} (hs : Tended s) (h : RunStep rt s i s') :
    Released s' := by
  have hrel := hs.released
  have hh := hs.held
  unfold Held at hh
  intro hopen hd k mode hst
  have hopen₀ : s.isClosed = false := by
    by_contra hc
    rw [isClosed_run h (by simpa using hc)] at hopen
    cases hopen
  cases h with
  | handle hr hstep =>
    rw [hr] at hh
    have hsame : (∀ q r, s.run ≠ .handle q r .resumeDispose) → s.stoppedState = some ⟨k, mode⟩ →
        ((s.schedulers k).scheduler.isClosed = true ↔ mode ≠ none) :=
      fun hd => hrel hopen₀ hd k mode
    cases hstep with
    | disconnectStopped | disconnectRunning | disconnectMode | disconnectDispose =>
      rw [hh] at hopen₀
      cases hopen₀
    | schedule invocation hst' =>
      obtain rfl := Option.some.inj (hst'.symm.trans hst)
      simpa [onScheduler, Execution.scheduleInvocation,
        InplaceExecutionScheduler.scheduleInvocation] using hsame (by simp [hr]) hst
    | resumeMode mode' hst' => exact absurd rfl (hd _ _)
    | resumeDispose hst' =>
      obtain ⟨j, mode', -, hst'', -⟩ := hh
      obtain rfl := Option.some.inj (hst'.symm.trans hst)
      cases hst.symm.trans hst''
      simp [onScheduler, Execution.dispose, InplaceExecutionScheduler.dispose]
    | assertFails =>
      rw [assertFailed_stoppedState] at hst
      rw [assertFailed_schedulers]
      refine hsame (fun q r hr' => ?_) hst
      rw [hr] at hr'
      cases hr'
      rename_i ha
      exact ha
    | derefs hp hst' =>
      rw [hst'] at hst
      cases hst
    | _ => exact hsame (by simp [hr]) hst
  | start hr | receive hr | request hr | sent hr | sendThrows hr | again hr | closed hr =>
    exact hrel hopen₀ (by simp [hr]) k mode hst

theorem flight_run {i : RunInput V} (hs : Tended s) (h : RunStep rt s i s') : Flight s' := by
  have hf := hs.flight
  have hh := hs.held
  unfold Flight at hf
  unfold Held at hh
  cases h with
  | @handle q r p _ _ hr hstep =>
    rw [hr] at hf hh
    cases hstep with
    | disconnectMode hst | resumeMode mode hst =>
      refine ⟨hf.1, fun k mode hst' => ?_⟩
      cases hst'
      exact hf.2 _ _ hst
    | @disconnectDispose st hst | @resumeDispose st hst =>
      refine ⟨hf.1, fun k mode hst' => ?_⟩
      obtain rfl := Option.some.inj (hst.symm.trans hst')
      simpa [onScheduler] using hf.2 k mode hst
    | @schedule invocation st hst =>
      refine .inl ⟨hf.1, invocation, ?_⟩
      simpa [onScheduler] using hf.2 _ _ hst
    | answered k ha | answerThrows k ha =>
      obtain ⟨-, hst, -⟩ := hh
      rcases hf with ⟨hn, -⟩ | ⟨-, hnil⟩
      · rw [ha] at hn
        cases hn
      · refine ⟨rfl, fun j mode hst' => ?_⟩
        cases hst.symm.trans hst'
        exact hnil
    | assertFails ha =>
      have hidle : Idle s := by
        cases p with
        | inspectAwait => exact ha.elim
        | _ => exact hf
      unfold assertFailed
      cases rt.failedAssert <;> exact hidle
    | derefs hp hst =>
      cases p with
      | inspectAwait => exact hp.elim
      | _ => exact hf
    | _ => exact hf
  | @request q hr =>
    rw [hr] at hf
    have hentry : Entry (rt.dispatch q.command : HandlerPoint V) := dispatch_entry q.command
    generalize (rt.dispatch q.command : HandlerPoint V) = p at hentry
    cases hentry <;> exact hf
  | receive hr result =>
    rw [hr] at hf
    unfold Flight
    rcases receiveMessage_cases result with ⟨exit, heq⟩ | ⟨q, heq⟩ | heq <;>
      simp only [heq] <;> exact hf
  | start hr | sent hr | sendThrows hr | again hr | closed hr =>
    rw [hr] at hf
    exact hf

theorem tended_run {i : RunInput V} (hs : Tended s) (hok : InspectSafe s (.run i))
    (h : RunStep rt s i s') : Tended s' where
  coherent := coherent_run hs.coherent h
  late := closedLate_run hs.late h
  returned := returned_run hs.returned h
  halted hl := isClosed_run h (hs.halted ((runStep_shared h).1 ▸ hl))
  schedulers k := by
    rcases scheduler_run h k with hk | hk | ⟨invocation, hk⟩
    · rw [hk]
      exact hs.schedulers k
    · exact (hs.schedulers k).step (a := .dispose) nofun (congrArg some hk.symm)
    · exact (hs.schedulers k).step (a := .scheduleInvocation invocation) nofun
        (congrArg some hk.symm)
  held := held_run hs hok h
  released := released_run hs h
  flight := flight_run hs h

theorem tended_of_reaches (h : (system V rt).Reaches InspectSafe s) : Tended s := by
  refine h.invariant (I := Tended) (fun s hs => ?_) fun s a s' hi hok hstep => ?_
  · rw [hs]
    exact {
      coherent := fun _ => rfl
      late := fun hc => absurd hc Bool.false_ne_true
      returned := by rintro k (hl | ⟨mode, hl⟩) <;> cases hl
      halted := nofun
      schedulers := fun k => .init rfl
      held := trivial
      released := nofun
      flight := ⟨rfl, nofun⟩ }
  · cases a with
    | run i => exact tended_run hi hok (runStep_iff.1 hstep)
    | lua i => exact tended_lua hi (luaStep_iff.1 hstep)

/-! ## Invocations of the current stop -/

theorem mem_outstanding_onScheduler {f : Execution (Invocation V) → Execution (Invocation V)}
    {x : Invocation V} {j k : Nat} {b : Prop}
    (hf : ∀ e, x ∈ (f e).outstanding → x ∈ e.outstanding ∨ b)
    (hx : x ∈ ((s.onScheduler j f).schedulers k).outstanding) :
    x ∈ (s.schedulers k).outstanding ∨ b := by
  by_cases hk : k = j
  · subst hk
    exact hf _ (by simpa [onScheduler] using hx)
  · exact .inl (by simpa [onScheduler, Function.update_of_ne hk] using hx)

/-- `Run` adds the invocation of the request that it handles, and no other. -/
theorem mem_outstanding_run {i : RunInput V} (h : RunStep rt s i s') {x : Invocation V}
    {k : Nat} (hx : x ∈ (s'.schedulers k).outstanding) :
    x ∈ (s.schedulers k).outstanding ∨ ∃ q r, s.run = .handle q r (.inspectSchedule x) := by
  cases h with
  | handle hr hs =>
    cases hs with
    | @schedule invocation st hst =>
      refine mem_outstanding_onScheduler (fun e hx => ?_) hx
      rw [Execution.outstanding_scheduleInvocation, List.mem_append, List.mem_singleton] at hx
      exact hx.imp_right fun hx => ⟨_, _, hx ▸ hr⟩
    | disconnectDispose | resumeDispose =>
      have hdispose : ∀ e : Execution (Invocation V), x ∈ e.dispose.outstanding →
          x ∈ e.outstanding ∨ ∃ q r, s.run = .handle q r (.inspectSchedule x) := fun _ => .inl
      exact mem_outstanding_onScheduler hdispose hx
    | assertFails => exact .inl (by simpa using hx)
    | _ => exact .inl hx
  | _ => exact .inl hx

/-- The scheduler of the stop that the Lua thread is in has nothing new. -/
theorem outstanding_lua {i : LuaInput V} (h : LuaStep rt s i s') {k : Nat}
    (hk : s'.lua.scheduler? = some k) : (s'.schedulers k).outstanding = [] ∨
      s.lua.scheduler? = some k ∧ (s'.schedulers k).outstanding ⊆ (s.schedulers k).outstanding := by
  have hexec : ∀ {e : Execution (Invocation V)}, Execution.ExecuteStep (s.schedulers k) e →
      e.outstanding ⊆ (s.schedulers k).outstanding := by
    intro e he
    rcases Execution.outstanding_execute he with ⟨c, i, rest, -, heq⟩ | ⟨-, heq⟩
    · rw [heq]
      exact List.subset_cons_self i e.outstanding
    · rw [heq]
      exact List.Subset.refl _
  have hfail : (s.stopAssertFailed rt).lua.scheduler? = none := by
    unfold stopAssertFailed
    split_ifs <;> rfl
  cases h with
  | notFree | noMode => simp [hfail] at hk
  | stop | assertFree | leave => cases hk
  | emplace =>
    cases hk
    exact .inl (by simp [Execution.outstanding, Execution.ExecutePoint.batch])
  | @execute j hl e hp he | @answer j hl e c i rest hp he result =>
    have hj : s.lua.scheduler? = some k := hk
    obtain rfl : j = k := by simpa [hl, LuaPoint.scheduler?] using hk
    exact .inr ⟨hj, by simpa using hexec he⟩
  | event hl | announce hl | returned hl | assertMode hl =>
    exact .inr ⟨by rw [hl]; exact hk, List.Subset.refl _⟩

/-! ## The Lua thread left alone in a stop -/

/-- Going on inside a stop, the Lua thread leaves alone what `Run` reads. -/
structure Keeps (s t : DebugSession V) : Prop where
  run : t.run = s.run
  stoppedState : t.stoppedState = s.stoppedState
  answer : t.answer = s.answer

theorem Keeps.trans {t u : DebugSession V} (h : Keeps s t) (h' : Keeps t u) : Keeps s u :=
  ⟨h'.run.trans h.run, h'.stoppedState.trans h.stoppedState, h'.answer.trans h.answer⟩

variable (rt) in
/-- Steps of `Execute` that run no invocation are steps of the Lua thread. -/
theorem run_silent {k : Nat} {e : Execution (Invocation V)} (hl : s.lua = .execute k)
    (h : (Execution.system _).Run Execution.Silent (s.schedulers k) e) :
    ∃ t, (system V rt).Run LuaSilent s t ∧ Keeps s t ∧ t.lua = .execute k ∧
      t.schedulers k = e := by
  induction h with
  | refl => exact ⟨s, .refl, ⟨rfl, rfl, rfl⟩, hl, rfl⟩
  | @tail e u a _ hok hstep ih =>
    obtain ⟨t, hrun, hkeep, hlt, rfl⟩ := ih
    obtain ⟨rfl, hp⟩ := hok
    have hx : LuaStep rt t .step _ := .execute hlt hp (Execution.executeStep_iff.1 hstep)
    exact ⟨_, hrun.tail rfl hx.step, hkeep.trans ⟨rfl, rfl, rfl⟩, hlt,
      Function.update_self ..⟩

variable (rt) in
/-- The Lua thread announces the stop and calls `Execute`. -/
theorem run_to_execute {k : Nat} (hk : s.lua.scheduler? = some k)
    (hstay : ¬ (s.lua = .assertMode k ∨ ∃ mode, s.lua = .leave k mode)) :
    ∃ t, (system V rt).Run LuaSilent s t ∧ Keeps s t ∧ t.lua = .execute k ∧
      t.schedulers = s.schedulers := by
  have hannounce : ∀ (s : DebugSession V) (message : Dap.EventMessage),
      s.lua = .announce k message → ∃ t, (system V rt).Run LuaSilent s t ∧ Keeps s t ∧
        t.lua = .execute k ∧ t.schedulers = s.schedulers := by
    intro s message hl
    exact ⟨_, .single rfl (LuaStep.announce hl).step, ⟨rfl, rfl, rfl⟩, rfl, rfl⟩
  cases hl : s.lua with
  | event j ev =>
    obtain rfl : j = k := by simpa [hl, LuaPoint.scheduler?] using hk
    obtain ⟨t, hrun, hkeep, ht, hsch⟩ :=
      hannounce { s.nextSeqId with lua := .announce j ⟨s.seqId, "stopped", ev⟩ } _ rfl
    exact ⟨t, .head rfl (LuaStep.event hl).step hrun,
      ⟨hkeep.run, hkeep.stoppedState, hkeep.answer⟩, ht, hsch⟩
  | announce j message =>
    obtain rfl : j = k := by simpa [hl, LuaPoint.scheduler?] using hk
    exact hannounce s message hl
  | execute j =>
    obtain rfl : j = k := by simpa [hl, LuaPoint.scheduler?] using hk
    exact ⟨s, .refl, ⟨rfl, rfl, rfl⟩, hl, rfl⟩
  | assertMode j =>
    obtain rfl : j = k := by simpa [hl, LuaPoint.scheduler?] using hk
    exact absurd (.inl hl) hstay
  | leave j mode =>
    obtain rfl : j = k := by simpa [hl, LuaPoint.scheduler?] using hk
    exact absurd (.inr ⟨mode, hl⟩) hstay
  | _ => simp [hl, LuaPoint.scheduler?] at hk

variable (rt) in
/-- The Lua thread comes to the invocation that `Run` awaits, in the same stop. -/
theorem run_to_invocation (hs : Tended s) {q : Dap.RequestMessage V} {r : Dap.ResponseMessage V}
    {k : Nat} (hr : s.run = .handle q r (.inspectAwait k)) {i : Invocation V}
    (hi : (s.schedulers k).outstanding = [i]) :
    ∃ t c, (system V rt).Run LuaSilent s t ∧ Keeps s t ∧ t.lua = .execute k ∧
      (t.schedulers k).point = .invoke c [i] := by
  have hh := hs.held
  unfold Held at hh
  rw [hr] at hh
  obtain ⟨hk, -, hopen⟩ := hh
  have hnot : (s.schedulers k).scheduler.isClosed ≠ true := by simp [hopen]
  obtain ⟨t, hrun, hkeep, hl, hsch⟩ := run_to_execute rt hk (mt hs.isClosed_of_left hnot)
  obtain ⟨e, c, hexec, hp, -⟩ :=
    Execution.run_to_invoke (Execution.signalled_of_reaches (hs.schedulers k))
      (mt hs.isClosed_of_returned hnot) hi
  rw [← hsch] at hexec
  obtain ⟨u, hrun', hkeep', hl', rfl⟩ := run_silent rt hl hexec
  exact ⟨u, c, hrun.trans hrun', hkeep.trans hkeep', hl', hp⟩

/-- The Lua thread runs the invocation that `Run` awaits, in the same stop. -/
theorem run_to_answer (hs : Tended s) {q : Dap.RequestMessage V} {r : Dap.ResponseMessage V}
    {k : Nat} (hr : s.run = .handle q r (.inspectAwait k)) (ha : s.answer = none)
    (result : Except String V) :
    ∃ t, (system V rt).Run LuaAlone s t ∧ t.lua = .execute k ∧ t.stoppedState = s.stoppedState ∧
      t.answer = some result := by
  have hf := hs.flight
  unfold Flight at hf
  rw [hr] at hf
  rcases hf with ⟨-, i, hi⟩ | ⟨hne, -⟩
  · obtain ⟨t, c, hrun, hkeep, hl, hp⟩ := run_to_invocation rt hs hr hi
    have hinvoke : Execution.ExecuteStep (t.schedulers k)
        ⟨(t.schedulers k).scheduler, .invoke c []⟩ := by
      rw [← Execution.executeStep_iff, Execution.executeStep, hp]
    have hanswer : LuaStep rt t (.answer result) _ := .answer hl hp hinvoke result
    exact ⟨_, (hrun.mono fun _ _ ha => ha.luaAlone).tail (.inr ⟨result, rfl⟩) hanswer.step, hl,
      hkeep.stoppedState, rfl⟩
  · exact absurd ha hne

variable (rt) in
/-- The Lua thread leaves `Execute` for good, once it can. -/
theorem run_to_end (hret : Returned s) {k : Nat} (hk : s.lua.scheduler? = some k)
    (hsig : Execution.Signalled (s.schedulers k))
    (hc : (s.schedulers k).scheduler.isClosed = true)
    (ho : (s.schedulers k).outstanding = []) :
    ∃ t, (system V rt).Run LuaSilent s t ∧ Keeps s t ∧ (t.schedulers k).point = .returned ∧
      (t.lua = .execute k ∨ t.lua = .assertMode k ∨ ∃ mode, t.lua = .leave k mode) := by
  by_cases hl : s.lua = .assertMode k ∨ ∃ mode, s.lua = .leave k mode
  · exact ⟨s, .refl, ⟨rfl, rfl, rfl⟩, hret k hl, .inr hl⟩
  · obtain ⟨t, hrun, hkeep, hlt, hsch⟩ := run_to_execute rt hk hl
    obtain ⟨e, hexec, hp⟩ := Execution.run_to_returned hsig hc ho
    rw [← hsch] at hexec
    obtain ⟨u, hrun', hkeep', hlu, rfl⟩ := run_silent rt hlt hexec
    exact ⟨u, hrun.trans hrun', hkeep.trans hkeep', hp, .inl hlu⟩

/-! ## The condition -/

theorem not_stranded (hs : Tended s) : ¬ Stranded s := by
  rintro ⟨q, r, k, hr, -, hp⟩
  have hh := hs.held
  unfold Held at hh
  rw [hr] at hh
  have hclosed := hs.isClosed_of_returned hp
  rw [hh.2.2] at hclosed
  cases hclosed

/-- A request that passes the check in a resumed stop can be overtaken by the Lua thread. -/
theorem stranded_of_unsafe (hs : Tended s) {q : Dap.RequestMessage V} {r : Dap.ResponseMessage V}
    {i : Inspection} {st : StoppedExecutionState} (hr : s.run = .handle q r (.inspectAssert i))
    (hst : s.stoppedState = some st) (hm : st.continueMode ≠ none)
    (h : RunStep rt s .step s') : ∃ t, (system V rt).Run Alone s' t ∧ Stranded t := by
  obtain ⟨k, mode⟩ := st
  have hopen := hs.isOpen hr trivial
  have hclosed := (hs.released hopen (by simp [hr]) k mode hst).2 hm
  have hlua : s.lua ≠ .halted := by
    intro hl
    rw [hs.halted hl] at hopen
    cases hopen
  have hk := hs.coherent.scheduler?_eq hlua hst
  have hidle : Idle s := by
    have hf := hs.flight
    unfold Flight at hf
    rwa [hr] at hf
  obtain rfl : s' = { s with run := .handle q r (.inspectCast i) } := by
    have hstep := (runStep_iff.2 h).symm.trans
      (runStep_iff.2 (.handle hr (.inspectAssert i hst)))
    exact Option.some.inj hstep
  obtain ⟨t, hrun, ⟨htr, htst, hta⟩, hp, -⟩ :=
    run_to_end rt (s := { s with run := .handle q r (.inspectCast i) }) hs.returned hk
      (Execution.signalled_of_reaches (hs.schedulers k)) hclosed (hidle.2 k mode hst)
  have hcast : RunStep rt t (.cast (.ok q.arguments))
      { t with run := .handle q r (.inspectSchedule ⟨i, q.arguments⟩) } :=
    .handle htr (.cast i q.arguments)
  have hsched : RunStep rt { t with run := .handle q r (.inspectSchedule ⟨i, q.arguments⟩) }
      .step _ :=
    .handle rfl (.schedule ⟨i, q.arguments⟩ (htst.trans hst))
  have hquiet : ∀ (t : DebugSession V) (i : RunInput V), (∀ result, i ≠ .message result) →
      Alone t (.run i) := fun _ _ hi => alone_run hi
  have halone : (system V rt).Run Alone { s with run := .handle q r (.inspectCast i) } t :=
    hrun.mono fun _ _ ha => ha.luaAlone.alone
  refine ⟨_, (halone.tail (hquiet t (.cast (.ok q.arguments)) nofun) hcast.step).tail
    (hquiet _ .step nofun) hsched.step, q, r, k, rfl, hta.trans hidle.1, ?_⟩
  simp only [onScheduler, Function.update_self]
  exact hp

/-- **Inspection requests.** When they pass their check in stops without a mode only, `Run` never
awaits a scheduler whose `Execute` has returned, and the Lua thread runs every invocation that
`Run` awaits in the stop it was queued for, whatever the provider answers. After any other check
that succeeds the two threads alone can come to a state where `Run` is stranded. -/
theorem stranded_unreachable (V : Type*) (rt : Runtime) :
    (∀ s, (system V rt).Reaches InspectSafe s → ¬ Stranded s ∧
      ∀ q r k, s.run = .handle q r (.inspectAwait k) → s.answer = none →
        ∀ result, ∃ t, (system V rt).Run LuaAlone s t ∧ t.lua = .execute k ∧
          t.stoppedState = s.stoppedState ∧ t.answer = some result) ∧
      ∀ s a s', (system V rt).Reaches InspectSafe s → (system V rt).step a s = some s' →
        ¬ InspectSafe s a → ∃ t, (system V rt).Run Alone s' t ∧ Stranded t := by
  refine ⟨fun s h => ?_, fun s a s' h hstep hbad => ?_⟩
  · have hs := tended_of_reaches h
    exact ⟨not_stranded hs, fun q r k hr ha result => run_to_answer hs hr ha result⟩
  · cases a with
    | lua i => exact absurd trivial hbad
    | run i =>
      cases i with
      | step =>
        simp only [InspectSafe, not_forall] at hbad
        obtain ⟨q, r, i, st, hr, hst, hm⟩ := hbad
        exact stranded_of_unsafe (tended_of_reaches h) hr hst hm (runStep_iff.1 hstep)
      | _ => exact absurd trivial hbad

/-- The client resumes a stop and asks for the stack, and the second request is handled after
`Execute` has returned and before the Lua thread has reset `_stoppedState`. -/
def lateStackTrace : List (Action Unit) :=
  [.run .step, .lua (.stop { reason := "breakpoint" }), .lua .step, .lua .step, .lua .step,
    .lua .step, .lua .step] ++
  [clientRequest 1 "continue", .run .step, .run .step, .run .step, .run .step, .run .step,
    .run .step, .run (.sent (.ok ())), .run .step] ++
  [.lua .step, .lua .step] ++
  [clientRequest 2 "stackTrace", .run .step, .run .step, .run (.cast (.ok ())), .run .step]

/-- `Run` waits for a Lua thread that will not look at the scheduler again. -/
theorem stranded_reachable :
    ¬ ∀ s, (system Unit plainRuntime).Reachable s → ¬ Stranded s := by
  intro h
  exact h _ (System.Reachable.of_exec lateStackTrace rfl rfl) ⟨_, _, 0, rfl, rfl, rfl⟩

end LuaToolkit.DebugSession
