import LuaToolkit.InplaceSchedulerProof
import LuaToolkit.Lib.Effort

/-!
# When `Execute` comes to rest

Between two calls from outside, `Execute` makes only finitely many steps: it runs what is queued,
and every wake-up uses up the signal of the calls before it.

* `effort` — a bound on the steps that `Execute` makes before the next call.
* `execute_rests` — then it either waits for a call, with the scheduler open and nothing left to
  run, or it has returned from a closed scheduler.
-/

namespace LuaToolkit.Execution

open Transition

variable {ι : Type*} {e e' : Execution ι}

/-! ## The effort -/

/-- What is left of the current round. -/
def pointEffort : ExecutePoint ι → Nat
  | .take => 1
  | .invoke _ rest => rest.length + 1
  | .wait | .returned => 0

/-- An invocation that is still queued is taken and run, and a signal leads to one more take. -/
def effort (e : Execution ι) : Nat :=
  pointEffort e.point + 2 * e.scheduler.invocations.length + if e.scheduler.signal then 2 else 0

theorem effort_execute (h : ExecuteStep e e') : e'.effort < e.effort := by
  cases h with
  | takeBatch s hne =>
    have hlen := List.length_pos_iff.2 hne
    simp only [effort, pointEffort, List.length_nil]
    omega
  | wake s hs =>
    simp only [effort, pointEffort, hs, if_true, Bool.false_eq_true, if_false]
    omega
  | _ => simp [effort, pointEffort]

theorem effort_scheduleInvocation (e : Execution ι) (i : ι) :
    (e.scheduleInvocation i).effort ≤ e.effort + 4 := by
  simp only [effort, scheduleInvocation, InplaceExecutionScheduler.scheduleInvocation,
    List.length_append, List.length_singleton, if_true]
  omega

theorem effort_dispose (e : Execution ι) : e.dispose.effort ≤ e.effort + 4 := by
  simp only [effort, dispose, InplaceExecutionScheduler.dispose, if_true]
  omega

/-! ## Rest -/

/-- A step of `Execute`. -/
def Executes (_ : Execution ι) (a : Action ι) : Prop := a = .execute

theorem spends_effort : (system ι).Spends Executes effort := by
  rintro e a e' rfl h
  exact effort_execute (executeStep_iff.1 h)

/-- `Execute` has a next step, unless it has returned or waits with the signal down. -/
theorem executeStep_eq_none (h : e.executeStep = none) :
    e.point = .returned ∨ (e.point = .wait ∧ e.scheduler.signal = false) := by
  obtain ⟨⟨invocations, signal, isClosed⟩, point⟩ := e
  cases point with
  | take =>
    cases invocations <;> simp [executeStep, InplaceExecutionScheduler.getExecutionState] at h
  | invoke c rest => cases rest <;> cases h
  | wait =>
    cases signal with
    | false => exact .inr ⟨rfl, rfl⟩
    | true => cases h
  | returned => exact .inl rfl

/-- An `Execute` that waits with the signal down has nothing to do. -/
theorem Signalled.idle (h : Signalled e) (hp : e.point = .wait) (hs : e.scheduler.signal = false) :
    e.scheduler.isClosed = false ∧ e.outstanding = [] := by
  have hlost := mt (h (.inr hp)) (by simp [hs])
  obtain ⟨hopen, hnil⟩ := not_or.1 hlost
  exact ⟨Bool.not_eq_true _ ▸ hopen, by simpa [outstanding, hp, ExecutePoint.batch] using hnil⟩

/-- **Rest.** Between two calls `Execute` makes no more steps than its effort. When no wake-up is
lost on the way, it then has returned from a closed scheduler, or it waits for the next call, with
the scheduler open and every invocation run. -/
theorem execute_rests (h : (system ι).Reaches TakeSafe e) :
    (∀ n e', (system ι).RunOf Executes e n e' → n ≤ e.effort) ∧
      ∀ e', (system ι).Run (fun e a => Executes e a ∧ TakeSafe e a) e e' →
        (system ι).AtRest Executes e' →
          e'.scheduler.isClosed = e.scheduler.isClosed ∧
            if e'.scheduler.isClosed then e'.point = .returned
            else e'.point = .wait ∧ e'.outstanding = [] := by
  refine ⟨fun n e' => spends_effort.length_le, fun e' hrun hrest => ⟨?_, ?_⟩⟩
  · refine hrun.invariant (I := fun x => x.scheduler.isClosed = e.scheduler.isClosed) ?_ rfl
    rintro x a x' hx ⟨rfl, -⟩ hs
    exact (isClosed_execute (executeStep_iff.1 hs)).trans hx
  · have hreach := h.run (hrun.mono fun _ _ ha => ha.2)
    have hnone : e'.executeStep = none := hrest .execute rfl
    rcases executeStep_eq_none hnone with hp | ⟨hp, hs⟩
    · rw [if_pos (isClosed_of_returned hreach.reachable hp)]
      exact hp
    · obtain ⟨hopen, hout⟩ := (signalled_of_reaches hreach).idle hp hs
      rw [if_neg (by simp [hopen])]
      exact ⟨hp, hout⟩

/-- An invocation is scheduled and the scheduler is disposed before `Execute` takes anything: it
takes and runs the invocation, wakes up once more and returns. -/
theorem execute_rests_disposed : ∃ e' : Execution Nat,
    (system Nat).RunOf Executes (({} : Execution Nat).scheduleInvocation 7).dispose 5 e' ∧
      5 ≤ (({} : Execution Nat).scheduleInvocation 7).dispose.effort ∧ e'.point = .returned := by
  have hreach : (system Nat).Reaches TakeSafe (({} : Execution Nat).scheduleInvocation 7).dispose :=
    ((System.Reaches.init rfl).step (a := .scheduleInvocation 7) nofun rfl).step (a := .dispose)
      nofun rfl
  have hrun : (system Nat).Run (fun e a => Executes e a ∧ TakeSafe e a)
      (({} : Execution Nat).scheduleInvocation 7).dispose ⟨{ isClosed := true }, .returned⟩ :=
    .head ⟨rfl, fun _ _ _ _ => rfl⟩ rfl <| .head ⟨rfl, nofun⟩ rfl <| .head ⟨rfl, nofun⟩ rfl <|
      .head ⟨rfl, nofun⟩ rfl <| .head ⟨rfl, fun _ _ _ h => absurd rfl h⟩ rfl .refl
  have hrunOf : (system Nat).RunOf Executes (({} : Execution Nat).scheduleInvocation 7).dispose 5
      ⟨{ isClosed := true }, .returned⟩ :=
    .tail (.tail (.tail (.tail (.tail .refl rfl rfl) rfl rfl) rfl rfl) rfl rfl) rfl rfl
  have hrests := execute_rests hreach
  refine ⟨_, hrunOf, hrests.1 5 _ hrunOf, ?_⟩
  have hend := (hrests.2 _ hrun fun a ha => by obtain rfl := ha; rfl).2
  exact hend

end LuaToolkit.Execution
