import LuaToolkit.InplaceSchedulerProof
import LuaToolkit.Lib.Recorded

/-!
# Every invocation runs once, in order

Calls append to the queue while `Execute` works on a batch that it moved out of it, and a
scheduler may be closed with work still queued. Written down as the calls come and as the
invocations run, nothing is lost on the way: what has run, what has been taken and what is
queued make up at every moment what was scheduled.

* `History` — what was scheduled, what has run, and what the last take could see.
* `Accounted` — the invariant that relates a history to the execution.
* `ran_append_outstanding` — so it is in every reachable state, and a returned `Execute` has run
  all that its final take could see.
-/

namespace LuaToolkit.Execution

open Transition

variable {ι : Type*}

/-- The invocations scheduled so far, those that have been run, and those that were scheduled
before the last take. -/
structure History (ι : Type*) where
  scheduled : List ι := []
  ran : List ι := []
  seen : List ι := []
  deriving DecidableEq, Repr

/-- What a step adds: a call its invocation, and `Execute` a take or the invocation it runs. -/
def History.record (e : Execution ι) : Action ι → Execution ι → History ι → History ι
  | .scheduleInvocation invocation, _, h => { h with scheduled := h.scheduled ++ [invocation] }
  | .dispose, _, h => h
  | .execute, _, h =>
    match e.point with
    | .take => { h with seen := h.scheduled }
    | .invoke _ (invocation :: _) => { h with ran := h.ran ++ [invocation] }
    | .invoke _ [] | .wait | .returned => h

/-- The executions of a fresh scheduler, with their histories. -/
abbrev recordedSystem (ι : Type*) : System (Execution ι × History ι) (Action ι) :=
  (system ι).recorded {} History.record

/-- What has run and what is left of the batch is what the last take could see, and the queue
is what has been scheduled since. -/
structure Accounted (e : Execution ι) (h : History ι) : Prop where
  seen_eq : h.ran ++ ExecutePoint.batch e.point = h.seen
  scheduled_eq : h.seen ++ e.scheduler.invocations = h.scheduled

theorem accounted_execute {e e' : Execution ι} {h : History ι} (hi : Accounted e h)
    (hs : ExecuteStep e e') : Accounted e' (History.record e .execute e' h) := by
  obtain ⟨hseen, hscheduled⟩ := hi
  cases hs with
  | takeBatch s hne =>
    -- All that is queued joins the batch, which was empty.
    rw [ExecutePoint.batch, List.append_nil] at hseen
    refine ⟨?_, List.append_nil _⟩
    show h.ran ++ s.invocations = h.scheduled
    rw [hseen]
    exact hscheduled
  | takeIdle s he _ | takeLast s he _ =>
    have hall : h.seen = h.scheduled := by simpa [he] using hscheduled
    exact ⟨hseen.trans hall, by simp [History.record, he]⟩
  | invoke s c i rest =>
    refine ⟨?_, hscheduled⟩
    show h.ran ++ [i] ++ rest = h.seen
    rw [List.append_assoc]
    exact hseen
  | batchDone s c | wake s hup => exact ⟨hseen, hscheduled⟩

theorem accounted_step {e e' : Execution ι} {h : History ι} {a : Action ι} (hi : Accounted e h)
    (hs : (system ι).step a e = some e') : Accounted e' (History.record e a e' h) := by
  cases a with
  | scheduleInvocation i =>
    cases hs
    refine ⟨hi.seen_eq, ?_⟩
    show h.seen ++ (e.scheduler.invocations ++ [i]) = h.scheduled ++ [i]
    rw [← List.append_assoc, hi.scheduled_eq]
  | dispose =>
    cases hs
    exact ⟨hi.seen_eq, hi.scheduled_eq⟩
  | execute => exact accounted_execute hi (executeStep_iff.1 hs)

/-- **Exactly once.** What has run, what is taken and what is pending is at every moment what
was scheduled, in order. `Execute` has returned only from a closed scheduler, and has then run
all that was scheduled before its final take. -/
theorem ran_append_outstanding {e : Execution ι} {h : History ι}
    (hr : (recordedSystem ι).Reachable (e, h)) :
    h.ran ++ ExecutePoint.batch e.point ++ e.scheduler.invocations = h.scheduled ∧
      (e.point = .returned → e.scheduler.isClosed = true ∧ h.ran = h.seen) := by
  have hi : Accounted e h :=
    hr.recorded (fun e he => he ▸ ⟨rfl, rfl⟩) fun _ _ _ _ hi hs => accounted_step hi hs
  refine ⟨by rw [hi.seen_eq, hi.scheduled_eq], fun hp => ?_⟩
  have hseen := hi.seen_eq
  rw [hp, ExecutePoint.batch, List.append_nil] at hseen
  exact ⟨isClosed_of_returned hr.of_recorded hp, hseen⟩

/-- One invocation is scheduled while another runs, and one after `Execute` has returned. -/
def scheduledWhileRunning : List (Action Nat) :=
  [.scheduleInvocation 0, .execute, .scheduleInvocation 1, .execute, .execute, .execute, .execute,
    .dispose, .execute, .execute, .execute, .execute, .scheduleInvocation 2]

theorem ran_append_outstanding_sample :
    [0, 1] ++ ExecutePoint.batch (.returned : ExecutePoint Nat) ++ [2] = [0, 1, 2] ∧
      ((.returned : ExecutePoint Nat) = .returned → true = true ∧ [0, 1] = [0, 1]) :=
  have hstart : (recordedSystem Nat).init ({}, {}) := ⟨rfl, rfl⟩
  ran_append_outstanding (e := ⟨⟨[2], true, true⟩, .returned⟩) (h := ⟨[0, 1, 2], [0, 1], [0, 1]⟩)
    (System.Reachable.of_exec scheduledWhileRunning hstart rfl)

end LuaToolkit.Execution
