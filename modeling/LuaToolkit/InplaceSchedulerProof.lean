import LuaToolkit.InplaceScheduler

/-!
# When `Execute` can sleep through a call

A call raises the signal, and `Execute` lowers it when it wakes up. The signal is therefore
still up whenever the scheduler was closed or given work since the last take — except in one
case: `Execute` woke up, and only then took a batch from a scheduler that was already closed.
Both calls raised the same flag, the wake-up lowered it, and the loop goes on to wait although
it has seen that it should not continue.

* `LostWakeup` — `Execute` waits with the signal down, though closed or with work pending.
* `TakeSafe` — the condition on a take under which this cannot happen.
* `lostWakeup_unreachable` — it is the exact condition: under it no wake-up is lost, and
  after a take that violates it `Execute`, left alone, falls asleep for good.
-/

namespace LuaToolkit.Execution

open Transition

variable {ι : Type*}

/-- `Execute` is blocked in `_signal.wait()` with the signal clear, although the scheduler is
closed or has pending invocations. -/
def LostWakeup (e : Execution ι) : Prop :=
  e.point = .wait ∧ e.scheduler.signal = false ∧
    (e.scheduler.isClosed = true ∨ e.scheduler.invocations ≠ [])

/-- A take that finds pending invocations in a closed scheduler finds the signal still up. -/
def TakeSafe (e : Execution ι) (a : Action ι) : Prop :=
  a = .execute → e.point = .take → e.scheduler.isClosed = true → e.scheduler.invocations ≠ [] →
    e.scheduler.signal = true

/-- After a take, and until the next wake-up, the signal is up when there is a reason for it. -/
def Signalled (e : Execution ι) : Prop :=
  (∃ c rest, e.point = .invoke c rest) ∨ e.point = .wait →
    (e.scheduler.isClosed = true ∨ e.scheduler.invocations ≠ []) → e.scheduler.signal = true

theorem Signalled.not_lostWakeup {e : Execution ι} (h : Signalled e) : ¬ LostWakeup e := by
  rintro ⟨hw, hs, hr⟩
  have hup := h (.inr hw) hr
  rw [hs] at hup
  cases hup

theorem signalled_init : Signalled ({} : Execution ι) := by
  rintro (⟨c, rest, h⟩ | h) _ <;> cases h

/-- Every call raises the signal. -/
theorem signalled_of_signal {e : Execution ι} (h : e.scheduler.signal = true) : Signalled e :=
  fun _ _ => h

theorem signalled_execute {e e' : Execution ι} (h : Signalled e) (ha : TakeSafe e .execute)
    (hs : ExecuteStep e e') : Signalled e' := by
  cases hs with
  | takeBatch s hne =>
    rintro - (hc | hp)
    · exact ha rfl rfl hc hne
    · exact absurd rfl hp
  | takeIdle s he ho =>
    rintro - (hc | hp)
    · rw [ho] at hc; cases hc
    · exact absurd he hp
  | takeLast s he hc => rintro (⟨c, rest, h⟩ | h) _ <;> cases h
  | invoke s c i rest => exact fun _ => h (.inl ⟨c, i :: rest, rfl⟩)
  | batchDone s c => exact fun _ => h (.inl ⟨c, [], rfl⟩)
  | wake s hup => rintro (⟨c, rest, h⟩ | h) _ <;> cases h

theorem signalled_step {e e' : Execution ι} {a : Action ι} (h : Signalled e) (ha : TakeSafe e a)
    (hs : (system ι).step a e = some e') : Signalled e' := by
  cases a with
  | scheduleInvocation i => cases hs; exact signalled_of_signal rfl
  | dispose => cases hs; exact signalled_of_signal rfl
  | execute => exact signalled_execute h ha (executeStep_iff.1 hs)

theorem signalled_of_reaches {e : Execution ι} (h : (system ι).Reaches TakeSafe e) :
    Signalled e := by
  refine h.invariant (fun e he => ?_) fun e a e' hi ha hs => signalled_step hi ha hs
  cases he
  exact signalled_init

/-! ## After an unsafe take -/

/-- `Execute` alone runs its batch and goes to wait, leaving the shared fields as they are. -/
theorem run_batch (s : InplaceExecutionScheduler ι) (c : Bool) (rest : List ι) :
    (system ι).Run (fun _ a => a = .execute) ⟨s, .invoke c rest⟩ ⟨s, .wait⟩ := by
  induction rest with
  | nil => exact .single rfl (executeStep_iff.2 (.batchDone s c))
  | cons i rest ih => exact .head rfl (executeStep_iff.2 (.invoke s c i rest)) ih

theorem lostWakeup_of_unsafe {e e' : Execution ι} {a : Action ι}
    (hs : (system ι).step a e = some e') (ha : ¬ TakeSafe e a) :
    ∃ t, (system ι).Run (fun _ a => a = .execute) e' t ∧ LostWakeup t := by
  obtain ⟨s, point⟩ := e
  simp only [TakeSafe, Classical.not_imp, Bool.not_eq_true] at ha
  obtain ⟨rfl, rfl, hc, hne, hdown⟩ := ha
  have htake : some e' = some ⟨{ s with invocations := [] }, .invoke (!s.isClosed) s.invocations⟩ :=
    hs.symm.trans (executeStep_iff.2 (.takeBatch s hne))
  cases htake
  exact ⟨_, run_batch _ _ _, rfl, hdown, .inl hc⟩

/-- **Lost wake-ups.** No wake-up is lost in runs whose takes are all safe, and every unsafe
take is followed by a lost one when no further call comes in time. -/
theorem lostWakeup_unreachable (ι : Type*) :
    (∀ e, (system ι).Reaches TakeSafe e → ¬ LostWakeup e) ∧
      ∀ e a e', (system ι).Reachable e → (system ι).step a e = some e' → ¬ TakeSafe e a →
        ∃ t, (system ι).Run (fun _ b => b = .execute) e' t ∧ LostWakeup t := by
  refine ⟨fun e h => ?_, fun e a e' _ hs ha => lostWakeup_of_unsafe hs ha⟩
  exact (signalled_of_reaches h).not_lostWakeup

/-- `Execute` waits; an invocation is scheduled and the scheduler disposed before it wakes up. -/
def coalescedCalls : List (Action Nat) :=
  [.execute, .scheduleInvocation 0, .dispose, .execute, .execute, .execute, .execute]

/-- The two calls above raise one flag, and the wake-up they cause is the last. -/
theorem lostWakeup_reachable :
    ¬ ∀ e, (system Nat).Reachable e → ¬ LostWakeup e := by
  intro h
  refine h ⟨⟨[], false, true⟩, .wait⟩ ?_ ⟨rfl, rfl, .inl rfl⟩
  exact System.Reachable.of_exec coalescedCalls rfl rfl

/-! ## Work in hand -/

/-- The invocations taken but not yet run. -/
def ExecutePoint.batch : ExecutePoint ι → List ι
  | .invoke _ rest => rest
  | .take | .wait | .returned => []

/-- The invocations not yet run, in the order in which they will be. -/
def outstanding (e : Execution ι) : List ι := ExecutePoint.batch e.point ++ e.scheduler.invocations

@[simp] theorem outstanding_scheduleInvocation (e : Execution ι) (i : ι) :
    (e.scheduleInvocation i).outstanding = e.outstanding ++ [i] := by
  simp [outstanding, scheduleInvocation, InplaceExecutionScheduler.scheduleInvocation]

@[simp] theorem outstanding_dispose (e : Execution ι) : e.dispose.outstanding = e.outstanding := rfl

/-- `Execute` drops the invocation it runs from the front, and no other step changes the list. -/
theorem outstanding_execute {e e' : Execution ι} (h : ExecuteStep e e') :
    (∃ c i rest, e.point = .invoke c (i :: rest) ∧ e.outstanding = i :: e'.outstanding) ∨
      ((∀ c i rest, e.point ≠ .invoke c (i :: rest)) ∧ e'.outstanding = e.outstanding) := by
  cases h with
  | takeBatch s hne => exact .inr ⟨nofun, by simp [outstanding, ExecutePoint.batch]⟩
  | invoke s c i rest => exact .inl ⟨c, i, rest, rfl, rfl⟩
  | batchDone s c =>
    refine .inr ⟨fun _ _ _ h => ?_, rfl⟩
    cases h
  | _ => exact .inr ⟨nofun, rfl⟩

theorem isClosed_execute {e e' : Execution ι} (h : ExecuteStep e e') :
    e'.scheduler.isClosed = e.scheduler.isClosed := by
  cases h <;> rfl

/-- `Execute` returns from closed schedulers only. -/
theorem isClosed_of_returned {e : Execution ι} (h : (system ι).Reachable e) :
    e.point = .returned → e.scheduler.isClosed = true := by
  refine h.invariant (I := fun e => e.point = .returned → e.scheduler.isClosed = true)
    (fun e he => ?_) fun e a e' hi hs => ?_
  · rw [he]
    nofun
  · cases a with
    | scheduleInvocation i => cases hs; exact hi
    | dispose => cases hs; exact fun _ => rfl
    | execute =>
      have hx := executeStep_iff.1 hs
      intro hp
      cases hx with
      | takeLast s he hc => exact hc
      | _ => cases hp

/-- The steps of `Execute` other than running an invocation. -/
def Silent (e : Execution ι) (a : Action ι) : Prop :=
  a = .execute ∧ ∀ c i rest, e.point ≠ .invoke c (i :: rest)

/-- Left alone, `Execute` goes on to its next take, unless it is running invocations. -/
theorem run_to_take {e : Execution ι} (hs : Signalled e)
    (hr : e.scheduler.isClosed = true ∨ e.scheduler.invocations ≠ [])
    (hp : e.point ≠ .returned) (hb : ExecutePoint.batch e.point = []) :
    ∃ b, (system ι).Run Silent e ⟨{ e.scheduler with signal := b }, .take⟩ := by
  obtain ⟨s, point⟩ := e
  have hwait : Signalled ⟨s, .wait⟩ → ∃ b, (system ι).Run Silent ⟨s, .wait⟩
      ⟨{ s with signal := b }, .take⟩ := by
    intro hs
    exact ⟨false, .single ⟨rfl, nofun⟩ (executeStep_iff.2 (.wake s (hs (.inr rfl) hr)))⟩
  cases point with
  | take => exact ⟨s.signal, .refl⟩
  | wait => exact hwait hs
  | returned => exact absurd rfl hp
  | invoke c rest =>
    obtain rfl : rest = [] := hb
    obtain ⟨b, hrun⟩ := hwait fun _ h => hs (.inl ⟨c, [], rfl⟩) h
    refine ⟨b, .head ⟨rfl, fun c i rest h => ?_⟩ (executeStep_iff.2 (.batchDone s c)) hrun⟩
    cases h

/-- Left alone, `Execute` comes to run the one invocation that is outstanding. -/
theorem run_to_invoke {e : Execution ι} {i : ι} (hs : Signalled e) (hp : e.point ≠ .returned)
    (ho : e.outstanding = [i]) :
    ∃ e' c, (system ι).Run Silent e e' ∧ e'.point = .invoke c [i] ∧ e'.outstanding = [i] := by
  rcases List.append_eq_singleton_iff.1 ho with ⟨hb, hi⟩ | ⟨hb, hi⟩
  · obtain ⟨b, hrun⟩ := run_to_take hs (.inr (by simp [hi])) hp hb
    have htake : ExecuteStep ⟨{ e.scheduler with signal := b }, .take⟩
        ⟨{ e.scheduler with signal := b, invocations := [] },
          .invoke (!e.scheduler.isClosed) e.scheduler.invocations⟩ :=
      .takeBatch { e.scheduler with signal := b } (by simp [hi])
    refine ⟨_, _, hrun.tail ⟨rfl, nofun⟩ (executeStep_iff.2 htake), by rw [hi], ?_⟩
    simp [outstanding, ExecutePoint.batch, hi]
  · obtain ⟨s, point⟩ := e
    cases point with
    | invoke c rest =>
      obtain rfl : rest = [i] := hb
      exact ⟨_, c, .refl, rfl, ho⟩
    | _ => cases hb

/-- Left alone, `Execute` returns from a closed scheduler with nothing outstanding. -/
theorem run_to_returned {e : Execution ι} (hs : Signalled e) (hc : e.scheduler.isClosed = true)
    (ho : e.outstanding = []) :
    ∃ e', (system ι).Run Silent e e' ∧ e'.point = .returned := by
  obtain ⟨hb, hi⟩ := List.append_eq_nil_iff.1 ho
  by_cases hp : e.point = .returned
  · exact ⟨e, .refl, hp⟩
  · obtain ⟨b, hrun⟩ := run_to_take hs (.inl hc) hp hb
    exact ⟨_, hrun.tail ⟨rfl, nofun⟩ (executeStep_iff.2
      (.takeLast { e.scheduler with signal := b } hi hc)), rfl⟩

end LuaToolkit.Execution
