import Mathlib.Tactic.Common

/-!
# Runs of a transition system

A system is a set of initial states and a partial step function: `step a s = none` says that
the action `a` is not enabled in `s`. Everything nondeterministic about a program (which thread
moves, what its environment answers) is put into the action, so a run is a list of actions and
can be executed.

* `Run ok s t` — a run from `s` to `t` whose every step meets `ok`, a condition on the state
  before the step and on the action.
* `Reaches ok s` — such a run from an initial state; `Reachable` puts no condition on the steps.
* `Reaches.invariant` — the induction over runs: what holds initially and is kept by every step
  that meets `ok` holds in every state such runs reach.
-/

namespace LuaToolkit.Transition

/-- Initial states, and the successor of a state under each enabled action. -/
structure System (σ α : Type*) where
  init : σ → Prop
  step : α → σ → Option σ

namespace System

variable {σ α : Type*} (T : System σ α)

/-- Perform the actions one after the other; `none` when one of them is not enabled. -/
def exec : List α → σ → Option σ
  | [], s => some s
  | a :: as, s => (T.step a s).bind (exec as)

/-- `t` is reached from `s` by steps that all meet `ok`. -/
inductive Run (ok : σ → α → Prop) (s : σ) : σ → Prop
  | refl : Run ok s s
  | tail {t u : σ} {a : α} : Run ok s t → ok t a → T.step a t = some u → Run ok s u

/-- `s` is reached from an initial state by steps that all meet `ok`. -/
def Reaches (ok : σ → α → Prop) (s : σ) : Prop := ∃ s₀, T.init s₀ ∧ T.Run ok s₀ s

/-- `s` is reached from an initial state. -/
def Reachable (s : σ) : Prop := T.Reaches (fun _ _ => True) s

variable {T} {ok ok' : σ → α → Prop} {s t u : σ} {a : α}

/-! ## Runs -/

theorem Run.single (ha : ok s a) (h : T.step a s = some t) : T.Run ok s t := .tail .refl ha h

theorem Run.trans (h : T.Run ok s t) (h' : T.Run ok t u) : T.Run ok s u := by
  induction h' with
  | refl => exact h
  | tail _ ha hs ih => exact ih.tail ha hs

theorem Run.head (ha : ok s a) (hs : T.step a s = some t) (h : T.Run ok t u) : T.Run ok s u :=
  (Run.single ha hs).trans h

theorem Run.mono (hok : ∀ s a, ok s a → ok' s a) (h : T.Run ok s t) : T.Run ok' s t := by
  induction h with
  | refl => exact .refl
  | tail _ ha hs ih => exact ih.tail (hok _ _ ha) hs

/-- Executing actions is a run, when every enabled one of them meets `ok`. -/
theorem Run.of_exec {as : List α} (hok : ∀ s, ∀ a ∈ as, ok s a) (h : T.exec as s = some t) :
    T.Run ok s t := by
  induction as generalizing s with
  | nil =>
    cases h
    exact .refl
  | cons a as ih =>
    obtain ⟨u, hs, hu⟩ := Option.bind_eq_some_iff.1 h
    exact .head (hok s a (by simp)) hs (ih (fun s a ha => hok s a (by simp [ha])) hu)

/-- A run in which every step passes a check can be executed, and the check with it. -/
def guarded (T : System σ α) (check : σ → α → Bool) : System σ α where
  init := T.init
  step a s := if check s a then T.step a s else none

theorem Run.of_guarded {check : σ → α → Bool} {as : List α}
    (hok : ∀ s a, check s a = true → ok s a) (h : (T.guarded check).exec as s = some t) :
    T.Run ok s t := by
  induction as generalizing s with
  | nil =>
    cases h
    exact .refl
  | cons a as ih =>
    obtain ⟨u, hs, hu⟩ := Option.bind_eq_some_iff.1 h
    simp only [guarded, Option.ite_none_right_eq_some] at hs
    exact .head (hok s a hs.1) hs.2 (ih hu)

/-- A property kept by every step that meets `ok` is kept by runs of such steps. -/
theorem Run.invariant {I : σ → Prop}
    (hstep : ∀ s a s', I s → ok s a → T.step a s = some s' → I s')
    (h : T.Run ok s t) (hs : I s) : I t := by
  induction h with
  | refl => exact hs
  | tail _ ha hstp ih => exact hstep _ _ _ ih ha hstp

/-! ## Reached states -/

theorem Reaches.init (h : T.init s) : T.Reaches ok s := ⟨s, h, .refl⟩

theorem Reaches.run (h : T.Reaches ok s) (h' : T.Run ok s t) : T.Reaches ok t := by
  obtain ⟨s₀, h₀, hr⟩ := h
  exact ⟨s₀, h₀, hr.trans h'⟩

theorem Reaches.step (h : T.Reaches ok s) (ha : ok s a) (hs : T.step a s = some t) :
    T.Reaches ok t :=
  h.run (.single ha hs)

theorem Reaches.mono (hok : ∀ s a, ok s a → ok' s a) (h : T.Reaches ok s) : T.Reaches ok' s := by
  obtain ⟨s₀, h₀, hr⟩ := h
  exact ⟨s₀, h₀, hr.mono hok⟩

theorem Reaches.reachable (h : T.Reaches ok s) : T.Reachable s := h.mono fun _ _ _ => trivial

theorem Reachable.step (h : T.Reachable s) (hs : T.step a s = some t) : T.Reachable t :=
  Reaches.step h trivial hs

theorem Reachable.run (h : T.Reachable s) (h' : T.Run ok s t) : T.Reachable t :=
  Reaches.run h (h'.mono fun _ _ _ => trivial)

theorem Reachable.of_exec (as : List α) (h₀ : T.init s) (h : T.exec as s = some t) :
    T.Reachable t :=
  ⟨s, h₀, .of_exec (fun _ _ _ => trivial) h⟩

/-- **Invariants.** What holds initially and is kept by every step that meets `ok` holds in
every state reached by such steps. -/
theorem Reaches.invariant {I : σ → Prop} (hinit : ∀ s, T.init s → I s)
    (hstep : ∀ s a s', I s → ok s a → T.step a s = some s' → I s')
    (h : T.Reaches ok s) : I s := by
  obtain ⟨s₀, h₀, hr⟩ := h
  exact hr.invariant hstep (hinit s₀ h₀)

/-- Invariants of all reachable states. -/
theorem Reachable.invariant {I : σ → Prop} (hinit : ∀ s, T.init s → I s)
    (hstep : ∀ s a s', I s → T.step a s = some s' → I s') (h : T.Reachable s) : I s :=
  Reaches.invariant hinit (fun s a s' hi _ hs => hstep s a s' hi hs) h

end System

end LuaToolkit.Transition
