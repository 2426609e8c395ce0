import LuaToolkit.Lib.Transition

/-!
# Runs that come to rest

Some actions of a system are its own and the others belong to its surroundings. When every step
of its own takes something from a number, the system makes only so many of them in a row, whatever
their order, and then waits for its surroundings.

* `RunOf ok s n t` — a run of `n` steps from `s` to `t` that all meet `ok`.
* `Spends ok effort` — every step that meets `ok` makes `effort` smaller.
* `AtRest ok s` — no step that meets `ok` is enabled in `s`.
* `Spends.length_le`, `Spends.rests` — no run is longer than the effort of the state it starts in,
  and every run can be continued to one that ends at rest.
-/

namespace LuaToolkit.Transition.System

variable {σ α : Type*} (T : System σ α)

/-- A run with the number of its steps. -/
inductive RunOf (ok : σ → α → Prop) (s : σ) : Nat → σ → Prop
  | refl : RunOf ok s 0 s
  | tail {n : Nat} {t u : σ} {a : α} : RunOf ok s n t → ok t a → T.step a t = some u →
      RunOf ok s (n + 1) u

def Spends (ok : σ → α → Prop) (effort : σ → Nat) : Prop :=
  ∀ s a t, ok s a → T.step a s = some t → effort t < effort s

def AtRest (ok : σ → α → Prop) (s : σ) : Prop := ∀ a, ok s a → T.step a s = none

variable {T} {ok : σ → α → Prop} {effort : σ → Nat} {s t : σ} {n : Nat}

theorem RunOf.run (h : T.RunOf ok s n t) : T.Run ok s t := by
  induction h with
  | refl => exact .refl
  | tail _ ha hs ih => exact ih.tail ha hs

/-- What a run spends covers its length. -/
theorem Spends.length_add_le (hT : T.Spends ok effort) (h : T.RunOf ok s n t) :
    n + effort t ≤ effort s := by
  induction h with
  | refl => exact Nat.le_of_eq (Nat.zero_add _)
  | tail _ ha hs ih =>
    have hlt := hT _ _ _ ha hs
    omega

theorem Spends.length_le (hT : T.Spends ok effort) (h : T.RunOf ok s n t) : n ≤ effort s :=
  Nat.le_trans (Nat.le_add_right _ _) (hT.length_add_le h)

/-- A system that spends effort can be run until it rests. -/
theorem Spends.rests (hT : T.Spends ok effort) (s : σ) : ∃ t, T.Run ok s t ∧ T.AtRest ok t := by
  by_cases hr : T.AtRest ok s
  · exact ⟨s, .refl, hr⟩
  · obtain ⟨a, ha, hne⟩ : ∃ a, ok s a ∧ T.step a s ≠ none := by
      simpa only [AtRest, not_forall, exists_prop] using hr
    obtain ⟨u, hs⟩ := Option.ne_none_iff_exists'.1 hne
    have hlt := hT s a u ha hs
    obtain ⟨t, hrun, hrest⟩ := Spends.rests hT u
    exact ⟨t, .head ha hs hrun, hrest⟩
termination_by effort s

end LuaToolkit.Transition.System
