import Mathlib.Tactic.Common
import Mathlib.Data.List.Basic

/-!
# Stores as logs of writes

A store whose keys are compared by a Boolean test can be described by the log of its writes:
what it holds at a key is what was written last under a key that passes the test.

* `lastWrite` — that value, with its law for one more write.
* `findM?_eq_some_find?` — a search with a partial test that is defined on the whole list.
* `findIdx_eq_findIdx_iff` — when a stronger test finds its first element at the same place.
-/

namespace List

variable {α κ β : Type*}

/-- The value written last under a key that `eqv` relates to `k`. -/
def lastWrite (eqv : κ → κ → Bool) (log : List (κ × β)) (k : κ) : Option β :=
  (log.reverse.find? fun w => eqv w.1 k).map Prod.snd

variable {eqv : κ → κ → Bool} {log : List (κ × β)} {k k' : κ} {b : β}

theorem lastWrite_concat :
    lastWrite eqv (log ++ [(k', b)]) k = if eqv k' k then some b else lastWrite eqv log k := by
  unfold lastWrite
  rw [reverse_append]
  by_cases h : eqv k' k = true
  · rw [if_pos h]
    simp [h]
  · rw [if_neg h]
    simp [h]

/-- A search with a test that fails nowhere in the list is an ordinary search. -/
theorem findM?_eq_some_find? {α : Type} {p : α → Option Bool} {q : α → Bool} {l : List α}
    (h : ∀ a ∈ l, p a = some (q a)) : l.findM? p = some (l.find? q) := by
  induction l with
  | nil => rfl
  | cons a l ih =>
    have ha := h a (by simp)
    have hl := ih fun b hb => h b (by simp [hb])
    by_cases hq : q a = true
    · simp [findM?, ha, hq, find?_cons_of_pos]
    · simp [findM?, ha, hq, hl, find?_cons_of_neg]

/-- A search for the one element that passes the test finds it. -/
theorem find?_of_unique {p : α → Bool} {l : List α} {a : α} (ha : a ∈ l) (hp : p a = true)
    (h : ∀ b ∈ l, p b = true → b = a) : l.find? p = some a := by
  obtain ⟨b, hb⟩ := Option.isSome_iff_exists.1 (find?_isSome.2 ⟨a, ha, hp⟩)
  rw [hb, h b (mem_of_find?_eq_some hb) (by simpa using find?_some hb)]

/-- A stronger test succeeds as early as a weaker one exactly if the first element that passes
the weaker passes it too. -/
theorem findIdx_eq_findIdx_iff {p q : α → Bool} (h : ∀ a, p a = true → q a = true) (l : List α) :
    l.findIdx p = l.findIdx q ↔ ∀ a ∈ l.find? q, p a = true := by
  induction l with
  | nil => simp
  | cons a l ih =>
    rw [findIdx_cons, findIdx_cons]
    cases hq : q a with
    | false =>
      have hp : p a = false := by
        by_contra hp
        rw [h a (by simpa using hp)] at hq
        cases hq
      simp only [hp, cond_false, Nat.add_right_cancel_iff, ih, find?_cons_of_neg, hq,
        Bool.false_eq_true, not_false_eq_true]
    | true =>
      cases hp : p a <;> simp [find?_cons_of_pos, hq, hp]

end List
