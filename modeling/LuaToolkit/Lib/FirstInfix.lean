import Mathlib.Data.List.Infix
import Mathlib.Data.List.Basic

/-!
# The first occurrence of a pattern

`List.dropInfix? l i` splits `l` around the first occurrence of `i`. A reader that looks for a
terminator in a growing buffer needs three facts about it: the split found in a prefix is the
split of the whole (`dropInfix?_append`), a stretch without the pattern's first element is
skipped (`dropInfix?_append_of_notMem`), and a pattern at the front is found there
(`dropInfix?_self_append`).
-/

namespace List

variable {α : Type*} [BEq α] [LawfulBEq α]

theorem dropInfix?_eq_append {l i p s : List α} (h : l.dropInfix? i = some (p, s)) :
    l = p ++ i ++ s := by
  obtain ⟨⟨i', hl, hi⟩, -⟩ := dropInfix?_eq_some_iff.1 h
  rw [hl, eq_of_beq hi]

/-- What is appended behind the first occurrence does not move it. -/
theorem dropInfix?_append {l i p s : List α} (h : l.dropInfix? i = some (p, s)) (c : List α) :
    (l ++ c).dropInfix? i = some (p, s ++ c) := by
  have hl := dropInfix?_eq_append h
  obtain ⟨-, hfirst⟩ := dropInfix?_eq_some_iff.1 h
  refine dropInfix?_eq_some_iff.2 ⟨⟨i, by rw [hl, append_assoc], beq_self_eq_true i⟩, ?_⟩
  intro p' i' s' heq hi
  by_contra hlt
  have hi' : i' = i := eq_of_beq hi
  subst i'
  -- An earlier occurrence ends inside `l`, where it would have been found.
  have hlen : (p' ++ i).length ≤ l.length := by
    rw [hl]
    simp only [length_append]
    omega
  have hpre : p' ++ i <+: l :=
    prefix_of_prefix_length_le ⟨s', heq.symm⟩ (prefix_append l c) hlen
  obtain ⟨t, ht⟩ := hpre
  exact hlt (hfirst p' i t ht.symm hi)

theorem dropInfix?_self_append (i s : List α) : (i ++ s).dropInfix? i = some ([], s) := by
  refine dropInfix?_eq_some_iff.2 ⟨⟨i, by simp, beq_self_eq_true i⟩, ?_⟩
  intro p' i' s' _ _
  simp

omit [LawfulBEq α] in
theorem dropInfix?_go_eq_map (i l acc : List α) :
    dropInfix?.go i l acc = (l.dropInfix? i).map fun x => (acc.reverse ++ x.1, x.2) := by
  have hgo : ∀ l acc, dropInfix?.go i l acc =
      (dropInfix?.go i l []).map fun x => (acc.reverse ++ x.1, x.2) := by
    intro l
    induction l with
    | nil => intro acc; by_cases hi : i.isEmpty <;> simp [dropInfix?.go, hi]
    | cons a l ih =>
      intro acc
      simp only [dropInfix?.go]
      cases (a :: l).dropPrefix? i with
      | some s => simp
      | none =>
        simp only
        rw [ih (a :: acc), ih [a]]
        cases dropInfix?.go i l [] <;> simp
  exact hgo l acc

/-- An element at which the pattern does not start is skipped. -/
theorem dropInfix?_cons_of_not_isPrefix {a : α} {l i : List α} (h : ¬ i <+: a :: l) :
    (a :: l).dropInfix? i = (l.dropInfix? i).map fun x => (a :: x.1, x.2) := by
  have hp : (a :: l).dropPrefix? i = none := by
    cases hd : (a :: l).dropPrefix? i with
    | none => rfl
    | some s =>
      obtain ⟨p', heq, hb⟩ := dropPrefix?_eq_some_iff.1 hd
      exact absurd ⟨s, by rw [heq, eq_of_beq hb]⟩ h
  have hgo := dropInfix?_go_eq_map i l [a]
  simp only [dropInfix?, dropInfix?.go, hp]
  exact hgo

/-- A stretch without the first element of the pattern is skipped. -/
theorem dropInfix?_append_of_notMem {a : α} {u : List α} (h : a ∉ u) (i v : List α) :
    (u ++ v).dropInfix? (a :: i) = (v.dropInfix? (a :: i)).map fun x => (u ++ x.1, x.2) := by
  induction u with
  | nil => simp
  | cons b u ih =>
    have hb : ¬ a :: i <+: b :: (u ++ v) := by
      rintro ⟨s, hs⟩
      exact h (by rw [(cons.inj hs).1]; exact mem_cons_self)
    rw [cons_append, dropInfix?_cons_of_not_isPrefix hb, ih fun hm => h (mem_cons_of_mem b hm)]
    cases v.dropInfix? (a :: i) <;> rfl

end List
