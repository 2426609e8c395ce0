import Mathlib.Data.Fintype.Card

/-!
# Numbers drawn from a counter

Several parties draw numbers from one counter, at most one at a time each, and use them later, in
any order. The numbers that have been used are then different, and none is far ahead of how many
there are: so they stay different in a counter that wraps around.

* `Tickets` — the counter, the number that each party holds, the numbers used.
* `Tickets.Sound` — kept by drawing and using.
* `Tickets.Sound.nodup_mod` — different numbers modulo the size of the counter.
-/

namespace LuaToolkit

variable {ι : Type*}

structure Tickets (ι : Type*) where
  drawn : Nat := 0
  hand : ι → Option Nat := fun _ => none
  used : List Nat := []

namespace Tickets

section Operations

variable [DecidableEq ι]

/-- The numbers begin at 1. -/
def draw (i : ι) (t : Tickets ι) : Tickets ι :=
  { t with drawn := t.drawn + 1, hand := Function.update t.hand i (some (t.drawn + 1)) }

def use (i : ι) (t : Tickets ι) : Tickets ι :=
  { t with hand := Function.update t.hand i none, used := t.used ++ (t.hand i).toList }

end Operations

variable [Fintype ι]

/-- The parties that hold a number. -/
def holders (t : Tickets ι) : Finset ι := Finset.univ.filter fun i => (t.hand i).isSome

theorem mem_holders {t : Tickets ι} {i : ι} : i ∈ t.holders ↔ ∃ n, t.hand i = some n := by
  simp [holders, Option.isSome_iff_exists]

/-- What drawing and using numbers keeps. -/
structure Sound (t : Tickets ι) : Prop where
  nodup : t.used.Nodup
  used_le : ∀ n ∈ t.used, 1 ≤ n ∧ n ≤ t.drawn
  held_le : ∀ i n, t.hand i = some n → n ≤ t.drawn ∧ 1 ≤ n ∧ n ∉ t.used
  held_inj : ∀ i j n, t.hand i = some n → t.hand j = some n → i = j
  count : t.used.length + t.holders.card = t.drawn
  /-- While all parties hold a number, one of them holds the last. -/
  last : (∀ i, i ∈ t.holders) → ∃ i, t.hand i = some t.drawn

variable {t : Tickets ι} {i : ι}

theorem sound_init [Nonempty ι] : Sound ({} : Tickets ι) where
  nodup := .nil
  used_le := by simp
  held_le := by simp
  held_inj := by simp
  count := by simp [holders]
  last h := by simpa [mem_holders] using h (Classical.arbitrary ι)

variable [DecidableEq ι]

theorem holders_draw (hi : t.hand i = none) :
    (t.draw i).holders = insert i t.holders ∧ i ∉ t.holders := by
  refine ⟨?_, by simp [mem_holders, hi]⟩
  ext j
  by_cases hj : j = i
  · simp [mem_holders, draw, hj]
  · simp [mem_holders, draw, hj]

theorem holders_use : (t.use i).holders = t.holders.erase i := by
  ext j
  by_cases hj : j = i
  · simp [mem_holders, use, hj]
  · simp [mem_holders, use, hj]

theorem Sound.draw (h : Sound t) (hi : t.hand i = none) : Sound (t.draw i) where
  nodup := h.nodup
  used_le n hn := by
    have hle := h.used_le n hn
    exact ⟨hle.1, Nat.le_succ_of_le hle.2⟩
  held_le j n hj := by
    by_cases hji : j = i
    · obtain rfl : t.drawn + 1 = n := by simpa [Tickets.draw, hji] using hj
      refine ⟨Nat.le_refl _, Nat.le_add_left _ _, fun hn => ?_⟩
      exact absurd (h.used_le _ hn).2 (Nat.not_succ_le_self _)
    · have hle := h.held_le j n (by simpa [Tickets.draw, hji] using hj)
      exact ⟨Nat.le_succ_of_le hle.1, hle.2⟩
  held_inj j k n hj hk := by
    have hnew : ∀ l, t.hand l ≠ some (t.drawn + 1) := fun l hl =>
      absurd (h.held_le l _ hl).1 (Nat.not_succ_le_self _)
    by_cases hji : j = i <;> by_cases hki : k = i <;>
      simp only [Tickets.draw, hji, hki, Function.update_self, ne_eq, not_false_eq_true,
        Function.update_of_ne] at hj hk
    · rw [hji, hki]
    · exact absurd (hk.trans hj.symm) (hnew k)
    · exact absurd (hj.trans hk.symm) (hnew j)
    · exact h.held_inj j k n hj hk
  count := by
    obtain ⟨hholders, hnot⟩ := holders_draw hi
    rw [hholders, Finset.card_insert_of_notMem hnot, ← Nat.add_assoc]
    exact congrArg (· + 1) h.count
  last _ := ⟨i, by simp [Tickets.draw]⟩

theorem Sound.use (h : Sound t) {n : Nat} (hi : t.hand i = some n) : Sound (t.use i) where
  nodup := by
    have hn := (h.held_le i n hi).2.2
    simpa [Tickets.use, hi, List.nodup_append] using ⟨h.nodup, fun m hm he => hn (he ▸ hm)⟩
  used_le m hm := by
    rcases List.mem_append.1 hm with hm | hm
    · exact h.used_le m hm
    · obtain rfl : m = n := by simpa [hi] using hm
      exact ⟨(h.held_le i m hi).2.1, (h.held_le i m hi).1⟩
  held_le j m hj := by
    by_cases hji : j = i
    · simp [Tickets.use, hji] at hj
    · have hj' : t.hand j = some m := by simpa [Tickets.use, hji] using hj
      obtain ⟨hle, hpos, hnot⟩ := h.held_le j m hj'
      refine ⟨hle, hpos, fun hm => ?_⟩
      rcases List.mem_append.1 hm with hm | hm
      · exact hnot hm
      · obtain rfl : m = n := by simpa [hi] using hm
        exact hji (h.held_inj j i m hj' hi)
  held_inj j k m hj hk := by
    by_cases hji : j = i
    · simp [Tickets.use, hji] at hj
    · by_cases hki : k = i
      · simp [Tickets.use, hki] at hk
      · exact h.held_inj j k m (by simpa [Tickets.use, hji] using hj)
          (by simpa [Tickets.use, hki] using hk)
  count := by
    have hmem : i ∈ t.holders := mem_holders.2 ⟨n, hi⟩
    have hcard := Finset.card_erase_add_one hmem
    have hcount := h.count
    have hlength : (t.use i).used.length = t.used.length + 1 := by simp [Tickets.use, hi]
    rw [holders_use, hlength]
    exact (show _ = t.drawn by omega)
  last hall := by
    have hmem := hall i
    simp [holders_use] at hmem

omit [DecidableEq ι] in
/-- A used number is behind how many are used and can be held. -/
theorem Sound.used_lt (h : Sound t) {n : Nat} (hn : n ∈ t.used) :
    n < t.used.length + Fintype.card ι := by
  have hcount := h.count
  have hle := (h.used_le n hn).2
  by_cases hall : ∀ i, i ∈ t.holders
  · obtain ⟨i, hi⟩ := h.last hall
    have hcard : t.holders.card = Fintype.card ι :=
      congrArg Finset.card (Finset.eq_univ_iff_forall.2 hall)
    have hne : n ≠ t.drawn := fun he => (h.held_le i _ hi).2.2 (he ▸ hn)
    omega
  · obtain ⟨i, hi⟩ := not_forall.1 hall
    have hcard : t.holders.card < Fintype.card ι :=
      Finset.card_lt_univ_of_notMem hi
    omega

omit [DecidableEq ι] in
/-- **Wrapping around.** -/
theorem Sound.nodup_mod (h : Sound t) {N : Nat} (hN : t.used.length + Fintype.card ι ≤ N + 1) :
    (t.used.map (· % N)).Nodup := by
  have hmod : ∀ n ∈ t.used, (n < N ∧ n % N = n ∧ 1 ≤ n) ∨ (n = N ∧ n % N = 0) := by
    intro n hn
    have hlt := h.used_lt hn
    rcases Nat.lt_or_ge n N with hnN | hnN
    · exact .inl ⟨hnN, Nat.mod_eq_of_lt hnN, (h.used_le n hn).1⟩
    · obtain rfl : n = N := by omega
      exact .inr ⟨rfl, Nat.mod_self n⟩
  refine List.Nodup.map_on (fun m hm n hn heq => ?_) h.nodup
  rcases hmod m hm with ⟨-, hm', hpos⟩ | ⟨rfl, hm'⟩ <;>
    rcases hmod n hn with ⟨-, hn', hpos'⟩ | ⟨rfl, hn'⟩
  all_goals omega

end Tickets

end LuaToolkit
