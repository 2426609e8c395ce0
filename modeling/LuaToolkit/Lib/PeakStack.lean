import Mathlib.Tactic.Common

/-!
# Stacks with a high-water mark

A stack that records how high it has been, and the discipline of code that uses it: what it leaves
above the values it found, and how far it rises above them.

* `PeakStack` — the values, the last one first, and the greatest height so far.
* `Leaves s t vs k` — between `s` and `t` the stack has gained `vs`, and has never been more than
  `k` above the height of `s`.
* `Leaves.push`, `Leaves.pop`, … — one rule for each operation, to follow code step by step.
-/

namespace LuaToolkit

structure PeakStack (α : Type*) where
  values : List α
  peak : Nat
  height_le : values.length ≤ peak

namespace PeakStack

variable {α : Type*} {s t u : PeakStack α} {a b : α} {vs ws : List α} {k m : Nat}

/-- A stack that has not been higher than it is. -/
def idle (values : List α) : PeakStack α := ⟨values, values.length, Nat.le_refl _⟩

def height (s : PeakStack α) : Nat := s.values.length

/-- The value at a distance from the top. -/
def get? (s : PeakStack α) (n : Nat) : Option α := s.values[n]?

/-- The stack has these values now. -/
def put (s : PeakStack α) (values : List α) : PeakStack α :=
  ⟨values, max s.peak values.length, Nat.le_max_right _ _⟩

def push (s : PeakStack α) (a : α) : PeakStack α := s.put (a :: s.values)

def pop (s : PeakStack α) (n : Nat) : PeakStack α := s.put (s.values.drop n)

/-- The height becomes `n`, with a default where there was no value. -/
def setHeight (s : PeakStack α) (default : α) (n : Nat) : PeakStack α :=
  s.put (List.replicate (n - s.height) default ++ s.values.drop (s.height - n))

/-- Something has used `n` more places, and given them back. -/
def touch (s : PeakStack α) (n : Nat) : PeakStack α :=
  ⟨s.values, max s.peak (s.height + n), Nat.le_trans s.height_le (Nat.le_max_left _ _)⟩

@[simp] theorem values_idle (values : List α) : (idle values).values = values := rfl

@[simp] theorem values_put (s : PeakStack α) (values : List α) : (s.put values).values = values :=
  rfl

@[simp] theorem values_push (s : PeakStack α) (a : α) : (s.push a).values = a :: s.values := rfl

@[simp] theorem values_pop (s : PeakStack α) (n : Nat) : (s.pop n).values = s.values.drop n := rfl

/-- What the code between two states has left, and how far it has risen. -/
structure Leaves (s t : PeakStack α) (vs : List α) (k : Nat) : Prop where
  values : t.values = vs ++ s.values
  peak : t.peak ≤ max s.peak (s.height + k)

theorem Leaves.refl (s : PeakStack α) : Leaves s s [] 0 := ⟨rfl, Nat.le_max_left _ _⟩

theorem Leaves.mono (h : Leaves s t vs k) (hle : k ≤ m) : Leaves s t vs m := by
  have hpeak := h.peak
  exact ⟨h.values, by omega⟩

/-- Any values in place of those that were left, when the stack is not higher than allowed. -/
theorem Leaves.put (h : Leaves s t vs k) (ws : List α) (hlength : ws.length ≤ k) :
    Leaves s (t.put (ws ++ s.values)) ws k := by
  refine ⟨rfl, ?_⟩
  have hpeak := h.peak
  simp only [PeakStack.put, height, List.length_append] at hpeak ⊢
  omega

theorem Leaves.push (h : Leaves s t vs k) (a : α) (hlt : vs.length < k) :
    Leaves s (t.push a) (a :: vs) k := by
  have hput := h.put (a :: vs) hlt
  rwa [List.cons_append, ← h.values] at hput

theorem Leaves.pop (h : Leaves s t (vs ++ ws) k) (hlength : ws.length ≤ k) :
    Leaves s (t.pop vs.length) ws k := by
  have hput := h.put ws hlength
  have hdrop : t.values.drop vs.length = ws ++ s.values := by
    rw [h.values, List.append_assoc, List.drop_left]
  rwa [← hdrop] at hput

theorem Leaves.touch (h : Leaves s t vs k) (n : Nat) (hle : vs.length + n ≤ k) :
    Leaves s (t.touch n) vs k := by
  have hheight : t.height = vs.length + s.height := by
    rw [height, h.values, List.length_append, height]
  have hpeak := h.peak
  refine ⟨h.values, ?_⟩
  simp only [PeakStack.touch]
  omega

/-- The code restores the height that it started from. -/
theorem Leaves.setHeight (h : Leaves s t vs k) (default : α) :
    Leaves s (t.setHeight default s.height) [] k := by
  have hlength : t.height = vs.length + s.height := by
    rw [height, h.values, List.length_append, height]
  have hvalues : List.replicate (s.height - t.height) default ++
      t.values.drop (t.height - s.height) = [] ++ s.values := by
    rw [hlength, Nat.sub_eq_zero_of_le (Nat.le_add_left _ _), Nat.add_sub_cancel, h.values,
      List.drop_left]
    rfl
  rw [PeakStack.setHeight, hvalues]
  exact h.put [] (Nat.zero_le _)

/-- Code after code: the second part starts on what the first one has left. -/
theorem Leaves.trans (h : Leaves s t vs k) (h' : Leaves t u ws m) (hle : vs.length + m ≤ k) :
    Leaves s u (ws ++ vs) k := by
  have hheight : t.height = vs.length + s.height := by
    rw [height, h.values, List.length_append, height]
  have hpeak := h.peak
  have hpeak' := h'.peak
  refine ⟨by rw [h'.values, h.values, List.append_assoc], ?_⟩
  omega

end PeakStack

end LuaToolkit
