import LuaToolkit.Lib.Transition

/-!
# Records of runs

What a property says about the past of a run (what was sent, in which order) is not in the
states of the system. `recorded` carries a record beside the state that every step extends, and
that no step depends on; so it has the runs of the system, each with its record.

* `recorded_step_iff` — a step is a step of the system, and extends the record.
* `Reaches.recorded`, `Reachable.recorded` — the induction over runs and their records.
-/

namespace LuaToolkit.Transition.System

variable {σ α ρ : Type*} (T : System σ α) (start : ρ) (record : σ → α → σ → ρ → ρ)

/-- The system with a record of its run, extended by every step. -/
def recorded : System (σ × ρ) α where
  init x := T.init x.1 ∧ x.2 = start
  step a x := (T.step a x.1).map fun s => (s, record x.1 a s x.2)

variable {T start record} (ok : σ → α → Prop) {s t : σ} {r r' : ρ} {a : α}

theorem recorded_step_iff :
    (T.recorded start record).step a (s, r) = some (t, r') ↔
      T.step a s = some t ∧ r' = record s a t r := by
  simp only [recorded, Option.map_eq_some_iff, Prod.mk.injEq]
  constructor
  · rintro ⟨u, hu, rfl, rfl⟩
    exact ⟨hu, rfl⟩
  · rintro ⟨hs, rfl⟩
    exact ⟨t, hs, rfl, rfl⟩

/-- A run whose steps meet a condition, and its record. -/
theorem Run.recorded {ok : σ → α → Prop} (h : T.Run ok s t) (r : ρ) :
    ∃ r', (T.recorded start record).Run (fun x a => ok x.1 a) (s, r) (t, r') := by
  induction h with
  | refl => exact ⟨r, .refl⟩
  | @tail u v a _ ha hs ih =>
    obtain ⟨r', hr⟩ := ih
    exact ⟨record u a v r', hr.tail ha (recorded_step_iff.2 ⟨hs, rfl⟩)⟩

theorem Reaches.exists_record {ok : σ → α → Prop} (h : T.Reaches ok s) :
    ∃ r, (T.recorded start record).Reaches (fun x a => ok x.1 a) (s, r) := by
  obtain ⟨s₀, h₀, hr⟩ := h
  obtain ⟨r, hr⟩ := hr.recorded start
  exact ⟨r, (s₀, start), ⟨h₀, rfl⟩, hr⟩

/-- What the states reached by some steps and their records have in common. -/
theorem Reaches.recorded {I : σ → ρ → Prop} (hinit : ∀ s, T.init s → I s start)
    (hstep : ∀ s r a s', I s r → ok s a → T.step a s = some s' → I s' (record s a s' r))
    (h : (T.recorded start record).Reaches (fun x a => ok x.1 a) (s, r)) : I s r := by
  refine h.invariant (I := fun x => I x.1 x.2) (fun x hx => ?_) fun ⟨u, q⟩ a ⟨u', q'⟩ hi ha h => ?_
  · obtain ⟨hx, hr⟩ := hx
    rw [hr]
    exact hinit x.1 hx
  · obtain ⟨hs, rfl⟩ := recorded_step_iff.1 h
    exact hstep u q a u' hi ha hs

theorem Reachable.recorded {I : σ → ρ → Prop} (hinit : ∀ s, T.init s → I s start)
    (hstep : ∀ s r a s', I s r → T.step a s = some s' → I s' (record s a s' r))
    (h : (T.recorded start record).Reachable (s, r)) : I s r :=
  Reaches.recorded (fun _ _ => True) hinit (fun s r a s' hi _ hs => hstep s r a s' hi hs) h

/-- A recorded run is a run. -/
theorem Reaches.of_recorded
    (h : (T.recorded start record).Reaches (fun x a => ok x.1 a) (s, r)) : T.Reaches ok s :=
  Reaches.recorded ok (I := fun s _ => T.Reaches ok s) (fun _ hs => .init hs)
    (fun _ _ _ _ hi ha hs => hi.step ha hs) h

theorem Reachable.of_recorded (h : (T.recorded start record).Reachable (s, r)) : T.Reachable s :=
  h.recorded (I := fun s _ => T.Reachable s) (fun _ hs => .init hs) fun _ _ _ _ hi hs => hi.step hs

end LuaToolkit.Transition.System
