import LuaToolkit.Lib.Recorded

/-!
# A component of a larger system

When every step of a system is a step of one of its components or leaves that component alone,
the component runs as the system on its own does: what holds in the states that the component
reaches on its own holds of it inside the larger system.

* `Projects` — the steps of a system, seen through one of its components.
* `Projects.trans` — a component of a component.
* `Projects.run`, `Projects.reaches` — the component of a run runs, that of a reached state is
  reached.
* `Projects.recorded` — and so it is with a record of the component's run.
-/

namespace LuaToolkit.Transition.System

variable {σ τ υ α β γ ρ : Type*} {T : System σ α} {U : System τ β} {W : System υ γ}

/-- The component `view` of `T` moves as `U` does: by the step of `U` that `move` tells, or not. -/
structure Projects (T : System σ α) (U : System τ β) (view : σ → τ) (move : σ → α → Option β) :
    Prop where
  moves : ∀ s a s' b, T.step a s = some s' → move s a = some b →
    U.step b (view s) = some (view s')
  rests : ∀ s a s', T.step a s = some s' → move s a = none → view s' = view s

namespace Projects

variable {view : σ → τ} {move : σ → α → Option β} {ok : σ → α → Prop} {ok' : τ → β → Prop} {s : σ}

theorem trans {view' : τ → υ} {move' : τ → β → Option γ} (h : Projects T U view move)
    (h' : Projects U W view' move') :
    Projects T W (fun s => view' (view s)) fun s a => (move s a).bind (move' (view s)) where
  moves := by
    intro s a s' c hstep hm
    obtain ⟨b, hb, hc⟩ := Option.bind_eq_some_iff.1 hm
    exact h'.moves _ _ _ _ (h.moves s a s' b hstep hb) hc
  rests := by
    intro s a s' hstep hm
    cases hb : move s a with
    | none => exact congrArg view' (h.rests s a s' hstep hb)
    | some b =>
      rw [hb] at hm
      exact h'.rests _ _ _ (h.moves s a s' b hstep hb) hm

/-- A system is a component of itself with a record. -/
theorem of_recorded (T : System σ α) (start : ρ) (record : σ → α → σ → ρ → ρ) :
    Projects (T.recorded start record) T Prod.fst fun _ a => some a where
  moves := by
    rintro ⟨s, r⟩ a ⟨s', r'⟩ b hstep ⟨⟩
    exact (recorded_step_iff.1 hstep).1
  rests := by
    rintro s a s' - ⟨⟩

theorem run (h : Projects T U view move)
    (hok : ∀ s a b, ok s a → move s a = some b → ok' (view s) b) {s t : σ} (hs : T.Run ok s t) :
    U.Run ok' (view s) (view t) := by
  induction hs with
  | refl => exact .refl
  | @tail t u a _ ha hstep ih =>
    cases hm : move t a with
    | none =>
      rw [h.rests t a u hstep hm]
      exact ih
    | some b => exact ih.tail (hok t a b ha hm) (h.moves t a u b hstep hm)

/-- **Projection.** The component is reached by steps that meet a condition when the initial states
of the system, its reached states and its steps guarantee it. -/
theorem reaches (h : Projects T U view move) (hinit : ∀ s, T.init s → U.Reaches ok' (view s))
    (hok : ∀ s a s' b, T.Reaches ok s → ok s a → T.step a s = some s' → move s a = some b →
      ok' (view s) b) (hs : T.Reaches ok s) : U.Reaches ok' (view s) := by
  have hboth : T.Reaches ok s ∧ U.Reaches ok' (view s) := by
    refine hs.invariant (I := fun s => T.Reaches ok s ∧ U.Reaches ok' (view s))
      (fun s hs => ⟨.init hs, hinit s hs⟩) ?_
    intro s a s' hi ha hstep
    obtain ⟨ht, hu⟩ := hi
    refine ⟨ht.step ha hstep, ?_⟩
    cases hm : move s a with
    | none =>
      rw [h.rests s a s' hstep hm]
      exact hu
    | some b => exact hu.step (hok s a s' b ht ha hstep hm) (h.moves s a s' b hstep hm)
  exact hboth.2

theorem reachable (h : Projects T U view move) (hinit : ∀ s, T.init s → U.Reachable (view s))
    (hs : T.Reachable s) : U.Reachable (view s) :=
  h.reaches hinit (fun _ _ _ _ _ _ _ _ => trivial) hs

/-- A record of the component's run, kept beside the system. -/
def recordMove (view : σ → τ) (move : σ → α → Option β) (record : τ → β → τ → ρ → ρ) (s : σ) (a : α)
    (s' : σ) (r : ρ) : ρ :=
  match move s a with
  | none => r
  | some b => record (view s) b (view s') r

theorem recorded (h : Projects T U view move) (start : ρ) (record : τ → β → τ → ρ → ρ) :
    Projects (T.recorded start (recordMove view move record)) (U.recorded start record)
      (fun x => (view x.1, x.2)) (fun x a => move x.1 a) where
  moves := by
    rintro ⟨s, r⟩ a ⟨s', r'⟩ b hstep hm
    obtain ⟨hs, rfl⟩ := recorded_step_iff.1 hstep
    refine recorded_step_iff.2 ⟨h.moves s a s' b hs hm, ?_⟩
    simp only [recordMove, hm]
  rests := by
    rintro ⟨s, r⟩ a ⟨s', r'⟩ hstep hm
    obtain ⟨hs, rfl⟩ := recorded_step_iff.1 hstep
    simp only [recordMove, hm, h.rests s a s' hs hm]

end Projects

end LuaToolkit.Transition.System
