import LuaToolkit.Stepping

/-!
# Several controllers and one hook

`RemoteController` serves any number of clients, each with a controller of its own, and all these
controllers debug the same Lua state. `EnableDebug` leaves a pointer to its controller in a global
of that state, from which the hook takes it at every event; neither `DisableDebug` nor the
destructor removes it.

* `HookedLua` — a Lua state with its hook, and the controllers by their addresses.
* `Sane` — each controller lives as `Stepping.system` describes, and one at most is in a stop.
* `called_of_reaches` — the hook never calls a controller that is gone, if none is destroyed that
  has called `EnableDebug` last; after any other destruction it can.
* `superseded_of_run` — only the controller that has called `EnableDebug` last stops.
-/

namespace LuaToolkit

open Dap Transition

/-- A Lua state and the controllers of the process, by their addresses. An address can be used
again. -/
structure HookedLua (ν : Type*) where
  controllers : Nat → Option (Stepping ν) := fun _ => none
  /-- The light userdata in `__lua_DebuggerSession`. -/
  debuggerSession : Option Nat := none
  /-- `lua_sethook` has been called. -/
  hooked : Bool := false
  /-- The controller in whose `ExecuteDebugger` the Lua thread is stopped. -/
  stopped : Option Nat := none
  /-- The hook has called a controller that was gone. -/
  dangled : Bool := false

namespace HookedLua

variable {ν : Type*} {P : PathEquality} {s s' t : HookedLua ν}

inductive Action (ν : Type*) where
  /-- The application creates a controller. -/
  | create (i : Nat)
  /-- The last reference to a controller goes. -/
  | destroy (i : Nat)
  | enableDebug (i : Nat)
  | disableDebug (i : Nat)
  | request (i : Nat) (call : BreakpointCall)
  /-- Lua calls the hook, unless a hook is running. -/
  | event (x : HookCall ν)
  /-- `StopExecution` returns. -/
  | resume (mode : ContinueExecutionMode) (ar : LuaDebug)

def setController (i : Nat) (c : Option (Stepping ν)) (s : HookedLua ν) : HookedLua ν :=
  { s with controllers := Function.update s.controllers i c }

/-- A step of the controller at this address. -/
def onController (P : PathEquality) (i : Nat) (a : Stepping.Action ν) (s : HookedLua ν) :
    Option (HookedLua ν) :=
  (s.controllers i).bind fun c => (Stepping.step P a c).map fun c => s.setController i (some c)

/-- The lambda that `EnableDebug` installs. -/
def hook (P : PathEquality) (x : HookCall ν) (s : HookedLua ν) : Option (HookedLua ν) :=
  match s.debuggerSession with
  | none => some s
  | some i =>
    match s.controllers i with
    | none => some { s with dangled := true }
    | some c => (Stepping.step P (.event x) c).map fun c =>
        { s.setController i (some c) with stopped := if c.stop.isSome then some i else none }

def step (P : PathEquality) (a : Action ν) (s : HookedLua ν) : Option (HookedLua ν) :=
  if s.dangled then none
  else
    match a with
    | .create i => if (s.controllers i).isNone then some (s.setController i (some {})) else none
    -- During a stop the session keeps its controller, and the hook the session.
    | .destroy i =>
      if (s.controllers i).isSome ∧ s.stopped ≠ some i then some (s.setController i none) else none
    | .enableDebug i => (s.onController P i .enable).map fun s =>
        { s with debuggerSession := some i, hooked := true }
    | .disableDebug i => s.onController P i .disable
    | .request i call => s.onController P i (.request call)
    | .event x => if s.hooked ∧ s.stopped = none then s.hook P x else none
    | .resume mode ar => s.stopped.bind fun i =>
        (s.onController P i (.resume mode ar)).map fun s => { s with stopped := none }

/-- A Lua state before any controller has been created. -/
def system (ν : Type*) (P : PathEquality) : System (HookedLua ν) (Action ν) where
  init s := s = {}
  step := step P

/-- The destroyed controller is not the one that the hook finds. -/
def DestroySafe (s : HookedLua ν) : Action ν → Prop
  | .destroy i => s.debuggerSession ≠ some i
  | _ => True

/-! ## Steps -/

/-- The steps, as a relation. -/
inductive Step (P : PathEquality) (s : HookedLua ν) : Action ν → HookedLua ν → Prop
  | create {i} (h : s.controllers i = none) : Step P s (.create i) (s.setController i (some {}))
  | destroy {i} (h : (s.controllers i).isSome) (hs : s.stopped ≠ some i) :
      Step P s (.destroy i) (s.setController i none)
  | enableDebug {i c c'} (h : s.controllers i = some c)
      (hc : (Stepping.system ν P).step .enable c = some c') :
      Step P s (.enableDebug i)
        { s.setController i (some c') with debuggerSession := some i, hooked := true }
  | disableDebug {i c c'} (h : s.controllers i = some c)
      (hc : (Stepping.system ν P).step .disable c = some c') :
      Step P s (.disableDebug i) (s.setController i (some c'))
  | request {i call c c'} (h : s.controllers i = some c)
      (hc : (Stepping.system ν P).step (.request call) c = some c') :
      Step P s (.request i call) (s.setController i (some c'))
  /-- There is no pointer in the global. -/
  | unheard {x} (hs : s.stopped = none) (h : s.debuggerSession = none) : Step P s (.event x) s
  | dangle {x i} (hs : s.stopped = none) (hi : s.debuggerSession = some i)
      (h : s.controllers i = none) : Step P s (.event x) { s with dangled := true }
  | event {x i c c'} (hs : s.stopped = none) (hi : s.debuggerSession = some i)
      (h : s.controllers i = some c) (hc : (Stepping.system ν P).step (.event x) c = some c') :
      Step P s (.event x)
        { s.setController i (some c') with stopped := if c'.stop.isSome then some i else none }
  | resume {mode ar i c c'} (hs : s.stopped = some i) (h : s.controllers i = some c)
      (hc : (Stepping.system ν P).step (.resume mode ar) c = some c') :
      Step P s (.resume mode ar) { s.setController i (some c') with stopped := none }

theorem onController_eq_some {i : Nat} {a : Stepping.Action ν}
    (h : s.onController P i a = some s') : ∃ c c', s.controllers i = some c ∧
      (Stepping.system ν P).step a c = some c' ∧
      s' = s.setController i (some c') := by
  obtain ⟨c, hi, h⟩ := Option.bind_eq_some_iff.1 h
  obtain ⟨c', hc, rfl⟩ := Option.map_eq_some_iff.1 h
  exact ⟨c, c', hi, hc, rfl⟩

theorem step_cases {a : Action ν} (h : (system ν P).step a s = some s') :
    s.dangled = false ∧ Step P s a s' := by
  simp only [system, step] at h
  by_cases hd : s.dangled = true
  · simp [hd] at h
  rw [if_neg hd] at h
  refine ⟨by simpa using hd, ?_⟩
  cases a with
  | create i =>
    dsimp only at h
    split_ifs at h with hi
    cases h
    exact .create (by simpa using hi)
  | destroy i =>
    dsimp only at h
    split_ifs at h with hi
    cases h
    exact .destroy hi.1 hi.2
  | enableDebug i =>
    obtain ⟨u, hu, rfl⟩ := Option.map_eq_some_iff.1 h
    obtain ⟨c, c', hi, hc, rfl⟩ := onController_eq_some hu
    exact .enableDebug hi hc
  | disableDebug i =>
    obtain ⟨c, c', hi, hc, rfl⟩ := onController_eq_some h
    exact .disableDebug hi hc
  | request i call =>
    obtain ⟨c, c', hi, hc, rfl⟩ := onController_eq_some h
    exact .request hi hc
  | event x =>
    dsimp only [hook] at h
    split_ifs at h with hs
    split at h
    · cases h
      exact .unheard hs.2 ‹_›
    · split at h
      · cases h
        exact .dangle hs.2 ‹_› ‹_›
      · obtain ⟨c', hc, rfl⟩ := Option.map_eq_some_iff.1 h
        exact .event hs.2 ‹_› ‹_› hc
  | resume mode ar =>
    obtain ⟨i, hs, h⟩ := Option.bind_eq_some_iff.1 h
    obtain ⟨u, hu, rfl⟩ := Option.map_eq_some_iff.1 h
    obtain ⟨c, c', hi, hc, rfl⟩ := onController_eq_some hu
    exact .resume hs hi hc

@[simp] theorem setController_self (i : Nat) (c : Option (Stepping ν)) (s : HookedLua ν) :
    (s.setController i c).controllers i = c :=
  Function.update_self ..

@[simp] theorem setController_of_ne {i j : Nat} (h : j ≠ i) (c : Option (Stepping ν))
    (s : HookedLua ν) : (s.setController i c).controllers j = s.controllers j :=
  Function.update_of_ne h ..

/-! ## The invariant -/

structure Sane (P : PathEquality) (s : HookedLua ν) : Prop where
  /-- Each controller is as it could be on its own. -/
  reachable : ∀ i c, s.controllers i = some c → (Stepping.system ν P).Reachable c
  /-- The Lua thread is in one stop at most. -/
  stops : ∀ i c, s.controllers i = some c → (c.stop.isSome ↔ s.stopped = some i)
  stopped : ∀ i, s.stopped = some i → (s.controllers i).isSome
  hooked : s.hooked = s.debuggerSession.isSome

/-- A change of one controller, and perhaps of the stop that it is in. -/
theorem Sane.setController (h : Sane P s) (i : Nat) (c : Option (Stepping ν)) (stopped : Option Nat)
    (hreach : ∀ d ∈ c, (Stepping.system ν P).Reachable d)
    (hstops : ∀ d ∈ c, (d.stop.isSome ↔ stopped = some i)) (hi : stopped = some i → c.isSome)
    (hother : ∀ j, j ≠ i → (stopped = some j ↔ s.stopped = some j)) :
    Sane P { s.setController i c with stopped := stopped } where
  reachable j d hj := by
    change (s.setController i c).controllers j = some d at hj
    by_cases hji : j = i
    · subst hji
      rw [setController_self] at hj
      exact hreach d hj
    · rw [setController_of_ne hji] at hj
      exact h.reachable j d hj
  stops j d hj := by
    change (s.setController i c).controllers j = some d at hj
    by_cases hji : j = i
    · subst hji
      rw [setController_self] at hj
      exact hstops d hj
    · rw [setController_of_ne hji] at hj
      exact (h.stops j d hj).trans (hother j hji).symm
  stopped j hj := by
    change ((s.setController i c).controllers j).isSome
    by_cases hji : j = i
    · subst hji
      rw [setController_self]
      exact hi hj
    · rw [setController_of_ne hji]
      exact h.stopped j ((hother j hji).1 hj)
  hooked := h.hooked

/-- A step of a controller that enters and leaves no stop. -/
theorem Sane.onController {i : Nat} {c c' : Stepping ν} {a : Stepping.Action ν} (h : Sane P s)
    (hi : s.controllers i = some c) (hc : (Stepping.system ν P).step a c = some c')
    (hstop : c'.stop = c.stop) : Sane P (s.setController i (some c')) := by
  refine h.setController i (some c') s.stopped ?_ ?_ (fun _ => rfl) fun _ _ => Iff.rfl
  · rintro d ⟨⟩
    exact (h.reachable i c hi).step hc
  · rintro d ⟨⟩
    rw [hstop]
    exact h.stops i c hi

theorem sane_step {a : Action ν} (h : Sane P s) (hs : Step P s a s') : Sane P s' := by
  cases hs with
  | @create i hi =>
    have hne : s.stopped ≠ some i := fun heq => by simpa [hi] using h.stopped i heq
    refine h.setController i (some {}) s.stopped ?_ ?_ (fun _ => rfl) fun _ _ => Iff.rfl
    · rintro d ⟨⟩
      exact .init rfl
    · rintro d ⟨⟩
      simpa using hne
  | @destroy i hi hs =>
    exact h.setController i none s.stopped (by simp) (by simp) (fun heq => absurd heq hs)
      fun _ _ => Iff.rfl
  | enableDebug hi hc =>
    have hsane := h.onController hi hc (by cases hc; rfl)
    exact ⟨hsane.reachable, hsane.stops, hsane.stopped, rfl⟩
  | disableDebug hi hc | request hi hc => exact h.onController hi hc (by cases hc; rfl)
  | unheard => exact h
  | dangle => exact ⟨h.reachable, h.stops, h.stopped, h.hooked⟩
  | @event x i c c' hs hd hi hc =>
    refine h.setController i (some c') _ ?_ ?_ (fun _ => rfl) fun j hj => ?_
    · rintro d ⟨⟩
      exact (h.reachable i c hi).step hc
    · rintro d ⟨⟩
      split_ifs with hstop <;> simp [hstop]
    · rw [hs]
      split_ifs <;> simp [Ne.symm hj]
  | @resume mode ar i c c' hs hi hc =>
    refine h.setController i (some c') none ?_ ?_ (by simp) fun j hj => ?_
    · rintro d ⟨⟩
      exact (h.reachable i c hi).step hc
    · rintro d ⟨⟩
      obtain ⟨stop, -, rfl⟩ := Stepping.step_resume hc
      simp
    · rw [hs]
      simp [Ne.symm hj]

theorem sane_of_reachable (h : (system ν P).Reachable s) : Sane P s := by
  apply h.invariant (I := Sane P)
  · intro s hs
    rw [show s = {} from hs]
    exact ⟨by simp, by simp, by simp, rfl⟩
  · exact fun s a s' hi hstep => sane_step hi (step_cases hstep).2

/-! ## Controllers that are gone -/

/-- The hook finds a controller. -/
structure Attended (s : HookedLua ν) : Prop where
  found : ∀ i, s.debuggerSession = some i → (s.controllers i).isSome
  dangled : s.dangled = false

theorem attended_step {a : Action ν} (h : Attended s) (hok : DestroySafe s a)
    (hs : Step P s a s') : Attended s' := by
  have hset : ∀ {i : Nat} {c : Option (Stepping ν)},
      (s.debuggerSession = some i → c.isSome) → ∀ j, s.debuggerSession = some j →
        ((s.setController i c).controllers j).isSome := by
    intro i c hi j hj
    by_cases hji : j = i
    · subst hji
      rw [setController_self]
      exact hi hj
    · rw [setController_of_ne hji]
      exact h.found j hj
  cases hs with
  | destroy hi hs => exact ⟨hset fun hd => absurd hd hok, h.dangled⟩
  | @enableDebug i c c' hi hc =>
    refine ⟨fun j hj => ?_, h.dangled⟩
    obtain rfl : i = j := Option.some.inj hj
    exact congrArg Option.isSome (setController_self i (some c') s)
  | create | disableDebug | request | event | resume => exact ⟨hset fun _ => rfl, h.dangled⟩
  | unheard => exact h
  | dangle hs hi hnone => simpa [hnone] using h.found _ hi

theorem attended_of_reaches (h : (system ν P).Reaches DestroySafe s) : Attended s := by
  apply h.invariant (I := Attended)
  · intro s hs
    rw [show s = {} from hs]
    exact ⟨by simp, rfl⟩
  · exact fun s a s' hi hok hstep => attended_step hi hok (step_cases hstep).2

/-- The hook's call goes through, and concerns this controller only. -/
structure Calls (P : PathEquality) (s : HookedLua ν) (x : HookCall ν) (s' : HookedLua ν) :
    Prop where
  step : (system ν P).step (.event x) s = some s'
  called : ∃ i c c', s.debuggerSession = some i ∧ s.controllers i = some c ∧
    (Stepping.system ν P).step (.event x) c = some c' ∧ s'.controllers i = some c' ∧
    (s'.stopped = some i ↔ c'.stop.isSome) ∧ ∀ j, j ≠ i → s'.controllers j = s.controllers j

theorem exists_calls (hsane : Sane P s) (h : Attended s) (hs : s.stopped = none)
    (hhook : s.hooked = true) (x : HookCall ν) : ∃ s', Calls P s x s' := by
  obtain ⟨i, hd⟩ := Option.isSome_iff_exists.1 (hsane.hooked.symm.trans hhook)
  obtain ⟨c, hi⟩ := Option.isSome_iff_exists.1 (h.found i hd)
  have hstop : c.stop = none := by
    have hne := (hsane.stops i c hi).not.2 (by simp [hs])
    simpa using hne
  have hsound := Stepping.sound_of_reachable (hsane.reachable i c hi)
  have hsome := hsound.wellFormed.isSome_beforeStop x
  obtain ⟨r, hr⟩ := Option.isSome_iff_exists.1 hsome
  obtain ⟨c', hc⟩ : ∃ c', (Stepping.system ν P).step (.event x) c = some c' := by
    simp [Stepping.system, Stepping.step, hstop, hr]
  refine ⟨{ s.setController i (some c') with stopped := if c'.stop.isSome then some i else none },
    ?_, i, c, c', hd, hi, hc, setController_self i _ s, ?_, fun j hj => setController_of_ne hj _ s⟩
  · have hc' : Stepping.step P (.event x) c = some c' := hc
    simp [system, step, hook, h.dangled, hhook, hs, hd, hi, hc']
  · show (if c'.stop.isSome then some i else none) = some i ↔ _
    split_ifs with hc' <;> simp [hc']

/-- After the controller is destroyed that the hook finds, the next event calls it. -/
theorem run_to_dangled (hsane : Sane P s) (hd : s.dangled = false) {i : Nat}
    (hi : s.debuggerSession = some i) (hnone : s.controllers i = none) :
    ∃ t, (system ν P).Run (fun _ _ => True) s t ∧ t.dangled = true := by
  have hevent : ∀ s : HookedLua ν, s.dangled = false → s.hooked = true → s.stopped = none →
      s.debuggerSession = some i → s.controllers i = none →
        (system ν P).Run (fun _ _ => True) s { s with dangled := true } := by
    intro s hd hhook hs hi hnone
    refine .single (a := .event (Stepping.lineEvent ν 1 0)) trivial ?_
    simp [system, step, hook, hd, hhook, hs, hi, hnone]
  have hhook : s.hooked = true := by rw [hsane.hooked, hi]; rfl
  cases hs : s.stopped with
  | none => exact ⟨_, hevent s hd hhook hs hi hnone, rfl⟩
  | some j =>
    -- The stop of the other controller ends first.
    obtain ⟨c, hj⟩ := Option.isSome_iff_exists.1 (hsane.stopped j hs)
    obtain ⟨stop, hstop⟩ := Option.isSome_iff_exists.1 ((hsane.stops j c hj).2 hs)
    have hne : i ≠ j := by
      rintro rfl
      rw [hnone] at hj
      cases hj
    let ar := (Stepping.lineEvent ν 1 0).ar
    obtain ⟨c', hc⟩ : ∃ c', Stepping.step P (.resume .continue ar) c = some c' := by
      simp [Stepping.step, hstop]
    have hresume : (system ν P).step (.resume .continue ar) s =
        some { s.setController j (some c') with stopped := none } := by
      simp [system, step, onController, hd, hs, hj, hc]
    exact ⟨_, .head trivial hresume (hevent _ hd hhook rfl hi
      ((setController_of_ne hne _ s).trans hnone)), rfl⟩

/-- **The pointer in the global.** As long as no controller is destroyed that has called
`EnableDebug` last, the hook calls a controller that is there, and it is the one that has called
`EnableDebug` last; after any other destruction it can call one that is gone. -/
theorem called_of_reaches (ν : Type*) (P : PathEquality) :
    (∀ s, (system ν P).Reaches DestroySafe s → s.dangled = false ∧
      (s.hooked = true → s.stopped = none → ∀ x, ∃ s', Calls P s x s')) ∧
    ∀ s a s', (system ν P).Reaches DestroySafe s → (system ν P).step a s = some s' →
      ¬ DestroySafe s a → ∃ t, (system ν P).Run (fun _ _ => True) s' t ∧ t.dangled = true := by
  refine ⟨fun s h => ?_, fun s a s' h hstep hbad => ?_⟩
  · have hattended := attended_of_reaches h
    exact ⟨hattended.dangled, fun hhook hs x =>
      exists_calls (sane_of_reachable h.reachable) hattended hs hhook x⟩
  · have hsane := sane_of_reachable (h.reachable.step hstep)
    obtain ⟨hd, hs⟩ := step_cases hstep
    cases hs with
    | @destroy i hi hs =>
      have hi : s.debuggerSession = some i := by simpa [DestroySafe] using hbad
      exact run_to_dangled hsane hd hi (setController_self i none s)
    | _ => exact absurd trivial hbad

/-- A second client starts, and the first one's session ends with its controller. -/
def handOver : List (Action Unit) := [.create 1, .enableDebug 1, .create 2, .enableDebug 2]

theorem called_of_reaches_handOver : ∃ s s' : HookedLua Unit, s.controllers 1 = none ∧
    s.debuggerSession = some 2 ∧ Calls Stepping.exactPaths s (Stepping.mainLine 1) s' := by
  have hsafe : ∀ s : HookedLua Unit, ∀ a ∈ handOver, DestroySafe s a := by
    simp [handOver, DestroySafe]
  have hinit : (system Unit Stepping.exactPaths).Reaches DestroySafe {} := .init rfl
  have henabled := hinit.run (.of_exec hsafe (by rfl))
  have hother : some 2 ≠ some 1 := by decide
  have hreach := henabled.step (a := Action.destroy 1) hother rfl
  obtain ⟨-, hcalls⟩ := (called_of_reaches Unit Stepping.exactPaths).1 _ hreach
  obtain ⟨s', hs'⟩ := hcalls rfl rfl (Stepping.mainLine 1)
  exact ⟨_, s', rfl, rfl, hs'⟩

/-! ## Controllers that another one has taken the place of -/

/-- The hook does not find this controller, and the Lua thread is not in a stop of it. -/
def Superseded (j : Nat) (s : HookedLua ν) : Prop :=
  s.debuggerSession ≠ some j ∧ s.stopped ≠ some j

theorem superseded_step {j : Nat} {a : Action ν} (h : Superseded j s) (ha : a ≠ .enableDebug j)
    (hs : Step P s a s') : Superseded j s' := by
  cases hs with
  | @enableDebug i c c' hi hc =>
    refine ⟨fun heq => ha ?_, h.2⟩
    rw [Option.some.inj heq]
  | @event x i c c' hs hi =>
    refine ⟨h.1, ?_⟩
    split_ifs
    · exact fun heq => h.1 (hi.trans heq)
    · simp
  | resume => exact ⟨h.1, by simp⟩
  | _ => exact h

/-- **One debugger at a time.** A controller that is in no stop when another one has taken its place
in the global stops no more, whatever breakpoints and steps it has, until it calls `EnableDebug`
again. -/
theorem superseded_of_run (ν : Type*) (P : PathEquality) (j : Nat) :
    ∀ s t : HookedLua ν, (system ν P).Reachable s → Superseded j s →
      (system ν P).Run (fun _ a => a ≠ .enableDebug j) s t →
        Superseded j t ∧ ∀ c, t.controllers j = some c → c.stop = none := by
  intro s t h hj hrun
  have ht : Superseded j t := hrun.invariant (I := Superseded j)
    (fun s a s' hi ha hstep => superseded_step hi ha (step_cases hstep).2) hj
  refine ⟨ht, fun c hc => ?_⟩
  have hne := ((sane_of_reachable (h.run hrun)).stops j c hc).not.2 ht.2
  simpa using hne

/-- The first client sets a breakpoint, and a second client starts. -/
def secondClient : List (Action Unit) :=
  [.create 1, .enableDebug 1, .request 1 (.source ⟨⟨"@main.lua"⟩, [⟨1⟩]⟩), .create 2,
    .enableDebug 2]

/-- The breakpoint of the first client is not hit. -/
theorem superseded_of_run_secondClient : ∃ t : HookedLua Unit,
    (∃ c, t.controllers 1 = some c ∧ c.controller.sourceBreakpoints.length = 1) ∧
      Superseded 1 t ∧ ∀ c, t.controllers 1 = some c → c.stop = none := by
  have hinit : (system Unit Stepping.exactPaths).init {} := rfl
  have hreach := System.Reachable.of_exec secondClient hinit rfl
  have hsilent := superseded_of_run Unit Stepping.exactPaths 1 _ _ hreach
    ⟨by decide, by decide⟩ (.single (a := .event (Stepping.mainLine 1)) nofun rfl)
  exact ⟨_, ⟨_, rfl, rfl⟩, hsilent⟩

end HookedLua

end LuaToolkit
