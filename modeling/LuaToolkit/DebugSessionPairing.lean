import LuaToolkit.DebugSessionInspection
import LuaToolkit.Lib.Recorded

/-!
# Stops and the commands that end them

A resume command writes its mode into `_stoppedState` and then disposes the scheduler of the
stop, by two accesses to an optional that the Lua thread resets and fills again. As long as the
scheduler is open the Lua thread cannot leave the stop, so both accesses and those of the
inspection requests meet the stop that the check before them found. A stop that has already been
resumed gives no such hold.

* `Pairing` — a record of the modes that commands write, and of the stop a handler works on.
* `Paired` — stops end by a command for them, and handlers do not touch another stop.
* `PairSafe` — every check finds no stop, or one without a mode.
* `paired_of_reaches` — this is the exact condition for the pairing.
-/

namespace LuaToolkit.DebugSession

open Transition

variable {V : Type*} {rt : Runtime} {s s' : DebugSession V}

/-! ## The record and the property -/

/-- The modes written, each with the number of the stop and the request that asked for it; the
stop found by the check of the request that is handled, and the stop whose mode it has written. -/
structure Pairing (V : Type*) where
  written : List (Nat × ContinueExecutionMode × Dap.RequestMessage V) := []
  checked : Option Nat := none
  wrote : Option Nat := none

/-- What a statement of a handler adds, given the stop that it meets. -/
def Pairing.handled (q : Dap.RequestMessage V) (p : HandlerPoint V) (st : StoppedExecutionState)
    (g : Pairing V) : Pairing V :=
  match p with
  | .inspectAssert _ | .resumeAssertStopped _ | .disconnectTest =>
    { g with checked := some st.scheduler }
  | .resumeMode mode =>
    { g with written := g.written ++ [(st.scheduler, mode, q)], wrote := some st.scheduler }
  | .disconnectMode =>
    { g with written := g.written ++ [(st.scheduler, .stopped, q)], wrote := some st.scheduler }
  | _ => g

def Pairing.record (s : DebugSession V) : Action V → DebugSession V → Pairing V → Pairing V
  | .lua _, _, g => g
  | .run _, _, g =>
    match s.run, s.stoppedState with
    | .request _, _ => { g with checked := none, wrote := none }
    | .handle q _ p, some st => g.handled q p st
    | _, _ => g

/-- The sessions with their records. -/
abbrev pairedSystem (V : Type*) (rt : Runtime) : System (DebugSession V × Pairing V) (Action V) :=
  (system V rt).recorded {} Pairing.record

/-- The command that sets a mode. -/
def Commands (rt : Runtime) (q : Dap.RequestMessage V) : ContinueExecutionMode → Prop
  | .continue => rt.icaseEqual q.command "continue"
  | .step => rt.icaseEqual q.command "next"
  | .stepIn => rt.icaseEqual q.command "stepIn"
  | .stepOut => rt.icaseEqual q.command "stepOut"
  | .stopped => rt.icaseEqual q.command "disconnect"

/-- How far a handler has come with the stop that its check has found: `false` before it writes a
mode, `true` between that and the disposal. -/
def stage : HandlerPoint V → Option Bool
  | .inspectCast _ | .inspectSchedule _ | .resumeAssertMode _ | .resumeMode _ | .disconnectMode =>
    some false
  | .resumeDispose | .disconnectDispose => some true
  | _ => none

/-- Stops and commands go together. -/
structure Paired (rt : Runtime) (s : DebugSession V) (g : Pairing V) : Prop where
  /-- When `Execute` has returned, the assertion that follows it holds. -/
  assertion : ∀ k, s.lua = .assertMode k → ∃ mode, s.stoppedState = some ⟨k, some mode⟩
  /-- The result of `StopExecution` was written by a command into the state of this stop. -/
  returns : ∀ k mode, s.lua = .leave k mode →
    (s.schedulers k).scheduler.isClosed = true ∧ ∃ q, (k, mode, q) ∈ g.written ∧ Commands rt q mode
  /-- The scheduler about to be disposed is that of the stop into which the mode was written. -/
  disposes : ∀ q r p, s.run = .handle q r p → stage p = some true →
    ∃ k mode, g.wrote = some k ∧ s.stoppedState = some ⟨k, mode⟩
  /-- The state about to be read is there, and is that of the stop that the check found. -/
  reads : ∀ q r p, s.run = .handle q r p → Derefs p →
    ∃ k mode, g.checked = some k ∧ s.stoppedState = some ⟨k, mode⟩

/-- The check of a request finds no stop, or one without a mode. -/
def PairSafe (s : DebugSession V) : Action V → Prop
  | .run _ => ∀ q r p st, s.run = .handle q r p → s.stoppedState = some st →
    (p = .disconnectTest ∨ (∃ i, p = .inspectAssert i) ∨ ∃ mode, p = .resumeAssertStopped mode) →
      st.continueMode = none
  | .lua _ => True

/-! ## The invariant -/

/-- The handler is one of the command whose mode it sets. -/
def Begun (rt : Runtime) (q : Dap.RequestMessage V) : HandlerPoint V → Prop
  | .resumeAssertStopped mode | .resumeAssertMode mode | .resumeMode mode => Commands rt q mode
  | .disconnectClose | .disconnectTest | .disconnectMode => Commands rt q .stopped
  | _ => True

theorem Begun.ite {c : Prop} [Decidable c] {q : Dap.RequestMessage V} {p p' : HandlerPoint V}
    (h : c → Begun rt q p) (h' : Begun rt q p') : Begun rt q (if c then p else p') := by
  by_cases hc : c
  · rw [if_pos hc]
    exact h hc
  · rwa [if_neg hc]

theorem begun_dispatch (q : Dap.RequestMessage V) : Begun rt q (rt.dispatch q.command) := by
  unfold Runtime.dispatch
  repeat' apply Begun.ite
  all_goals first | exact trivial | exact fun _ => trivial | exact fun h => h

/-- A mode that some command wrote into the state of a stop. -/
def Written (rt : Runtime) (g : Pairing V) (k : Nat) (mode : ContinueExecutionMode) : Prop :=
  ∃ q, (k, mode, q) ∈ g.written ∧ Commands rt q mode

/-- What a handler relies on. -/
def Relies (s : DebugSession V) (g : Pairing V) (p : HandlerPoint V) : Prop :=
  match stage p with
  | some false => ∃ k, Holding s k none ∧ g.checked = some k
  | some true => ∃ k mode, Holding s k (some mode) ∧ g.checked = some k ∧ g.wrote = some k
  | none => True

/-- The scheduler of a stop is disposed of exactly when the mode is set, except between the two
statements of a command. -/
def Disposed (s : DebugSession V) : Prop :=
  (∀ q r p, s.run = .handle q r p → stage p ≠ some true) →
    ∀ k mode, s.stoppedState = some ⟨k, mode⟩ →
      ((s.schedulers k).scheduler.isClosed = true ↔ mode ≠ none)

/-- The invariant of runs in which the checks are safe. -/
structure Matched (rt : Runtime) (s : DebugSession V) (g : Pairing V) : Prop where
  tended : Tended s
  alive : s.lua ≠ .halted
  relies : ∀ q r p, s.run = .handle q r p → Relies s g p
  disposed : Disposed s
  modes : ∀ k mode, s.stoppedState = some ⟨k, some mode⟩ → Written rt g k mode
  left : ∀ k mode, s.lua = .leave k mode → Written rt g k mode
  begun : ∀ q r p, s.run = .handle q r p → Begun rt q p

theorem Written.mono {g g' : Pairing V} (hg : ∀ x ∈ g.written, x ∈ g'.written) {k : Nat}
    {mode : ContinueExecutionMode} (h : Written rt g k mode) : Written rt g' k mode := by
  obtain ⟨q, hq, hc⟩ := h
  exact ⟨q, hg _ hq, hc⟩

namespace Matched

variable {g : Pairing V}

/-- At its disposal a stop has its mode, and the scheduler is still open. -/
theorem disposing (h : Matched rt s g) {q : Dap.RequestMessage V} {r : Dap.ResponseMessage V}
    {p : HandlerPoint V} (hr : s.run = .handle q r p) (hp : stage p = some true) :
    ∃ k mode, Holding s k (some mode) ∧ g.checked = some k ∧ g.wrote = some k := by
  have hrel := h.relies q r p hr
  unfold Relies at hrel
  rwa [hp] at hrel

/-- A stop whose scheduler has been disposed of has its mode. -/
theorem mode_ne_none (h : Matched rt s g) {k : Nat} {mode : Option ContinueExecutionMode}
    (hst : s.stoppedState = some ⟨k, mode⟩) (hc : (s.schedulers k).scheduler.isClosed = true) :
    mode ≠ none := by
  by_cases hd : ∃ q r p, s.run = .handle q r p ∧ stage p = some true
  · obtain ⟨q, r, p, hr, hp⟩ := hd
    obtain ⟨j, m, ⟨-, hst', -⟩, -⟩ := h.disposing hr hp
    cases hst.symm.trans hst'
    nofun
  · exact (h.disposed (fun q r p hr hp => hd ⟨q, r, p, hr, hp⟩) k mode hst).1 hc

/-- A stop without a mode is held. -/
theorem holding (h : Matched rt s g) {st : StoppedExecutionState}
    (hst : s.stoppedState = some st) (hm : st.continueMode = none) :
    Holding s st.scheduler none := by
  obtain ⟨k, mode⟩ := st
  obtain rfl : mode = none := hm
  have hopen := mt (h.mode_ne_none hst) (not_not.2 rfl)
  exact ⟨h.tended.coherent.scheduler?_eq h.alive hst, hst, Bool.not_eq_true _ ▸ hopen⟩

/-- After `Execute` the mode is there. -/
theorem returned_mode (h : Matched rt s g) {k : Nat} (hl : s.lua = .assertMode k) :
    ∃ mode, s.stoppedState = some ⟨k, some mode⟩ := by
  obtain ⟨mode, hst⟩ := h.tended.coherent.scheduler_eq (k := k) (by simp [hl, LuaPoint.scheduler?])
  obtain ⟨m, rfl⟩ := Option.ne_none_iff_exists'.1
    (h.mode_ne_none hst (h.tended.isClosed_of_left (.inl hl)))
  exact ⟨m, hst⟩

end Matched

/-! ## Steps of the Lua thread -/

theorem relies_lua {g : Pairing V} {i : LuaInput V} {p : HandlerPoint V} (h : Matched rt s g)
    (hs : LuaStep rt s i s') (hp : Relies s g p) : Relies s' g p := by
  unfold Relies at hp ⊢
  split at hp
  · obtain ⟨k, hk, hchecked⟩ := hp
    exact ⟨k, holding_lua h.tended.isClosed_of_left hs hk, hchecked⟩
  · obtain ⟨k, mode, hk, hg⟩ := hp
    exact ⟨k, mode, holding_lua h.tended.isClosed_of_left hs hk, hg⟩
  · trivial

theorem alive_lua {g : Pairing V} {i : LuaInput V} (h : Matched rt s g) (hs : LuaStep rt s i s') :
    s'.lua ≠ .halted := by
  cases hs with
  | notFree hl hst =>
    have hnone :=
      h.tended.coherent.stoppedState_eq_none h.alive (by simp [hl, LuaPoint.scheduler?])
    exact absurd hnone hst
  | noMode hl hm =>
    obtain ⟨mode, hst⟩ := h.returned_mode hl
    simp [hst] at hm
  | execute | answer => exact h.alive
  | _ =>
    intro hl'
    cases hl'

theorem left_lua {g : Pairing V} {i : LuaInput V} (h : Matched rt s g) (hs : LuaStep rt s i s')
    {k : Nat} {mode : ContinueExecutionMode} (hl' : s'.lua = .leave k mode) :
    Written rt g k mode := by
  have hfail : (s.stopAssertFailed rt).lua ≠ .leave k mode := by
    unfold stopAssertFailed
    split_ifs <;> nofun
  cases hs with
  | notFree | noMode => exact absurd hl' hfail
  | assertMode hl hm =>
    cases hl'
    obtain ⟨m, hst⟩ := h.returned_mode hl
    obtain rfl : m = mode := by simpa [hst] using hm
    exact h.modes k m hst
  | execute | answer => exact h.left k mode hl'
  | _ => cases hl'

theorem disposed_lua {g : Pairing V} {i : LuaInput V} (h : Matched rt s g)
    (hs : LuaStep rt s i s') : Disposed s' := by
  intro hd k mode hst
  rcases luaStep_shared hs with hnone | ⟨j, hnew, hopen⟩ | ⟨hsame, hclosed⟩
  · rw [hnone] at hst
    cases hst
  · rw [hnew] at hst
    cases hst
    simp [hopen]
  · rw [(luaStep_run hs).1] at hd
    rw [hclosed]
    exact h.disposed hd k mode (hsame ▸ hst)

theorem modes_lua {g : Pairing V} {i : LuaInput V} (h : Matched rt s g) (hs : LuaStep rt s i s')
    {k : Nat} {mode : ContinueExecutionMode} (hst : s'.stoppedState = some ⟨k, some mode⟩) :
    Written rt g k mode := by
  rcases luaStep_shared hs with hnone | ⟨j, hnew, -⟩ | ⟨hsame, -⟩
  · rw [hnone] at hst
    cases hst
  · rw [hnew] at hst
    cases hst
  · exact h.modes k mode (hsame ▸ hst)

theorem matched_lua {g : Pairing V} {i : LuaInput V} (h : Matched rt s g)
    (hs : LuaStep rt s i s') : Matched rt s' g where
  tended := tended_lua h.tended hs
  alive := alive_lua h hs
  relies q r p hr := relies_lua h hs (h.relies q r p ((luaStep_run hs).1 ▸ hr))
  disposed := disposed_lua h hs
  modes _ _ := modes_lua h hs
  left _ _ := left_lua h hs
  begun q r p hr := h.begun q r p ((luaStep_run hs).1 ▸ hr)

/-! ## Steps of `Run` -/

/-- Where a handler begins it relies on nothing. -/
theorem stage_entry {p : HandlerPoint V} (h : Entry p) : stage p = none := by
  cases h <;> rfl

theorem record_handle {g : Pairing V} {q : Dap.RequestMessage V} {r : Dap.ResponseMessage V}
    {p : HandlerPoint V} {st : StoppedExecutionState} {i : RunInput V}
    (hr : s.run = .handle q r p) (hst : s.stoppedState = some st) :
    Pairing.record s (.run i) s' g = g.handled q p st := by
  simp only [Pairing.record, hr, hst]

theorem written_handled {g : Pairing V} (q : Dap.RequestMessage V) (p : HandlerPoint V)
    (st : StoppedExecutionState) : ∀ x ∈ g.written, x ∈ (g.handled q p st).written := by
  intro x hx
  cases p <;> first | exact hx | exact List.mem_append_left _ hx

/-- Nothing is taken off the record. -/
theorem written_record {g : Pairing V} (a : Action V) :
    ∀ x ∈ g.written, x ∈ (Pairing.record s a s' g).written := by
  intro x hx
  cases a with
  | lua i => exact hx
  | run i =>
    simp only [Pairing.record]
    split
    · exact hx
    · exact written_handled _ _ _ x hx
    · exact hx

theorem relies_run {g : Pairing V} {i : RunInput V} (h : Matched rt s g)
    (hok : PairSafe s (.run i)) (hs : RunStep rt s i s') {q : Dap.RequestMessage V}
    {r : Dap.ResponseMessage V} {p : HandlerPoint V} (hr' : s'.run = .handle q r p) :
    Relies s' (Pairing.record s (.run i) s' g) p := by
  have hnone : ∀ {p : HandlerPoint V} {g : Pairing V}, stage p = none → Relies s' g p := by
    intro p g hp
    unfold Relies
    rw [hp]
    trivial
  cases hs with
  | @handle q₀ r₀ p₀ _ _ hr hstep =>
    have hp := h.relies q₀ r₀ p₀ hr
    have hcheck : ∀ {st : StoppedExecutionState}, s.stoppedState = some st →
        (p₀ = .disconnectTest ∨ (∃ i, p₀ = .inspectAssert i) ∨
          ∃ mode, p₀ = .resumeAssertStopped mode) → Holding s st.scheduler none :=
      fun hst hp₀ => h.holding hst (hok q₀ r₀ p₀ _ hr hst hp₀)
    cases hstep with
    | disconnectStopped hst =>
      cases hr'
      rw [record_handle hr hst]
      exact ⟨_, hcheck hst (.inl rfl), rfl⟩
    | inspectAssert i hst =>
      cases hr'
      rw [record_handle hr hst]
      exact ⟨_, hcheck hst (.inr (.inl ⟨i, rfl⟩)), rfl⟩
    | resumeAssertStopped mode hst =>
      cases hr'
      rw [record_handle hr hst]
      exact ⟨_, hcheck hst (.inr (.inr ⟨mode, rfl⟩)), rfl⟩
    | cast i arguments =>
      cases hr'
      obtain ⟨k, hk, hchecked⟩ := hp
      rw [record_handle hr hk.2.1]
      exact ⟨k, hk, hchecked⟩
    | resumeAssertMode mode hst hm =>
      cases hr'
      obtain ⟨k, hk, hchecked⟩ := hp
      rw [record_handle hr hst]
      exact ⟨k, hk, hchecked⟩
    | disconnectMode hst | resumeMode mode hst =>
      cases hr'
      obtain ⟨k, ⟨hk, hst', hopen⟩, hchecked⟩ := hp
      obtain rfl := Option.some.inj (hst.symm.trans hst')
      rw [record_handle hr hst]
      exact ⟨k, _, ⟨hk, rfl, hopen⟩, hchecked, rfl⟩
    | assertFails => exact absurd hr' (by simp)
    | controllerThrows | disconnectThrows | castThrows | answerThrows | done | derefs => cases hr'
    | _ =>
      cases hr'
      exact hnone rfl
  | request hr =>
    cases hr'
    exact hnone (stage_entry (dispatch_entry _))
  | receive hr result => exact absurd hr' (receiveMessage_ne_handle result)
  | _ => cases hr'

theorem disposed_run {g : Pairing V} {i : RunInput V} (h : Matched rt s g)
    (hs : RunStep rt s i s') : Disposed s' := by
  intro hd k mode hst'
  cases hs with
  | @handle q r p _ _ hr hstep =>
    have hsame : stage p ≠ some true → s.stoppedState = some ⟨k, mode⟩ →
        ((s.schedulers k).scheduler.isClosed = true ↔ mode ≠ none) := by
      refine fun hp => h.disposed (fun q' r' p' hr' => ?_) k mode
      rw [hr] at hr'
      cases hr'
      exact hp
    cases hstep with
    | disconnectMode | resumeMode => exact absurd rfl (hd _ _ _ rfl)
    | disconnectDispose hst | resumeDispose hst =>
      obtain ⟨j, m, ⟨-, hst'', -⟩, -⟩ := h.disposing hr rfl
      obtain rfl := Option.some.inj (hst.symm.trans hst')
      cases hst.symm.trans hst''
      simp [onScheduler, Execution.dispose, InplaceExecutionScheduler.dispose]
    | schedule invocation hst =>
      obtain rfl := Option.some.inj (hst.symm.trans hst')
      simpa [onScheduler, Execution.scheduleInvocation,
        InplaceExecutionScheduler.scheduleInvocation] using hsame (by simp [stage]) hst
    | assertFails ha =>
      rw [assertFailed_stoppedState] at hst'
      rw [assertFailed_schedulers]
      refine hsame (fun hp => ?_) hst'
      cases p <;> first | exact ha | cases hp
    | derefs hp hst =>
      rw [hst] at hst'
      cases hst'
    | _ => exact hsame (by simp [stage]) hst'
  | start hr | receive hr | request hr | sent hr | sendThrows hr | again hr | closed hr =>
    exact h.disposed (by simp [hr]) k mode hst'

theorem modes_run {g : Pairing V} {i : RunInput V} (h : Matched rt s g) (hs : RunStep rt s i s')
    {k : Nat} {mode : ContinueExecutionMode} (hst' : s'.stoppedState = some ⟨k, some mode⟩) :
    Written rt (Pairing.record s (.run i) s' g) k mode := by
  have hold : s.stoppedState = some ⟨k, some mode⟩ →
      Written rt (Pairing.record s (.run i) s' g) k mode :=
    fun hst => (h.modes k mode hst).mono (written_record _)
  cases hs with
  | @handle q r p _ _ hr hstep =>
    have hb := h.begun q r p hr
    cases hstep with
    | disconnectMode hst | resumeMode _ hst =>
      cases hst'
      rw [record_handle hr hst]
      exact ⟨q, by simp [Pairing.handled], hb⟩
    | assertFails => exact hold (by simpa using hst')
    | _ => exact hold hst'
  | _ => exact hold hst'

theorem begun_run {g : Pairing V} {i : RunInput V} (h : Matched rt s g) (hs : RunStep rt s i s')
    {q : Dap.RequestMessage V} {r : Dap.ResponseMessage V} {p : HandlerPoint V}
    (hr' : s'.run = .handle q r p) : Begun rt q p := by
  cases hs with
  | handle hr hstep =>
    have hb := h.begun _ _ _ hr
    cases hstep with
    | assertFails => exact absurd hr' (by simp)
    | controllerThrows | disconnectThrows | castThrows | answerThrows | done | derefs => cases hr'
    | disconnectClose | disconnectStopped | resumeAssertStopped | resumeAssertMode =>
      cases hr'
      exact hb
    | _ =>
      cases hr'
      trivial
  | request hr =>
    cases hr'
    exact begun_dispatch _
  | receive hr result => exact absurd hr' (receiveMessage_ne_handle result)
  | _ => cases hr'

theorem PairSafe.inspectSafe {a : Action V} (h : PairSafe s a) : InspectSafe s a := by
  cases a with
  | lua i => trivial
  | run i =>
    cases i with
    | step => exact fun q r i st hr hst => h q r _ st hr hst (.inr (.inl ⟨i, rfl⟩))
    | _ => trivial

theorem matched_run {g : Pairing V} {i : RunInput V} (h : Matched rt s g)
    (hok : PairSafe s (.run i)) (hs : RunStep rt s i s') :
    Matched rt s' (Pairing.record s (.run i) s' g) where
  tended := tended_run h.tended hok.inspectSafe hs
  alive := (runStep_shared hs).1 ▸ h.alive
  relies _ _ _ := relies_run h hok hs
  disposed := disposed_run h hs
  modes _ _ := modes_run h hs
  left k mode hl := (h.left k mode ((runStep_shared hs).1 ▸ hl)).mono (written_record _)
  begun _ _ _ := begun_run h hs

theorem matched_of_reaches {g : Pairing V}
    (h : (pairedSystem V rt).Reaches (fun x a => PairSafe x.1 a) (s, g)) : Matched rt s g := by
  refine System.Reaches.recorded PairSafe (fun s hs => ?_) (fun s g a s' hi hok hstep => ?_) h
  · rw [show s = {} from hs]
    exact {
      tended := tended_of_reaches (.init rfl : (system V rt).Reaches InspectSafe {})
      alive := nofun
      relies := nofun
      disposed := nofun
      modes := nofun
      left := nofun
      begun := nofun }
  · cases a with
    | run i => exact matched_run hi hok (runStep_iff.1 hstep)
    | lua i => exact matched_lua hi (luaStep_iff.1 hstep)

theorem Matched.paired {g : Pairing V} (h : Matched rt s g) : Paired rt s g where
  assertion k hl := by
    obtain ⟨mode, hst⟩ := h.returned_mode hl
    exact ⟨mode, hst⟩
  returns k mode hl := ⟨h.tended.isClosed_of_left (.inr ⟨mode, hl⟩), h.left k mode hl⟩
  disposes q r p hr hp := by
    obtain ⟨k, mode, ⟨-, hst, -⟩, -, hwrote⟩ := h.disposing hr hp
    exact ⟨k, some mode, hwrote, hst⟩
  reads q r p hr hp := by
    have hrel := h.relies q r p hr
    cases p with
    | disconnectDispose | resumeDispose =>
      obtain ⟨k, mode, ⟨-, hst, -⟩, hchecked, -⟩ := hrel
      exact ⟨k, some mode, hchecked, hst⟩
    | disconnectMode | inspectSchedule | resumeAssertMode | resumeMode =>
      obtain ⟨k, ⟨-, hst, -⟩, hchecked⟩ := hrel
      exact ⟨k, none, hchecked, hst⟩
    | _ => exact hp.elim

/-! ## The condition -/

variable (rt) in
/-- After `Execute` the Lua thread leaves the stop. -/
theorem run_to_free {k : Nat} {mode : ContinueExecutionMode}
    (hl : s.lua = .execute k ∨ s.lua = .assertMode k ∨ ∃ mode, s.lua = .leave k mode)
    (hp : (s.schedulers k).point = .returned) (hst : s.stoppedState = some ⟨k, some mode⟩) :
    ∃ t, (system V rt).Run LuaSilent s t ∧ t.run = s.run ∧ t.stoppedState = none := by
  have hleave : ∀ s : DebugSession V, (∃ mode, s.lua = .leave k mode) →
      ∃ t, (system V rt).Run LuaSilent s t ∧ t.run = s.run ∧ t.stoppedState = none := by
    rintro s ⟨m, hl⟩
    exact ⟨_, .single rfl (LuaStep.leave hl).step, rfl, rfl⟩
  have hassert : ∀ s : DebugSession V, s.lua = .assertMode k →
      s.stoppedState = some ⟨k, some mode⟩ →
        ∃ t, (system V rt).Run LuaSilent s t ∧ t.run = s.run ∧ t.stoppedState = none := by
    intro s hl hst
    obtain ⟨t, hrun, ht⟩ := hleave { s with lua := .leave k mode } ⟨mode, rfl⟩
    exact ⟨t, .head rfl (LuaStep.assertMode hl (by rw [hst]; rfl)).step hrun, ht⟩
  rcases hl with hl | hl | hl
  · obtain ⟨t, hrun, ht⟩ := hassert { s with lua := .assertMode k } rfl hst
    exact ⟨t, .head rfl (LuaStep.returned hl hp).step hrun, ht⟩
  · exact hassert s hl hst
  · exact hleave s hl

/-- In a resumed stop, with no disposal to come, the Lua thread leaves the stop whatever `Run`
goes on with. -/
theorem Matched.run_to_free {g : Pairing V} (h : Matched rt s g)
    (hd : ∀ q r p, s.run = .handle q r p → stage p = none) {k : Nat} {mode : ContinueExecutionMode}
    (hst : s.stoppedState = some ⟨k, some mode⟩) (run : RunPoint V) :
    ∃ t, (system V rt).Run LuaSilent { s with run := run } t ∧ t.run = run ∧
      t.stoppedState = none := by
  have hc : (s.schedulers k).scheduler.isClosed = true :=
    (h.disposed (fun q r p hr => by rw [hd q r p hr]; nofun) k _ hst).2 nofun
  have hidle : Idle s := by
    have hf := h.tended.flight
    have hh := h.tended.held
    unfold Flight at hf
    unfold Held at hh
    split at hf
    · rename_i q r j hr
      rw [hr] at hh
      obtain ⟨-, hst', -⟩ := hh
      cases hst.symm.trans hst'
    · exact hf
  obtain ⟨t, hrun, hkeep, hp, hl⟩ :=
    run_to_end rt (s := { s with run := run }) h.tended.returned
      (h.tended.coherent.scheduler?_eq h.alive hst)
      (Execution.signalled_of_reaches (h.tended.schedulers k)) hc (hidle.2 k _ hst)
  obtain ⟨u, hrun', hu, hnone⟩ := DebugSession.run_to_free rt hl hp (hkeep.stoppedState.trans hst)
  exact ⟨u, hrun.trans hrun', hu.trans hkeep.run, hnone⟩

/-- A request that passes its check in a resumed stop can be overtaken by the Lua thread. -/
theorem unpaired_of_unsafe {g g' : Pairing V} (h : Matched rt s g) {a : Action V}
    (hstep : (system V rt).step a s = some s') (hbad : ¬ PairSafe s a) :
    ∃ t g'', (pairedSystem V rt).Run (fun x a => Alone x.1 a) (s', g') (t, g'') ∧
      ¬ Paired rt t g'' := by
  cases a with
  | lua i => exact absurd trivial hbad
  | run i =>
    simp only [PairSafe, not_forall] at hbad
    obtain ⟨q, r, p, ⟨k, mode⟩, hr, hst, hp, hm⟩ := hbad
    obtain ⟨mode, rfl⟩ := Option.ne_none_iff_exists'.1 hm
    have hd : ∀ q r p, s.run = .handle q r p → stage p = none := by
      intro q r p hr'
      rw [hr] at hr'
      cases hr'
      rcases hp with rfl | ⟨i, rfl⟩ | ⟨mode, rfl⟩ <;> rfl
    have hend : ∀ (t : DebugSession V) (p : HandlerPoint V), Derefs p → t.run = .handle q r p →
        t.stoppedState = none → (system V rt).Run Alone s' t →
          ∃ t g'', (pairedSystem V rt).Run (fun x a => Alone x.1 a) (s', g') (t, g'') ∧
            ¬ Paired rt t g'' := by
      intro t p hp htr hnone hrun
      obtain ⟨g'', hrun'⟩ := hrun.recorded g'
      refine ⟨t, g'', hrun', fun hpaired => ?_⟩
      obtain ⟨j, m, -, hsome⟩ := hpaired.reads q r p htr hp
      rw [hnone] at hsome
      cases hsome
    cases runStep_iff.1 hstep with
    | handle hr' hs =>
      rw [hr] at hr'
      cases hr'
      cases hs with
      | disconnectStopped =>
        obtain ⟨t, hrun, ht, hnone⟩ := h.run_to_free hd hst (.handle q r .disconnectMode)
        exact hend t .disconnectMode trivial ht hnone (hrun.mono fun _ _ ha => ha.luaAlone.alone)
      | resumeAssertStopped mode =>
        obtain ⟨t, hrun, ht, hnone⟩ := h.run_to_free hd hst (.handle q r (.resumeAssertMode mode))
        exact hend t (.resumeAssertMode mode) trivial ht hnone
          (hrun.mono fun _ _ ha => ha.luaAlone.alone)
      | inspectAssert i =>
        obtain ⟨t, hrun, ht, hnone⟩ := h.run_to_free hd hst (.handle q r (.inspectCast i))
        have hcast : RunStep rt t (.cast (.ok q.arguments))
            { t with run := .handle q r (.inspectSchedule ⟨i, q.arguments⟩) } :=
          .handle ht (.cast i q.arguments)
        have hrun' : (system V rt).Run Alone { s with run := .handle q r (.inspectCast i) } t :=
          hrun.mono fun _ _ ha => ha.luaAlone.alone
        have halone : Alone t (.run (.cast (.ok q.arguments))) := alone_run nofun
        exact hend { t with run := .handle q r (.inspectSchedule ⟨i, q.arguments⟩) }
          (.inspectSchedule ⟨i, q.arguments⟩) trivial rfl hnone
          (hrun'.tail halone hcast.step)
      | disconnectRunning hnone =>
        rw [hst] at hnone
        cases hnone
      | assertFails ha =>
        rcases hp with rfl | ⟨i, rfl⟩ | ⟨mode, rfl⟩
        · exact ha.elim
        · exact absurd (hst.symm.trans ha) nofun
        · exact absurd (hst.symm.trans ha) nofun
      | derefs _ hnone =>
        rw [hst] at hnone
        cases hnone
      | _ =>
        -- Not the check of a request.
        simp at hp
    | _ => simp_all

/-- **Stops and commands.** As long as no check finds a stop that has been given a mode already,
`StopExecution` returns what a command for this stop has written, and the handlers work on the
stop that they have checked. After a check that does, the two threads alone can come to a state
where this is not so. -/
theorem paired_of_reaches (V : Type*) (rt : Runtime) :
    (∀ s g, (pairedSystem V rt).Reaches (fun x a => PairSafe x.1 a) (s, g) → Paired rt s g) ∧
      ∀ s g a s' g', (pairedSystem V rt).Reaches (fun x a => PairSafe x.1 a) (s, g) →
        (pairedSystem V rt).step a (s, g) = some (s', g') → ¬ PairSafe s a →
          ∃ t g'', (pairedSystem V rt).Run (fun x a => Alone x.1 a) (s', g') (t, g'') ∧
            ¬ Paired rt t g'' :=
  ⟨fun _ _ h => (matched_of_reaches h).paired, fun _ _ _ _ _ h hstep hbad =>
    unpaired_of_unsafe (matched_of_reaches h) (System.recorded_step_iff.1 hstep).1 hbad⟩

/-- A `disconnect` that finds the stop it is about to end resumed: the Lua thread has read its
mode, and is in the next stop when the scheduler is disposed of. -/
def overtakenDisconnect : List (Action Unit) :=
  [.run .step, .lua (.stop { reason := "breakpoint" }), .lua .step, .lua .step, .lua .step,
    .lua .step, .lua .step] ++
  [clientRequest 1 "continue", .run .step, .run .step, .run .step, .run .step, .run .step,
    .run .step, .run (.sent (.ok ())), .run .step] ++
  [.lua .step, .lua .step, .lua .step, .lua .step] ++
  [clientRequest 2 "disconnect", .run .step, .run .step, .run .step, .run .step] ++
  [.lua .step, .lua (.stop { reason := "breakpoint" }), .lua .step, .lua .step] ++
  [.run .step, .lua .step, .lua .step, .lua .step, .lua .step]

/-- The assertion after `Execute` fails. -/
theorem unpaired_reachable :
    ¬ ∀ s g, (pairedSystem Unit plainRuntime).Reachable (s, g) → Paired plainRuntime s g := by
  intro h
  have hstart : (pairedSystem Unit plainRuntime).init ({}, {}) := ⟨rfl, rfl⟩
  obtain ⟨mode, hst⟩ :=
    (h _ _ (System.Reachable.of_exec overtakenDisconnect hstart rfl)).assertion 1 rfl
  cases hst

end LuaToolkit.DebugSession
