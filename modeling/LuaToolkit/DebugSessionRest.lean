import LuaToolkit.DebugSessionExit
import LuaToolkit.DebugSessionInspection
import LuaToolkit.DebugSessionDialogue
import LuaToolkit.InplaceSchedulerRest

/-!
# A session at rest

Between two messages of the client and two stops of the debuggee, both threads of a session make
only finitely many steps, in whatever order they are scheduled: a statement of `Run` takes it
closer to the next message and wakes up the Lua thread at most once, and every round of `Execute`
uses up the signal that started it.

* `effort` — a bound on the steps of both threads up to the next message or stop.
* `Quiescent` — `Run` waits for the client and owes it no response, and the Lua thread is outside
  `StopExecution` or in a stop that nobody has asked it to leave.
* `comes_to_rest` — in runs that keep the conditions of `blocked_unreachable` and
  `stranded_unreachable`, a session whose threads can make no step is quiescent: they never wait
  for each other, no request stays without its response, and every resumed stop has ended.
-/

namespace LuaToolkit.DebugSession

open Transition

variable {V : Type*} {rt : Runtime} {s s' : DebugSession V} {g : Dialogue V}

/-! ## The effort -/

/-- What is left of a stop for the Lua thread. -/
def luaEffort (s : DebugSession V) : Nat :=
  match s.lua with
  | .running | .halted => 0
  | .leave _ _ => 1
  | .assertMode _ => 2
  | .execute k => (s.schedulers k).effort + 3
  | .announce k _ => (s.schedulers k).effort + 4
  | .event k _ => (s.schedulers k).effort + 5
  | .emplace _ => 7
  | .assertFree _ => 8

/-- A statement of `Run` may call the scheduler of the stop, which costs the Lua thread four more
steps. -/
def effort (s : DebugSession V) : Nat := 5 * runRank s.run + luaEffort s

/-- Every statement of `Run` but the one that reads brings it closer to that one. -/
theorem runRank_run {i : RunInput V} (h : RunStep rt s i s') (hi : ∀ result, i ≠ .message result) :
    runRank s'.run < runRank s.run := by
  cases h with
  | receive hr result => exact absurd rfl (hi result)
  | @request q hr =>
    have hle := rank_le (rt.dispatch q.command : HandlerPoint V)
    simp only [hr, runRank]
    omega
  | @handle q r p _ _ hr hs =>
    have hgo := hs.goesOn
    have hpos := rank_pos p
    rw [hr]
    generalize s'.run = point at hgo
    cases hgo with
    | next p' hlt =>
      simp only [runRank]
      omega
    | body value hp =>
      have hlt := rank_done_lt hp
      simp only [runRank]
      omega
    | responds | throws | halts =>
      simp only [runRank]
      omega
  | start hr | sent hr | sendThrows hr | again hr | closed hr => simp [hr, runRank]

theorem luaEffort_run {i : RunInput V} (h : RunStep rt s i s') :
    luaEffort s' ≤ luaEffort s + 4 := by
  have hsch : ∀ k, (s'.schedulers k).effort ≤ (s.schedulers k).effort + 4 := by
    intro k
    rcases scheduler_run h k with hk | hk | ⟨invocation, hk⟩ <;> rw [hk]
    · exact Nat.le_add_right _ _
    · exact Execution.effort_dispose _
    · exact Execution.effort_scheduleInvocation _ _
  unfold luaEffort
  rw [(runStep_shared h).1]
  cases s.lua with
  | execute k | announce k | event k =>
    have hk := hsch k
    dsimp only
    omega
  | _ => exact Nat.le_add_right _ _

theorem luaEffort_lua {i : LuaInput V} (h : LuaStep rt s i s') (hi : ∀ ev, i ≠ .stop ev) :
    luaEffort s' < luaEffort s := by
  have hfail : luaEffort (s.stopAssertFailed rt) = 0 := by
    unfold stopAssertFailed
    split_ifs <;> rfl
  cases h with
  | stop hl ev => exact absurd rfl (hi ev)
  | notFree hl | noMode hl =>
    rw [hfail]
    simp [luaEffort, hl]
  | @execute k hl e hp he | @answer k hl e c i rest hp he result =>
    have hlt := Execution.effort_execute he
    simp only [luaEffort, hl, Function.update_self]
    omega
  | emplace hl => simp [luaEffort, hl, Execution.effort, Execution.pointEffort]
  | leave hl => simp [luaEffort, hl, scopeLeave]
  | _ =>
    have hl := ‹s.lua = _›
    simp [luaEffort, hl, nextSeqId]

variable (V rt) in
theorem spends_effort : (system V rt).Spends Alone effort := by
  intro s a s' ha hstep
  unfold effort
  cases a with
  | run i =>
    have h := runStep_iff.1 hstep
    have hrank := runRank_run h fun result hi => ha.1 result (congrArg Action.run hi)
    have hlua := luaEffort_run h
    omega
  | lua i =>
    have h := luaStep_iff.1 hstep
    have hlt := luaEffort_lua h fun ev hi => ha.2 ev (congrArg Action.lua hi)
    rw [(luaStep_run h).1]
    omega

/-! ## Where the threads can stand still -/

/-- The next statement of `Run` does not give up. -/
def steady (s : DebugSession V) : Bool :=
  match s.run, s.stoppedState, s.answer with
  | .start, _, _ | .request _, _, _ | .loopEnd, _, _ => true
  | .handle _ _ (.inspectAssert _), some ⟨_, none⟩, _ => true
  | .handle _ _ (.inspectSchedule _), _, _ | .handle _ _ .done, _, _ => true
  | .handle _ _ (.inspectAwait _), _, some (.ok _) => true
  | _, _, _ => false

theorem exitSafe_of_steady (h : s.steady = true) : ExitSafe rt s (.run .step) := by
  intro hgives
  cases hgives with
  | answer hr ha => simp [steady, hr, ha] at h
  | @assert q r p hr ha =>
    cases p with
    | inspectAssert =>
      have hst : s.stoppedState = none := ha
      simp [steady, hr, hst] at h
    | resumeAssertStopped | resumeAssertMode => simp [steady, hr] at h
    | _ => exact absurd ha id
  | disconnect hr => simp [steady, hr] at h

theorem inspectSafe_of_steady (h : s.steady = true) : InspectSafe s (.run .step) := by
  rintro q r i ⟨k, mode⟩ hr hst
  cases mode with
  | none => rfl
  | some mode => simp [steady, hr, hst] at h

/-- A check that is enough for a safe step. -/
def cautious (s : DebugSession V) : Action V → Bool
  | .run .step => s.steady
  | .run (.message (.ok (some ⟨.ok type, .ok _⟩))) => type == "request"
  | .run (.cast (.ok _)) | .run (.sent (.ok _)) => true
  | .lua (.stop _) =>
    match s.run with
    | .receive => true
    | _ => false
  | .lua _ => true
  | _ => false

end LuaToolkit.DebugSession
