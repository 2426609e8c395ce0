import LuaToolkit.Lib.Recorded
import LuaToolkit.Stepping
import Mathlib.Algebra.GroupWithZero.Nat

/-!
# Answers to breakpoint requests

The two setters answer every breakpoint that is requested with a number from one counter, and store
the breakpoint under this number. The entries of `SetBreakpoints` are meant to have the line too,
but it is assigned to itself.

* `Answered` — the entries are in order, their ids are new, and those of the stored breakpoints
  and of later stops.
* `Located` — the entries of `SetBreakpoints` have the requested lines.
* `answered_iff` — the first holds exactly as long as the counter does not wrap around, the second
  exactly when no line is requested.
-/

namespace LuaToolkit

open Dap Transition

variable {ν : Type*} {P : PathEquality}

/-! ## Ids of a counter -/

namespace LuaDebugSessionController

theorem nextIds_ofNat (m n : Nat) :
    nextIds (UInt32.ofNat m) n = (List.range' (m + 1) n).map UInt32.ofNat := by
  induction n generalizing m with
  | zero => rfl
  | succ n ih =>
    have hsucc : UInt32.ofNat m + 1 = UInt32.ofNat (m + 1) := by
      rw [UInt32.ofNat_add]
      rfl
    rw [nextIds, hsucc, ih, List.range'_succ, List.map_cons]

theorem ofNat_lt_ofNat {i j : Nat} :
    UInt32.ofNat i < UInt32.ofNat j ↔ i % UInt32.size < j % UInt32.size := by
  rw [UInt32.lt_iff_toNat_lt, UInt32.toNat_ofNat', UInt32.toNat_ofNat']

/-- A counter that has counted to `m` goes on upwards, unless it comes to its end. -/
theorem ascending_iff (m n : Nat) :
    ((∀ a ∈ (List.range' 1 m).map UInt32.ofNat, ∀ b ∈ (List.range' (m + 1) n).map UInt32.ofNat,
        a < b) ∧ ((List.range' (m + 1) n).map UInt32.ofNat).Pairwise (· < ·)) ↔
      n = 0 ∨ m + n < UInt32.size := by
  simp only [List.forall_mem_map, List.mem_range'_1, List.pairwise_map, ofNat_lt_ofNat]
  constructor
  · rintro ⟨hold, hnew⟩
    by_contra hnot
    obtain ⟨hn, hbig⟩ := not_or.1 hnot
    have hsize : 1 < UInt32.size := by decide
    by_cases hm : UInt32.size ≤ m + 1
    · -- The largest number has been given out.
      have hlt := hold (UInt32.size - 1) (by omega) (m + 1) (by omega)
      have hmod := Nat.mod_lt (m + 1) (Nat.zero_lt_of_lt hsize)
      rw [Nat.mod_eq_of_lt (by omega)] at hlt
      omega
    · -- It is given out now, with 0 behind it.
      have hlt := List.pairwise_iff_getElem.1 hnew (UInt32.size - 1 - (m + 1))
        (UInt32.size - (m + 1)) (by rw [List.length_range']; omega)
        (by rw [List.length_range']; omega) (by omega)
      have hlast : m + 1 + 1 * (UInt32.size - (m + 1)) = UInt32.size := by omega
      rw [List.getElem_range', List.getElem_range', hlast, Nat.mod_self] at hlt
      exact absurd hlt (Nat.not_lt_zero _)
  · intro h
    rcases h with rfl | h
    · exact ⟨fun a _ b hb => by omega, .nil⟩
    · refine ⟨fun a ha b hb => ?_, (List.pairwise_lt_range' 1).imp_of_mem fun ha hb hlt => ?_⟩
      · rw [Nat.mod_eq_of_lt (by omega), Nat.mod_eq_of_lt (by omega)]
        omega
      · have ha := List.mem_range'_1.1 ha
        have hb := List.mem_range'_1.1 hb
        rwa [Nat.mod_eq_of_lt (by omega), Nat.mod_eq_of_lt (by omega)]

/-! ## What one request does -/

variable {c : LuaDebugSessionController}

/-- An entry of a response. -/
def answer (id : UInt32) : Breakpoint := { id := some id, verified := true }

/-- The breakpoints of a request are stored under these ids. -/
def Stored (P : PathEquality) (c : LuaDebugSessionController) (ids : List UInt32) :
    BreakpointCall → Prop
  | .source arg => ∃ sourceId source, c.getSource sourceId = some source ∧
      source.eq P arg.source = true ∧
      c.sourceBreakpoints.filter (fun bp => bp.sourceId == sourceId) =
        List.zipWith (fun id bp => ⟨id, sourceId, bp⟩) ids arg.breakpoints
  | .function arg => c.functionBreakpoints = List.zipWith FunctionBp.mk ids arg.breakpoints

/-- The tables answer for the breakpoints of a request with these ids. -/
def Holds (P : PathEquality) (c : LuaDebugSessionController) (ids : List UInt32) :
    BreakpointCall → Prop
  | .source arg => ∀ path, samePath P arg.source.path path = true →
      c.lines P path = (ids.map answer).zip arg.breakpoints
  | .function arg => c.functions = (ids.map answer).zip arg.breakpoints

theorem call_spec (P : PathEquality) (c : LuaDebugSessionController) (call : BreakpointCall) :
    (c.call P call).1 = (nextIds c.bpId call.count).map answer ∧
      (c.call P call).2.bpId = c.bpId + UInt32.ofNat call.count := by
  cases call with
  | source arg =>
    obtain ⟨bpId, new, hcall, -, -, hids, hbpId⟩ := setBreakpoints_eq P c arg
    have hcall' : c.call P (.source arg) = _ := hcall
    rw [hcall']
    refine ⟨?_, hbpId⟩
    rw [BreakpointCall.count, ← hids, List.map_map]
    rfl
  | function arg =>
    obtain ⟨bpId, new, hcall, -, hids, hbpId⟩ := setFunctionBreakpoints_eq c arg
    have hcall' : c.call P (.function arg) = _ := hcall
    rw [hcall']
    refine ⟨?_, hbpId⟩
    rw [BreakpointCall.count, ← hids, List.map_map]
    rfl

theorem stored_call (h : WellFormed P c) (call : BreakpointCall) :
    Stored P (c.call P call).2 (nextIds c.bpId call.count) call := by
  cases call with
  | source arg =>
    obtain ⟨entries, srcId, e, hget, he, heq, hwf⟩ := getSourceId_spec h arg.source
    obtain ⟨bpId, new, hcall, hbps, hnew, hids, -⟩ := setBreakpoints_eq P c arg
    rw [hget] at hcall hnew
    have hcall' : c.call P (.source arg) = _ := hcall
    have hid : ∀ bp ∈ new, bp.sourceId = e.id := hnew
    refine ⟨e.id, e.source, ?_, heq, ?_⟩
    · rw [hcall']
      exact hwf.getSource he
    · have hold : ((c.sourceBreakpoints.filter fun bp => bp.sourceId != e.id).filter fun bp =>
          bp.sourceId == e.id) = [] := by
        simp [List.filter_filter]
      have hown : new.filter (fun bp => bp.sourceId == e.id) = new := by
        simpa using hid
      rw [hcall']
      show (_ ++ new).filter _ = _
      rw [List.filter_append, hold, hown, BreakpointCall.count, ← hids, ← hbps, List.zipWith_map,
        List.zipWith_self, List.nil_append]
      refine ((List.map_congr_left fun bp hbp => ?_).trans (List.map_id new)).symm
      rw [← hid bp hbp]
      rfl
  | function arg =>
    obtain ⟨bpId, new, hcall, hbps, hids, -⟩ := setFunctionBreakpoints_eq c arg
    have hcall' : c.call P (.function arg) = _ := hcall
    rw [hcall']
    show new = List.zipWith FunctionBp.mk _ arg.breakpoints
    rw [BreakpointCall.count, ← hids, ← hbps, List.zipWith_map, List.zipWith_self]
    exact (List.map_id new).symm

theorem holds_call (h : WellFormed P c) (call : BreakpointCall) :
    Holds P (c.call P call).2 (nextIds c.bpId call.count) call := by
  have hresponse := (call_spec P c call).1
  cases call with
  | source arg =>
    intro path hpath
    rw [← hresponse]
    exact ((setBreakpoints_spec h arg).2.2 path).trans (if_pos hpath)
  | function arg =>
    show (c.setFunctionBreakpoints arg).2.functions = _
    rw [← hresponse]
    exact (setFunctionBreakpoints_spec h arg).2.2

/-- What the hook reports when it looks for these breakpoints: the id of the first that is at the
line, or has the name, of the running function. -/
def reported (ids : List UInt32) (running : CallInfo ν) : BreakpointCall → Option (List UInt32)
  | .source arg => ((ids.zip arg.breakpoints).find? fun y =>
      y.2.line == running.currentline.toUInt32).map fun y => [y.1]
  | .function arg =>
    if running.what = "Lua" then running.name.bind fun name =>
      ((ids.zip arg.breakpoints).find? fun y => y.2.name == name).map fun y => [y.1]
    else none

/-- The hook looks for breakpoints of the request at this event. -/
def Concerns (P : PathEquality) (x : HookCall ν) : BreakpointCall → Prop
  | .source arg => x.IsLine ∧ samePath P arg.source.path x.l.running.source = true
  | .function _ => x.ar.event = .call

/-- What the breakpoints say about the stop is what the whole hook says. -/
theorem beforeStop_of_checkBreakpoints {l : LuaState ν} {ar ar' : LuaDebug}
    {stop : Option StoppedEventBody} (hactive : c.isActive = true)
    (hcheck : c.checkBreakpoints P l ar = some (stop, ar')) :
    ∃ stop' ar' c', c.beforeStop P l ar = some (stop', ar', c') ∧
      stop'.bind StoppedEventBody.hitBreakpointIds =
        stop.bind StoppedEventBody.hitBreakpointIds := by
  cases stop with
  | some event => exact ⟨some event, ar', c, by simp [beforeStop, hactive, hcheck], rfl⟩
  | none =>
    cases hpending : c.debugStepPredicate with
    | none => exact ⟨none, ar', c, by simp [beforeStop, hactive, hcheck, hpending], rfl⟩
    | some predicate =>
      rcases hfires : predicate.getStopped l ar' with ⟨_ | event, ar₂⟩
      · exact ⟨none, ar₂, c, by simp [beforeStop, hactive, hcheck, hpending, hfires], rfl⟩
      · obtain rfl := DebugStepPredicate.getStopped_event hfires
        exact ⟨_, _, _, beforeStop_of_fires hactive hcheck hpending hfires, rfl⟩

theorem find?_zip_answer {β : Type*} (ids : List UInt32) (bps : List β) (q : β → Bool) :
    ((ids.map answer).zip bps).find? (fun y => q y.2) =
      ((ids.zip bps).find? fun y => q y.2).map fun y => (answer y.1, y.2) := by
  rw [List.zip_map_left, List.find?_map]
  rfl

/-- The hook reports what the tables hold. -/
theorem Holds.beforeStop {call : BreakpointCall} {ids : List UInt32} (h : Holds P c ids call)
    (hwf : WellFormed P c) (hactive : c.isActive = true) {x : HookCall ν}
    (hx : Concerns P x call) : ∃ stop ar c', c.beforeStop P x.l x.ar = some (stop, ar, c') ∧
      stop.bind StoppedEventBody.hitBreakpointIds = reported ids x.l.running call := by
  cases call with
  | source arg =>
    obtain ⟨hline, hpath⟩ := hx
    obtain ⟨stop, ar, c', hbefore, hids⟩ :=
      beforeStop_of_checkBreakpoints hactive (checkBreakpoints_line hwf x hline)
    refine ⟨stop, ar, c', hbefore, hids.trans ?_⟩
    simp only [BreakpointStore.check, store, h _ hpath, reported]
    rw [find?_zip_answer _ _ fun bp : SourceBreakpoint =>
      bp.line == x.l.running.currentline.toUInt32]
    cases (ids.zip arg.breakpoints).find? fun y =>
      y.2.line == x.l.running.currentline.toUInt32 <;> rfl
  | function arg =>
    obtain ⟨stop, ar, c', hbefore, hids⟩ :=
      beforeStop_of_checkBreakpoints (P := P) hactive (checkBreakpoints_call x hx)
    refine ⟨stop, ar, c', hbefore, hids.trans ?_⟩
    have hfunctions : c.functions = (ids.map answer).zip arg.breakpoints := h
    simp only [BreakpointStore.check, store, hfunctions, reported]
    split_ifs with hwhat
    · cases x.l.running.name with
      | none => rfl
      | some name =>
        simp only [Option.bind_some]
        rw [find?_zip_answer _ _ fun bp : FunctionBreakpoint => bp.name == name]
        cases (ids.zip arg.breakpoints).find? fun y => y.2.name == name <;> rfl
    · rfl

end LuaDebugSessionController

/-! ## Later requests and events -/

namespace Stepping

open LuaDebugSessionController

variable {s s' t : Stepping ν} {call : BreakpointCall} {log : BreakpointLog}

/-- The request sets the breakpoints of the same source anew, or the function breakpoints. -/
def Replaces (P : PathEquality) : BreakpointCall → Action ν → Prop
  | .source arg, .request (.source arg') => samePath P arg'.source.path arg.source.path = true
  | .function _, .request (.function _) => True
  | _, _ => False

theorem holds_step {ids : List UInt32} {a : Action ν} (h : Holds P s.controller ids call)
    (hsound : s.controller.Sound P) (hkeep : ¬ Replaces P call a)
    (hstep : (system ν P).step a s = some s') : Holds P s'.controller ids call := by
  rcases step_controller hstep with ⟨call', rfl, hcontroller⟩ | ⟨-, _, _, hcontroller⟩
  · rw [hcontroller]
    cases call with
    | source arg =>
      cases call' with
      | source arg' =>
        intro path hpath
        refine ((setBreakpoints_spec hsound.wellFormed arg').2.2 path).trans ?_
        rw [if_neg, h path hpath]
        intro hpath'
        exact hkeep ((Source.eq_equivalence P).trans (y := ⟨path⟩) hpath'
          ((Source.eq_equivalence P).symm hpath))
      | function arg' =>
        intro path hpath
        exact (congrFun (setFunctionBreakpoints_spec hsound.wellFormed arg').2.1 path).trans
          (h path hpath)
    | function arg =>
      cases call' with
      | source arg' => exact ((setBreakpoints_spec hsound.wellFormed arg').2.1).trans h
      | function arg' => exact absurd trivial hkeep
  · rw [hcontroller]
    cases call with
    | source arg => exact h
    | function arg => exact h

/-- The ids in the responses so far. -/
def issued (log : BreakpointLog) : List UInt32 :=
  log.flatMap fun w => w.2.filterMap Breakpoint.id

/-- The number of breakpoints that have been requested so far. -/
def requested (log : BreakpointLog) : Nat := (log.map fun w => w.1.count).sum

def logRequest (P : PathEquality) (s : Stepping ν) :
    Action ν → Stepping ν → BreakpointLog → BreakpointLog
  | .request call, _, log => log ++ [(call, (s.controller.call P call).1)]
  | _, _, log => log

/-- The histories of a controller, with the log of the requests. -/
abbrev logSystem (ν : Type*) (P : PathEquality) :
    System (Stepping ν × BreakpointLog) (Action ν) :=
  (system ν P).recorded [] (logRequest P)

/-- The ids are counted. -/
structure Counted (s : Stepping ν) (log : BreakpointLog) : Prop where
  bpId : s.controller.bpId = UInt32.ofNat (requested log)
  issued : issued log = (List.range' 1 (requested log)).map UInt32.ofNat

theorem counted_step {a : Action ν} (h : Counted s log)
    (hstep : (system ν P).step a s = some s') : Counted s' (logRequest P s a s' log) := by
  rcases step_controller hstep with ⟨call, rfl, hcontroller⟩ | ⟨hother, _, _, hcontroller⟩
  · obtain ⟨hresponse, hbpId⟩ := call_spec P s.controller call
    have hcount : requested (log ++ [(call, (s.controller.call P call).1)]) =
        requested log + call.count := by
      simp [requested]
    have hids : ((nextIds s.controller.bpId call.count).map answer).filterMap Breakpoint.id =
        nextIds s.controller.bpId call.count := by
      rw [List.filterMap_map]
      exact List.filterMap_some
    constructor
    · rw [logRequest, hcontroller, hbpId, hcount, h.bpId, UInt32.ofNat_add]
    · rw [logRequest, hcount, ← List.range'_append_1, List.map_append, ← h.issued,
        Nat.add_comm 1, ← nextIds_ofNat, ← h.bpId]
      simp [Stepping.issued, hresponse, hids]
  · have hlog : logRequest P s a s' log = log := by
      cases a with
      | request call => exact absurd rfl (hother call)
      | _ => rfl
    rw [hlog]
    exact ⟨by rw [hcontroller]; exact h.bpId, h.issued⟩

theorem counted_of_reachable (h : (logSystem ν P).Reachable (s, log)) : Counted s log := by
  refine System.Reachable.recorded (I := fun s log => Counted s log) (fun s hs => ?_)
    (fun s log a s' hi hstep => counted_step hi hstep) h
  rw [show s = {} from hs]
  exact ⟨rfl, rfl⟩

/-! ## The answer to a request -/

/-- The response has an entry for each breakpoint. Their ids are new and in ascending order, and
under them the breakpoints are stored, in the order of the request, and reported by the hook until
they are replaced. -/
structure Answered (P : PathEquality) (s : Stepping ν) (log : BreakpointLog)
    (call : BreakpointCall) : Prop where
  length : (s.controller.call P call).1.length = call.count
  numbered : ∃ ids : List UInt32, (s.controller.call P call).1.map Breakpoint.id = ids.map some ∧
    (∀ n ∈ ids, n ∉ issued log) ∧ (∀ m ∈ issued log, ∀ n ∈ ids, m < n) ∧ ids.Pairwise (· < ·) ∧
    Stored P (s.controller.call P call).2 ids call ∧
    ∀ t, (system ν P).Run (fun _ a => ¬ Replaces P call a)
        { s with controller := (s.controller.call P call).2 } t →
      t.controller.isActive = true → ∀ x : HookCall ν, Concerns P x call →
        ∃ stop ar c, t.controller.beforeStop P x.l x.ar = some (stop, ar, c) ∧
          stop.bind StoppedEventBody.hitBreakpointIds = reported ids x.l.running call

/-- The entries have the requested lines. -/
def Located (P : PathEquality) (s : Stepping ν) : BreakpointCall → Prop
  | .source arg => (s.controller.setBreakpoints P arg).1.map Breakpoint.line =
      arg.breakpoints.map fun bp => some bp.line
  | .function _ => True

theorem located_iff (P : PathEquality) (s : Stepping ν) :
    Located P s call ↔ ∀ arg, call = .source arg → arg.breakpoints = [] := by
  cases call with
  | source arg =>
    have hresponse : (s.controller.setBreakpoints P arg).1 = _ :=
      (call_spec P s.controller (.source arg)).1
    simp only [Located, hresponse, BreakpointCall.count, BreakpointCall.source.injEq, forall_eq']
    cases arg.breakpoints with
    | nil => simp [nextIds]
    | cons bp bps => simp [nextIds, answer]
  | function arg => simp [Located]

theorem answered_iff_ascending (h : (logSystem ν P).Reachable (s, log)) (call : BreakpointCall) :
    Answered P s log call ↔ call.count = 0 ∨ requested log + call.count < UInt32.size := by
  have hsound := sound_of_reachable h.of_recorded
  have hcounted := counted_of_reachable h
  have hresponse := (call_spec P s.controller call).1
  have hids : (s.controller.call P call).1.map Breakpoint.id =
      (nextIds s.controller.bpId call.count).map some := by
    rw [hresponse, List.map_map]
    rfl
  have hascending := ascending_iff (requested log) call.count
  rw [← hcounted.issued, ← nextIds_ofNat, ← hcounted.bpId] at hascending
  rw [← hascending]
  constructor
  · intro hanswered
    obtain ⟨ids, hmap, -, hold, hnew, -⟩ := hanswered.numbered
    obtain rfl : nextIds s.controller.bpId call.count = ids :=
      List.map_injective_iff.2 (fun _ _ => Option.some.inj) (hids.symm.trans hmap)
    exact ⟨hold, hnew⟩
  · rintro ⟨hold, hnew⟩
    refine ⟨?_, _, hids, fun n hn hmem => ?_, hold, hnew, stored_call hsound.wellFormed call, ?_⟩
    · exact (length_call s.controller call).1
    · exact UInt32.lt_irrefl n (hold n hmem n hn)
    · intro t hrun hactive x hx
      obtain ⟨hholds, hsound'⟩ := hrun.invariant
        (I := fun t => Holds P t.controller (nextIds s.controller.bpId call.count) call ∧
          t.controller.Sound P)
        (fun t a t' hi hkeep hstep => ⟨holds_step hi.1 hi.2 hkeep hstep, sound_step hi.2 hstep⟩)
        ⟨holds_call hsound.wellFormed call, hsound.call call⟩
      exact hholds.beforeStop hsound'.wellFormed hactive hx

/-- **Answers.** The answer to a request is right exactly when no line is asked for and the counter
of ids does not wrap around; the latter is all that is needed for everything but the lines. -/
theorem answered_iff (h : (logSystem ν P).Reachable (s, log)) (call : BreakpointCall) :
    (Answered P s log call ∧ Located P s call ↔
      (call.count = 0 ∨ requested log + call.count < UInt32.size) ∧
        ∀ arg, call = .source arg → arg.breakpoints = []) ∧
    (Answered P s log call ↔ call.count = 0 ∨ requested log + call.count < UInt32.size) := by
  have hanswered := answered_iff_ascending h call
  exact ⟨and_congr hanswered (located_iff P s), hanswered⟩

/-- Two functions, and two other lines, after two lines have been asked for. -/
theorem answered_iff_function : ∃ (s : Stepping Unit) (log : BreakpointLog), issued log = [1, 2] ∧
    (Answered exactPaths s log (.function ⟨[⟨"update"⟩, ⟨"draw"⟩]⟩) ∧
      Located exactPaths s (.function ⟨[⟨"update"⟩, ⟨"draw"⟩]⟩)) ∧
    Answered exactPaths s log (.source ⟨⟨"@main.lua"⟩, [⟨3⟩, ⟨4⟩]⟩) := by
  have hinit : (logSystem Unit exactPaths).init ({}, []) := ⟨rfl, rfl⟩
  have hreach : (logSystem Unit exactPaths).Reachable (_, _) := System.Reachable.of_exec
    [.enable, .request (.source ⟨⟨"@main.lua"⟩, [⟨1⟩, ⟨2⟩]⟩)] hinit rfl
  exact ⟨_, _, rfl, (answered_iff hreach _).1.2 ⟨.inr (by decide), nofun⟩,
    (answered_iff hreach _).2.2 (.inr (by decide))⟩

/-- The first request of a client, for the line 1 of `@main.lua`: the entry has no line. -/
theorem not_located :
    ¬ ∀ (s : Stepping Unit) (log : BreakpointLog) (call : BreakpointCall),
      (logSystem Unit exactPaths).Reachable (s, log) →
        Answered exactPaths s log call ∧ Located exactPaths s call := by
  intro h
  have hlocated := (h {} [] (.source ⟨⟨"@main.lua"⟩, [⟨1⟩]⟩) (.init ⟨rfl, rfl⟩)).2
  revert hlocated
  simp only [Located]
  decide

end Stepping

end LuaToolkit
