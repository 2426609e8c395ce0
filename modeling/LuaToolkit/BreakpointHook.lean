import LuaToolkit.BreakpointStore

/-!
# The hook decides what the store says

`CheckBreakpoints` walks the flat tables and resolves a source id for each breakpoint that it
tests. On tables that are well formed it finds what the client's store says about the running
function, and no assertion fails.

* `checkBreakpoints_line`, `checkBreakpoints_call`, `checkBreakpoints_other` — the stop at an event
  is the store's, and there is none at other events.
* `checkBreakpoints_history` — so it is after any sequence of requests.
-/

namespace LuaToolkit

open Dap

variable {ν : Type*}

/-- A call of the hook: its record points to the running function, and on a line event it has
the current line. The rest of it is what Lua left there. -/
structure HookCall (ν : Type*) where
  l : LuaState ν
  ar : LuaDebug
  i_ci_eq : ar.i_ci = 0
  currentline_eq : ar.event = .line → ar.currentline = l.running.currentline

/-- A line event whose record passes the first test of `CheckBreakpoints`. -/
def HookCall.IsLine (x : HookCall ν) : Prop :=
  x.ar.event = .line ∧ x.ar.source ≠ none ∧ 0 < x.ar.currentline

theorem HookCall.running_eq (x : HookCall ν) : x.l.stack[x.ar.i_ci]? = some x.l.running := by
  rw [x.i_ci_eq]
  rfl

namespace LuaDebugSessionController

variable {P : PathEquality} {c c' : LuaDebugSessionController}

/-- What the tables hold, as a store. -/
def store (P : PathEquality) (c : LuaDebugSessionController) : BreakpointStore :=
  ⟨c.lines P, c.functions⟩

theorem Refines.store_eq {store : BreakpointStore} (h : Refines P c store) : c.store P = store := by
  have hlines : c.lines P = store.lines := funext h.lines
  unfold LuaDebugSessionController.store
  rw [hlines, h.functions]

theorem hitsLine_eq (h : WellFormed P c) {bp : SourceBp} (hbp : bp ∈ c.sourceBreakpoints)
    {ar : LuaDebug} {path : String} (har : ar.source = some path) :
    c.hitsLine P ar bp = some ((c.getSource bp.sourceId).any (·.eqPath P path) &&
      bp.bp.line == ar.currentline.toUInt32) := by
  obtain ⟨e, he, hid⟩ := h.resolves bp hbp
  unfold hitsLine
  rw [h.hits_eq he hid path, ← hid, h.getSource he, har]
  rfl

theorem find?_lines (path : String) (line : UInt32) :
    ((c.lines P path).find? fun y => y.2.line == line).map BreakpointStore.lineEvent =
      (c.sourceBreakpoints.find? fun bp => (c.getSource bp.sourceId).any (·.eqPath P path) &&
        bp.bp.line == line).map breakpointEvent := by
  unfold lines
  rw [List.find?_map, List.find?_filter, Option.map_map]
  simp only [Bool.decide_and, Bool.decide_eq_true]
  rfl

theorem find?_functions (name : String) :
    (c.functions.find? fun y => y.2.name == name).map BreakpointStore.functionEvent =
      (c.functionBreakpoints.find? fun bp => bp.bp.name == name).map functionBreakpointEvent := by
  unfold functions
  rw [List.find?_map, Option.map_map]
  rfl

/-- The stop at a line event is the store's. -/
theorem checkBreakpoints_line (h : WellFormed P c) (x : HookCall ν) (hx : x.IsLine) :
    c.checkBreakpoints P x.l x.ar =
      some ((c.store P).check .line x.l.running, luaGetInfo x.l "nSl" x.ar) := by
  have hinfo := luaGetInfo_nSl x.running_eq
  have hfind : c.sourceBreakpoints.findM? (c.hitsLine P (luaGetInfo x.l "nSl" x.ar)) =
      some (c.sourceBreakpoints.find? fun bp =>
        (c.getSource bp.sourceId).any (·.eqPath P x.l.running.source) &&
          bp.bp.line == x.l.running.currentline.toUInt32) := by
    apply List.findM?_eq_some_find?
    intro bp hbp
    rw [hinfo]
    exact hitsLine_eq h hbp rfl
  have hcond : x.ar.event = .line ∧ x.ar.source ≠ none ∧ 0 < x.ar.currentline := hx
  unfold checkBreakpoints
  rw [if_pos hcond]
  simp only [hfind, Option.map_some, Option.some.injEq, Prod.mk.injEq, and_true]
  exact (find?_lines _ _).symm

/-- The stop at a call event is the store's. -/
theorem checkBreakpoints_call (x : HookCall ν) (hx : x.ar.event = .call) :
    c.checkBreakpoints P x.l x.ar =
      some ((c.store P).check .call x.l.running, luaGetInfo x.l "nS" x.ar) := by
  have hinfo := luaGetInfo_nS x.running_eq
  have hline : ¬ (x.ar.event = .line ∧ x.ar.source ≠ none ∧ 0 < x.ar.currentline) := by simp [hx]
  unfold checkBreakpoints
  rw [if_neg hline, if_pos hx]
  simp only [hinfo, BreakpointStore.check]
  cases x.l.running.name with
  | none => split_ifs <;> rfl
  | some name =>
    by_cases hwhat : x.l.running.what = "Lua"
    · simp only [hwhat, ne_eq, not_true, if_false, if_true, Option.bind_some]
      rw [← find?_functions]
      rfl
    · simp [hwhat]

/-- At other events there is no stop, and the record stays as it is. -/
theorem checkBreakpoints_other (x : HookCall ν) (hl : ¬ x.IsLine) (hc : x.ar.event ≠ .call) :
    c.checkBreakpoints P x.l x.ar = some (none, x.ar) := by
  have hcond : ¬ (x.ar.event = .line ∧ x.ar.source ≠ none ∧ 0 < x.ar.currentline) := hl
  unfold checkBreakpoints
  rw [if_neg hcond, if_neg hc]

/-- **Controllers with the same store check alike.** -/
theorem checkBreakpoints_congr (h : WellFormed P c) (h' : WellFormed P c') (x : HookCall ν)
    (hl : x.IsLine → c'.lines P x.l.running.source = c.lines P x.l.running.source)
    (hc : x.ar.event = .call → c'.functions = c.functions) :
    c'.checkBreakpoints P x.l x.ar = c.checkBreakpoints P x.l x.ar := by
  by_cases hline : x.IsLine
  · rw [checkBreakpoints_line h x hline, checkBreakpoints_line h' x hline]
    simp only [BreakpointStore.check, store, hl hline]
  · by_cases hcall : x.ar.event = .call
    · rw [checkBreakpoints_call x hcall, checkBreakpoints_call x hcall]
      simp only [BreakpointStore.check, store, hc hcall]
    · rw [checkBreakpoints_other x hline hcall, checkBreakpoints_other x hline hcall]

end LuaDebugSessionController

namespace BreakpointStore

variable {store : BreakpointStore} {running : CallInfo ν}

/-- A line event stops exactly on the lines of the running function's source. -/
theorem check_line_isSome : (store.check .line running).isSome ↔
    ∃ y ∈ store.lines running.source, y.2.line = running.currentline.toUInt32 := by
  simp [check]

theorem check_line_eq_some {event : StoppedEventBody} (h : store.check .line running = some event) :
    event.reason = "breakpoint" ∧
    ∃ y ∈ store.lines running.source, y.2.line = running.currentline.toUInt32 ∧
      event.hitBreakpointIds = some y.1.id.toList := by
  obtain ⟨y, hy, rfl⟩ := Option.map_eq_some_iff.1 h
  exact ⟨rfl, y, List.mem_of_find?_eq_some hy, by simpa using List.find?_some hy, rfl⟩

/-- A call event stops exactly in the Lua functions with the names in the list. -/
theorem check_call_isSome : (store.check .call running).isSome ↔
    running.what = "Lua" ∧ ∃ y ∈ store.functions, running.name = some y.2.name := by
  cases hname : running.name with
  | none => simp [check, hname]
  | some name =>
    have hsymm : (∃ y ∈ store.functions, some name = some y.2.name) ↔
        ∃ y ∈ store.functions, y.2.name = name := by simp only [Option.some.injEq, eq_comm]
    rw [hsymm]
    by_cases hwhat : running.what = "Lua"
    · simp [check, hname, hwhat]
    · simp [check, hwhat]

theorem check_call_eq_some {event : StoppedEventBody} (h : store.check .call running = some event) :
    event.reason = "function breakpoint" ∧
    ∃ y ∈ store.functions, running.name = some y.2.name ∧
      event.hitBreakpointIds = some y.1.id.toList := by
  by_cases hwhat : running.what = "Lua"
  · simp only [check, hwhat, if_true] at h
    obtain ⟨name, hname, hfind⟩ := Option.bind_eq_some_iff.1 h
    obtain ⟨y, hy, rfl⟩ := Option.map_eq_some_iff.1 hfind
    have hyname : y.2.name = name := by simpa using List.find?_some hy
    exact ⟨rfl, y, List.mem_of_find?_eq_some hy, by rw [hname, hyname], rfl⟩
  · simp [check, hwhat] at h

end BreakpointStore

/-! ## After any sequence of requests -/

/-- The number of breakpoints that a request asks for. -/
def BreakpointCall.count : BreakpointCall → Nat
  | .source arg => arg.breakpoints.length
  | .function arg => arg.breakpoints.length

namespace LuaDebugSessionController

variable {P : PathEquality}

theorem length_call (c : LuaDebugSessionController) (call : BreakpointCall) :
    (c.call P call).1.length = call.count ∧ ∀ y ∈ (c.call P call).1, y.id.isSome := by
  cases call with
  | source arg =>
    obtain ⟨bpId, new, hcall, hbps, -⟩ := setBreakpoints_eq P c arg
    have hresponse : (c.call P (.source arg)).1 = new.map fun bp => bp.answered.1 :=
      congrArg Prod.fst hcall
    rw [hresponse]
    simp [SourceBp.answered, BreakpointCall.count, ← hbps]
  | function arg =>
    obtain ⟨bpId, new, hcall, hbps, -⟩ := setFunctionBreakpoints_eq c arg
    have hresponse : (c.call P (.function arg)).1 = new.map fun bp => bp.answered.1 :=
      congrArg Prod.fst hcall
    rw [hresponse]
    simp [FunctionBp.answered, BreakpointCall.count, ← hbps]

/-- The log has one entry for each request, with an id for each breakpoint that it asks for. -/
theorem history_log (P : PathEquality) (calls : List BreakpointCall) :
    (history P calls).2.map Prod.fst = calls ∧
    ∀ w ∈ (history P calls).2, w.2.length = w.1.count ∧ ∀ y ∈ w.2, y.id.isSome := by
  induction calls using List.reverseRecOn with
  | nil => exact ⟨rfl, nofun⟩
  | append_singleton calls call ih =>
    rw [history_concat]
    refine ⟨by simp [ih.1], fun w hw => ?_⟩
    rcases List.mem_append.1 hw with hw | hw
    · exact ih.2 w hw
    · rw [List.mem_singleton.1 hw]
      exact length_call _ call

/-- **The controller refines the client's store.** After any requests the hook stops at a line
event exactly on the lines that were last set for the source, with the id that answered one of
them, and at a call event exactly in the functions that were last set. -/
theorem checkBreakpoints_history (P : PathEquality) (calls : List BreakpointCall) :
    let c := (history P calls).1
    let log := (history P calls).2
    let store := BreakpointStore.ofLog P log
    (log.map Prod.fst = calls ∧ ∀ w ∈ log, w.2.length = w.1.count ∧ ∀ y ∈ w.2, y.id.isSome) ∧
    (∀ x : HookCall ν, x.ar.event = .line → x.ar.source ≠ none → 0 < x.ar.currentline →
      ∃ stop ar, c.checkBreakpoints P x.l x.ar = some (stop, ar) ∧
        (stop.isSome ↔ ∃ y ∈ store.lines x.l.running.source,
          y.2.line = x.l.running.currentline.toUInt32) ∧
        ∀ event ∈ stop, event.reason = "breakpoint" ∧
          ∃ y ∈ store.lines x.l.running.source, y.2.line = x.l.running.currentline.toUInt32 ∧
            event.hitBreakpointIds = some y.1.id.toList) ∧
    (∀ x : HookCall ν, x.ar.event = .call →
      ∃ stop ar, c.checkBreakpoints P x.l x.ar = some (stop, ar) ∧
        (stop.isSome ↔ x.l.running.what = "Lua" ∧
          ∃ y ∈ store.functions, x.l.running.name = some y.2.name) ∧
        ∀ event ∈ stop, event.reason = "function breakpoint" ∧
          ∃ y ∈ store.functions, x.l.running.name = some y.2.name ∧
            event.hitBreakpointIds = some y.1.id.toList) ∧
    (∀ (arg : SetBreakpointsArguments) (x : HookCall ν),
      (x.ar.event = .line → samePath P arg.source.path x.l.running.source = false) →
      (c.setBreakpoints P arg).2.checkBreakpoints P x.l x.ar = c.checkBreakpoints P x.l x.ar) ∧
    (∀ (arg : SetFunctionBreakpointsArguments) (x : HookCall ν), x.ar.event ≠ .call →
      (c.setFunctionBreakpoints arg).2.checkBreakpoints P x.l x.ar =
        c.checkBreakpoints P x.l x.ar) ∧
    (c.sources.Pairwise fun a b => a.source.eq P b.source = false) ∧
    ∀ bp ∈ c.sourceBreakpoints, c.getSource bp.sourceId ≠ none := by
  intro c log store
  have hrefines : Refines P c store := refines_history P calls
  have hwf := hrefines.wellFormed
  refine ⟨history_log P calls, ?_, ?_, ?_, ?_, hwf.sources, ?_⟩
  · intro x hevent hsource hline
    have hcheck := checkBreakpoints_line hwf x ⟨hevent, hsource, hline⟩
    rw [hrefines.store_eq] at hcheck
    exact ⟨_, _, hcheck, BreakpointStore.check_line_isSome,
      fun event hstop => BreakpointStore.check_line_eq_some hstop⟩
  · intro x hevent
    have hcheck := checkBreakpoints_call (P := P) (c := c) x hevent
    rw [hrefines.store_eq] at hcheck
    exact ⟨_, _, hcheck, BreakpointStore.check_call_isSome,
      fun event hstop => BreakpointStore.check_call_eq_some hstop⟩
  · intro arg x hother
    obtain ⟨hwf', hfunctions, hlines⟩ := setBreakpoints_spec hwf arg
    apply checkBreakpoints_congr hwf hwf' x
    · intro hx
      rw [hlines, if_neg (by simp [hother hx.1])]
    · exact fun _ => hfunctions
  · intro arg x hother
    obtain ⟨hwf', hlines, -⟩ := setFunctionBreakpoints_spec hwf arg
    apply checkBreakpoints_congr hwf hwf' x
    · exact fun _ => congrFun hlines _
    · exact fun hcall => absurd hcall hother
  · intro bp hbp
    obtain ⟨e, he, hid⟩ := hwf.resolves bp hbp
    rw [← hid, hwf.getSource he]
    exact Option.some_ne_none _

end LuaDebugSessionController

end LuaToolkit
