import LuaToolkit.Stepping

/-!
# What Lua leaves in the record of an event

When Lua calls the hook it has set the event, the current line and the activation record; the
other fields of the record are whatever was there before. `CheckBreakpoints` has them filled by
`lua_getinfo`, but on a line event it first asks whether there is a source.

* `HookCall.SameEvent` — two calls of the hook that differ in the unset fields only.
* `Insensitive` — both give the same result, and neither misses a breakpoint.
* `insensitive_iff` — on a line with a breakpoint this takes a source in both records, and
  elsewhere it holds anyway.
-/

namespace LuaToolkit

open Dap Transition

variable {ν : Type*} {P : PathEquality}

/-- Two calls of the hook at one event: they agree in all that Lua sets. -/
structure HookCall.SameEvent (x x' : HookCall ν) : Prop where
  l_eq : x'.l = x.l
  event_eq : x'.ar.event = x.ar.event
  line_eq : x'.ar.currentline = x.ar.currentline

namespace LuaDebugSessionController

variable {c : LuaDebugSessionController} {x x' : HookCall ν}

/-- The result of `CheckBreakpoints`. -/
def verdict (P : PathEquality) (c : LuaDebugSessionController) (x : HookCall ν) :
    Option (Option StoppedEventBody) :=
  (c.checkBreakpoints P x.l x.ar).map Prod.fst

/-- A line event on a line that has a breakpoint in the running function's source. -/
def OnBreakpoint (P : PathEquality) (c : LuaDebugSessionController) (x : HookCall ν) : Prop :=
  x.ar.event = .line ∧ 0 < x.ar.currentline ∧
    ∃ bp ∈ c.sourceBreakpoints, bp.bp.line = x.ar.currentline.toUInt32 ∧
      ∃ source, c.getSource bp.sourceId = some source ∧ source.eqPath P x.l.running.source

/-- The unset fields make no difference, and no breakpoint is missed because of them. -/
def Insensitive (P : PathEquality) (c : LuaDebugSessionController) (x x' : HookCall ν) : Prop :=
  c.verdict P x' = c.verdict P x ∧
    (c.OnBreakpoint P x → ∃ event, c.verdict P x = some (some event)) ∧
    (c.OnBreakpoint P x' → ∃ event, c.verdict P x' = some (some event))

theorem OnBreakpoint.congr (h : x.SameEvent x') : c.OnBreakpoint P x' ↔ c.OnBreakpoint P x := by
  unfold OnBreakpoint
  rw [h.event_eq, h.line_eq, h.l_eq]

/-- The breakpoints on the line of an event are those of the store. -/
theorem onBreakpoint_iff (hevent : x.ar.event = .line) : c.OnBreakpoint P x ↔
    0 < x.ar.currentline ∧ ((c.store P).check .line x.l.running).isSome := by
  have hline := x.currentline_eq hevent
  rw [BreakpointStore.check_line_isSome, OnBreakpoint, and_iff_right hevent, hline]
  apply and_congr_right'
  constructor
  · rintro ⟨bp, hbp, hon, source, hsource, hpath⟩
    refine ⟨bp.answered, List.mem_map_of_mem (List.mem_filter.2 ⟨hbp, ?_⟩), hon⟩
    rw [hsource]
    exact hpath
  · rintro ⟨y, hy, hon⟩
    obtain ⟨bp, hbp, rfl⟩ := List.mem_map.1 hy
    obtain ⟨hbp, hany⟩ := List.mem_filter.1 hbp
    cases hsource : c.getSource bp.sourceId with
    | none => simp [hsource] at hany
    | some source => exact ⟨bp, hbp, hon, source, hsource, by simpa [hsource] using hany⟩

/-- Except at the events of a line, the result is the store's. -/
theorem verdict_of_ne_line (hevent : x.ar.event ≠ .line) :
    c.verdict P x = some ((c.store P).check x.ar.event x.l.running) := by
  by_cases hcall : x.ar.event = .call
  · rw [verdict, checkBreakpoints_call x hcall, hcall]
    rfl
  · rw [verdict, checkBreakpoints_other x (fun hx => hevent hx.1) hcall]
    cases hx : x.ar.event with
    | line => exact absurd hx hevent
    | call => exact absurd hx hcall
    | ret | count | tailRet => rfl

/-- A line event stops on a breakpoint if its record has a source, -/
theorem verdict_of_source (h : WellFormed P c) (hon : c.OnBreakpoint P x)
    (hsource : x.ar.source ≠ none) :
    c.verdict P x = some ((c.store P).check .line x.l.running) ∧
      ((c.store P).check .line x.l.running).isSome := by
  obtain ⟨hpos, hsome⟩ := (onBreakpoint_iff hon.1).1 hon
  refine ⟨?_, hsome⟩
  rw [verdict, checkBreakpoints_line h x ⟨hon.1, hsource, hpos⟩]
  rfl

/-- and only then. -/
theorem verdict_line_none (h : WellFormed P c) (hevent : x.ar.event = .line)
    (hnot : ¬ (c.OnBreakpoint P x ∧ x.ar.source ≠ none)) : c.verdict P x = some none := by
  by_cases hx : x.IsLine
  · have hon : ¬ c.OnBreakpoint P x := fun hon => hnot ⟨hon, hx.2.1⟩
    rw [onBreakpoint_iff hevent, not_and, Bool.not_eq_true, Option.isSome_eq_false_iff,
      Option.isNone_iff_eq_none] at hon
    rw [verdict, checkBreakpoints_line h x hx, hon hx.2.2]
    rfl
  · rw [verdict, checkBreakpoints_other x hx (by rw [hevent]; decide)]
    rfl

theorem insensitive_of_source (h : WellFormed P c) (hsame : x.SameEvent x')
    (hsources : c.OnBreakpoint P x → x.ar.source ≠ none ∧ x'.ar.source ≠ none) :
    Insensitive P c x x' := by
  have hon' := OnBreakpoint.congr (P := P) (c := c) hsame
  by_cases hon : c.OnBreakpoint P x
  · obtain ⟨hsource, hsource'⟩ := hsources hon
    obtain ⟨hv, hsome⟩ := verdict_of_source h hon hsource
    have hv' := (verdict_of_source h (hon'.2 hon) hsource').1
    rw [hsame.l_eq] at hv'
    obtain ⟨event, hevent⟩ := Option.isSome_iff_exists.1 hsome
    rw [hevent] at hv hv'
    exact ⟨hv'.trans hv.symm, fun _ => ⟨event, hv⟩, fun _ => ⟨event, hv'⟩⟩
  · refine ⟨?_, fun h => absurd h hon, fun h => absurd (hon'.1 h) hon⟩
    by_cases hevent : x.ar.event = .line
    · rw [verdict_line_none h hevent fun hx => hon hx.1,
        verdict_line_none h (hsame.event_eq.trans hevent) fun hx => hon (hon'.1 hx.1)]
    · have hevent' : x'.ar.event ≠ .line := by rwa [hsame.event_eq]
      rw [verdict_of_ne_line hevent, verdict_of_ne_line hevent', hsame.event_eq, hsame.l_eq]

/-- A breakpoint is not missed only if the record has a source. -/
theorem source_of_stops (h : WellFormed P c) (hon : c.OnBreakpoint P x)
    (hstops : ∃ event, c.verdict P x = some (some event)) : x.ar.source ≠ none := by
  intro hsource
  obtain ⟨event, hevent⟩ := hstops
  rw [verdict_line_none h hon.1 fun hx => hx.2 hsource] at hevent
  cases hevent

/-- **Unset fields.** In every state of the controller two records of one event give the same
result, without missing a breakpoint, exactly if on a line with a breakpoint both have a
source. -/
theorem insensitive_iff {s : Stepping ν} (hs : (Stepping.system ν P).Reachable s)
    (hsame : x.SameEvent x') :
    Insensitive P s.controller x x' ↔
      (s.controller.OnBreakpoint P x → x.ar.source ≠ none ∧ x'.ar.source ≠ none) := by
  have hwf := (Stepping.sound_of_reachable hs).wellFormed
  constructor
  · rintro ⟨-, hx, hx'⟩ hon
    have hon' := (OnBreakpoint.congr hsame).2 hon
    exact ⟨source_of_stops hwf hon (hx hon), source_of_stops hwf hon' (hx' hon')⟩
  · exact insensitive_of_source hwf hsame

end LuaDebugSessionController

namespace Stepping

open LuaDebugSessionController (OnBreakpoint Insensitive)

/-- There is a breakpoint on the first line of the main file. -/
def breakpointOnOne : List (Action Unit) :=
  [.enable, .request (.source ⟨⟨"@main.lua"⟩, [⟨1⟩]⟩)]

def breakpointOnOneState : Stepping Unit :=
  { controller := {
      sourceBreakpoints := [⟨1, 1, ⟨1⟩⟩], sources := [⟨1, ⟨"@main.lua"⟩⟩], bpId := 1, srcId := 1
      isActive := true } }

theorem reachable_breakpointOnOne :
    (system Unit exactPaths).Reachable breakpointOnOneState :=
  System.Reachable.of_exec breakpointOnOne rfl rfl

/-- An event on the first line, whose record still has the source of another function. -/
def staleLine : HookCall Unit :=
  { lineEvent Unit 1 0 with
    ar := { (lineEvent Unit 1 0).ar with source := some "@lib.lua" } }

theorem insensitive_iff_stale :
    Insensitive exactPaths breakpointOnOneState.controller (mainLine 1) staleLine ↔
      (OnBreakpoint exactPaths breakpointOnOneState.controller (mainLine 1) →
        (mainLine 1).ar.source ≠ none ∧ staleLine.ar.source ≠ none) :=
  LuaDebugSessionController.insensitive_iff reachable_breakpointOnOne ⟨rfl, rfl, rfl⟩

/-- A record without a source misses the breakpoint that the same event hits with one. -/
theorem not_insensitive :
    ¬ ∀ (s : Stepping Unit) (x x' : HookCall Unit), (system Unit exactPaths).Reachable s →
      x.SameEvent x' → Insensitive exactPaths s.controller x x' := by
  intro h
  have heq := (h _ (mainLine 1) (lineEvent Unit 1 0) reachable_breakpointOnOne
    ⟨rfl, rfl, rfl⟩).1
  cases heq

end Stepping

end LuaToolkit
