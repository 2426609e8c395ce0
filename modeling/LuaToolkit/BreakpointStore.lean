import LuaToolkit.Lib.LastWrite
import LuaToolkit.LuaDebugSessionController
import Mathlib.Data.List.Induction
import Mathlib.Data.List.Pairwise

/-!
# The breakpoint tables as a store

For the client there is one list of breakpoints for each source and one of function breakpoints,
each replaced as a whole. The controller keeps three flat tables that refer to each other by
counted ids.

* `BreakpointStore` — the client's view, read off the log of requests and responses.
* `Refines` — the tables hold what the store holds, and their references resolve.
* `refines_history` — after any sequence of requests they do.
-/

namespace LuaToolkit

open Dap

/-- The requests that change breakpoints. -/
inductive BreakpointCall where
  | source (arg : SetBreakpointsArguments)
  | function (arg : SetFunctionBreakpointsArguments)
  deriving DecidableEq, Repr

/-- Requests, oldest first, each with its response. -/
abbrev BreakpointLog := List (BreakpointCall × List Breakpoint)

/-- Paths compared as sources are. -/
def samePath (P : PathEquality) (a b : String) : Bool := (Source.mk a).eqPath P b

/-! ## The client's view -/

/-- Requested breakpoints, each with the entry of the response that answers it. -/
structure BreakpointStore where
  lines : String → List (Breakpoint × SourceBreakpoint)
  functions : List (Breakpoint × FunctionBreakpoint)

namespace BreakpointStore

def sourceWrite : BreakpointCall × List Breakpoint →
    Option (String × List (Breakpoint × SourceBreakpoint))
  | (.source arg, response) => some (arg.source.path, response.zip arg.breakpoints)
  | (.function _, _) => none

def functionWrite :
    BreakpointCall × List Breakpoint → Option (List (Breakpoint × FunctionBreakpoint))
  | (.source _, _) => none
  | (.function arg, response) => some (response.zip arg.breakpoints)

/-- The last list set for each path, and the last list of function breakpoints. -/
def ofLog (P : PathEquality) (log : BreakpointLog) : BreakpointStore where
  lines path := ((log.filterMap sourceWrite).lastWrite (samePath P) path).getD []
  functions := ((log.filterMap functionWrite).getLast?).getD []

theorem lines_concat_source (P : PathEquality) (log : BreakpointLog)
    (arg : SetBreakpointsArguments) (response : List Breakpoint) (path : String) :
    (ofLog P (log ++ [(.source arg, response)])).lines path =
      if samePath P arg.source.path path then response.zip arg.breakpoints
      else (ofLog P log).lines path := by
  simp only [ofLog, List.filterMap_append, List.filterMap_cons, sourceWrite, List.filterMap_nil,
    List.lastWrite_concat]
  split_ifs <;> rfl

theorem lines_concat_function (P : PathEquality) (log : BreakpointLog)
    (arg : SetFunctionBreakpointsArguments) (response : List Breakpoint) :
    (ofLog P (log ++ [(.function arg, response)])).lines = (ofLog P log).lines := by
  simp only [ofLog, List.filterMap_append, List.filterMap_cons, sourceWrite, List.filterMap_nil,
    List.append_nil]

theorem functions_concat_source (P : PathEquality) (log : BreakpointLog)
    (arg : SetBreakpointsArguments) (response : List Breakpoint) :
    (ofLog P (log ++ [(.source arg, response)])).functions = (ofLog P log).functions := by
  simp only [ofLog, List.filterMap_append, List.filterMap_cons, functionWrite, List.filterMap_nil,
    List.append_nil]

theorem functions_concat_function (P : PathEquality) (log : BreakpointLog)
    (arg : SetFunctionBreakpointsArguments) (response : List Breakpoint) :
    (ofLog P (log ++ [(.function arg, response)])).functions = response.zip arg.breakpoints := by
  simp [ofLog, functionWrite]

def lineEvent (x : Breakpoint × SourceBreakpoint) : StoppedEventBody where
  reason := "breakpoint"
  description := some "Paused on breakpoint"
  threadId := some 1
  allThreadsStopped := some true
  hitBreakpointIds := some x.1.id.toList

def functionEvent (x : Breakpoint × FunctionBreakpoint) : StoppedEventBody where
  reason := "function breakpoint"
  description := some ("Paused on (" ++ x.2.name ++ ")")
  threadId := some 1
  allThreadsStopped := some true
  hitBreakpointIds := some x.1.id.toList

/-- The stop at an event of the running function. -/
def check {ν : Type*} (store : BreakpointStore) (event : HookEvent) (running : CallInfo ν) :
    Option StoppedEventBody :=
  match event with
  | .line =>
    ((store.lines running.source).find? fun x => x.2.line == running.currentline.toUInt32).map
      lineEvent
  | .call =>
    if running.what = "Lua" then
      running.name.bind fun name =>
        (store.functions.find? fun x => x.2.name == name).map functionEvent
    else none
  | _ => none

end BreakpointStore

/-! ## The tables -/

def SourceBp.answered (bp : SourceBp) : Breakpoint × SourceBreakpoint :=
  ({ id := some bp.id, verified := true }, bp.bp)

def FunctionBp.answered (bp : FunctionBp) : Breakpoint × FunctionBreakpoint :=
  ({ id := some bp.id, verified := true }, bp.bp)

namespace LuaDebugSessionController

variable {P : PathEquality} {c c' : LuaDebugSessionController}

def call (P : PathEquality) (c : LuaDebugSessionController) :
    BreakpointCall → List Breakpoint × LuaDebugSessionController
  | .source arg => c.setBreakpoints P arg
  | .function arg => c.setFunctionBreakpoints arg

/-- A new controller after some requests, and their log. -/
def history (P : PathEquality) (calls : List BreakpointCall) :
    LuaDebugSessionController × BreakpointLog :=
  calls.foldl (fun (c, log) call =>
    let (response, c) := c.call P call
    (c, log ++ [(call, response)])) ({}, [])

theorem history_concat (P : PathEquality) (calls : List BreakpointCall) (x : BreakpointCall) :
    history P (calls ++ [x]) =
      (((history P calls).1.call P x).2,
        (history P calls).2 ++ [(x, ((history P calls).1.call P x).1)]) := by
  simp [history, List.foldl_append]

/-- The stored breakpoints of the source with this path. -/
def lines (P : PathEquality) (c : LuaDebugSessionController) (path : String) :
    List (Breakpoint × SourceBreakpoint) :=
  (c.sourceBreakpoints.filter fun bp => (c.getSource bp.sourceId).any (·.eqPath P path)).map
    SourceBp.answered

def functions (c : LuaDebugSessionController) : List (Breakpoint × FunctionBreakpoint) :=
  c.functionBreakpoints.map FunctionBp.answered

/-- Sources are pairwise different and have different ids, and every id in use resolves. -/
structure WellFormed (P : PathEquality) (c : LuaDebugSessionController) : Prop where
  id_le : ∀ e ∈ c.sources, e.id ≤ c.srcId
  ids : c.sources.Pairwise fun a b => a.id ≠ b.id
  sources : c.sources.Pairwise fun a b => a.source.eq P b.source = false
  resolves : ∀ bp ∈ c.sourceBreakpoints, ∃ e ∈ c.sources, e.id = bp.sourceId

/-- The tables hold what the store holds. -/
structure Refines (P : PathEquality) (c : LuaDebugSessionController) (store : BreakpointStore) :
    Prop where
  wellFormed : WellFormed P c
  lines : ∀ path, c.lines P path = store.lines path
  functions : c.functions = store.functions

/-! ## The source table -/

/-- Two entries with one id are one. -/
theorem WellFormed.eq_of_id_eq (h : WellFormed P c) {e e' : SourceEntry} (he : e ∈ c.sources)
    (he' : e' ∈ c.sources) (hid : e.id = e'.id) : e = e' := by
  by_contra hne
  have : Std.Symm fun a b : SourceEntry => a.id ≠ b.id := ⟨fun _ _ hn => hn.symm⟩
  exact h.ids.forall he he' hne hid

/-- Two entries whose sources are equal are one. -/
theorem WellFormed.eq_of_source_eq (h : WellFormed P c) {e e' : SourceEntry} (he : e ∈ c.sources)
    (he' : e' ∈ c.sources) (heq : e.source.eq P e'.source = true) : e = e' := by
  by_contra hne
  have : Std.Symm fun a b : SourceEntry => a.source.eq P b.source = false := by
    constructor
    intro a b hab
    by_contra hba
    rw [(Source.eq_equivalence P).symm (by simpa using hba)] at hab
    cases hab
  have hfalse := h.sources.forall he he' hne
  rw [heq] at hfalse
  cases hfalse

theorem WellFormed.getSource (h : WellFormed P c) {e : SourceEntry} (he : e ∈ c.sources) :
    c.getSource e.id = some e.source := by
  unfold LuaDebugSessionController.getSource
  rw [List.find?_of_unique he (by simp)]
  · rfl
  · intro b hb hid
    exact h.eq_of_id_eq hb he (by simpa using hid)

/-- `GetSourceId` finds or makes an entry for the source, and otherwise changes nothing. -/
theorem getSourceId_spec (h : WellFormed P c) (source : Source) :
    ∃ entries srcId e,
      c.getSourceId P source = (e.id, { c with sources := c.sources ++ entries, srcId := srcId }) ∧
      e ∈ c.sources ++ entries ∧ e.source.eq P source = true ∧
      WellFormed P { c with sources := c.sources ++ entries, srcId := srcId } := by
  unfold getSourceId
  cases hfind : c.sources.find? fun entry => entry.source.eq P source with
  | some e =>
    refine ⟨[], c.srcId, e, by simp, ?_, by simpa using List.find?_some hfind, ?_⟩
    · simpa using List.mem_of_find?_eq_some hfind
    · simpa using h
  | none =>
    have hnew := List.find?_eq_none.1 hfind
    refine ⟨[⟨c.srcId + 1, source⟩], c.srcId + 1, ⟨c.srcId + 1, source⟩, rfl, by simp,
      (Source.eq_equivalence P).refl _, ?_⟩
    refine ⟨?_, ?_, ?_, ?_⟩
    · intro e he
      rcases List.mem_append.1 he with he | he
      · exact Nat.le_succ_of_le (h.id_le e he)
      · obtain rfl := List.mem_singleton.1 he
        exact Nat.le_refl _
    · refine List.pairwise_append.2 ⟨h.ids, List.pairwise_singleton _ _, fun a ha b hb => ?_⟩
      rw [List.mem_singleton.1 hb]
      have := h.id_le a ha
      show a.id ≠ c.srcId + 1
      omega
    · refine List.pairwise_append.2 ⟨h.sources, List.pairwise_singleton _ _, fun a ha b hb => ?_⟩
      rw [List.mem_singleton.1 hb]
      simpa using hnew a ha
    · intro bp hbp
      obtain ⟨e, he, hid⟩ := h.resolves bp hbp
      exact ⟨e, List.mem_append_left _ he, hid⟩

/-! ## The loops of the setters -/

/-- The ids that a counter gives out next. -/
def nextIds (bpId : UInt32) : Nat → List UInt32
  | 0 => []
  | n + 1 => (bpId + 1) :: nextIds (bpId + 1) n

theorem foldl_addSourceBreakpoint (sourceId : Nat) (bps : List SourceBreakpoint) :
    ∀ (acc : List Breakpoint) (c : LuaDebugSessionController), ∃ bpId new,
      bps.foldl (addSourceBreakpoint sourceId) (acc, c) =
        (acc ++ new.map fun bp => bp.answered.1,
          { c with bpId := bpId, sourceBreakpoints := c.sourceBreakpoints ++ new }) ∧
      new.map SourceBp.bp = bps ∧ (∀ bp ∈ new, bp.sourceId = sourceId) ∧
      new.map SourceBp.id = nextIds c.bpId bps.length ∧
      bpId = c.bpId + UInt32.ofNat bps.length := by
  induction bps with
  | nil =>
    intro acc c
    exact ⟨c.bpId, [], by simp, rfl, by simp, rfl, (UInt32.add_zero _).symm⟩
  | cons srcBp bps ih =>
    intro acc c
    obtain ⟨bpId, new, hfold, hbps, hid, hids, hbpId⟩ :=
      ih (addSourceBreakpoint sourceId (acc, c) srcBp).1
        (addSourceBreakpoint sourceId (acc, c) srcBp).2
    refine ⟨bpId, ⟨c.bpId + 1, sourceId, srcBp⟩ :: new, ?_, by simp [hbps], by simpa using hid,
      congrArg (List.cons (c.bpId + 1)) hids, ?_⟩
    · rw [List.foldl_cons, hfold]
      simp [addSourceBreakpoint, SourceBp.answered]
    · rw [hbpId, List.length_cons, UInt32.ofNat_add, UInt32.add_comm (UInt32.ofNat _),
        ← UInt32.add_assoc]
      rfl

theorem foldl_addFunctionBreakpoint (bps : List FunctionBreakpoint) :
    ∀ (acc : List Breakpoint) (c : LuaDebugSessionController), ∃ bpId new,
      bps.foldl addFunctionBreakpoint (acc, c) =
        (acc ++ new.map fun bp => bp.answered.1,
          { c with bpId := bpId, functionBreakpoints := c.functionBreakpoints ++ new }) ∧
      new.map FunctionBp.bp = bps ∧ new.map FunctionBp.id = nextIds c.bpId bps.length ∧
      bpId = c.bpId + UInt32.ofNat bps.length := by
  induction bps with
  | nil =>
    intro acc c
    exact ⟨c.bpId, [], by simp, rfl, rfl, (UInt32.add_zero _).symm⟩
  | cons funcBp bps ih =>
    intro acc c
    obtain ⟨bpId, new, hfold, hbps, hids, hbpId⟩ :=
      ih (addFunctionBreakpoint (acc, c) funcBp).1 (addFunctionBreakpoint (acc, c) funcBp).2
    refine ⟨bpId, ⟨c.bpId + 1, funcBp⟩ :: new, ?_, by simp [hbps],
      congrArg (List.cons (c.bpId + 1)) hids, ?_⟩
    · rw [List.foldl_cons, hfold]
      simp [addFunctionBreakpoint, FunctionBp.answered]
    · rw [hbpId, List.length_cons, UInt32.ofNat_add, UInt32.add_comm (UInt32.ofNat _),
        ← UInt32.add_assoc]
      rfl

theorem getSourceId_bpId (P : PathEquality) (c : LuaDebugSessionController) (source : Source) :
    (c.getSourceId P source).2.bpId = c.bpId := by
  unfold getSourceId
  split <;> rfl

theorem setBreakpoints_eq (P : PathEquality) (c : LuaDebugSessionController)
    (arg : SetBreakpointsArguments) : ∃ bpId new,
      c.setBreakpoints P arg = (new.map fun bp => bp.answered.1,
        { (c.getSourceId P arg.source).2 with
          bpId := bpId
          sourceBreakpoints := ((c.getSourceId P arg.source).2.sourceBreakpoints.filter fun bp =>
            bp.sourceId != (c.getSourceId P arg.source).1) ++ new }) ∧
      new.map SourceBp.bp = arg.breakpoints ∧
      (∀ bp ∈ new, bp.sourceId = (c.getSourceId P arg.source).1) ∧
      new.map SourceBp.id = nextIds c.bpId arg.breakpoints.length ∧
      bpId = c.bpId + UInt32.ofNat arg.breakpoints.length := by
  obtain ⟨bpId, new, hfold, hnew⟩ := foldl_addSourceBreakpoint (c.getSourceId P arg.source).1
    arg.breakpoints [] { (c.getSourceId P arg.source).2 with
      sourceBreakpoints := (c.getSourceId P arg.source).2.sourceBreakpoints.filter fun bp =>
        bp.sourceId != (c.getSourceId P arg.source).1 }
  rw [getSourceId_bpId] at hnew
  exact ⟨bpId, new, hfold, hnew⟩

theorem setFunctionBreakpoints_eq (c : LuaDebugSessionController)
    (arg : SetFunctionBreakpointsArguments) : ∃ bpId new,
      c.setFunctionBreakpoints arg =
        (new.map fun bp => bp.answered.1, { c with bpId := bpId, functionBreakpoints := new }) ∧
      new.map FunctionBp.bp = arg.breakpoints ∧
      new.map FunctionBp.id = nextIds c.bpId arg.breakpoints.length ∧
      bpId = c.bpId + UInt32.ofNat arg.breakpoints.length := by
  obtain ⟨bpId, new, hfold, hnew⟩ :=
    foldl_addFunctionBreakpoint arg.breakpoints [] { c with functionBreakpoints := [] }
  exact ⟨bpId, new, hfold, hnew⟩

/-! ## The setters refine the store -/

theorem WellFormed.hits_eq (h : WellFormed P c) {bp : SourceBp} {e : SourceEntry}
    (he : e ∈ c.sources) (hid : e.id = bp.sourceId) (path : String) :
    (c.getSource bp.sourceId).any (·.eqPath P path) = e.source.eqPath P path := by
  rw [← hid, h.getSource he]
  rfl

theorem setFunctionBreakpoints_spec (h : WellFormed P c) (arg : SetFunctionBreakpointsArguments) :
    WellFormed P (c.setFunctionBreakpoints arg).2 ∧
    (c.setFunctionBreakpoints arg).2.lines P = c.lines P ∧
    (c.setFunctionBreakpoints arg).2.functions =
      (c.setFunctionBreakpoints arg).1.zip arg.breakpoints := by
  obtain ⟨bpId, new, hcall, hbps, -⟩ := setFunctionBreakpoints_eq c arg
  rw [hcall]
  refine ⟨⟨h.id_le, h.ids, h.sources, h.resolves⟩, rfl, ?_⟩
  show new.map FunctionBp.answered = (new.map fun bp => bp.answered.1).zip arg.breakpoints
  rw [← hbps, List.zip_map']
  rfl

/-- New sources at the end of the table change nothing for the breakpoints already there. -/
theorem WellFormed.lines_append (h : WellFormed P c) {entries : List SourceEntry} {srcId : Nat}
    (h' : WellFormed P { c with sources := c.sources ++ entries, srcId := srcId }) (path : String) :
    ({ c with sources := c.sources ++ entries, srcId := srcId } : LuaDebugSessionController).lines P
      path = c.lines P path := by
  unfold LuaDebugSessionController.lines
  apply congrArg (List.map SourceBp.answered)
  apply List.filter_congr
  intro bp hbp
  obtain ⟨e, he, hid⟩ := h.resolves bp hbp
  rw [h.hits_eq he hid path]
  exact h'.hits_eq (List.mem_append_left _ he) hid path

/-- Without the breakpoints of one source, a path has those it had, or none if the source has this
path. -/
theorem WellFormed.filter_other (h : WellFormed P c) {e : SourceEntry} (he : e ∈ c.sources)
    (path : String) :
    ((c.sourceBreakpoints.filter fun bp => bp.sourceId != e.id).filter fun bp =>
      (c.getSource bp.sourceId).any (·.eqPath P path)).map SourceBp.answered =
      if e.source.eqPath P path then [] else c.lines P path := by
  rw [List.filter_filter]
  by_cases hpath : e.source.eqPath P path = true
  · rw [if_pos hpath, List.map_eq_nil_iff, List.filter_eq_nil_iff]
    intro bp hbp hboth
    obtain ⟨e', he', hid⟩ := h.resolves bp hbp
    obtain ⟨hhit, hne⟩ := by simpa only [Bool.and_eq_true, bne_iff_ne] using hboth
    rw [h.hits_eq he' hid path] at hhit
    have heq : e'.source.eq P e.source = true :=
      (Source.eq_equivalence P).trans (y := ⟨path⟩) hhit ((Source.eq_equivalence P).symm hpath)
    rw [h.eq_of_source_eq he' he heq] at hid
    exact hne hid.symm
  · rw [if_neg hpath]
    apply congrArg (List.map SourceBp.answered)
    apply List.filter_congr
    intro bp hbp
    obtain ⟨e', he', hid⟩ := h.resolves bp hbp
    by_cases hbe : bp.sourceId = e.id
    · rw [h.hits_eq he (hbe.symm) path]
      simp [hpath]
    · simp [hbe]

/-- Breakpoints that all belong to one source are those of its path. -/
theorem WellFormed.filter_own (h : WellFormed P c) {e : SourceEntry} (he : e ∈ c.sources)
    {new : List SourceBp} (hnew : ∀ bp ∈ new, bp.sourceId = e.id) (path : String) :
    (new.filter fun bp => (c.getSource bp.sourceId).any (·.eqPath P path)).map SourceBp.answered =
      if e.source.eqPath P path then new.map SourceBp.answered else [] := by
  have hhits : (new.filter fun bp => (c.getSource bp.sourceId).any (·.eqPath P path)) =
      new.filter fun _ => e.source.eqPath P path := by
    apply List.filter_congr
    intro bp hbp
    exact h.hits_eq he (hnew bp hbp).symm path
  rw [hhits]
  by_cases hpath : e.source.eqPath P path = true
  · simp [hpath]
  · simp [hpath]

theorem setBreakpoints_spec (h : WellFormed P c) (arg : SetBreakpointsArguments) :
    WellFormed P (c.setBreakpoints P arg).2 ∧
    (c.setBreakpoints P arg).2.functions = c.functions ∧
    ∀ path, (c.setBreakpoints P arg).2.lines P path =
      if samePath P arg.source.path path then (c.setBreakpoints P arg).1.zip arg.breakpoints
      else c.lines P path := by
  obtain ⟨entries, srcId, e, hget, he, heq, hwf⟩ := getSourceId_spec h arg.source
  obtain ⟨bpId, new, hcall, hbps, hnew, -⟩ := setBreakpoints_eq P c arg
  rw [hget] at hcall hnew
  rw [hcall]
  refine ⟨⟨hwf.id_le, hwf.ids, hwf.sources, fun bp hbp => ?_⟩, rfl, fun path => ?_⟩
  · rcases List.mem_append.1 hbp with hbp | hbp
    · exact hwf.resolves bp (List.mem_filter.1 hbp).1
    · exact ⟨e, he, (hnew bp hbp).symm⟩
  -- Whether `e` is the source of the path is what decides between the two lists.
  · have hsame : samePath P arg.source.path path = e.source.eqPath P path := by
      rw [Bool.eq_iff_iff]
      constructor
      · intro hpath
        exact (Source.eq_equivalence P).trans (z := ⟨path⟩) heq hpath
      · intro hpath
        exact (Source.eq_equivalence P).trans (z := ⟨path⟩) ((Source.eq_equivalence P).symm heq)
          hpath
    have hother := hwf.filter_other he path
    have hown := hwf.filter_own he hnew path
    rw [h.lines_append hwf path] at hother
    rw [hsame, LuaDebugSessionController.lines, List.filter_append, List.map_append]
    refine (congrArg₂ (· ++ ·) hother hown).trans ?_
    by_cases hpath : e.source.eqPath P path = true
    · rw [if_pos hpath, if_pos hpath, if_pos hpath, ← hbps, List.zip_map', List.nil_append]
      rfl
    · rw [if_neg hpath, if_neg hpath, if_neg hpath, List.append_nil]

/-- A request changes the tables as it changes the store. -/
theorem Refines.call {log : BreakpointLog} (h : Refines P c (.ofLog P log)) (x : BreakpointCall) :
    Refines P (c.call P x).2 (.ofLog P (log ++ [(x, (c.call P x).1)])) := by
  cases x with
  | source arg =>
    obtain ⟨hwf, hfunctions, hlines⟩ := setBreakpoints_spec h.wellFormed arg
    refine ⟨hwf, fun path => ?_, ?_⟩
    · rw [BreakpointStore.lines_concat_source, ← h.lines path]
      exact hlines path
    · rw [BreakpointStore.functions_concat_source, ← h.functions]
      exact hfunctions
  | function arg =>
    obtain ⟨hwf, hlines, hfunctions⟩ := setFunctionBreakpoints_spec h.wellFormed arg
    refine ⟨hwf, fun path => ?_, ?_⟩
    · rw [BreakpointStore.lines_concat_function, ← h.lines path]
      exact congrFun hlines path
    · rw [BreakpointStore.functions_concat_function]
      exact hfunctions

theorem refines_history (P : PathEquality) (calls : List BreakpointCall) :
    Refines P (history P calls).1 (.ofLog P (history P calls).2) := by
  induction calls using List.reverseRecOn with
  | nil => exact ⟨⟨nofun, .nil, .nil, nofun⟩, fun _ => rfl, rfl⟩
  | append_singleton calls x ih =>
    rw [history_concat]
    exact ih.call x

end LuaDebugSessionController

end LuaToolkit
