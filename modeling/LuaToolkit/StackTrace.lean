import LuaToolkit.LuaStackTraceProvider
import LuaToolkit.Stepping

/-!
# Frames and the shared record

Every frame is read through the record that the hook was called with, and `lua_getinfo` is asked
for the name and the line of the frame's function only. What the function is, and its source,
are those that the record held before: after a breakpoint those of the running function, and
after a step sometimes what Lua had left there.

* `ownFrames` — the frames that describe each function by itself.
* `Uniform` — the record suits every function of the stack, and each of them has a line.
* `getStackTrace_iff` — this is when the provider returns the functions' own frames.
-/

namespace LuaToolkit

open Dap

variable {ν : Type*} {P : PathEquality}

/-! ## What the record holds at a stop -/

namespace HookCall

instance (x : HookCall ν) : Decidable x.IsLine := inferInstanceAs (Decidable (_ ∧ _ ∧ _))

/-- What `what` and `source` hold when the thread stops. -/
def recorded (x : HookCall ν) : Option String × Option String :=
  if x.IsLine ∨ x.ar.event = .call then (some x.l.running.what, some x.l.running.source)
  else (x.ar.what, x.ar.source)

end HookCall

theorem DebugStepPredicate.getStopped_record (l : LuaState ν) (ar : LuaDebug)
    (p : DebugStepPredicate) :
    (p.getStopped l ar).2.what = ar.what ∧ (p.getStopped l ar).2.source = ar.source := by
  cases p with
  | step line depth allowStepIn =>
    by_cases h : ar.event = .line
    · simp [getStopped, h, getCurrentLineAndStackDepth_eq]
    · simp [getStopped, h]
  | stepOut depth =>
    by_cases h : ar.event = .line
    · simp [getStopped, h, getCurrentLineAndStackDepth_eq]
    · simp [getStopped, h]

namespace LuaDebugSessionController

variable {c c' : LuaDebugSessionController} {x : HookCall ν} {ar : LuaDebug}

theorem checkBreakpoints_record {stop : Option StoppedEventBody}
    (h : c.checkBreakpoints P x.l x.ar = some (stop, ar)) :
    (ar.what, ar.source) = x.recorded := by
  by_cases hline : x.IsLine
  · have hcond : x.ar.event = .line ∧ x.ar.source ≠ none ∧ 0 < x.ar.currentline := hline
    unfold checkBreakpoints at h
    rw [if_pos hcond] at h
    obtain ⟨bp, -, hbp⟩ := Option.map_eq_some_iff.1 h
    obtain rfl : luaGetInfo x.l "nSl" x.ar = ar := congrArg Prod.snd hbp
    simp only [luaGetInfo_nSl x.running_eq, HookCall.recorded, hline, true_or, if_true]
  · by_cases hcall : x.ar.event = .call
    · rw [checkBreakpoints_call x hcall] at h
      obtain rfl : luaGetInfo x.l "nS" x.ar = ar := congrArg Prod.snd (Option.some.inj h)
      simp only [luaGetInfo_nS x.running_eq, HookCall.recorded, hcall, or_true, if_true]
    · rw [checkBreakpoints_other x hline hcall] at h
      obtain rfl : x.ar = ar := congrArg Prod.snd (Option.some.inj h)
      simp [HookCall.recorded, hline, hcall]

/-- The record at a stop, whatever made the thread stop. -/
theorem beforeStop_record {event : StoppedEventBody}
    (h : c.beforeStop P x.l x.ar = some (some event, ar, c')) :
    (ar.what, ar.source) = x.recorded := by
  cases beforeStop_cases h with
  | breakpoint hactive hcheck => exact checkBreakpoints_record hcheck
  | @step p ar₁ _ hactive hcheck hpending hfires =>
    have hrecord := p.getStopped_record x.l ar₁
    rw [hfires] at hrecord
    rw [hrecord.1, hrecord.2]
    exact checkBreakpoints_record hcheck

end LuaDebugSessionController

/-! ## The frames that the loop collects -/

namespace LuaStackTraceProvider

variable {l : LuaState ν} {ar : LuaDebug}

/-- The frame of a function at a level, described by itself. It has line 0 when Lua reports no
current line. -/
def ownFrame (level : CallInfo ν × Nat) : StackFrame where
  id := level.2 + 1
  name := frameName level.1.what level.1.name
  source := some ⟨level.1.source⟩
  line := if level.1.currentline = -1 then 0 else level.1.currentline.toUInt32

def ownFrames (l : LuaState ν) : List StackFrame := l.stack.zipIdx.map ownFrame

/-- The entry of a function at a level, read through a record with this `what` and `source`. -/
def recordedEntry (what : String) (source : Option String) (level : CallInfo ν × Nat) :
    StackFrameEntry where
  id := level.2 + 1
  level := level.2
  frameInfo := {
    id := level.2 + 1
    name := frameName what level.1.name
    source := source.map Source.mk
    line := if source.isSome then level.1.currentline.toUInt32 else 0 }

theorem create_eq {ci : CallInfo ν} {what : String} {level : Nat} (hci : l.stack[level]? = some ci)
    (hi : ar.i_ci = level) (hwhat : ar.what = some what) :
    StackFrameEntry.create l (level + 1) level ar = some (recordedEntry what ar.source (ci, level),
      { ar with currentline := ci.currentline, name := ci.name }) := by
  have hinfo : luaGetInfo l "nl" ar =
      { ar with currentline := ci.currentline, name := ci.name } := luaGetInfo_nl (hi ▸ hci)
  unfold StackFrameEntry.create
  simp only [hinfo, hwhat]
  cases ar.source <;> rfl

theorem collectFrames_eq {what : String} (rest : List (CallInfo ν)) :
    ∀ (n level : Nat) (frames : List StackFrameEntry) (ar : LuaDebug),
      l.stack.drop level = rest → rest.length < n → ar.what = some what →
        ∃ ar', collectFrames l n level level frames ar =
          some (frames ++ (rest.zipIdx level).map (recordedEntry what ar.source), ar') := by
  induction rest with
  | nil =>
    intro n level frames ar hrest hn hwhat
    obtain ⟨n, rfl⟩ := Nat.exists_eq_add_of_lt hn
    have hle : l.stack.length ≤ level := List.drop_eq_nil_iff.1 hrest
    refine ⟨ar, ?_⟩
    simp [collectFrames, luaGetStack_of_le hle]
  | cons ci rest ih =>
    intro n level frames ar hrest hn hwhat
    obtain ⟨n, rfl⟩ := Nat.exists_eq_add_of_lt (Nat.zero_lt_of_lt hn)
    have hci : l.stack[level]? = some ci := by
      rw [← List.head?_drop, hrest]
      rfl
    have hlt : level < l.stack.length := (List.getElem?_eq_some_iff.1 hci).1
    have htail : l.stack.drop (level + 1) = rest := by
      rw [← List.tail_drop, hrest]
      rfl
    obtain ⟨ar', hcollect⟩ :=
      ih n (level + 1) (frames ++ [recordedEntry what ar.source (ci, level)])
      { ar with i_ci := level, currentline := ci.currentline, name := ci.name } htail
      (by simp only [List.length_cons] at hn; omega) hwhat
    refine ⟨ar', ?_⟩
    have hcreate : StackFrameEntry.create l (level + 1) level { ar with i_ci := level } =
        some (recordedEntry what ar.source (ci, level),
          { ar with i_ci := level, currentline := ci.currentline, name := ci.name }) :=
      create_eq hci rfl hwhat
    rw [Nat.zero_add, collectFrames, luaGetStack_of_lt hlt]
    simp only [hcreate, hcollect]
    simp

theorem collectFrames_of_none (hwhat : ar.what = none) :
    collectFrames l (l.stack.length + 1) 0 0 [] ar = none := by
  have hlt : 0 < l.stack.length := by simp [LuaState.stack]
  have hinfo : luaGetInfo l "nl" { ar with i_ci := 0 } =
      { ar with i_ci := 0, currentline := l.running.currentline, name := l.running.name } :=
    luaGetInfo_nl (show l.stack[0]? = some l.running from rfl)
  rw [collectFrames, luaGetStack_of_lt hlt]
  simp only [StackFrameEntry.create, hinfo]
  simp only [hwhat]

theorem collectFrames_of_some {what : String} (hwhat : ar.what = some what) :
    ∃ ar', collectFrames l (l.stack.length + 1) 0 0 [] ar =
      some (l.stack.zipIdx.map (recordedEntry what ar.source), ar') :=
  collectFrames_eq l.stack (l.stack.length + 1) 0 [] ar rfl (Nat.lt_succ_self _) hwhat

/-- What the first request returns. -/
theorem getStackTrace_new (l : LuaState ν) (ar : LuaDebug) :
    (({ ar := ar } : LuaStackTraceProvider).getStackTrace l).map Prod.fst =
      ar.what.map fun what =>
        (l.stack.zipIdx.map (recordedEntry what ar.source)).map StackFrameEntry.frameInfo := by
  unfold getStackTrace
  cases hwhat : ar.what with
  | none => simp [collectFrames_of_none hwhat]
  | some what =>
    obtain ⟨ar', hcollect⟩ := collectFrames_of_some (l := l) hwhat
    simp [hcollect]

/-- Later requests return what the first one has returned. -/
theorem getStackTrace_again {p p' : LuaStackTraceProvider} {frames : List StackFrame}
    (h : p.getStackTrace l = some (frames, p')) (hne : frames ≠ []) :
    p'.getStackTrace l = some (frames, p') := by
  obtain ⟨q, -, hq⟩ := Option.map_eq_some_iff.1 h
  simp only [Prod.mk.injEq] at hq
  obtain ⟨rfl, rfl⟩ := hq
  have hframes : q.stackFrames.isEmpty = false := by
    cases hs : q.stackFrames with
    | nil => simp [hs] at hne
    | cons f fs => rfl
  simp [getStackTrace, hframes]

/-! ## Own frames -/

/-- The record suits every function of the stack: it has the function's source and leads to the
name that the function's own kind leads to. And each function has a current line. -/
def Uniform (x : HookCall ν) : Prop :=
  ∀ ci ∈ x.l.stack, x.recorded.2 = some ci.source ∧
    (x.recorded.1.map fun what => frameName what ci.name) = some (frameName ci.what ci.name) ∧
    ci.currentline ≠ -1

theorem line_eq_iff (line : Int32) : line.toUInt32 = (if line = -1 then 0 else line.toUInt32) ↔
    line ≠ -1 := by
  by_cases h : line = -1
  · rw [h]
    decide
  · simp [h]

theorem frameInfo_eq_ownFrame {what : String} {source : Option String} {ci : CallInfo ν}
    {level : Nat} : (recordedEntry what source (ci, level)).frameInfo = ownFrame (ci, level) ↔
      source = some ci.source ∧ frameName what ci.name = frameName ci.what ci.name ∧
        ci.currentline ≠ -1 := by
  rw [← line_eq_iff]
  cases source with
  | none => simp [recordedEntry, ownFrame]
  | some source =>
    simp only [recordedEntry, ownFrame, StackFrame.mk.injEq, Option.map_some, Option.some.injEq,
      Source.mk.injEq, Option.isSome_some, if_true, true_and]
    tauto

theorem forall_zipIdx {α : Type*} {l : List α} {q : α → Prop} :
    (∀ y ∈ l.zipIdx, q y.1) ↔ ∀ a ∈ l, q a := by
  constructor
  · intro h a ha
    obtain ⟨i, hi, rfl⟩ := List.getElem_of_mem ha
    exact h (l[i], i) (List.mem_zipIdx_iff_getElem?.2 (List.getElem?_eq_getElem hi))
  · intro h y hy
    exact h y.1 (List.mem_of_getElem? (List.mem_zipIdx_iff_getElem?.1 hy))

/-- **Own frames.** At a stop the provider returns the frames that describe each function by
itself exactly when the stack is uniform, and it goes on to return the same. -/
theorem getStackTrace_iff {c c' : LuaDebugSessionController} (x : HookCall ν)
    {event : StoppedEventBody} {ar : LuaDebug}
    (h : c.beforeStop P x.l x.ar = some (some event, ar, c')) :
    ((({ ar := ar } : LuaStackTraceProvider).getStackTrace x.l).map Prod.fst =
        some (ownFrames x.l) ↔ Uniform x) ∧
      ∀ frames p, ({ ar := ar } : LuaStackTraceProvider).getStackTrace x.l = some (frames, p) →
        p.getStackTrace x.l = some (frames, p) := by
  have hrecord := LuaDebugSessionController.beforeStop_record h
  refine ⟨?_, fun frames p hp => getStackTrace_again hp ?_⟩
  · rw [getStackTrace_new]
    unfold Uniform
    rw [← hrecord]
    cases ar.what with
    | none =>
      refine ⟨nofun, fun huniform => ?_⟩
      have hrunning := (huniform x.l.running List.mem_cons_self).2.1
      cases hrunning
    | some what =>
      simp only [Option.map_some, Option.some.injEq, List.map_map, ownFrames, List.map_inj_left,
        Function.comp_apply]
      refine Iff.trans (forall₂_congr fun y _ => frameInfo_eq_ownFrame) ?_
      exact forall_zipIdx (q := fun ci : CallInfo ν => ar.source = some ci.source ∧
        frameName what ci.name = frameName ci.what ci.name ∧ ci.currentline ≠ -1)
  · have hframes := getStackTrace_new x.l ar
    rw [hp] at hframes
    intro hnil
    subst hnil
    cases hwhat : ar.what with
    | none => simp [hwhat] at hframes
    | some what => simp [hwhat, LuaState.stack] at hframes

/-- A client's breakpoint on the first line of the main file. -/
def brokenMain : LuaDebugSessionController :=
  ((({} : LuaDebugSessionController).setBreakpoints Stepping.exactPaths
    ⟨⟨"@main.lua"⟩, [⟨1⟩]⟩).2).enableDebug

/-- The running function stands on the breakpoint, and was called from other files. -/
def calledMain (callers : List (CallInfo Unit)) : HookCall Unit where
  l := {
    running := { name := some "update", what := "Lua", source := "@main.lua", currentline := 1 }
    callers := callers }
  ar := {
    event := .line, name := none, what := none, source := some "@main.lua", currentline := 1,
    i_ci := 0 }
  i_ci_eq := rfl
  currentline_eq _ := rfl

/-- A stop in a function that was called from its own file. -/
theorem getStackTrace_iff_main :
    ((({ ar := luaGetInfo (calledMain [⟨none, "Lua", "@main.lua", 7, []⟩]).l "nSl"
          (calledMain [⟨none, "Lua", "@main.lua", 7, []⟩]).ar } :
        LuaStackTraceProvider).getStackTrace
        (calledMain [⟨none, "Lua", "@main.lua", 7, []⟩]).l).map Prod.fst =
      some (ownFrames (calledMain [⟨none, "Lua", "@main.lua", 7, []⟩]).l) ↔
        Uniform (calledMain [⟨none, "Lua", "@main.lua", 7, []⟩])) ∧
      Uniform (calledMain [⟨none, "Lua", "@main.lua", 7, []⟩]) := by
  have h := getStackTrace_iff (c := brokenMain) (P := Stepping.exactPaths)
    (calledMain [⟨none, "Lua", "@main.lua", 7, []⟩]) rfl
  refine ⟨h.1, ?_⟩
  intro ci hci
  simp only [calledMain, LuaState.stack, List.mem_cons, List.not_mem_nil, or_false] at hci
  rcases hci with rfl | rfl <;> decide

/-- The caller is from another file, and was called by a C function. -/
theorem not_getStackTrace :
    ¬ ∀ (c c' : LuaDebugSessionController) (x : HookCall Unit) (event : StoppedEventBody)
      (ar : LuaDebug), c.beforeStop Stepping.exactPaths x.l x.ar = some (some event, ar, c') →
        (({ ar := ar } : LuaStackTraceProvider).getStackTrace x.l).map Prod.fst =
          some (ownFrames x.l) := by
  intro h
  have hframes := h brokenMain brokenMain
    (calledMain [⟨none, "main", "@lib.lua", 7, []⟩, ⟨none, "C", "=[C]", -1, []⟩]) _ _ rfl
  revert hframes
  decide

end LuaStackTraceProvider

end LuaToolkit
