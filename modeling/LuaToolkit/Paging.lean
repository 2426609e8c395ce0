import LuaToolkit.Locals
import Mathlib.Algebra.GroupWithZero.Nat

/-!
# Paging

The requests for children and for the stack trace have arguments for a part of the answer: where it
starts, and how long it is. The provider reads neither and always answers with everything. A client
that fetches a long list in parts gets the whole list with each of them, and one that goes on until
a part comes out short does not come to an end.

* `page` — the part that a request asks for, and `page_eq_self_iff`, when it is everything.
* `VariablesPaged`, `FramesPaged` — one request gets the part that it asks for.
* `ChunksPaged`, `FramePagesEnd` — the parts together are everything, each once.
* `paged_iff` — when the provider does so.
-/

namespace LuaToolkit

/-! ## Pages of a list -/

section Page

variable {α : Type*}

/-- Some of the entries from an index on, or all of them when their number is missing or 0. -/
def page (start count : Option Nat) (as : List α) : List α :=
  let rest := as.drop (start.getD 0)
  if count.getD 0 = 0 then rest else rest.take (count.getD 0)

theorem length_page (start count : Option Nat) (as : List α) : (page start count as).length =
    if count.getD 0 = 0 then as.length - start.getD 0
    else min (count.getD 0) (as.length - start.getD 0) := by
  unfold page
  split_ifs <;> simp

theorem page_sublist (start count : Option Nat) (as : List α) :
    (page start count as).Sublist as := by
  unfold page
  split_ifs
  · exact List.drop_sublist _ _
  · exact (List.take_sublist _ _).trans (List.drop_sublist _ _)

/-- A page is the whole list when it is as long. -/
theorem page_eq_self_iff {start count : Option Nat} {as : List α} : page start count as = as ↔
    as.length = 0 ∨ (start.getD 0 = 0 ∧ (count.getD 0 = 0 ∨ as.length ≤ count.getD 0)) := by
  have hlength : page start count as = as ↔ (page start count as).length = as.length :=
    ⟨congrArg List.length, (page_sublist start count as).eq_of_length⟩
  rw [hlength, length_page]
  split_ifs <;> omega

end Page

namespace Dap

structure StackTraceArguments where
  threadId : Nat
  startFrame : Option Nat := none
  levels : Option Nat := none
  deriving DecidableEq, Repr

end Dap

namespace LuaStackTraceProvider

open Dap Transition

variable {N : Type} [DecidableEq N] [LuaNumber N] {heap : LuaHeap N}
  {l : LuaState (LuaValue N)} {p p' : LuaStackTraceProvider} {v : VariableEntry}

/-- `GetStackTrace` with the arguments that it does not read. -/
def stackTrace {ν : Type*} (l : LuaState ν) (_args : StackTraceArguments)
    (p : LuaStackTraceProvider) : Option (List StackFrame × LuaStackTraceProvider) :=
  p.getStackTrace l

/-! ## One request -/

/-- The request gets the children that it asks for. -/
def VariablesPaged (heap : LuaHeap N) (l : LuaState (LuaValue N)) (p : LuaStackTraceProvider)
    (v : VariableEntry) (arg : VariablesArguments) : Prop :=
  ∃ infos p', p.getVariables heap l arg = some (infos, p') ∧
    List.Forall₂ (Displays heap l p) (page arg.start arg.count (selected v arg.filter)) infos

/-- The request gets the frames that it asks for. -/
def FramesPaged {ν : Type*} (l : LuaState ν) (p : LuaStackTraceProvider)
    (args : StackTraceArguments) : Prop :=
  ∃ frames p', p.stackTrace l args = some (frames, p') ∧
    frames = page args.startFrame args.levels (p'.stackFrames.map StackFrameEntry.frameInfo)

theorem Shaped.variablesPaged_iff (h : Shaped heap l p) (hv : v ∈ p.variableEntries)
    {arg : VariablesArguments} (harg : arg.variablesReference = v.referenceId) :
    VariablesPaged heap l p v arg ↔ (selected v arg.filter).length = 0 ∨
      (arg.start.getD 0 = 0 ∧
        (arg.count.getD 0 = 0 ∨ (selected v arg.filter).length ≤ arg.count.getD 0)) := by
  obtain ⟨infos, p', hget, hshows⟩ := h.displays hv harg
  rw [← page_eq_self_iff]
  constructor
  · rintro ⟨infos', q, hget', hpage⟩
    obtain ⟨rfl, -⟩ := Prod.mk.inj (Option.some.inj (hget.symm.trans hget'))
    exact (page_sublist _ _ _).eq_of_length (hpage.length_eq.trans hshows.length_eq.symm)
  · intro hpage
    exact ⟨infos, p', hget, hpage.symm ▸ hshows⟩

/-- The stack trace has a frame for each function, and is the same from then on. -/
theorem Shaped.stackTrace (h : Shaped heap l p) (args : StackTraceArguments)
    (hanswer : Answerable p .stackTrace) : ∃ p', Shaped heap l p' ∧
      p.stackTrace l args = some (p'.stackFrames.map StackFrameEntry.frameInfo, p') ∧
      p'.stackFrames.length = l.stack.length ∧ Answerable p' .stackTrace := by
  obtain ⟨frames, p', hget, hp', -, ⟨hne, rfl⟩, -⟩ := h.getStackTrace hanswer
  refine ⟨p', hp', hget, ?_, .inl hne⟩
  have hlength := congrArg List.length (hp'.frames.resolve_left hne)
  simpa using hlength

omit [DecidableEq N] [LuaNumber N] in
theorem answerable_of_stackTrace {args : StackTraceArguments} {frames : List StackFrame}
    (hget : p.stackTrace l args = some (frames, p')) : Answerable p .stackTrace :=
  what_of_getStackTrace hget

theorem Shaped.framesPaged_iff (h : Shaped heap l p) (args : StackTraceArguments) :
    FramesPaged l p args ↔ Answerable p .stackTrace ∧ args.startFrame.getD 0 = 0 ∧
      (args.levels.getD 0 = 0 ∨ l.stack.length ≤ args.levels.getD 0) := by
  have hpos : 0 < l.stack.length := by simp [LuaState.stack]
  have hiff : ∀ {q : LuaStackTraceProvider}, q.stackFrames.length = l.stack.length →
      (page args.startFrame args.levels (q.stackFrames.map StackFrameEntry.frameInfo) =
        q.stackFrames.map StackFrameEntry.frameInfo ↔ args.startFrame.getD 0 = 0 ∧
          (args.levels.getD 0 = 0 ∨ l.stack.length ≤ args.levels.getD 0)) := by
    intro q hlength
    rw [page_eq_self_iff, List.length_map, hlength, or_iff_right (Nat.ne_of_gt hpos)]
  constructor
  · rintro ⟨frames, p', hget, hpage⟩
    have hanswer := answerable_of_stackTrace hget
    obtain ⟨q, -, hget', hlength, -⟩ := h.stackTrace args hanswer
    obtain ⟨rfl, rfl⟩ := Prod.mk.inj (Option.some.inj (hget'.symm.trans hget))
    exact ⟨hanswer, (hiff hlength).1 hpage.symm⟩
  · intro hcond
    obtain ⟨q, -, hget, hlength, -⟩ := h.stackTrace args hcond.1
    exact ⟨_, q, hget, ((hiff hlength).2 hcond.2).symm⟩

/-! ## Chunks -/

/-- The requests for the children in chunks of these sizes, one after the other. -/
def getChunks (heap : LuaHeap N) (l : LuaState (LuaValue N)) (variablesReference : Nat)
    (filter : String) :
    Nat → List Nat → LuaStackTraceProvider → Option (List Variable × LuaStackTraceProvider)
  | _, [], p => some ([], p)
  | start, count :: chunks, p => do
    let (infos, p) ← p.getVariables heap l {
      variablesReference := variablesReference, filter := filter
      start := some start, count := some count }
    let (rest, p) ← getChunks heap l variablesReference filter (start + count) chunks p
    some (infos ++ rest, p)

/-- The chunks together are the children, each once and in order. -/
def ChunksPaged (heap : LuaHeap N) (l : LuaState (LuaValue N)) (p : LuaStackTraceProvider)
    (v : VariableEntry) (filter : String) (chunks : List Nat) : Prop :=
  ∃ infos p', getChunks heap l v.referenceId filter 0 chunks p = some (infos, p') ∧
    List.Forall₂ (Displays heap l p) (selected v filter) infos

/-- The number of children that is shown with a variable. -/
def advertised (info : Variable) (filter : String) : Nat :=
  (filtered filter [info.indexedVariables.getD 0] [info.namedVariables.getD 0]).sum

theorem Displays.of_extends (hext : Extends p p') {id : Nat} {info : Variable}
    (h : Displays heap l p' id info) : Displays heap l p id info := by
  obtain ⟨q, hq, hq', hshows⟩ := h
  exact ⟨q, hq, hext.trans hq', hshows⟩

/-- Every chunk is all of the children. -/
theorem Shaped.getChunks (filter : String) (chunks : List Nat) :
    ∀ {p : LuaStackTraceProvider} (start : Nat), Shaped heap l p → v ∈ p.variableEntries →
      Settled v → ∃ infos p',
        LuaStackTraceProvider.getChunks heap l v.referenceId filter start chunks p =
          some (infos, p') ∧
        List.Forall₂ (Displays heap l p)
          (List.replicate chunks.length (selected v filter)).flatten infos := by
  induction chunks with
  | nil => exact fun _ _ _ _ => ⟨[], _, rfl, .nil⟩
  | cons count chunks ih =>
    intro p start h hv hsettled
    obtain ⟨infos, q, hget, hq, hopens, hshows⟩ := h.getVariables hv
      (show (⟨v.referenceId, filter, some start, some count⟩ :
        VariablesArguments).variablesReference = _ from rfl)
    obtain ⟨rest, p', hrest, hdisplays⟩ :=
      ih (start + count) hq (hopens.settled v hv hsettled) hsettled
    refine ⟨infos ++ rest, p', ?_, ?_⟩
    · simp [LuaStackTraceProvider.getChunks, hget, hrest]
    · rw [List.length_cons, List.replicate_succ, List.flatten_cons]
      exact List.rel_append (hshows.imp fun _ _ hs => ⟨q, hq, hopens.ext, hs⟩)
        (hdisplays.imp fun _ _ hd => hd.of_extends hopens.ext)

theorem Shaped.advertised_eq (h : Shaped heap l p) (hv : v ∈ p.variableEntries) {info : Variable}
    (hinfo : v.variableInfo = some info) (filter : String) :
    advertised info filter = (selected v filter).length := by
  obtain ⟨-, a, -, -, rfl⟩ := h.evaluated v hv info hinfo
  obtain ⟨-, hindexed, hnamed⟩ := shown_counts v a
  rw [advertised, hindexed, hnamed, selected]
  unfold filtered
  split_ifs <;> simp

theorem Shaped.chunksPaged_iff (h : Shaped heap l p) (hv : v ∈ p.variableEntries)
    {info : Variable} (hinfo : v.variableInfo = some info) {filter : String} {chunks : List Nat}
    (hpos : ∀ count ∈ chunks, 0 < count) (hsum : chunks.sum = advertised info filter) :
    ChunksPaged heap l p v filter chunks ↔ chunks.length ≤ 1 := by
  rw [h.advertised_eq hv hinfo] at hsum
  have hsettled : Settled v := .inr (hinfo ▸ Option.some_ne_none _)
  obtain ⟨infos, p', hget, hdisplays⟩ := h.getChunks filter chunks 0 hv hsettled
  have hlength := hdisplays.length_eq
  rw [List.length_flatten, List.map_replicate, List.sum_replicate_nat] at hlength
  constructor
  · rintro ⟨infos', q, hget', hpaged⟩
    obtain ⟨rfl, -⟩ := Prod.mk.inj (Option.some.inj (hget.symm.trans hget'))
    rw [← hpaged.length_eq] at hlength
    match chunks, hpos, hsum, hlength with
    | [], _, _, _ => exact Nat.zero_le _
    | [_], _, _, _ => exact Nat.le_refl _
    | count :: count' :: chunks, hpos, hsum, hlength =>
      have hcount := hpos count List.mem_cons_self
      have hselected : 0 < (selected v filter).length := by
        rw [← hsum, List.sum_cons]
        omega
      have hone := Nat.eq_of_mul_eq_mul_right hselected (hlength.trans (Nat.one_mul _).symm)
      exact Nat.le_of_eq hone
  · intro hle
    refine ⟨infos, p', hget, ?_⟩
    match chunks, hsum, hle, hdisplays with
    | [], hsum, _, hdisplays =>
      rw [List.length_eq_zero_iff.1 hsum.symm]
      exact hdisplays
    | [_], _, _, hdisplays => simpa using hdisplays

/-! ## Frame pages -/

/-- The requests for pages of this size, until one comes out short. So many may be needed. -/
def getFramePages {ν : Type*} (l : LuaState ν) (threadId levels : Nat) :
    Nat → Nat → LuaStackTraceProvider → Option (List StackFrame × LuaStackTraceProvider)
  | 0, _, _ => none
  | n + 1, startFrame, p => do
    let (frames, p) ← p.stackTrace l {
      threadId := threadId, startFrame := some startFrame, levels := some levels }
    if frames.length < levels then some (frames, p)
    else do
      let (rest, p) ← getFramePages l threadId levels n (startFrame + levels) p
      some (frames ++ rest, p)

/-- The pages come to an end, and together are the frames, each once and in order. -/
def FramePagesEnd {ν : Type*} (l : LuaState ν) (p : LuaStackTraceProvider)
    (threadId levels : Nat) : Prop :=
  ∃ n frames p', getFramePages l threadId levels n 0 p = some (frames, p') ∧
    frames = p'.stackFrames.map StackFrameEntry.frameInfo

/-- Every page is the whole stack, so with pages that are not longer there is no end. -/
theorem Shaped.getFramePages_eq_none {threadId levels : Nat} (hle : levels ≤ l.stack.length)
    (n : Nat) : ∀ {p : LuaStackTraceProvider} (startFrame : Nat), Shaped heap l p →
      getFramePages l threadId levels n startFrame p = none := by
  induction n with
  | zero => exact fun _ _ => rfl
  | succ n ih =>
    intro p startFrame h
    cases hget : p.stackTrace l ⟨threadId, some startFrame, some levels⟩ with
    | none => simp [getFramePages, hget]
    | some r =>
      obtain ⟨frames, q⟩ := r
      obtain ⟨p', hp', hget', hlength, -⟩ :=
        h.stackTrace ⟨threadId, some startFrame, some levels⟩ (answerable_of_stackTrace hget)
      obtain ⟨rfl, rfl⟩ := Prod.mk.inj (Option.some.inj (hget'.symm.trans hget))
      simp [getFramePages, hget, hlength, Nat.not_lt.2 hle, ih _ hp']

theorem Shaped.framePagesEnd_iff (h : Shaped heap l p) (threadId levels : Nat) :
    FramePagesEnd l p threadId levels ↔ Answerable p .stackTrace ∧ l.stack.length < levels := by
  constructor
  · rintro ⟨n, frames, p', hget, -⟩
    have hlt : l.stack.length < levels := by
      by_contra hnot
      rw [h.getFramePages_eq_none (Nat.not_lt.1 hnot)] at hget
      cases hget
    cases n with
    | zero => cases hget
    | succ n =>
      obtain ⟨⟨frames, q⟩, hfirst, -⟩ := Option.bind_eq_some_iff.1 hget
      exact ⟨answerable_of_stackTrace hfirst, hlt⟩
  · rintro ⟨hanswer, hlt⟩
    obtain ⟨p', -, hget, hlength, -⟩ :=
      h.stackTrace ⟨threadId, some 0, some levels⟩ hanswer
    refine ⟨1, _, p', ?_, rfl⟩
    simp [getFramePages, hget, hlength, hlt]

/-! ## When pages are right -/

/-- **Paging.** At any time of a stop: a request for children gets what it asks for exactly when
nothing is selected or it asks for everything, and so does a request for the stack trace that can be
answered at all. The advertised children are fetched in chunks, each child once, exactly with one
chunk, and pages of frames come to an end exactly when they are longer than the stack. -/
theorem paged_iff (hp : (system heap l).Reachable p) :
    (∀ v ∈ p.variableEntries, ∀ arg : VariablesArguments,
      arg.variablesReference = v.referenceId →
        (VariablesPaged heap l p v arg ↔ (selected v arg.filter).length = 0 ∨
          (arg.start.getD 0 = 0 ∧
            (arg.count.getD 0 = 0 ∨ (selected v arg.filter).length ≤ arg.count.getD 0)))) ∧
      (∀ args : StackTraceArguments, FramesPaged l p args ↔
        Answerable p .stackTrace ∧ args.startFrame.getD 0 = 0 ∧
          (args.levels.getD 0 = 0 ∨ l.stack.length ≤ args.levels.getD 0)) ∧
      (∀ v ∈ p.variableEntries, ∀ info ∈ v.variableInfo, ∀ (filter : String) (chunks : List Nat),
        (∀ count ∈ chunks, 0 < count) → chunks.sum = advertised info filter →
          (ChunksPaged heap l p v filter chunks ↔ chunks.length ≤ 1)) ∧
      ∀ threadId levels : Nat, FramePagesEnd l p threadId levels ↔
        Answerable p .stackTrace ∧ l.stack.length < levels := by
  have h := shaped_of_reachable hp
  exact ⟨fun v hv arg harg => h.variablesPaged_iff hv harg, h.framesPaged_iff,
    fun v hv info hinfo filter chunks => h.chunksPaged_iff hv hinfo, h.framePagesEnd_iff⟩

/-! ## Pages of a table and of a stack -/

/-- The client has opened the caller's table. -/
def openedProvider : LuaStackTraceProvider :=
  ((system (fun _ => mixedTable) shadowState).exec
    [.stackTrace, .scopes 2, .children { variablesReference := 1 }] shadowStart).getD shadowStart

theorem reachable_openedProvider :
    (system (fun _ => mixedTable) shadowState).Reachable openedProvider := by
  have hexec : (system (fun _ => mixedTable) shadowState).exec
      [.stackTrace, .scopes 2, .children { variablesReference := 1 }] shadowStart =
        some openedProvider := rfl
  exact .of_exec _ ⟨_, rfl⟩ hexec

theorem paged_iff_opened :
    FramesPaged shadowState openedProvider ⟨1, none, some 2⟩ ∧
      ¬ FramesPaged shadowState openedProvider ⟨1, some 1, none⟩ := by
  have hframes := (paged_iff reachable_openedProvider).2.1
  have hanswer : Answerable openedProvider .stackTrace := .inl (by decide)
  exact ⟨(hframes _).2 ⟨hanswer, rfl, .inr (by decide)⟩,
    fun hpaged => absurd ((hframes _).1 hpaged).2.1 (by decide)⟩

/-- The second of three children is asked for, and the first of two frames. -/
theorem not_paged :
    (¬ ∀ p, (system (fun _ => mixedTable) shadowState).Reachable p → ∀ v ∈ p.variableEntries,
      ∀ arg : VariablesArguments, arg.variablesReference = v.referenceId →
        VariablesPaged (fun _ => mixedTable) shadowState p v arg) ∧
    ¬ ∀ p, (system (fun _ => mixedTable) shadowState).Reachable p →
      Answerable p .stackTrace → ∀ args, FramesPaged shadowState p args := by
  have h := shaped_of_reachable reachable_openedProvider
  constructor
  · intro hall
    obtain ⟨v, hv, hid, hthree⟩ : ∃ v ∈ openedProvider.variableEntries, v.referenceId = 2 ∧
        (selected v "").length = 3 := by decide
    have hpaged := (h.variablesPaged_iff hv hid.symm).1
      (hall _ reachable_openedProvider v hv ⟨2, "", some 1, some 1⟩ hid.symm)
    rw [hthree] at hpaged
    revert hpaged
    decide
  · intro hall
    have hpaged := (h.framesPaged_iff _).1
      (hall _ reachable_openedProvider (.inl (by decide)) ⟨1, some 0, some 1⟩)
    exact absurd hpaged.2.2 (by decide)

end LuaStackTraceProvider

end LuaToolkit
