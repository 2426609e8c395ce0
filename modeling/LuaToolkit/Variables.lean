import LuaToolkit.Lib.Transition
import LuaToolkit.VariableTree

/-!
# Variables and the tables they show

The `lua_next` loop makes a variable of every number and string key of a table. The variable stores
the key as an `int` or as a name, and its value is looked up later with that, the name as a C
string. So a number that is no `int` and a string with a zero byte are looked up in another slot.

* `system` — the requests of one stop, in any order.
* `FromLocal` — the values that number and string keys lead to from the locals.
* `Exact` — the variables of a table's keys have the values of these keys, found without `__index`,
  and no two of them are looked up in one slot.
* `exact_iff` — this holds of all variables exactly when all keys on the way are faithful.
-/

namespace LuaToolkit.LuaStackTraceProvider

open Dap Transition
open LuaValue (lookupOf)

variable {N : Type} [DecidableEq N] [LuaNumber N] {heap : LuaHeap N}
  {l : LuaState (LuaValue N)} {p p' : LuaStackTraceProvider} {v : VariableEntry}

/-! ## Frames and scopes -/

omit [DecidableEq N] [LuaNumber N] in
/-- Frames have different ids. -/
theorem nodup_recordedEntry (l : LuaState (LuaValue N)) (what : String) (source : Option String) :
    ((l.stack.zipIdx.map (recordedEntry what source)).map StackFrameEntry.id).Nodup := by
  have hids : (l.stack.zipIdx.map (recordedEntry what source)).map StackFrameEntry.id =
      (l.stack.zipIdx.map Prod.snd).map Nat.succ := by
    rw [List.map_map, List.map_map]
    rfl
  rw [hids, List.zipIdx_map_snd]
  exact (List.nodup_range' 1).map Nat.succ_injective

theorem Tree.getStackTrace (h : Tree heap l p) {frames : List StackFrame}
    (hget : p.getStackTrace l = some (frames, p')) : Tree heap l p' ∧ Extends p p' := by
  obtain ⟨q, hq, hsame⟩ := Option.map_eq_some_iff.1 hget
  obtain rfl : q = p' := congrArg Prod.snd hsame
  by_cases hempty : p.stackFrames.isEmpty = true
  · rw [if_pos hempty] at hq
    obtain ⟨⟨stackFrames, ar⟩, hcollect, rfl⟩ := Option.map_eq_some_iff.1 hq
    cases hwhat : p.ar.what with
    | none => simp [collectFrames_of_none hwhat] at hcollect
    | some what =>
      obtain ⟨ar', hcollect'⟩ := collectFrames_of_some (l := l) hwhat
      rw [hcollect] at hcollect'
      obtain ⟨rfl, rfl⟩ := Prod.mk.inj (Option.some.inj hcollect')
      have hnil : p.stackFrames = [] := List.isEmpty_iff.1 hempty
      have hext : Extends p { p with
          stackFrames := l.stack.zipIdx.map (recordedEntry what p.ar.source), ar := ar } :=
        ⟨fun f hf => by simp [hnil] at hf, fun v hv => ⟨v, hv, .refl v⟩⟩
      refine ⟨h.extend hext h.ids (nodup_recordedEntry l what _) ?_ h.listed h.linked
        (fun v hv => .inl ⟨v, hv, .refl v, h.complete v hv⟩) ?_, hext⟩
      · intro f hf
        obtain ⟨⟨ci, level⟩, hlevel, rfl⟩ := List.mem_map.1 hf
        exact (List.getElem?_eq_some_iff.1 (List.mem_zipIdx_iff_getElem?.1 hlevel)).1
      · intro f hf hs
        obtain ⟨level, -, rfl⟩ := List.mem_map.1 hf
        exact absurd rfl hs
  · rw [if_neg hempty] at hq
    obtain rfl := Option.some.inj hq
    exact ⟨h, .refl p⟩

theorem Tree.newScope (h : Tree heap l p) (frameId : Nat) :
    Tree heap l (p.newVariable (.ofFrame frameId)).2 ∧
      Extends p (p.newVariable (.ofFrame frameId)).2 := by
  set q := (p.newVariable (.ofFrame frameId)).2 with hq
  have hmem : ∀ u, u ∈ q.variableEntries ↔
      u ∈ p.variableEntries ∨ u = .ofFrame frameId (p.variableRefId + 1) := by
    intro u
    rw [hq, newVariable, List.mem_append, List.mem_singleton]
  have hext : Extends p q :=
    ⟨fun f hf => ⟨f, hf, rfl, rfl, id⟩, fun u hu => ⟨u, (hmem u).2 (.inl hu), .refl u⟩⟩
  refine ⟨h.extend hext ?_ h.frameIds h.levels ?_ ?_ ?_ ?_, hext⟩
  · show (p.variableEntries ++ [VariableEntry.ofFrame frameId (p.variableRefId + 1)]).map
      VariableEntry.referenceId = List.range' 1 (p.variableRefId + 1)
    rw [List.map_append, h.ids, List.range'_concat]
    simp [VariableEntry.ofFrame, Nat.add_comm]
  · intro u hu id hid
    rcases (hmem u).1 hu with hu | rfl
    · obtain ⟨c, hc, hcid⟩ := h.listed u hu id hid
      exact ⟨c, (hmem c).2 (.inl hc), hcid⟩
    · cases hid
  · intro u hu c hc hparent
    rcases (hmem c).1 hc with hc | rfl
    · rcases (hmem u).1 hu with hu | rfl
      · exact h.linked u hu c hc hparent
      · -- No variable has the new scope as its parent yet.
        have hlt := (h.parents c hc _ hparent).1
        have hle := h.referenceId_le hc
        simp only [VariableEntry.ofFrame] at hlt
        omega
    · cases hparent
  · intro u hu
    rcases (hmem u).1 hu with hu | rfl
    · exact .inl ⟨u, hu, .refl u, h.complete u hu⟩
    · exact .inr ⟨rfl, fun id hid => absurd hid (Option.not_mem_none id),
        fun hscope => absurd hscope (Option.some_ne_none frameId)⟩
  · exact fun f hf hs => (h.scopes f hf hs).mono hext

/-- A frame takes its scopes. -/
theorem Tree.setScopes (h : Tree heap l p) {frame : StackFrameEntry} (hf : frame ∈ p.stackFrames)
    (hshown : Shown heap l p frame.level) {scopes : List Scope} (hne : scopes ≠ []) :
    let q := { p with
      stackFrames := p.stackFrames.map fun f =>
        if f.id = frame.id then { f with scopes := scopes } else f }
    Tree heap l q ∧ Extends p q := by
  intro q
  have hmem : ∀ f ∈ p.stackFrames,
      (if f.id = frame.id then { f with scopes := scopes } else f) ∈ q.stackFrames :=
    fun f hf => List.mem_map_of_mem hf
  have hframe : ∀ f : StackFrameEntry,
      (if f.id = frame.id then { f with scopes := scopes } else f).id = f.id ∧
      (if f.id = frame.id then { f with scopes := scopes } else f).level = f.level := by
    intro f
    split_ifs <;> exact ⟨rfl, rfl⟩
  have hext : Extends p q := by
    refine ⟨fun f hf => ⟨_, hmem f hf, (hframe f).1, (hframe f).2, fun hs => ?_⟩,
      fun v hv => ⟨v, hv, .refl v⟩⟩
    split_ifs
    · exact hne
    · exact hs
  refine ⟨h.extend hext h.ids ?_ ?_ h.listed h.linked
    (fun v hv => .inl ⟨v, hv, .refl v, h.complete v hv⟩) ?_, hext⟩
  · have hids : q.stackFrames.map StackFrameEntry.id = p.stackFrames.map StackFrameEntry.id := by
      show (p.stackFrames.map _).map _ = _
      rw [List.map_map]
      exact List.map_congr_left fun f _ => (hframe f).1
    rw [hids]
    exact h.frameIds
  · intro f' hf'
    obtain ⟨f, hf, rfl⟩ := List.mem_map.1 hf'
    rw [(hframe f).2]
    exact h.levels f hf
  · intro f' hf' hs
    obtain ⟨f, hfmem, rfl⟩ := List.mem_map.1 hf'
    rw [(hframe f).2]
    by_cases hid : f.id = frame.id
    · have hsame : f = frame := List.inj_on_of_nodup_map h.frameIds hfmem hf hid
      rw [hsame]
      exact hshown.mono hext
    · rw [if_neg hid] at hs
      exact (h.scopes f hfmem hs).mono hext

/-- **Scopes.** In a tree the request for the scopes of a frame succeeds, and leaves the frame with
variables for its locals. -/
theorem Tree.getScopes (h : Tree heap l p) {frame : StackFrameEntry} (hf : frame ∈ p.stackFrames) :
    ∃ scopes p', getScopes l frame.id p = some (scopes, p') ∧ Tree heap l p' ∧ Extends p p' ∧
      Shown heap l p' frame.level := by
  have hentry := h.uniqueIds.getStackFrameEntry hf
  unfold LuaStackTraceProvider.getScopes
  rw [hentry]
  by_cases hempty : frame.scopes.isEmpty = true
  · have hlevel := h.levels frame hf
    have hci : l.stack[frame.level]? = some l.stack[frame.level] := List.getElem?_eq_getElem hlevel
    set ci := l.stack[frame.level]
    set scope := VariableEntry.ofFrame frame.id (p.variableRefId + 1)
    set q := { p with ar := { p.ar with i_ci := frame.level } }
    obtain ⟨hq, hext⟩ := h.setRecord { p.ar with i_ci := frame.level }
    obtain ⟨hnew, hext'⟩ := hq.newScope frame.id
    have hscope : scope ∈ (q.newVariable (.ofFrame frame.id)).2.variableEntries :=
      List.mem_append_right _ (List.mem_singleton.2 rfl)
    have hslots : ∀ s ∈ ci.locals.zipIdx 1,
        ∃ index, s.2 = index + 1 ∧ ci.locals[index]? = some s.1 := by
      intro s hs
      obtain ⟨hle, hslot⟩ := List.mem_zipIdx_iff_le_and_getElem?_sub.1 hs
      exact ⟨s.2 - 1, by omega, hslot⟩
    obtain ⟨hlocals, hext'', hvisible⟩ := hnew.foldl_addLocal _ hscope rfl hf hci hslots
    set r := (ci.locals.zipIdx 1).foldl (LuaStackTraceProvider.addLocal scope.referenceId)
      (q.newVariable (.ofFrame frame.id)).2
    have hshown : Shown heap l r frame.level := by
      intro ci' hci' index name a hslot hname
      obtain rfl : ci = ci' := Option.some.inj (hci.symm.trans hci')
      have hmem : ((name, a), index + 1) ∈ ci.locals.zipIdx 1 :=
        List.mem_zipIdx_iff_le_and_getElem?_sub.2 ⟨by omega, by simpa using hslot⟩
      exact hvisible _ hmem hname
    obtain ⟨f, hfmem, hid, hflevel, -⟩ := hext''.frames frame hf
    obtain ⟨htree, hext₃⟩ := hlocals.setScopes hfmem (hflevel.symm ▸ hshown)
      (List.cons_ne_nil ⟨"Locals", some "locals", p.variableRefId + 1⟩ [])
    refine ⟨[⟨"Locals", some "locals", p.variableRefId + 1⟩], _, ?_, htree,
      ((hext.trans hext').trans hext'').trans hext₃, ?_⟩
    · rw [Option.map_some, LuaStackTraceProvider.getFrameScopes, if_pos hempty,
        luaGetStack_of_lt hlevel, hid]
      simp only [hci, Option.map_some, Option.getD_some]
      rfl
    · exact hshown.mono hext₃
  · refine ⟨frame.scopes, p, ?_, h, .refl p, h.scopes frame hf ?_⟩
    · rw [Option.map_some, LuaStackTraceProvider.getFrameScopes, if_neg hempty]
    · intro hnil
      exact hempty (List.isEmpty_iff.2 hnil)

/-! ## Requests -/

/-- The requests about one stop. -/
inductive Request where
  | stackTrace
  | scopes (frameId : Nat)
  | children (arg : VariablesArguments)

/-- The provider of one stop, with the record that the hook was called with. -/
def system (heap : LuaHeap N) (l : LuaState (LuaValue N)) :
    System LuaStackTraceProvider Request where
  init p := ∃ ar, p = { ar := ar }
  step
    | .stackTrace, p => (p.getStackTrace l).map Prod.snd
    | .scopes frameId, p => (p.getScopes l frameId).map Prod.snd
    | .children arg, p => (p.getVariables heap l arg).map Prod.snd

theorem Tree.new (ar : LuaDebug) : Tree heap l { ar := ar } where
  ids := rfl
  frameIds := List.nodup_nil
  levels _ h := absurd h List.not_mem_nil
  parents _ h := absurd h List.not_mem_nil
  values _ h := absurd h List.not_mem_nil
  listed _ h := absurd h List.not_mem_nil
  linked _ h := absurd h List.not_mem_nil
  complete _ h := absurd h List.not_mem_nil
  scopes _ h := absurd h List.not_mem_nil

/-- Requests extend the tree. -/
theorem Tree.extend_step (h : Tree heap l p) {request : Request}
    (hstep : (system heap l).step request p = some p') : Tree heap l p' ∧ Extends p p' := by
  cases request with
  | stackTrace =>
    obtain ⟨⟨frames, q⟩, hget, rfl⟩ := Option.map_eq_some_iff.1 hstep
    exact h.getStackTrace hget
  | scopes frameId =>
    obtain ⟨⟨scopes, q⟩, hget, rfl⟩ := Option.map_eq_some_iff.1 hstep
    obtain ⟨frame, hframe, -⟩ := Option.map_eq_some_iff.1 hget
    obtain rfl : frame.id = frameId := by simpa using List.find?_some hframe
    obtain ⟨scopes', p', hget', htree, hext, -⟩ := h.getScopes (List.mem_of_find?_eq_some hframe)
    obtain ⟨-, rfl⟩ := Prod.mk.inj (Option.some.inj (hget.symm.trans hget'))
    exact ⟨htree, hext⟩
  | children arg =>
    obtain ⟨⟨infos, q⟩, hget, rfl⟩ := Option.map_eq_some_iff.1 hstep
    obtain ⟨v, hv, -⟩ := Option.bind_eq_some_iff.1 hget
    have hid : v.referenceId = arg.variablesReference := by simpa using List.find?_some hv
    obtain ⟨infos', p', hget', htree, hext, -⟩ :=
      h.getVariables (List.mem_of_find?_eq_some hv) hid.symm
    obtain ⟨-, rfl⟩ := Prod.mk.inj (Option.some.inj (hget.symm.trans hget'))
    exact ⟨htree, hext⟩

/-- Requests keep the tree. -/
theorem Tree.step (h : Tree heap l p) {request : Request}
    (hstep : (system heap l).step request p = some p') : Tree heap l p' :=
  (h.extend_step hstep).1

theorem tree_of_reachable (h : (system heap l).Reachable p) : Tree heap l p := by
  refine h.invariant ?_ fun p request p' hp hstep => hp.step hstep
  intro p hinit
  obtain ⟨ar, rfl⟩ := hinit
  exact .new ar

/-! ## Values of variables -/

/-- What `PushChildValue` of its parent pushes for a variable. -/
def valueOf (heap : LuaHeap N) (l : LuaState (LuaValue N)) (p : LuaStackTraceProvider)
    (v : VariableEntry) : Option (LuaValue N) := do
  let parent ← v.parentVariableId.bind p.getVariableEntry
  let (value, _) ← p.pushChildValue heap l p.variableEntries.length parent v p.ar
  value

theorem Tree.valueOf_eq_some (h : Tree heap l p) (hv : v ∈ p.variableEntries) {a : LuaValue N}
    (ha : Evaluates heap l p v a) : valueOf heap l p v = some a := by
  obtain ⟨parent, hmem, hparent, -⟩ := ha.exists_parent
  obtain ⟨ar, hpush⟩ := ha.pushChildValue h.uniqueIds p.variableEntries.length parent p.ar
    hparent hmem (h.length_eq ▸ h.referenceId_le hv)
  simp [valueOf, hparent, h.uniqueIds.getVariableEntry hmem, hpush]

theorem Tree.valueOf_eq_some_iff (h : Tree heap l p) (hv : v ∈ p.variableEntries)
    {a : LuaValue N} : valueOf heap l p v = some a ↔ Evaluates heap l p v a := by
  refine ⟨fun hvalue => ?_, h.valueOf_eq_some hv⟩
  have hscope : v.parentFrame = none := by
    obtain ⟨parent, hparent, -⟩ := Option.bind_eq_some_iff.1 hvalue
    obtain ⟨id, hid, -⟩ := Option.bind_eq_some_iff.1 hparent
    exact (h.parents v hv id hid).2
  obtain ⟨b, hb⟩ := h.values v hv hscope
  obtain rfl : b = a := Option.some.inj ((h.valueOf_eq_some hv hb).symm.trans hvalue)
  exact hb

/-- What a visible local holds, and what tables among these values hold at numbers and strings. -/
inductive FromLocal (heap : LuaHeap N) (l : LuaState (LuaValue N)) : LuaValue N → Prop
  | slot {ci : CallInfo (LuaValue N)} {name : Bytes} {a : LuaValue N} (hci : ci ∈ l.stack)
      (hslot : (name, a) ∈ ci.locals) (hname : Visible name) : FromLocal heap l a
  | entry {t : Nat} {k w : LuaValue N} (ht : FromLocal heap l (.table t))
      (hk : (k, w) ∈ (heap t).entries) (hkey : k.IsVariableKey) : FromLocal heap l w

/-- The variables of the keys of a variable's table. Evaluation has made them, their values are
those of the keys and not what `__index` brings, and they are in different slots. -/
structure Exact (heap : LuaHeap N) (l : LuaState (LuaValue N)) (p : LuaStackTraceProvider)
    (v : VariableEntry) (t : Nat) : Prop where
  child : v.variableInfo ≠ none → ∀ k w, (k, w) ∈ (heap t).entries → k.IsVariableKey →
    ∃ c ∈ p.variableEntries, c.parentVariableId = some v.referenceId ∧ c.Describes k
  value : ∀ c ∈ p.variableEntries, c.parentVariableId = some v.referenceId →
    ∀ k w, (k, w) ∈ (heap t).entries → c.Describes k → valueOf heap l p c = some w
  raw : ∀ c ∈ p.variableEntries, c.parentVariableId = some v.referenceId →
    ∀ k w, (k, w) ∈ (heap t).entries → c.Describes k → (heap t).rawGet (lookupKey c) = w
  slots : ∀ c ∈ p.variableEntries, c.parentVariableId = some v.referenceId →
    ∀ c' ∈ p.variableEntries, c'.parentVariableId = some v.referenceId →
    ∀ k w k' w', (k, w) ∈ (heap t).entries → (k', w') ∈ (heap t).entries → c.Describes k →
      c'.Describes k' → k ≠ k' → (lookupKey c : LuaValue N) ≠ lookupKey c'

/-- In every run, for every table that comes from a local and every variable with this table. -/
def AllExact (heap : LuaHeap N) (l : LuaState (LuaValue N)) : Prop :=
  ∀ p, (system heap l).Reachable p → ∀ v ∈ p.variableEntries, ∀ t, FromLocal heap l (.table t) →
    valueOf heap l p v = some (.table t) → Exact heap l p v t

/-- Every table that comes from a local has faithful keys. -/
def AllFaithful (heap : LuaHeap N) (l : LuaState (LuaValue N)) : Prop :=
  ∀ t, FromLocal heap l (.table t) → ∀ k w, (k, w) ∈ (heap t).entries → k.Faithful

/-- Some run evaluates a variable with this value. -/
def Displayed (heap : LuaHeap N) (l : LuaState (LuaValue N)) (a : LuaValue N) : Prop :=
  ∃ p, (system heap l).Reachable p ∧ ∃ v ∈ p.variableEntries, v.variableInfo ≠ none ∧
    valueOf heap l p v = some a

/-! ## Faithful keys are enough -/

theorem Evaluates.ofChild (h : Tree heap l p) (hv : v ∈ p.variableEntries) {t : Nat}
    (ht : Evaluates heap l p v (.table t)) {c : VariableEntry} (hc : c ∈ p.variableEntries)
    (hparent : c.parentVariableId = some v.referenceId) {k w : LuaValue N}
    (hk : (k, w) ∈ (heap t).entries) (hdescribes : c.Describes k) :
    Evaluates heap l p c ((heap t).get (lookupOf k)) := by
  obtain ⟨hlt, hscope⟩ := h.parents c hc _ hparent
  exact .child hscope hparent hv hlt ht.parentFrame ht hk hdescribes

theorem Tree.exact (h : Tree heap l p) (hv : v ∈ p.variableEntries) {t : Nat}
    (hvalue : valueOf heap l p v = some (.table t))
    (hfaithful : ∀ k w, (k, w) ∈ (heap t).entries → k.Faithful) : Exact heap l p v t := by
  have ht := (h.valueOf_eq_some_iff hv).1 hvalue
  have hlookup : ∀ (c : VariableEntry) (k w : LuaValue N), (k, w) ∈ (heap t).entries →
      c.Describes k → lookupKey c = k := fun c k w hk hdescribes =>
    (lookupKey_of_describes hdescribes).trans (LuaValue.lookupOf_eq_self.2 (hfaithful k w hk))
  constructor
  · exact fun hinfo => h.complete v hv hinfo t ht
  · intro c hc hparent k w hk hdescribes
    have hc' := ht.ofChild h hv hc hparent hk hdescribes
    rw [LuaValue.lookupOf_eq_self.2 (hfaithful k w hk), LuaTable.get_of_mem hk] at hc'
    exact h.valueOf_eq_some hc hc'
  · intro c _ _ k w hk hdescribes
    rw [hlookup c k w hk hdescribes]
    exact LuaTable.rawGet_of_mem hk
  · intro c _ _ c' _ _ k w k' w' hk hk' hdescribes hdescribes' hne
    rw [hlookup c k w hk hdescribes, hlookup c' k' w' hk' hdescribes']
    exact hne

theorem AllFaithful.allExact (h : AllFaithful heap l) : AllExact heap l := by
  intro p hp v hv t ht hvalue
  exact (tree_of_reachable hp).exact hv hvalue (h t ht)

/-! ## And they are needed -/

/-- A run leads on to the evaluation of any of its variables. -/
theorem displayed_of_evaluates (hp : (system heap l).Reachable p) (hv : v ∈ p.variableEntries)
    {a : LuaValue N} (ha : Evaluates heap l p v a) : Displayed heap l a := by
  have h := tree_of_reachable hp
  obtain ⟨parent, hmem, hparent, -⟩ := ha.exists_parent
  let arg : VariablesArguments := { variablesReference := parent.referenceId }
  have harg : arg.variablesReference = parent.referenceId := rfl
  obtain ⟨infos, p', hget, htree, hext, hevaluated⟩ := h.getVariables hmem harg
  obtain ⟨v', hv', hgrown, hinfo⟩ := hevaluated rfl v hv hparent
  have hp' : (system heap l).Reachable p' :=
    hp.step (a := .children arg) (congrArg (Option.map Prod.snd) hget)
  exact ⟨p', hp', v', hv', hinfo, htree.valueOf_eq_some hv' (ha.mono hext hgrown)⟩

omit [DecidableEq N] [LuaNumber N] in
/-- The first request for the stack trace finds every function. -/
theorem exists_getStackTrace {what : String} {ar : LuaDebug} (hwhat : ar.what = some what) :
    ∃ p', (getStackTrace l { ar := ar }).map Prod.snd = some p' ∧
      ∀ level ci, l.stack[level]? = some ci →
        recordedEntry what ar.source (ci, level) ∈ p'.stackFrames := by
  obtain ⟨ar', hcollect⟩ := collectFrames_of_some (l := l) hwhat
  refine ⟨{ ar := ar', stackFrames := l.stack.zipIdx.map (recordedEntry what ar.source) }, ?_,
    fun level ci hci => List.mem_map_of_mem (List.mem_zipIdx_iff_getElem?.2 hci)⟩
  simp [LuaStackTraceProvider.getStackTrace, hcollect]

/-- The stack trace, the scopes of a function and their variables display its locals. -/
theorem displayed_of_slot {ci : CallInfo (LuaValue N)} {name : Bytes} {a : LuaValue N}
    (hci : ci ∈ l.stack) (hslot : (name, a) ∈ ci.locals) (hname : Visible name) :
    Displayed heap l a := by
  obtain ⟨level, hlevel⟩ := List.mem_iff_getElem?.1 hci
  obtain ⟨index, hindex⟩ := List.mem_iff_getElem?.1 hslot
  let ar : LuaDebug := ⟨.line, none, some "Lua", none, 0, 0⟩
  have hnew : (system heap l).Reachable { ar := ar } := .init ⟨ar, rfl⟩
  have hwhat : ar.what = some "Lua" := rfl
  obtain ⟨p, hstep, hframes⟩ := exists_getStackTrace (l := l) hwhat
  have hp : (system heap l).Reachable p := hnew.step (a := .stackTrace) hstep
  obtain ⟨scopes, p', hget', -, -, hshown⟩ :=
    (tree_of_reachable hp).getScopes (hframes level ci hlevel)
  have hp' : (system heap l).Reachable p' :=
    hp.step (a := .scopes (level + 1)) (congrArg (Option.map Prod.snd) hget')
  obtain ⟨v, hv, ha⟩ := hshown ci hlevel index name a hindex hname
  exact displayed_of_evaluates hp' hv ha

theorem AllExact.displayed (h : AllExact heap l) {a : LuaValue N} (ha : FromLocal heap l a) :
    Displayed heap l a := by
  induction ha with
  | slot hci hslot hname => exact displayed_of_slot hci hslot hname
  | entry ht hk hkey ih =>
    obtain ⟨p, hp, v, hv, hinfo, hvalue⟩ := ih
    have hexact := h p hp v hv _ ht hvalue
    obtain ⟨c, hc, hparent, hdescribes⟩ := hexact.child hinfo _ _ hk hkey
    have hc' := hexact.value c hc hparent _ _ hk hdescribes
    exact displayed_of_evaluates hp hc (((tree_of_reachable hp).valueOf_eq_some_iff hc).1 hc')

/-- A key that is not faithful is looked up in the slot of another key, or in none. -/
theorem Exact.faithful {t : Nat} (h : Exact heap l p v t) (hinfo : v.variableInfo ≠ none)
    {k w : LuaValue N} (hk : (k, w) ∈ (heap t).entries) (hkey : k.IsVariableKey) : k.Faithful := by
  obtain ⟨c, hc, hparent, hdescribes⟩ := h.child hinfo k w hk hkey
  have hlookup := lookupKey_of_describes hdescribes
  have hraw := h.raw c hc hparent k w hk hdescribes
  rw [hlookup] at hraw
  have hmem : (lookupOf k, w) ∈ (heap t).entries := by
    have hne : (heap t).rawGet (lookupOf k) ≠ .nil := hraw ▸ (heap t).value_ne_nil _ hk
    have hentry := LuaTable.mem_of_rawGet_ne_nil hne
    rwa [hraw] at hentry
  obtain ⟨c', hc', hparent', hdescribes'⟩ :=
    h.child hinfo _ w hmem (LuaValue.isVariableKey_lookupOf hkey)
  have hlookup' := lookupKey_of_describes hdescribes'
  rw [LuaValue.lookupOf_lookupOf] at hlookup'
  by_contra hnot
  have hne : k ≠ lookupOf k := fun heq => hnot (LuaValue.lookupOf_eq_self.1 heq.symm)
  exact h.slots c hc hparent c' hc' hparent' k w _ w hk hmem hdescribes hdescribes' hne
    (hlookup.trans hlookup'.symm)

theorem AllExact.allFaithful (h : AllExact heap l) : AllFaithful heap l := by
  intro t ht k w hk
  obtain ⟨p, hp, v, hv, hinfo, hvalue⟩ := h.displayed ht
  cases hcase : k with
  | number n => exact hcase ▸ (h p hp v hv t ht hvalue).faithful hinfo hk (hcase ▸ trivial)
  | string s => exact hcase ▸ (h p hp v hv t ht hvalue).faithful hinfo hk (hcase ▸ trivial)
  | _ => trivial

/-- **Faithful keys.** The variables of all tables that come from the locals are exact in every run
exactly when all keys of these tables are faithful. Then all these values come to be displayed. -/
theorem exact_iff (heap : LuaHeap N) (l : LuaState (LuaValue N)) :
    (AllExact heap l ↔ AllFaithful heap l) ∧
      (AllFaithful heap l → ∀ a, FromLocal heap l a → Displayed heap l a) :=
  ⟨⟨AllExact.allFaithful, AllFaithful.allExact⟩, fun h _ ha => h.allExact.displayed ha⟩

/-! ## Keys that are not faithful -/

/-- The numbers that are integers of 64 bits. The text is that of small ones. -/
instance : LuaNumber Int64 where
  ofInt i := i.toInt64
  toInteger n := n
  toText n := VariableEntry.decimalInt n.toInt32 ++ ascii ".000000"
  toInteger_ofInt _ := rfl

/-- The table `{[1] = true, [2^32 + 1] = false, ["a\0b"] = true}`. -/
def mixedTable : LuaTable Int64 where
  entries := [(.number 1, .boolean true), (.number 4294967297, .boolean false),
    (.string [97, 0, 98], .boolean true)]

/-- A function with the table in its local `t`. -/
def mixedState : LuaState (LuaValue Int64) where
  running := {
    name := some "update", what := "Lua", source := "@main.lua", currentline := 1
    locals := [(ascii "t", .table 0)] }
  callers := []

/-- The variable of the number that is no `int` has the value of the other number. -/
theorem not_allExact : ¬ AllExact (fun _ => mixedTable) mixedState := by
  intro h
  have hrunning : mixedState.running ∈ mixedState.stack := List.mem_cons_self
  have hfrom : FromLocal (fun _ => mixedTable) mixedState (.table 0) :=
    .slot hrunning List.mem_cons_self rfl
  have hmem : (.number 4294967297, .boolean false) ∈ mixedTable.entries := by decide
  obtain ⟨i, hi⟩ := h.allFaithful 0 hfrom _ _ hmem
  have hone : i = 1 := by
    rw [← Int32.toInt32_toInt64 i]
    exact congrArg Int64.toInt32 hi.symm
  rw [hone] at hi
  revert hi
  decide

-- The client is shown the value of 1 twice, and no value for the string.
example : (((system (fun _ => mixedTable) mixedState).exec
    [.stackTrace, .scopes 1, .children { variablesReference := 1 }]
      { ar := ⟨.line, none, some "Lua", none, 0, 0⟩ }).bind fun p =>
    (p.getVariables (fun _ => mixedTable) mixedState { variablesReference := 2 }).map fun r =>
      r.1.map Variable.value) = some [ascii "True", ascii "True", ascii "nil"] := by decide

end LuaToolkit.LuaStackTraceProvider
