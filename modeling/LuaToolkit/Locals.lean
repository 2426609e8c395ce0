import LuaToolkit.VariableDialogue

/-!
# Locals

The scope of a frame collects the names of the locals with the numbers of their slots. The values
are fetched later by slot number, after the shared record has been moved to the level of the frame
again. So locals of the same name keep apart, and so do the frames, whatever is asked in between.

* `visibleSlots` — the slots that are shown, with their numbers.
* `ShowsSlot` — what is shown is the value in this slot.
* `locals_shown` — the children of a scope are the slots of its frame, in order.
-/

namespace LuaToolkit.LuaStackTraceProvider

open Dap Transition

variable {N : Type} [DecidableEq N] [LuaNumber N] {heap : LuaHeap N}
  {l : LuaState (LuaValue N)} {p p' : LuaStackTraceProvider} {v : VariableEntry}
  {ci : CallInfo (LuaValue N)}

/-- The slots of a function whose name does not begin with `(*`, with their numbers. -/
def visibleSlots {ν : Type*} (ci : CallInfo ν) : List ((Bytes × ν) × Nat) :=
  (ci.locals.zipIdx 1).filter fun slot => !(ascii "(*").isPrefixOf slot.1.1

def slotKid {ν : Type*} (slot : (Bytes × ν) × Nat) : Kid := .named slot.1.1 (some slot.2)

theorem localKids_eq {ν : Type*} (ci : CallInfo ν) :
    localKids ci = (visibleSlots ci).map slotKid := by
  unfold localKids visibleSlots
  rw [← List.filterMap_eq_map, List.filterMap_filter]
  refine List.filterMap_congr fun slot _ => ?_
  unfold localKid
  cases (ascii "(*").isPrefixOf slot.1.1 <;> rfl

theorem mem_visibleSlots {ν : Type*} {ci : CallInfo ν} {name : Bytes} {a : ν} {n : Nat} :
    ((name, a), n) ∈ visibleSlots ci ↔
      (∃ index, n = index + 1 ∧ ci.locals[index]? = some (name, a)) ∧ Visible name := by
  rw [visibleSlots, List.mem_filter, List.mem_zipIdx_iff_le_and_getElem?_sub, Bool.not_eq_true']
  refine and_congr_left fun _ => ⟨fun h => ⟨n - 1, by omega, h.2⟩, fun h => ?_⟩
  obtain ⟨index, rfl, hslot⟩ := h
  exact ⟨by omega, by simpa using hslot⟩

/-- The variable of this slot shows its name and the value that the slot holds, and the value that
`PushChildValue` finds for it is that one. -/
def ShowsSlot (heap : LuaHeap N) (l : LuaState (LuaValue N)) (p : LuaStackTraceProvider)
    (slot : (Bytes × LuaValue N) × Nat) (info : Variable) : Prop :=
  ∃ v ∈ p.variableEntries, v.name = slot.1.1 ∧ v.indexOnFrame = some slot.2 ∧
    valueOf heap l p v = some slot.1.2 ∧ v.variableInfo = some info ∧
    info = display heap v.referenceId slot.1.1 slot.1.2

/-- The variable of a slot in the scope of a frame has the value in that slot of that frame. -/
theorem Shaped.evaluates_slot (h : Shaped heap l p) (hv : v ∈ p.variableEntries)
    {f : StackFrameEntry} (hf : f ∈ p.stackFrames) (hscope : v.parentFrame = some f.id)
    (hci : l.stack[f.level]? = some ci) {slot : (Bytes × LuaValue N) × Nat}
    (hslot : slot ∈ visibleSlots ci) {c : VariableEntry} (hc : c ∈ p.variableEntries)
    (hparent : c.parentVariableId = some v.referenceId) (hindex : c.indexOnFrame = some slot.2) :
    Evaluates heap l p c slot.1.2 := by
  obtain ⟨⟨name, a⟩, n⟩ := slot
  obtain ⟨⟨index, rfl, hlocal⟩, hname⟩ := mem_visibleSlots.1 hslot
  obtain ⟨hlt, hcscope⟩ := h.tree.parents c hc _ hparent
  exact .slot hcscope hparent hv hlt hscope hf hindex hci hlocal hname

theorem Shaped.showsSlot (h : Shaped heap l p) (hv : v ∈ p.variableEntries)
    {f : StackFrameEntry} (hf : f ∈ p.stackFrames) (hscope : v.parentFrame = some f.id)
    (hci : l.stack[f.level]? = some ci) {slot : (Bytes × LuaValue N) × Nat}
    (hslot : slot ∈ visibleSlots ci) {id : Nat} (hkid : IsKid p v.referenceId id (slotKid slot))
    {info : Variable} (hshows : Shows p id info) : ShowsSlot heap l p slot info := by
  obtain ⟨c, hc, hcid, hparent, -, -, hname, hindex⟩ := hkid
  obtain ⟨c', hc', hcid', hinfo⟩ := hshows
  obtain rfl := h.tree.uniqueIds.eq_of_referenceId hc hc' (hcid.trans hcid'.symm)
  have ha := h.evaluates_slot hv hf hscope hci hslot hc hparent hindex
  obtain ⟨-, b, hb, hlists, rfl⟩ := h.evaluated c hc info hinfo
  obtain rfl := ha.unique h.tree.uniqueIds hb
  refine ⟨c, hc, hname, hindex, h.tree.valueOf_eq_some hc ha, hinfo, ?_⟩
  rw [hlists.shown_eq, hname]

/-- The children of the scope of a frame are the slots of the frame, in order. -/
theorem Shaped.showsSlots (h : Shaped heap l p) (hv : v ∈ p.variableEntries)
    {f : StackFrameEntry} (hf : f ∈ p.stackFrames) (hscope : v.parentFrame = some f.id)
    (hci : l.stack[f.level]? = some ci) {filter : String} (hfilter : filter = "" ∨ filter = "named")
    {infos : List Variable} (hshows : List.Forall₂ (Shows p) (selected v filter) infos) :
    List.Forall₂ (ShowsSlot heap l p) (visibleSlots ci) infos := by
  obtain ⟨f', hf', hid, -, ci', hci', hlists⟩ := h.scope v hv f.id hscope
  obtain rfl := List.inj_on_of_nodup_map h.tree.frameIds hf' hf hid
  obtain rfl : ci' = ci := Option.some.inj (hci'.symm.trans hci)
  have hnamed := hlists.named
  have hindexed := hlists.indexed
  rw [localKids_eq] at hnamed hindexed
  have hall : ∀ kid ∈ (visibleSlots ci').map slotKid, kid.isIndexed = false := by
    intro kid hkid
    obtain ⟨slot, -, rfl⟩ := List.mem_map.1 hkid
    rfl
  rw [List.filter_eq_nil_iff.2 fun kid hkid => by simp [hall kid hkid]] at hindexed
  rw [List.filter_eq_self.2 fun kid hkid => by simp [hall kid hkid], List.forall₂_map_right_iff]
    at hnamed
  have hselected : selected v filter = v.namedChildren := by
    rw [selected, filtered, List.forall₂_nil_right_iff.1 hindexed, ite_self, List.nil_append,
      if_pos hfilter]
  rw [hselected] at hshows
  refine List.forall₂_iff_get.2 ⟨hnamed.length_eq.symm.trans hshows.length_eq, fun i hi hi' => ?_⟩
  have hi'' : i < v.namedChildren.length := hnamed.length_eq.symm ▸ hi
  exact h.showsSlot hv hf hscope hci (List.get_mem _ _) (hnamed.get hi'' hi) (hshows.get hi'' hi')

/-- **Locals.** The scopes of the frame of a level are one scope of locals. Whatever was asked
before and is asked in between, its children are the slots of this function that are shown, each
with its own name and the value in the slot itself. -/
theorem locals_shown (hp : (system heap l).Reachable p) (hframes : p.stackFrames ≠ []) {level : Nat}
    (hci : l.stack[level]? = some ci) : ∃ scopeId p₁,
      p.getScopes l (level + 1) = some (localsScopes scopeId, p₁) ∧
      ∀ p₂, (system heap l).Run (fun _ _ => True) p₁ p₂ → ∀ arg : VariablesArguments,
        arg.variablesReference = scopeId → arg.filter = "" ∨ arg.filter = "named" →
        ∃ infos p₃, p₂.getVariables heap l arg = some (infos, p₃) ∧
          List.Forall₂ (ShowsSlot heap l p₃) (visibleSlots ci) infos := by
  have h := shaped_of_reachable hp
  have hlevel : level < l.stack.length := (List.getElem?_eq_some_iff.1 hci).1
  obtain ⟨frame, hframe, hplace⟩ : ∃ frame ∈ p.stackFrames,
      place frame = (level + 1, level, level + 1) := by
    refine List.mem_map.1 ?_
    rw [h.frames.resolve_left hframes]
    exact List.mem_map.2 ⟨level, List.mem_range.2 hlevel, rfl⟩
  simp only [place, Prod.mk.injEq] at hplace
  obtain ⟨hid, hflevel, -⟩ := hplace
  obtain ⟨scopes, p₁, hget, hp₁, -, hcached, -⟩ := h.getScopes hframe
  obtain ⟨f, hf, hfid, rfl, hscopes⟩ := hcached
  obtain ⟨v, hv, hscope, hlocals⟩ := hp₁.frameScopes f hf hscopes
  have hsettled : Settled v := .inl (hscope ▸ Option.some_ne_none _)
  have hci' : l.stack[f.level]? = some ci := by
    have hsame := (hp₁.frameInfo_id hf).2.1
    rw [hfid, hid] at hsame
    rw [← Nat.succ.inj hsame]
    exact hci
  refine ⟨v.referenceId, p₁, by rw [← hid, ← hlocals]; exact hget,
    fun p₂ hrun arg harg hfilter => ?_⟩
  obtain ⟨hp₂, hsettles⟩ := hp₁.run hrun
  obtain ⟨infos, p₃, hget', hp₃, hopens, hshows⟩ :=
    hp₂.getVariables (hsettles.entries v hv hsettled) harg
  have hv₃ := hopens.settled v (hsettles.entries v hv hsettled) hsettled
  have hf₃ : f ∈ p₃.stackFrames := hopens.frames ▸ hsettles.frames f hf hscopes
  exact ⟨infos, p₃, hget', hp₃.showsSlots hv₃ hf₃ hscope hci' hfilter hshows⟩

/-! ## Locals of the same name -/

/-- `local x = 1 for _ in f do local x = 2 …`, called by a function with an `x` of its own. -/
def shadowState : LuaState (LuaValue Int64) where
  running := {
    name := some "update", what := "Lua", source := "@main.lua", currentline := 3
    locals := [(ascii "x", .number 1), (ascii "(*temporary)", .nil), (ascii "x", .number 2)] }
  callers := [{
    name := none, what := "main", source := "@main.lua", currentline := 9
    locals := [(ascii "x", .table 0)] }]

def shadowStart : LuaStackTraceProvider := { ar := ⟨.line, none, some "Lua", none, 0, 0⟩ }

/-- The client has asked for the scopes of the caller, too. -/
def shadowProvider : LuaStackTraceProvider :=
  ((system (fun _ => mixedTable) shadowState).exec [.stackTrace, .scopes 2] shadowStart).getD
    shadowStart

theorem locals_shown_shadow : ∃ scopeId p₁,
    shadowProvider.getScopes shadowState 1 = some (localsScopes scopeId, p₁) ∧
      ∀ p₂, (system (fun _ => mixedTable) shadowState).Run (fun _ _ => True) p₁ p₂ →
        ∀ arg : VariablesArguments, arg.variablesReference = scopeId →
        arg.filter = "" ∨ arg.filter = "named" →
        ∃ infos p₃, p₂.getVariables (fun _ => mixedTable) shadowState arg = some (infos, p₃) ∧
          List.Forall₂ (ShowsSlot (fun _ => mixedTable) shadowState p₃)
            [((ascii "x", .number 1), 1), ((ascii "x", .number 2), 3)] infos := by
  have hexec : (system (fun _ => mixedTable) shadowState).exec [.stackTrace, .scopes 2]
      shadowStart = some shadowProvider := rfl
  have hreachable : (system (fun _ => mixedTable) shadowState).Reachable shadowProvider :=
    .of_exec _ ⟨_, rfl⟩ hexec
  have hframes : shadowProvider.stackFrames ≠ [] := by decide
  have hci : shadowState.stack[0]? = some shadowState.running := rfl
  exact locals_shown hreachable hframes hci

-- The caller's table is shown as `x`, and then both locals of the running function are.
example : (((system (fun _ => mixedTable) shadowState).exec [.children { variablesReference := 1 },
    .scopes 1] shadowProvider).bind fun p =>
      (p.getVariables (fun _ => mixedTable) shadowState { variablesReference := 6 }).map fun r =>
        r.1.map fun info => (info.name, info.value)) =
    some [(ascii "x", ascii "1.000000"), (ascii "x", ascii "2.000000")] := by decide

end LuaToolkit.LuaStackTraceProvider
