import LuaToolkit.StackTrace
import LuaToolkit.VariablePaths

/-!
# The tree of variables

The requests of a stop let the provider's tables grow: frames, the scopes of a frame with its
locals, and the variables of a table's keys once the table's variable has been evaluated.

* `Tree` — every variable has a value, parents and children know each other, an evaluated table has
  a variable for each of its keys, and a frame with scopes one for each of its locals.
* `Tree.addChild` — a new variable fits into the tree when it has a value in it.
* `Tree.getVariables` — no assertion fails in a tree, and the request evaluates all children.
-/

namespace LuaToolkit.LuaStackTraceProvider

open Dap
open LuaValue (lookupOf)

variable {N : Type} [DecidableEq N] [LuaNumber N] {heap : LuaHeap N}
  {l : LuaState (LuaValue N)} {p p' : LuaStackTraceProvider} {v v' : VariableEntry}

/-- The ids of a variable's children. -/
def children (v : VariableEntry) : List Nat := v.indexedChildren ++ v.namedChildren

/-- There is a variable for each key of the table. -/
def Complete (heap : LuaHeap N) (l : LuaState (LuaValue N)) (p : LuaStackTraceProvider)
    (v : VariableEntry) : Prop :=
  ∀ t, Evaluates heap l p v (.table t) → ∀ k w, (k, w) ∈ (heap t).entries → k.IsVariableKey →
    ∃ c ∈ p.variableEntries, c.parentVariableId = some v.referenceId ∧ c.Describes k

/-- There is a variable for each local of the function at this level. -/
def Shown (heap : LuaHeap N) (l : LuaState (LuaValue N)) (p : LuaStackTraceProvider)
    (level : Nat) : Prop :=
  ∀ ci, l.stack[level]? = some ci → ∀ (index : Nat) name a, ci.locals[index]? = some (name, a) →
    Visible name → ∃ v ∈ p.variableEntries, Evaluates heap l p v a

structure Tree (heap : LuaHeap N) (l : LuaState (LuaValue N)) (p : LuaStackTraceProvider) :
    Prop where
  ids : p.variableEntries.map VariableEntry.referenceId = List.range' 1 p.variableRefId
  frameIds : (p.stackFrames.map StackFrameEntry.id).Nodup
  levels : ∀ f ∈ p.stackFrames, f.level < l.stack.length
  parents : ∀ v ∈ p.variableEntries, ∀ id ∈ v.parentVariableId,
    id < v.referenceId ∧ v.parentFrame = none
  values : ∀ v ∈ p.variableEntries, v.parentFrame = none → ∃ a, Evaluates heap l p v a
  listed : ∀ v ∈ p.variableEntries, ∀ id ∈ children v, ∃ c ∈ p.variableEntries, c.referenceId = id
  linked : ∀ v ∈ p.variableEntries, ∀ c ∈ p.variableEntries,
    c.parentVariableId = some v.referenceId → c.referenceId ∈ children v
  complete : ∀ v ∈ p.variableEntries, v.variableInfo ≠ none → Complete heap l p v
  scopes : ∀ f ∈ p.stackFrames, f.scopes ≠ [] → Shown heap l p f.level

/-! ## Counted ids -/

def CountedIds (p : LuaStackTraceProvider) : Prop :=
  p.variableEntries.map VariableEntry.referenceId = List.range' 1 p.variableRefId

theorem CountedIds.bounds (h : CountedIds p) (hv : v ∈ p.variableEntries) :
    1 ≤ v.referenceId ∧ v.referenceId ≤ p.variableRefId := by
  have hmem : v.referenceId ∈ List.range' 1 p.variableRefId := by
    rw [← h]
    exact List.mem_map_of_mem hv
  have := List.mem_range'_1.1 hmem
  omega

theorem CountedIds.eq_of_referenceId (h : CountedIds p) (hv : v ∈ p.variableEntries)
    (hv' : v' ∈ p.variableEntries) (hid : v.referenceId = v'.referenceId) : v = v' := by
  have hnodup : (p.variableEntries.map VariableEntry.referenceId).Nodup := by
    rw [h]
    exact List.nodup_range' 1
  exact List.inj_on_of_nodup_map hnodup hv hv' hid

theorem Tree.uniqueIds (h : Tree heap l p) : UniqueIds p := by
  refine ⟨?_, h.frameIds⟩
  rw [h.ids]
  exact List.nodup_range' 1

theorem Tree.referenceId_le (h : Tree heap l p) (hv : v ∈ p.variableEntries) :
    v.referenceId ≤ p.variableRefId :=
  (CountedIds.bounds h.ids hv).2

theorem Tree.length_eq (h : Tree heap l p) : p.variableEntries.length = p.variableRefId := by
  have hlen := congrArg List.length h.ids
  simpa using hlen

theorem Complete.mono (h : Complete heap l p v) (hext : Extends p p') (hgrown : Grown v v')
    (hids : UniqueIds p') (hvalue : ∃ a, Evaluates heap l p v a) : Complete heap l p' v' := by
  intro t ht k w hk hkey
  obtain ⟨a, ha⟩ := hvalue
  obtain rfl : a = .table t := (ha.mono hext hgrown).unique hids ht
  obtain ⟨c, hc, hparent, hdescribes⟩ := h t ha k w hk hkey
  obtain ⟨c', hc', hcgrown⟩ := hext.entries c hc
  refine ⟨c', hc', ?_, hcgrown.describes hdescribes⟩
  rw [hcgrown.parentVariableId, hparent, hgrown.referenceId]

theorem Shown.mono {level : Nat} (h : Shown heap l p level) (hext : Extends p p') :
    Shown heap l p' level := by
  intro ci hci index name a hslot hname
  obtain ⟨v, hv, ha⟩ := h ci hci index name a hslot hname
  obtain ⟨v', hv', hgrown⟩ := hext.entries v hv
  exact ⟨v', hv', ha.mono hext hgrown⟩

/-- A later provider is a tree when its new variables have values, and the conditions on ids hold
again. -/
theorem Tree.extend (h : Tree heap l p) (hext : Extends p p')
    (hids : p'.variableEntries.map VariableEntry.referenceId = List.range' 1 p'.variableRefId)
    (hframeIds : (p'.stackFrames.map StackFrameEntry.id).Nodup)
    (hlevels : ∀ f ∈ p'.stackFrames, f.level < l.stack.length)
    (hlisted : ∀ v ∈ p'.variableEntries, ∀ id ∈ children v,
      ∃ c ∈ p'.variableEntries, c.referenceId = id)
    (hlinked : ∀ v ∈ p'.variableEntries, ∀ c ∈ p'.variableEntries,
      c.parentVariableId = some v.referenceId → c.referenceId ∈ children v)
    (hfrom : ∀ v' ∈ p'.variableEntries,
      (∃ v ∈ p.variableEntries, Grown v v' ∧ (v'.variableInfo ≠ none → Complete heap l p v)) ∨
      (v'.variableInfo = none ∧
        (∀ id ∈ v'.parentVariableId, id < v'.referenceId ∧ v'.parentFrame = none) ∧
        (v'.parentFrame = none → ∃ a, Evaluates heap l p' v' a)))
    (hscopes : ∀ f ∈ p'.stackFrames, f.scopes ≠ [] → Shown heap l p' f.level) :
    Tree heap l p' := by
  have hunique : UniqueIds p' := by
    refine ⟨?_, hframeIds⟩
    rw [hids]
    exact List.nodup_range' 1
  refine ⟨hids, hframeIds, hlevels, fun v' hv' => ?_, fun v' hv' hscope => ?_, hlisted, hlinked,
    fun v' hv' hinfo => ?_, hscopes⟩
  · rcases hfrom v' hv' with ⟨v, hv, hgrown, -⟩ | ⟨-, hparents, -⟩
    · rw [hgrown.parentVariableId, hgrown.referenceId, hgrown.parentFrame]
      exact h.parents v hv
    · exact hparents
  · rcases hfrom v' hv' with ⟨v, hv, hgrown, -⟩ | ⟨-, -, hvalue⟩
    · obtain ⟨a, ha⟩ := h.values v hv (hgrown.parentFrame ▸ hscope)
      exact ⟨a, ha.mono hext hgrown⟩
    · exact hvalue hscope
  · rcases hfrom v' hv' with ⟨v, hv, hgrown, hcomplete⟩ | ⟨hnone, -⟩
    · intro t ht
      have hvalue := h.values v hv (hgrown.parentFrame ▸ ht.parentFrame)
      exact (hcomplete hinfo).mono hext hgrown hunique hvalue t ht
    · exact absurd hnone hinfo

/-! ## New variables -/

/-- What the constructors for locals and keys have in common. -/
structure NewChild (parentId : Nat) (create : Nat → VariableEntry) : Prop where
  referenceId : ∀ n, (create n).referenceId = n
  parent : ∀ n, (create n).parentVariableId = some parentId
  parentFrame : ∀ n, (create n).parentFrame = none
  info : ∀ n, (create n).variableInfo = none
  children : ∀ n, children (create n) = []

/-- What the two ways to take in a child have in common. -/
structure Links (link : Nat → VariableEntry → VariableEntry) : Prop where
  grown : ∀ n v, Grown v (link n v)
  mem_children : ∀ n v id, id ∈ children (link n v) ↔ id = n ∨ id ∈ children v
  info : ∀ n v, (link n v).variableInfo = v.variableInfo

theorem links_named :
    Links fun childId v => { v with namedChildren := v.namedChildren ++ [childId] } where
  grown n v := ⟨rfl, rfl, rfl, rfl, rfl, rfl, by simp, id⟩
  mem_children n v id := by
    simp only [children, List.mem_append, List.mem_singleton]
    tauto
  info _ _ := rfl

theorem links_indexed :
    Links fun childId v => { v with indexedChildren := v.indexedChildren ++ [childId] } where
  grown n v := ⟨rfl, rfl, rfl, rfl, rfl, rfl, by simp, id⟩
  mem_children n v id := by
    simp only [children, List.mem_append, List.mem_singleton]
    tauto
  info _ _ := rfl

theorem newChild_named (parentId : Nat) (name : Bytes) (index : Option Nat) :
    NewChild parentId (.named parentId name index) :=
  ⟨fun _ => rfl, fun _ => rfl, fun _ => rfl, fun _ => rfl, fun _ => rfl⟩

theorem newChild_indexed (parentId : Nat) (index : Int32) :
    NewChild parentId (.indexed parentId index) :=
  ⟨fun _ => rfl, fun _ => rfl, fun _ => rfl, fun _ => rfl, fun _ => rfl⟩

theorem mem_modifyVariable {id : Nat} {f : VariableEntry → VariableEntry} :
    v' ∈ (p.modifyVariable id f).variableEntries ↔
      ∃ v ∈ p.variableEntries, (if v.referenceId = id then f v else v) = v' :=
  List.mem_map

theorem map_referenceId_modify {f : VariableEntry → VariableEntry} {id : Nat}
    (hf : ∀ v, (f v).referenceId = v.referenceId) :
    (p.modifyVariable id f).variableEntries.map VariableEntry.referenceId =
      p.variableEntries.map VariableEntry.referenceId := by
  show (p.variableEntries.map _).map _ = _
  rw [List.map_map]
  apply List.map_congr_left
  intro v _
  show (if v.referenceId = id then f v else v).referenceId = v.referenceId
  split_ifs
  · exact hf v
  · rfl

theorem extends_modifyVariable {f : VariableEntry → VariableEntry} {id : Nat}
    (hf : ∀ v, Grown v (f v)) : Extends p (p.modifyVariable id f) := by
  refine ⟨fun f hf => ⟨f, hf, rfl, rfl, fun h => h⟩, fun v hv =>
    ⟨_, mem_modifyVariable.2 ⟨v, hv, rfl⟩, ?_⟩⟩
  split_ifs
  · exact hf v
  · exact .refl v

section AddChild

variable {create : Nat → VariableEntry} {link : Nat → VariableEntry → VariableEntry}

theorem Links.grown_ite (hlink : Links link) (n id : Nat) (u : VariableEntry) :
    Grown u (if u.referenceId = id then link n u else u) := by
  split_ifs
  · exact hlink.grown n u
  · exact .refl u

theorem NewChild.referenceId_ne (hcreate : NewChild v.referenceId create) (h : CountedIds p)
    (hv : v ∈ p.variableEntries) : (create (p.variableRefId + 1)).referenceId ≠ v.referenceId := by
  rw [hcreate.referenceId]
  have := (h.bounds hv).2
  omega

/-- The variables are the old ones, one of them with a new child, and that child. -/
theorem CountedIds.mem_addChild (h : CountedIds p) (hv : v ∈ p.variableEntries)
    (hcreate : NewChild v.referenceId create) {u' : VariableEntry} :
    u' ∈ (p.addChild v.referenceId create link).variableEntries ↔
      (∃ u ∈ p.variableEntries,
        (if u.referenceId = v.referenceId then link (p.variableRefId + 1) u else u) = u') ∨
      u' = create (p.variableRefId + 1) := by
  have hne := hcreate.referenceId_ne h hv
  rw [LuaStackTraceProvider.addChild, newVariable, mem_modifyVariable]
  constructor
  · intro hu
    obtain ⟨u, hu, rfl⟩ := hu
    rcases List.mem_append.1 hu with hu | hu
    · exact .inl ⟨u, hu, rfl⟩
    · rw [List.mem_singleton.1 hu, if_neg hne]
      exact .inr rfl
  · intro hu
    rcases hu with ⟨u, hu, rfl⟩ | rfl
    · exact ⟨u, List.mem_append_left _ hu, rfl⟩
    · exact ⟨_, List.mem_append_right _ (List.mem_singleton.2 rfl), if_neg hne⟩

theorem CountedIds.addChild (h : CountedIds p) (hcreate : NewChild v.referenceId create)
    (hlink : Links link) : CountedIds (p.addChild v.referenceId create link) := by
  unfold CountedIds
  rw [LuaStackTraceProvider.addChild,
    map_referenceId_modify (fun u => (hlink.grown _ u).referenceId)]
  show (p.variableEntries ++ [create (p.variableRefId + 1)]).map VariableEntry.referenceId =
    List.range' 1 (p.variableRefId + 1)
  rw [List.map_append, show p.variableEntries.map VariableEntry.referenceId = _ from h,
    List.range'_concat]
  simp [hcreate.referenceId, Nat.add_comm]

theorem CountedIds.extends_addChild (h : CountedIds p) (hv : v ∈ p.variableEntries)
    (hcreate : NewChild v.referenceId create) (hlink : Links link) :
    Extends p (p.addChild v.referenceId create link) :=
  ⟨fun f hf => ⟨f, hf, rfl, rfl, id⟩, fun u hu =>
    ⟨_, (h.mem_addChild hv hcreate).2 (.inl ⟨u, hu, rfl⟩), hlink.grown_ite _ _ u⟩⟩

/-- The lists of children name variables. -/
theorem Tree.listed_addChild (h : Tree heap l p) (hv : v ∈ p.variableEntries)
    (hcreate : NewChild v.referenceId create) (hlink : Links link) :
    ∀ u ∈ (p.addChild v.referenceId create link).variableEntries, ∀ id ∈ children u,
      ∃ c ∈ (p.addChild v.referenceId create link).variableEntries, c.referenceId = id := by
  have hids : CountedIds p := h.ids
  intro u' hu' id hid
  rcases (hids.mem_addChild hv hcreate).1 hu' with ⟨u, hu, rfl⟩ | rfl
  · have hchild : id = p.variableRefId + 1 ∨ id ∈ children u := by
      split_ifs at hid
      · exact (hlink.mem_children _ u id).1 hid
      · exact .inr hid
    rcases hchild with rfl | hchild
    · exact ⟨_, (hids.mem_addChild hv hcreate).2 (.inr rfl), hcreate.referenceId _⟩
    · obtain ⟨c, hc, hcid⟩ := h.listed u hu id hchild
      exact ⟨_, (hids.mem_addChild hv hcreate).2 (.inl ⟨c, hc, rfl⟩),
        (hlink.grown_ite _ _ c).referenceId.trans hcid⟩
  · rw [hcreate.children] at hid
    cases hid

/-- Every variable is in its parent's list. -/
theorem Tree.linked_addChild (h : Tree heap l p) (hv : v ∈ p.variableEntries)
    (hcreate : NewChild v.referenceId create) (hlink : Links link) :
    ∀ u ∈ (p.addChild v.referenceId create link).variableEntries,
      ∀ c ∈ (p.addChild v.referenceId create link).variableEntries,
        c.parentVariableId = some u.referenceId → c.referenceId ∈ children u := by
  have hids : CountedIds p := h.ids
  intro u' hu' c' hc' hparent
  rcases (hids.mem_addChild hv hcreate).1 hu' with ⟨u, hu, rfl⟩ | rfl
  · rw [(hlink.grown_ite _ _ u).referenceId] at hparent
    rcases (hids.mem_addChild hv hcreate).1 hc' with ⟨c, hc, rfl⟩ | rfl
    · rw [(hlink.grown_ite _ _ c).parentVariableId] at hparent
      rw [(hlink.grown_ite _ _ c).referenceId]
      exact (hlink.grown_ite _ _ u).children (h.linked u hu c hc hparent)
    · rw [hcreate.parent, Option.some.injEq] at hparent
      rw [hcreate.referenceId, if_pos hparent.symm]
      exact (hlink.mem_children _ u _).2 (.inl rfl)
  · -- Nothing has the new variable as its parent yet.
    exfalso
    rcases (hids.mem_addChild hv hcreate).1 hc' with ⟨c, hc, rfl⟩ | rfl
    · rw [(hlink.grown_ite _ _ c).parentVariableId, hcreate.referenceId] at hparent
      have hlt := (h.parents c hc _ hparent).1
      have hle := h.referenceId_le hc
      omega
    · rw [hcreate.parent, Option.some.injEq] at hparent
      exact hcreate.referenceId_ne hids hv hparent.symm

/-- `AddChild` keeps the tree when the new variable has a value in it. -/
theorem Tree.addChild (h : Tree heap l p) (hv : v ∈ p.variableEntries)
    (hcreate : NewChild v.referenceId create) (hlink : Links link)
    (hvalue : ∀ p', Extends p p' → ∃ a, Evaluates heap l p' (create (p.variableRefId + 1)) a) :
    Tree heap l (p.addChild v.referenceId create link) ∧
      Extends p (p.addChild v.referenceId create link) ∧
      create (p.variableRefId + 1) ∈ (p.addChild v.referenceId create link).variableEntries := by
  have hids : CountedIds p := h.ids
  have hext := hids.extends_addChild hv hcreate hlink
  refine ⟨h.extend hext (hids.addChild hcreate hlink) h.frameIds h.levels
    (h.listed_addChild hv hcreate hlink) (h.linked_addChild hv hcreate hlink) ?_ ?_, hext,
    (hids.mem_addChild hv hcreate).2 (.inr rfl)⟩
  · intro u' hu'
    rcases (hids.mem_addChild hv hcreate).1 hu' with ⟨u, hu, rfl⟩ | rfl
    · refine .inl ⟨u, hu, hlink.grown_ite _ _ u, fun hinfo => h.complete u hu ?_⟩
      split_ifs at hinfo
      · rwa [hlink.info] at hinfo
      · exact hinfo
    · refine .inr ⟨hcreate.info _, fun id hid => ⟨?_, hcreate.parentFrame _⟩,
        fun _ => hvalue _ hext⟩
      rw [hcreate.parent, Option.mem_some_iff] at hid
      rw [hcreate.referenceId, ← hid]
      have := h.referenceId_le hv
      omega
  · intro f hf hs
    exact (h.scopes f hf hs).mono hext

end AddChild

/-- The variable of a key has a value. -/
theorem exists_value {t : Nat} {k w : LuaValue N} {c : VariableEntry} (hv : v ∈ p.variableEntries)
    (ht : Evaluates heap l p v (.table t)) (hk : (k, w) ∈ (heap t).entries)
    (hscope : c.parentFrame = none) (hparent : c.parentVariableId = some v.referenceId)
    (hlt : v.referenceId < c.referenceId) (hdescribes : c.Describes k) (hext : Extends p p') :
    ∃ a, Evaluates heap l p' c a := by
  obtain ⟨v', hv', hgrown⟩ := hext.entries v hv
  refine ⟨_, .child hscope ?_ hv' ?_ (hgrown.parentFrame.trans ht.parentFrame)
    (ht.mono hext hgrown) hk hdescribes⟩
  · rw [hparent, hgrown.referenceId]
  · rw [hgrown.referenceId]
    exact hlt

theorem Tree.addEntry (h : Tree heap l p) {t : Nat} {k w : LuaValue N}
    (hv : v ∈ p.variableEntries) (ht : Evaluates heap l p v (.table t))
    (hk : (k, w) ∈ (heap t).entries) :
    Tree heap l (addEntry v.referenceId p (k, w)) ∧
      Extends p (addEntry v.referenceId p (k, w)) ∧
      (k.IsVariableKey → ∃ c ∈ (addEntry v.referenceId p (k, w)).variableEntries,
        c.parentVariableId = some v.referenceId ∧ c.Describes k) := by
  have hlt : v.referenceId < p.variableRefId + 1 := Nat.lt_succ_of_le (h.referenceId_le hv)
  cases k with
  | number n =>
    obtain ⟨htree, hext, hmem⟩ := h.addChild hv (newChild_indexed _ _) links_indexed fun q hq =>
      exists_value hv ht hk rfl rfl hlt rfl hq
    exact ⟨htree, hext, fun _ => ⟨_, hmem, rfl, rfl⟩⟩
  | string s =>
    obtain ⟨htree, hext, hmem⟩ := h.addChild hv (newChild_named _ s none) links_named fun q hq =>
      exists_value hv ht hk rfl rfl hlt ⟨rfl, rfl⟩ hq
    exact ⟨htree, hext, fun _ => ⟨_, hmem, rfl, rfl, rfl⟩⟩
  | _ => exact ⟨h, .refl p, nofun⟩

/-- The `lua_next` loop makes a variable of every key. -/
theorem Tree.foldl_addEntry {t : Nat} (es : List (LuaValue N × LuaValue N)) :
    ∀ {p : LuaStackTraceProvider} {v : VariableEntry}, Tree heap l p → v ∈ p.variableEntries →
      Evaluates heap l p v (.table t) → es ⊆ (heap t).entries →
      Tree heap l (es.foldl (LuaStackTraceProvider.addEntry v.referenceId) p) ∧
      Extends p (es.foldl (LuaStackTraceProvider.addEntry v.referenceId) p) ∧
      ∀ e ∈ es, e.1.IsVariableKey →
        ∃ c ∈ (es.foldl (LuaStackTraceProvider.addEntry v.referenceId) p).variableEntries,
          c.parentVariableId = some v.referenceId ∧ c.Describes e.1 := by
  induction es with
  | nil => exact fun h _ _ _ => ⟨h, .refl _, nofun⟩
  | cons e es ih =>
    intro p v h hv ht hsub
    obtain ⟨hhead, htail⟩ := List.cons_subset.1 hsub
    obtain ⟨htree, hext, hchild⟩ := h.addEntry hv ht hhead
    obtain ⟨v', hv', hgrown⟩ := hext.entries v hv
    obtain ⟨htree', hext', hchildren⟩ := ih htree hv' (ht.mono hext hgrown) htail
    rw [hgrown.referenceId] at htree' hext' hchildren
    refine ⟨htree', hext.trans hext', fun e' he' hkey => ?_⟩
    rcases List.mem_cons.1 he' with rfl | he'
    · obtain ⟨c, hc, hparent, hdescribes⟩ := hchild hkey
      obtain ⟨c', hc', hcgrown⟩ := hext'.entries c hc
      exact ⟨c', hc', hcgrown.parentVariableId.trans hparent, hcgrown.describes hdescribes⟩
    · exact hchildren e' he' hkey

theorem Tree.addLocal (h : Tree heap l p) {f : StackFrameEntry} {ci : CallInfo (LuaValue N)}
    {name : Bytes} {a : LuaValue N} {index : Nat} (hv : v ∈ p.variableEntries)
    (hscope : v.parentFrame = some f.id) (hf : f ∈ p.stackFrames)
    (hci : l.stack[f.level]? = some ci) (hslot : ci.locals[index]? = some (name, a)) :
    Tree heap l (addLocal v.referenceId p ((name, a), index + 1)) ∧
      Extends p (addLocal v.referenceId p ((name, a), index + 1)) ∧
      (Visible name → ∃ c ∈ (addLocal v.referenceId p ((name, a), index + 1)).variableEntries,
        Evaluates heap l (addLocal v.referenceId p ((name, a), index + 1)) c a) := by
  unfold LuaStackTraceProvider.addLocal
  by_cases hname : (ascii "(*").isPrefixOf name = true
  · rw [if_pos hname]
    refine ⟨h, .refl p, fun hvisible => ?_⟩
    rw [Visible, hname] at hvisible
    cases hvisible
  · rw [if_neg hname]
    have hlt : v.referenceId < p.variableRefId + 1 := Nat.lt_succ_of_le (h.referenceId_le hv)
    have hvalue : ∀ q, Extends p q →
        Evaluates heap l q (.named v.referenceId name (some (index + 1)) (p.variableRefId + 1))
          a := by
      intro q hq
      obtain ⟨v', hv', hgrown⟩ := hq.entries v hv
      obtain ⟨f', hf', hid, hlevel, -⟩ := hq.frames f hf
      refine .slot rfl ?_ hv' ?_ ?_ hf' rfl (hlevel ▸ hci) hslot (Bool.eq_false_iff.2 hname)
      · rw [hgrown.referenceId]
        rfl
      · rw [hgrown.referenceId]
        exact hlt
      · rw [hgrown.parentFrame, hscope, hid]
    obtain ⟨htree, hext, hmem⟩ := h.addChild hv (newChild_named _ name (some (index + 1)))
      links_named fun q hq => ⟨a, hvalue q hq⟩
    exact ⟨htree, hext, fun _ => ⟨_, hmem, hvalue _ hext⟩⟩

/-- The loop over the locals makes a variable of every visible one. -/
theorem Tree.foldl_addLocal {ci : CallInfo (LuaValue N)}
    (slots : List ((Bytes × LuaValue N) × Nat)) :
    ∀ {p : LuaStackTraceProvider} {v : VariableEntry} {f : StackFrameEntry}, Tree heap l p →
      v ∈ p.variableEntries → v.parentFrame = some f.id → f ∈ p.stackFrames →
      l.stack[f.level]? = some ci →
      (∀ s ∈ slots, ∃ index, s.2 = index + 1 ∧ ci.locals[index]? = some s.1) →
      Tree heap l (slots.foldl (LuaStackTraceProvider.addLocal v.referenceId) p) ∧
      Extends p (slots.foldl (LuaStackTraceProvider.addLocal v.referenceId) p) ∧
      ∀ s ∈ slots, Visible s.1.1 →
        ∃ c ∈ (slots.foldl (LuaStackTraceProvider.addLocal v.referenceId) p).variableEntries,
          Evaluates heap l (slots.foldl (LuaStackTraceProvider.addLocal v.referenceId) p) c
            s.1.2 := by
  induction slots with
  | nil => exact fun h _ _ _ _ _ => ⟨h, .refl _, nofun⟩
  | cons s slots ih =>
    intro p v f h hv hscope hf hci hslots
    obtain ⟨⟨name, a⟩, n⟩ := s
    obtain ⟨index, rfl, hslot⟩ := hslots _ List.mem_cons_self
    obtain ⟨htree, hext, hlocal⟩ := h.addLocal hv hscope hf hci hslot
    obtain ⟨v', hv', hgrown⟩ := hext.entries v hv
    obtain ⟨f', hf', hid, hlevel, -⟩ := hext.frames f hf
    obtain ⟨htree', hext', hlocals⟩ := ih htree hv' (f := f')
      (by rw [hgrown.parentFrame, hscope, hid]) hf' (hlevel ▸ hci)
      fun s hs => hslots s (List.mem_cons_of_mem _ hs)
    rw [hgrown.referenceId] at htree' hext' hlocals
    refine ⟨htree', hext.trans hext', fun s hs hvisible => ?_⟩
    rcases List.mem_cons.1 hs with rfl | hs
    · obtain ⟨c, hc, ha⟩ := hlocal hvisible
      obtain ⟨c', hc', hcgrown⟩ := hext'.entries c hc
      exact ⟨c', hc', ha.mono hext' hcgrown⟩
    · exact hlocals s hs hvisible

/-! ## Evaluation -/

theorem Tree.setRecord (h : Tree heap l p) (ar : LuaDebug) :
    Tree heap l { p with ar := ar } ∧ Extends p { p with ar := ar } := by
  have hext : Extends p { p with ar := ar } :=
    ⟨fun f hf => ⟨f, hf, rfl, rfl, id⟩, fun v hv => ⟨v, hv, .refl v⟩⟩
  refine ⟨h.extend hext h.ids h.frameIds h.levels h.listed h.linked ?_ ?_, hext⟩
  · exact fun v hv => .inl ⟨v, hv, .refl v, h.complete v hv⟩
  · exact fun f hf hs => (h.scopes f hf hs).mono hext

/-- A variable is marked as evaluated. -/
theorem Tree.setInfo (h : Tree heap l p) (hv : v ∈ p.variableEntries)
    (hcomplete : Complete heap l p v) (info : Variable) :
    Tree heap l (p.modifyVariable v.referenceId fun u => { u with variableInfo := some info }) ∧
      Extends p (p.modifyVariable v.referenceId fun u => { u with variableInfo := some info }) := by
  set f : VariableEntry → VariableEntry := fun u => { u with variableInfo := some info } with hf
  have hgrown : ∀ u, Grown u (if u.referenceId = v.referenceId then f u else u) := by
    intro u
    split_ifs
    · exact ⟨rfl, rfl, rfl, rfl, rfl, rfl, List.Subset.refl _, fun _ => Option.some_ne_none _⟩
    · exact .refl u
  have hchildren : ∀ u,
      children (if u.referenceId = v.referenceId then f u else u) = children u := by
    intro u
    split_ifs <;> rfl
  have hmem : ∀ u ∈ p.variableEntries, (if u.referenceId = v.referenceId then f u else u) ∈
      (p.modifyVariable v.referenceId f).variableEntries :=
    fun u hu => mem_modifyVariable.2 ⟨u, hu, rfl⟩
  have hext : Extends p (p.modifyVariable v.referenceId f) := extends_modifyVariable fun u =>
    ⟨rfl, rfl, rfl, rfl, rfl, rfl, List.Subset.refl _, fun _ => Option.some_ne_none _⟩
  refine ⟨h.extend hext ?_ h.frameIds h.levels ?_ ?_ ?_ ?_, hext⟩
  · exact (map_referenceId_modify (f := f) fun _ => rfl).trans h.ids
  · intro u' hu' id hid
    obtain ⟨u, hu, rfl⟩ := mem_modifyVariable.1 hu'
    rw [hchildren] at hid
    obtain ⟨c, hc, hcid⟩ := h.listed u hu id hid
    exact ⟨_, hmem c hc, (hgrown c).referenceId.trans hcid⟩
  · intro u' hu' c' hc' hparent
    obtain ⟨u, hu, rfl⟩ := mem_modifyVariable.1 hu'
    obtain ⟨c, hc, rfl⟩ := mem_modifyVariable.1 hc'
    rw [(hgrown c).parentVariableId, (hgrown u).referenceId] at hparent
    rw [hchildren, (hgrown c).referenceId]
    exact h.linked u hu c hc hparent
  · intro u' hu'
    obtain ⟨u, hu, rfl⟩ := mem_modifyVariable.1 hu'
    refine .inl ⟨u, hu, hgrown u, fun hinfo => ?_⟩
    by_cases hid : u.referenceId = v.referenceId
    · rwa [h.uniqueIds.eq_of_referenceId hu hv hid]
    · rw [if_neg hid] at hinfo
      exact h.complete u hu hinfo
  · exact fun f hf hs => (h.scopes f hf hs).mono hext

/-- What `GetVariable` makes of a value leaves the variable complete. -/
theorem Tree.describe (h : Tree heap l p) (hv : v ∈ p.variableEntries) {a : LuaValue N}
    (ha : Evaluates heap l p v a) (info : Variable) :
    Tree heap l (describe heap v.referenceId (some a) info p).2 ∧
      Extends p (describe heap v.referenceId (some a) info p).2 ∧
      ∀ v', Grown v v' → Complete heap l (describe heap v.referenceId (some a) info p).2 v' := by
  have hother : (∀ t, a ≠ .table t) → ∀ v', Grown v v' → Complete heap l p v' := by
    intro hne v' hgrown t ht
    have hunique := (ha.mono (.refl p) hgrown).unique h.uniqueIds ht
    exact absurd hunique (hne t)
  cases a with
  | table t =>
    obtain ⟨htree, hext, hchildren⟩ := h.foldl_addEntry (heap t).entries hv ha (List.Subset.refl _)
    refine ⟨htree, hext, fun v' hgrown t' ht' k w hk hkey => ?_⟩
    have hunique := (ha.mono hext hgrown).unique htree.uniqueIds ht'
    obtain rfl : t = t' := by simpa using hunique
    rw [hgrown.referenceId]
    exact hchildren (k, w) hk hkey
  | _ => exact ⟨h, .refl p, hother nofun⟩

theorem Tree.evaluate (h : Tree heap l p) (hv : v ∈ p.variableEntries) (info : Variable) :
    ∃ info' p', evaluate heap l v info p = some (info', p') ∧ Tree heap l p' ∧ Extends p p' ∧
      ∀ v', Grown v v' → Complete heap l p' v' := by
  unfold LuaStackTraceProvider.evaluate
  by_cases hscope : v.parentFrame = none
  · obtain ⟨a, ha⟩ := h.values v hv hscope
    obtain ⟨parent, hmem, hparent, -⟩ := ha.exists_parent
    obtain ⟨ar, hpush⟩ := ha.pushChildValue h.uniqueIds p.variableEntries.length parent p.ar
      hparent hmem (h.length_eq ▸ h.referenceId_le hv)
    obtain ⟨htree, hext⟩ := h.setRecord ar
    obtain ⟨htree', hext', hcomplete⟩ := htree.describe hv (ha.mono hext (.refl v)) info
    refine ⟨(LuaStackTraceProvider.describe heap v.referenceId (some a) info { p with ar := ar }).1,
      _, ?_, htree', hext.trans hext', hcomplete⟩
    simp [hscope, hparent, h.uniqueIds.getVariableEntry hmem, hpush]
  · refine ⟨info, p, if_pos (Option.isSome_iff_ne_none.2 hscope), h, .refl p, ?_⟩
    intro v' hgrown t ht
    exact absurd (hgrown.parentFrame.symm.trans ht.parentFrame) hscope

/-- **Evaluation.** In a tree `GetVariable` succeeds, and it leaves the variable evaluated. -/
theorem Tree.getVariable (h : Tree heap l p) (hv : v ∈ p.variableEntries) :
    ∃ info p', getVariable heap l v.referenceId p = some (info, p') ∧ Tree heap l p' ∧
      Extends p p' ∧ ∃ v' ∈ p'.variableEntries, Grown v v' ∧ v'.variableInfo ≠ none := by
  have hentry := h.uniqueIds.getVariableEntry hv
  cases hinfo : v.variableInfo with
  | some info =>
    refine ⟨info, p, ?_, h, .refl p, v, hv, .refl v, by simp [hinfo]⟩
    simp [LuaStackTraceProvider.getVariable, hentry, hinfo]
  | none =>
    obtain ⟨info, q, hevaluate, hq, hext, hcomplete⟩ := h.evaluate hv
      { name := v.name, presentationHint := some "property", variablesReference := v.referenceId }
    obtain ⟨v', hv', hgrown⟩ := hext.entries v hv
    have hentry' := hq.uniqueIds.getVariableEntry hv'
    obtain ⟨htree, hext'⟩ := hq.setInfo hv' (hcomplete v' hgrown) (countChildren v' info)
    rw [hgrown.referenceId] at hentry' htree hext'
    refine ⟨countChildren v' info, _, ?_, htree, hext.trans hext', ?_⟩
    · simp [LuaStackTraceProvider.getVariable, hentry, hinfo, hevaluate, hentry']
    · refine ⟨_, mem_modifyVariable.2 ⟨v', hv', rfl⟩, ?_⟩
      rw [if_pos hgrown.referenceId]
      refine ⟨hgrown.trans ?_, Option.some_ne_none _⟩
      exact ⟨rfl, rfl, rfl, rfl, rfl, rfl, List.Subset.refl _, fun _ => Option.some_ne_none _⟩

theorem Tree.transform (ids : List Nat) : ∀ {p : LuaStackTraceProvider}, Tree heap l p →
    (∀ id ∈ ids, ∃ v ∈ p.variableEntries, v.referenceId = id) →
    ∃ infos p', transform heap l ids p = some (infos, p') ∧ Tree heap l p' ∧ Extends p p' ∧
      ∀ id ∈ ids, ∃ v ∈ p'.variableEntries, v.referenceId = id ∧ v.variableInfo ≠ none := by
  induction ids with
  | nil => exact fun h _ => ⟨[], _, rfl, h, .refl _, nofun⟩
  | cons id ids ih =>
    intro p h hids
    obtain ⟨v, hv, rfl⟩ := hids _ List.mem_cons_self
    obtain ⟨info, q, hget, hq, hext, v', hv', hgrown, hinfo⟩ := h.getVariable hv
    obtain ⟨infos, p', htransform, hp', hext', hevaluated⟩ := ih hq fun id hid => by
      obtain ⟨u, hu, huid⟩ := hids id (List.mem_cons_of_mem _ hid)
      obtain ⟨u', hu', hugrown⟩ := hext.entries u hu
      exact ⟨u', hu', hugrown.referenceId.trans huid⟩
    refine ⟨info :: infos, p', ?_, hp', hext.trans hext', fun id hid => ?_⟩
    · simp [LuaStackTraceProvider.transform, hget, htransform]
    · rcases List.mem_cons.1 hid with rfl | hid
      · obtain ⟨v'', hv'', hgrown'⟩ := hext'.entries v' hv'
        exact ⟨v'', hv'', hgrown'.referenceId.trans hgrown.referenceId, hgrown'.info hinfo⟩
      · exact hevaluated id hid

/-- **Children.** In a tree `GetVariables` succeeds, and without a filter it leaves every child of
the variable evaluated. -/
theorem Tree.getVariables (h : Tree heap l p) (hv : v ∈ p.variableEntries)
    {arg : VariablesArguments} (harg : arg.variablesReference = v.referenceId) :
    ∃ infos p', getVariables heap l arg p = some (infos, p') ∧ Tree heap l p' ∧ Extends p p' ∧
      (arg.filter = "" → ∀ c ∈ p.variableEntries, c.parentVariableId = some v.referenceId →
        ∃ c' ∈ p'.variableEntries, Grown c c' ∧ c'.variableInfo ≠ none) := by
  have hlisted : ∀ {q}, Extends p q → ∀ id ∈ children v,
      ∃ c ∈ q.variableEntries, c.referenceId = id := by
    intro q hext id hid
    obtain ⟨c, hc, hcid⟩ := h.listed v hv id hid
    obtain ⟨c', hc', hgrown⟩ := hext.entries c hc
    exact ⟨c', hc', hgrown.referenceId.trans hcid⟩
  set indexed := if arg.filter = "" ∨ arg.filter = "indexed" then v.indexedChildren else []
    with hindexed
  set named := if arg.filter = "" ∨ arg.filter = "named" then v.namedChildren else [] with hnamed
  have hsub : indexed ⊆ children v ∧ named ⊆ children v := by
    constructor
    · rw [hindexed]
      split_ifs
      · exact List.subset_append_left _ _
      · exact List.nil_subset _
    · rw [hnamed]
      split_ifs
      · exact List.subset_append_right _ _
      · exact List.nil_subset _
  obtain ⟨infos, q, htransform, hq, hext, hevaluated⟩ :=
    h.transform indexed fun id hid => hlisted (.refl p) id (hsub.1 hid)
  obtain ⟨infos', p', htransform', hp', hext', hevaluated'⟩ :=
    hq.transform named fun id hid => hlisted hext id (hsub.2 hid)
  refine ⟨infos ++ infos', p', ?_, hp', hext.trans hext', fun hfilter c hc hparent => ?_⟩
  · simp [LuaStackTraceProvider.getVariables, harg, h.uniqueIds.getVariableEntry hv, ← hindexed,
      ← hnamed, htransform, htransform']
  · obtain ⟨c', hc', hgrown⟩ := (hext.trans hext').entries c hc
    have hchild := h.linked v hv c hc hparent
    rw [hfilter] at hindexed hnamed
    rw [children, ← show indexed = v.indexedChildren by simp [hindexed],
      ← show named = v.namedChildren by simp [hnamed]] at hchild
    refine ⟨c', hc', hgrown, ?_⟩
    rcases List.mem_append.1 hchild with hchild | hchild
    · obtain ⟨u, hu, huid, hinfo⟩ := hevaluated c.referenceId hchild
      obtain ⟨u', hu', hugrown⟩ := hext'.entries u hu
      have hsame : u' = c' := hp'.uniqueIds.eq_of_referenceId hu' hc'
        (by rw [hugrown.referenceId, huid, hgrown.referenceId])
      exact hsame ▸ hugrown.info hinfo
    · obtain ⟨u, hu, huid, hinfo⟩ := hevaluated' c.referenceId hchild
      have hsame : u = c' := hp'.uniqueIds.eq_of_referenceId hu hc'
        (by rw [huid, hgrown.referenceId])
      exact hsame ▸ hinfo

end LuaToolkit.LuaStackTraceProvider
