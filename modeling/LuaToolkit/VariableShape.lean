import LuaToolkit.Variables

/-!
# The shape of the variables

An evaluated variable describes its value, and its children are those of the value's table, each in
the one place that the enumeration gave it. A variable that nobody has asked for has no children
yet. What is evaluated stays as it is, and so do the scopes of a frame.

* `addKid` — the loops over keys and over locals add children of the same kinds.
* `Lists` — the children of a variable, in their order.
* `Shaped` — the shape of all variables and frames.
* `Shaped.transform` — the evaluation of some variables keeps it, and opens them by one level.
-/

namespace LuaToolkit.LuaStackTraceProvider

open Dap

variable {N : Type} [DecidableEq N] [LuaNumber N] {heap : LuaHeap N}
  {l : LuaState (LuaValue N)} {p p' q : LuaStackTraceProvider} {v v' u : VariableEntry}
  {a : LuaValue N}

/-! ## Children -/

/-- What `AddChild` is called with. -/
inductive Kid where
  | indexed (key : Int32)
  | named (name : Bytes) (indexOnFrame : Option Nat)
  deriving DecidableEq, Repr

namespace Kid

def isIndexed : Kid → Bool
  | indexed _ => true
  | named _ _ => false

def create (parentId : Nat) : Kid → Nat → VariableEntry
  | indexed key => .indexed parentId key
  | named name indexOnFrame => .named parentId name indexOnFrame

def link : Kid → Nat → VariableEntry → VariableEntry
  | indexed _ => fun childId v => { v with indexedChildren := v.indexedChildren ++ [childId] }
  | named _ _ => fun childId v => { v with namedChildren := v.namedChildren ++ [childId] }

theorem newChild (parentId : Nat) (kid : Kid) : NewChild parentId (kid.create parentId) := by
  cases kid with
  | indexed key => exact newChild_indexed parentId key
  | named name indexOnFrame => exact newChild_named parentId name indexOnFrame

theorem links (kid : Kid) : Links kid.link := by
  cases kid with
  | indexed key => exact links_indexed
  | named name indexOnFrame => exact links_named

end Kid

def addKid (variableId : Nat) (p : LuaStackTraceProvider) (kid : Kid) : LuaStackTraceProvider :=
  p.addChild variableId (kid.create variableId) kid.link

/-- The child that the `lua_next` loop makes of an entry. -/
def entryKid (entry : LuaValue N × LuaValue N) : Option Kid :=
  match entry.1 with
  | .number key => some (.indexed (LuaNumber.toInteger key).toInt32)
  | .string name => some (.named name none)
  | _ => none

/-- The child that the loop over the locals makes of a slot. -/
def localKid {ν : Type*} (slot : (Bytes × ν) × Nat) : Option Kid :=
  if (ascii "(*").isPrefixOf slot.1.1 then none else some (.named slot.1.1 (some slot.2))

omit [DecidableEq N] in
theorem foldl_addEntry_eq (variableId : Nat) (es : List (LuaValue N × LuaValue N))
    (p : LuaStackTraceProvider) :
    es.foldl (addEntry variableId) p = (es.filterMap entryKid).foldl (addKid variableId) p := by
  rw [List.foldl_filterMap]
  congr 1
  funext p e
  obtain ⟨k, w⟩ := e
  cases k <;> rfl

theorem foldl_addLocal_eq {ν : Type*} (variableId : Nat) (slots : List ((Bytes × ν) × Nat))
    (p : LuaStackTraceProvider) : slots.foldl (addLocal variableId) p =
      (slots.filterMap localKid).foldl (addKid variableId) p := by
  rw [List.foldl_filterMap]
  congr 1
  funext p slot
  unfold addLocal localKid
  split_ifs <;> rfl

/-- The variable stores how this child is found. -/
def Stores (v : VariableEntry) : Kid → Prop
  | .indexed key =>
    v.indexedKey = some key ∧ v.name = VariableEntry.decimalInt key ∧ v.indexOnFrame = none
  | .named name indexOnFrame =>
    v.indexedKey = none ∧ v.name = name ∧ v.indexOnFrame = indexOnFrame

theorem Grown.stores {kid : Kid} (h : Grown v v') (hv : Stores v kid) : Stores v' kid := by
  cases kid with
  | indexed key =>
    exact ⟨h.indexedKey.trans hv.1, h.name.trans hv.2.1, h.indexOnFrame.trans hv.2.2⟩
  | named name indexOnFrame =>
    exact ⟨h.indexedKey.trans hv.1, h.name.trans hv.2.1, h.indexOnFrame.trans hv.2.2⟩

/-- The id is that of a child of this kind. -/
def IsKid (p : LuaStackTraceProvider) (parentId childId : Nat) (kid : Kid) : Prop :=
  ∃ c ∈ p.variableEntries, c.referenceId = childId ∧ c.parentVariableId = some parentId ∧
    c.parentFrame = none ∧ Stores c kid

theorem IsKid.mono {parentId childId : Nat} {kid : Kid} (h : IsKid p parentId childId kid)
    (hext : Extends p p') : IsKid p' parentId childId kid := by
  obtain ⟨c, hc, hid, hparent, hscope, hstores⟩ := h
  obtain ⟨c', hc', hgrown⟩ := hext.entries c hc
  exact ⟨c', hc', hgrown.referenceId.trans hid, hgrown.parentVariableId.trans hparent,
    hgrown.parentFrame.trans hscope, hgrown.stores hstores⟩

/-- The children of a variable, indexed ones and named ones, each once and in order. -/
structure Lists (p : LuaStackTraceProvider) (v : VariableEntry) (kids : List Kid) : Prop where
  indexed : List.Forall₂ (IsKid p v.referenceId) v.indexedChildren (kids.filter (·.isIndexed))
  named : List.Forall₂ (IsKid p v.referenceId) v.namedChildren (kids.filter (!·.isIndexed))
  nodup : (children v).Nodup

theorem Lists.mono {kids : List Kid} (h : Lists p v kids) (hext : Extends p p') :
    Lists p' v kids :=
  ⟨h.indexed.imp fun _ _ hk => hk.mono hext, h.named.imp fun _ _ hk => hk.mono hext, h.nodup⟩

/-- A variable that nobody has asked for. -/
structure Bare (v : VariableEntry) : Prop where
  parentFrame : v.parentFrame = none
  info : v.variableInfo = none
  children : children v = []

/-- The one variable has changed, and has new children. -/
structure Adds (p p' : LuaStackTraceProvider) (id : Nat) : Prop where
  others : ∀ u ∈ p.variableEntries, u.referenceId ≠ id → u ∈ p'.variableEntries
  new : ∀ u ∈ p'.variableEntries, u.referenceId = id ∨ u ∈ p.variableEntries ∨
    (Bare u ∧ u.parentVariableId = some id ∧ p.variableRefId < u.referenceId)
  frames : p'.stackFrames = p.stackFrames
  le : p.variableRefId ≤ p'.variableRefId

theorem Adds.refl (p : LuaStackTraceProvider) (id : Nat) : Adds p p id :=
  ⟨fun _ hu _ => hu, fun _ hu => .inr (.inl hu), rfl, Nat.le_refl _⟩

theorem Adds.trans {id : Nat} (h : Adds p q id) (h' : Adds q p' id) : Adds p p' id where
  others u hu hid := h'.others u (h.others u hu hid) hid
  new u hu := by
    rcases h'.new u hu with hid | hu | ⟨hbare, hparent, hlt⟩
    · exact .inl hid
    · exact h.new u hu
    · exact .inr (.inr ⟨hbare, hparent, Nat.lt_of_le_of_lt h.le hlt⟩)
  frames := h'.frames.trans h.frames
  le := h.le.trans h'.le

/-- The variable with some more children. -/
def withChildren (v : VariableEntry) (indexed named : List Nat) : VariableEntry :=
  { v with
    indexedChildren := v.indexedChildren ++ indexed
    namedChildren := v.namedChildren ++ named }

theorem addKid_spec (hids : CountedIds p) (hv : v ∈ p.variableEntries) (kid : Kid) :
    CountedIds (addKid v.referenceId p kid) ∧ Extends p (addKid v.referenceId p kid) ∧
      Adds p (addKid v.referenceId p kid) v.referenceId ∧
      kid.link (p.variableRefId + 1) v ∈ (addKid v.referenceId p kid).variableEntries ∧
      IsKid (addKid v.referenceId p kid) v.referenceId (p.variableRefId + 1) kid := by
  have hcreate := kid.newChild v.referenceId
  have hmem : ∀ u, u ∈ (addKid v.referenceId p kid).variableEntries ↔
      (∃ w ∈ p.variableEntries, (if w.referenceId = v.referenceId then
        kid.link (p.variableRefId + 1) w else w) = u) ∨
        u = kid.create v.referenceId (p.variableRefId + 1) :=
    fun u => hids.mem_addChild hv hcreate
  refine ⟨hids.addChild hcreate kid.links, hids.extends_addChild hv hcreate kid.links,
    ⟨fun u hu hid => ?_, fun u hu => ?_, rfl, Nat.le_succ _⟩, ?_, ?_⟩
  · exact (hmem u).2 (.inl ⟨u, hu, if_neg hid⟩)
  · rcases (hmem u).1 hu with ⟨w, hw, rfl⟩ | rfl
    · split_ifs with hid
      · exact .inl ((kid.links.grown _ w).referenceId.trans hid)
      · exact .inr (.inl hw)
    · exact .inr (.inr ⟨⟨hcreate.parentFrame _, hcreate.info _, hcreate.children _⟩,
        hcreate.parent _, by rw [hcreate.referenceId]; exact Nat.lt_succ_self _⟩)
  · exact (hmem _).2 (.inl ⟨v, hv, if_pos rfl⟩)
  · refine ⟨_, (hmem _).2 (.inr rfl), hcreate.referenceId _, hcreate.parent _,
      hcreate.parentFrame _, ?_⟩
    cases kid <;> exact ⟨rfl, rfl, rfl⟩

/-- The loop gives the variable a child for each kid, in order, with new ids. -/
theorem foldl_addKid (kids : List Kid) : ∀ {p : LuaStackTraceProvider} {v : VariableEntry},
    CountedIds p → v ∈ p.variableEntries → ∃ indexed named,
      CountedIds (kids.foldl (addKid v.referenceId) p) ∧
      Extends p (kids.foldl (addKid v.referenceId) p) ∧
      Adds p (kids.foldl (addKid v.referenceId) p) v.referenceId ∧
      withChildren v indexed named ∈ (kids.foldl (addKid v.referenceId) p).variableEntries ∧
      List.Forall₂ (IsKid (kids.foldl (addKid v.referenceId) p) v.referenceId) indexed
        (kids.filter (·.isIndexed)) ∧
      List.Forall₂ (IsKid (kids.foldl (addKid v.referenceId) p) v.referenceId) named
        (kids.filter (!·.isIndexed)) ∧
      (indexed ++ named).Nodup ∧ ∀ id ∈ indexed ++ named, p.variableRefId < id := by
  induction kids with
  | nil =>
    intro p v hids hv
    refine ⟨[], [], hids, .refl p, .refl p _, ?_, .nil, .nil, .nil, nofun⟩
    simpa [withChildren] using hv
  | cons kid kids ih =>
    intro p v hids hv
    obtain ⟨hids₁, hext₁, hadds₁, hv₁, hkid⟩ := addKid_spec hids hv kid
    obtain ⟨indexed, named, hids', hext', hadds', hv', hindexed, hnamed, hnodup, hlt⟩ :=
      ih hids₁ hv₁
    have hid : (kid.link (p.variableRefId + 1) v).referenceId = v.referenceId :=
      (kid.links.grown _ v).referenceId
    rw [hid] at hids' hext' hadds' hv' hindexed hnamed
    have hkid' := hkid.mono hext'
    have hnew : ∀ id ∈ indexed ++ named, p.variableRefId + 1 < id := hlt
    have hnot : p.variableRefId + 1 ∉ indexed ++ named := fun h => Nat.lt_irrefl _ (hnew _ h)
    cases kid with
    | indexed key =>
      refine ⟨(p.variableRefId + 1) :: indexed, named, hids', hext₁.trans hext',
        hadds₁.trans hadds', ?_, .cons hkid' hindexed, hnamed, List.nodup_cons.2 ⟨hnot, hnodup⟩, ?_⟩
      · simpa [withChildren, Kid.link] using hv'
      · intro id hid
        rcases List.mem_cons.1 hid with rfl | hid
        · exact Nat.lt_succ_self _
        · exact Nat.lt_of_succ_lt (hnew id hid)
    | named name indexOnFrame =>
      refine ⟨indexed, (p.variableRefId + 1) :: named, hids', hext₁.trans hext',
        hadds₁.trans hadds', ?_, hindexed, .cons hkid' hnamed, ?_, ?_⟩
      · simpa [withChildren, Kid.link] using hv'
      · exact List.nodup_middle.2 (List.nodup_cons.2 ⟨hnot, hnodup⟩)
      · intro id hid
        rcases List.mem_cons.1 (List.perm_middle.mem_iff.1 hid) with rfl | hid
        · exact Nat.lt_succ_self _
        · exact Nat.lt_of_succ_lt (hnew id hid)

/-! ## Values -/

/-- The children that the entries of a table make. -/
def tableKids (heap : LuaHeap N) : LuaValue N → List Kid
  | .table t => (heap t).entries.filterMap entryKid
  | _ => []

def valueText : LuaValue N → Bytes
  | .nil => ascii "nil"
  | .boolean value => ascii (if value then "True" else "False")
  | .number value => LuaNumber.toText value
  | .string value => value
  | _ => []

def valueType (v : VariableEntry) : LuaValue N → Option String
  | .nil => some "nil"
  | .boolean _ => some "boolean"
  | .number _ => some "number"
  | .string _ => some "string"
  | .table _ =>
    some (if v.namedChildren.isEmpty && !v.indexedChildren.isEmpty then "array" else "object")
  | _ => none

/-- What the client is shown of a variable with this value. -/
def shown (v : VariableEntry) (a : LuaValue N) : Variable :=
  countChildren v {
    name := v.name
    value := valueText a
    type := valueType v a
    presentationHint := some "property"
    variablesReference := v.referenceId }

/-- What `GetVariable` starts from. -/
def unevaluated (v : VariableEntry) : Variable where
  name := v.name
  presentationHint := some "property"
  variablesReference := v.referenceId

omit [DecidableEq N] in
/-- The value makes the children of its table, and what is shown is made of both. -/
theorem describe_eq (heap : LuaHeap N) (hids : CountedIds p) (hv : v ∈ p.variableEntries)
    (hbare : Bare v) (a : LuaValue N) : ∃ info p' v',
      describe heap v.referenceId (some a) (unevaluated v) p = (info, p') ∧
      countChildren v' info = shown v' a ∧ CountedIds p' ∧ Adds p p' v.referenceId ∧
      v' ∈ p'.variableEntries ∧ v'.referenceId = v.referenceId ∧ v'.parentFrame = none ∧
      Lists p' v' (tableKids heap a) := by
  obtain ⟨indexed, named, hids', -, hadds, hv', hindexed, hnamed, hnodup, -⟩ :=
    foldl_addKid (tableKids heap a) hids hv
  have hnone : v.indexedChildren = [] ∧ v.namedChildren = [] := by
    simpa [children] using hbare.children
  have hlists : Lists ((tableKids heap a).foldl (addKid v.referenceId) p)
      (withChildren v indexed named) (tableKids heap a) := by
    refine ⟨?_, ?_, ?_⟩
    · simpa [withChildren, hnone] using hindexed
    · simpa [withChildren, hnone] using hnamed
    · simpa [children, withChildren, hnone] using hnodup
  cases a with
  | table t =>
    have hfold : (heap t).entries.foldl (addEntry v.referenceId) p =
        (tableKids heap (.table t)).foldl (addKid v.referenceId) p := foldl_addEntry_eq _ _ _
    have hentry : ((tableKids heap (.table t)).foldl (addKid v.referenceId) p).getVariableEntry
        v.referenceId = some (withChildren v indexed named) := by
      apply List.find?_of_unique hv' (by simp [withChildren])
      intro b hb hid
      exact hids'.eq_of_referenceId hb hv' (by simpa [withChildren] using hid)
    refine ⟨_, _, withChildren v indexed named, rfl, ?_, ?_, ?_, ?_, rfl, hbare.parentFrame, ?_⟩
    all_goals simp only [hfold]
    · simp only [hentry, Option.any_some]
      rfl
    · exact hids'
    · exact hadds
    · exact hv'
    · exact hlists
  | _ => exact ⟨_, _, withChildren v indexed named, rfl, rfl, hids', hadds, hv', rfl,
      hbare.parentFrame, hlists⟩

theorem adds_modifyVariable {id : Nat} {f : VariableEntry → VariableEntry}
    (hf : ∀ u, (f u).referenceId = u.referenceId) : Adds p (p.modifyVariable id f) id where
  others u hu hid := mem_modifyVariable.2 ⟨u, hu, if_neg hid⟩
  new u hu := by
    obtain ⟨w, hw, rfl⟩ := mem_modifyVariable.1 hu
    split_ifs with hid
    · exact .inl ((hf w).trans hid)
    · exact .inr (.inl hw)
  frames := rfl
  le := Nat.le_refl _

/-- **Evaluation.** The first `GetVariable` of a variable finds its value, shows it, and gives the
variable the children of the value. -/
theorem Tree.getVariable_bare (h : Tree heap l p) (hv : v ∈ p.variableEntries) (hbare : Bare v) :
    ∃ a v' p', Evaluates heap l p v a ∧
      LuaStackTraceProvider.getVariable heap l v.referenceId p = some (shown v' a, p') ∧
      Adds p p' v.referenceId ∧ v' ∈ p'.variableEntries ∧ v'.referenceId = v.referenceId ∧
      v'.parentFrame = none ∧ v'.variableInfo = some (shown v' a) ∧
      Lists p' v' (tableKids heap a) := by
  obtain ⟨a, ha⟩ := h.values v hv hbare.parentFrame
  obtain ⟨parent, hmem, hparent, -⟩ := ha.exists_parent
  obtain ⟨ar, hpush⟩ := ha.pushChildValue h.uniqueIds p.variableEntries.length parent p.ar
    hparent hmem (h.length_eq ▸ h.referenceId_le hv)
  have hids : CountedIds { p with ar := ar } := h.ids
  have hv₁ : v ∈ ({ p with ar := ar } : LuaStackTraceProvider).variableEntries := hv
  obtain ⟨info, q, v', hdescribe, hshown, hids', hadds, hv', hid, hscope, hlists⟩ :=
    describe_eq heap hids hv₁ hbare a
  let setInfo : VariableEntry → VariableEntry :=
    fun u => { u with variableInfo := some (shown v' a) }
  have hgrown : ∀ u, Grown u (setInfo u) := fun u =>
    ⟨rfl, rfl, rfl, rfl, rfl, rfl, List.Subset.refl _, fun _ => Option.some_ne_none _⟩
  have hmem' : setInfo v' ∈ (q.modifyVariable v.referenceId setInfo).variableEntries :=
    mem_modifyVariable.2 ⟨v', hv', if_pos hid⟩
  refine ⟨a, setInfo v', q.modifyVariable v.referenceId setInfo, ha, ?_, ?_, hmem', hid, hscope,
    rfl, ?_⟩
  · have hentry : q.getVariableEntry v.referenceId = some v' := by
      apply List.find?_of_unique hv' (by simp [hid])
      intro b hb hbid
      exact hids'.eq_of_referenceId hb hv' (by simpa [hid] using hbid)
    have hevaluate : LuaStackTraceProvider.evaluate heap l v (unevaluated v) p =
        some (info, q) := by
      simp [LuaStackTraceProvider.evaluate, hbare.parentFrame, hparent,
        h.uniqueIds.getVariableEntry hmem, hpush, hdescribe]
    have hunevaluated : LuaStackTraceProvider.evaluate heap l v
        { name := v.name, presentationHint := some "property", variablesReference := v.referenceId }
        p = some (info, q) := hevaluate
    simp only [LuaStackTraceProvider.getVariable, h.uniqueIds.getVariableEntry hv, hbare.info,
      hunevaluated, hentry, Option.bind_eq_bind, Option.bind_some, hshown]
    rfl
  · exact (Adds.trans ⟨hadds.others, hadds.new, hadds.frames, hadds.le⟩
      (adds_modifyVariable fun _ => rfl))
  · have hext : Extends q (q.modifyVariable v.referenceId setInfo) := extends_modifyVariable hgrown
    exact ⟨(hlists.mono hext).indexed, (hlists.mono hext).named, hlists.nodup⟩

/-! ## The shape -/

/-- What `GetScopes` answers. -/
def localsScopes (scopeId : Nat) : List Scope := [⟨"Locals", some "locals", scopeId⟩]

/-- The children that the locals of a function make. -/
def localKids {ν : Type*} (ci : CallInfo ν) : List Kid := (ci.locals.zipIdx 1).filterMap localKid

def place (f : StackFrameEntry) : Nat × Nat × Nat := (f.id, f.level, f.frameInfo.id)

structure Shaped (heap : LuaHeap N) (l : LuaState (LuaValue N)) (p : LuaStackTraceProvider) :
    Prop where
  tree : Tree heap l p
  frames : p.stackFrames = [] ∨
    p.stackFrames.map place = (List.range l.stack.length).map fun n => (n + 1, n, n + 1)
  fresh : ∀ v ∈ p.variableEntries, v.parentFrame = none → v.variableInfo = none → Bare v
  evaluated : ∀ v ∈ p.variableEntries, ∀ info ∈ v.variableInfo, v.parentFrame = none ∧
    ∃ a, Evaluates heap l p v a ∧ Lists p v (tableKids heap a) ∧ info = shown v a
  scope : ∀ v ∈ p.variableEntries, ∀ frameId ∈ v.parentFrame, ∃ f ∈ p.stackFrames,
    f.id = frameId ∧ f.scopes = localsScopes v.referenceId ∧
      ∃ ci, l.stack[f.level]? = some ci ∧ Lists p v (localKids ci)
  frameScopes : ∀ f ∈ p.stackFrames, f.scopes ≠ [] → ∃ v ∈ p.variableEntries,
    v.parentFrame = some f.id ∧ f.scopes = localsScopes v.referenceId

/-- Scopes and evaluated variables have all their children. -/
def Settled (v : VariableEntry) : Prop := v.parentFrame ≠ none ∨ v.variableInfo ≠ none

theorem Bare.not_settled (h : Bare v) : ¬ Settled v := by
  rintro (hscope | hinfo)
  · exact hscope h.parentFrame
  · exact hinfo h.info

/-- Some of the variables have been evaluated, and have got children that nobody has asked for. -/
structure Opens (p p' : LuaStackTraceProvider) (ids : List Nat) : Prop where
  ext : Extends p p'
  settled : ∀ u ∈ p.variableEntries, Settled u → u ∈ p'.variableEntries
  new : ∀ u ∈ p'.variableEntries, u ∈ p.variableEntries ∨
    (u.referenceId ∈ ids ∧ u.parentFrame = none ∧ u.variableInfo ≠ none) ∨
    (Bare u ∧ p.variableRefId < u.referenceId ∧ ∃ c ∈ p.variableEntries,
      c.referenceId ∈ ids ∧ c.variableInfo = none ∧ u.parentVariableId = some c.referenceId)
  frames : p'.stackFrames = p.stackFrames
  le : p.variableRefId ≤ p'.variableRefId

theorem Opens.refl (p : LuaStackTraceProvider) (ids : List Nat) : Opens p p ids :=
  ⟨.refl p, fun _ hu _ => hu, fun _ hu => .inl hu, rfl, Nat.le_refl _⟩

theorem Opens.trans {ids ids' : List Nat} (h : Opens p q ids) (h' : Opens q p' ids')
    (hids : ∀ id ∈ ids', id ≤ p.variableRefId) : Opens p p' (ids ++ ids') where
  ext := h.ext.trans h'.ext
  settled u hu hsettled := h'.settled u (h.settled u hu hsettled) hsettled
  new u hu := by
    rcases h'.new u hu with hu | ⟨hid, hu⟩ | ⟨hbare, hlt, c, hc, hcid, hinfo, hparent⟩
    · rcases h.new u hu with hu | ⟨hid, hu⟩ | ⟨hbare, hlt, c, hc, hcid, hinfo⟩
      · exact .inl hu
      · exact .inr (.inl ⟨List.mem_append_left _ hid, hu⟩)
      · exact .inr (.inr ⟨hbare, hlt, c, hc, List.mem_append_left _ hcid, hinfo⟩)
    · exact .inr (.inl ⟨List.mem_append_right _ hid, hu⟩)
    · refine .inr (.inr ⟨hbare, Nat.lt_of_le_of_lt h.le hlt, c, ?_,
        List.mem_append_right _ hcid, hinfo, hparent⟩)
      rcases h.new c hc with hc | ⟨-, -, hevaluated⟩ | ⟨-, hlt, -⟩
      · exact hc
      · exact absurd hinfo hevaluated
      · exact absurd (hids _ hcid) (Nat.not_le.2 hlt)
  frames := h'.frames.trans h.frames
  le := h.le.trans h'.le

/-- The provider shows this of the variable. -/
def Shows (p : LuaStackTraceProvider) (id : Nat) (info : Variable) : Prop :=
  ∃ c ∈ p.variableEntries, c.referenceId = id ∧ c.variableInfo = some info

theorem Opens.shows {ids : List Nat} {id : Nat} {info : Variable} (h : Opens p p' ids)
    (hshows : Shows p id info) : Shows p' id info := by
  obtain ⟨c, hc, hid, hinfo⟩ := hshows
  exact ⟨c, h.settled c hc (.inr (hinfo ▸ Option.some_ne_none _)), hid, hinfo⟩

/-- The evaluation of one variable opens it. -/
theorem Adds.opens (h : Adds p p' v.referenceId) (hids : UniqueIds p) (hids' : UniqueIds p')
    (hext : Extends p p') (hv : v ∈ p.variableEntries) (hbare : Bare v)
    (hv' : v' ∈ p'.variableEntries) (hid : v'.referenceId = v.referenceId)
    (hscope : v'.parentFrame = none) (hinfo : v'.variableInfo ≠ none) :
    Opens p p' [v.referenceId] := by
  refine ⟨hext, fun u hu hsettled => h.others u hu ?_, fun u hu => ?_, h.frames, h.le⟩
  · intro huid
    obtain rfl := hids.eq_of_referenceId hu hv huid
    exact hbare.not_settled hsettled
  · rcases h.new u hu with huid | hu | ⟨hubare, hparent, hlt⟩
    · obtain rfl := hids'.eq_of_referenceId hu hv' (huid.trans hid.symm)
      exact .inr (.inl ⟨List.mem_singleton.2 huid, hscope, hinfo⟩)
    · exact .inl hu
    · exact .inr (.inr ⟨hubare, hlt, v, hv, List.mem_singleton.2 rfl, hbare.info, hparent⟩)

/-- The shape is kept when the newly evaluated variable has it. -/
theorem Shaped.opens {ids : List Nat} (h : Shaped heap l p) (htree : Tree heap l p')
    (hopens : Opens p p' ids)
    (hevaluated : ∀ u ∈ p'.variableEntries, u ∉ p.variableEntries → ∀ info ∈ u.variableInfo,
      u.parentFrame = none ∧
        ∃ a, Evaluates heap l p' u a ∧ Lists p' u (tableKids heap a) ∧ info = shown u a) :
    Shaped heap l p' := by
  refine ⟨htree, ?_, ?_, ?_, ?_, ?_⟩
  · rw [hopens.frames]
    exact h.frames
  · intro u hu huscope huinfo
    rcases hopens.new u hu with hu | ⟨-, -, hne⟩ | ⟨hubare, -⟩
    · exact h.fresh u hu huscope huinfo
    · exact absurd huinfo hne
    · exact hubare
  · intro u hu info huinfo
    by_cases hold : u ∈ p.variableEntries
    · obtain ⟨huscope, b, hb, hlists, rfl⟩ := h.evaluated u hold info huinfo
      exact ⟨huscope, b, hb.mono hopens.ext (.refl u), hlists.mono hopens.ext, rfl⟩
    · exact hevaluated u hu hold info huinfo
  · intro u hu frameId hframe
    rcases hopens.new u hu with hu | ⟨-, huscope, -⟩ | ⟨hubare, -⟩
    · obtain ⟨f, hf, hfid, hscopes, ci, hci, hlists⟩ := h.scope u hu frameId hframe
      exact ⟨f, hopens.frames ▸ hf, hfid, hscopes, ci, hci, hlists.mono hopens.ext⟩
    · rw [huscope] at hframe
      cases hframe
    · rw [hubare.parentFrame] at hframe
      cases hframe
  · intro f hf hscopes
    rw [hopens.frames] at hf
    obtain ⟨u, hu, huscope, hufscopes⟩ := h.frameScopes f hf hscopes
    exact ⟨u, hopens.settled u hu (.inl (huscope ▸ Option.some_ne_none _)), huscope, hufscopes⟩

theorem Shaped.getVariable (h : Shaped heap l p) (hv : v ∈ p.variableEntries)
    (hscope : v.parentFrame = none) : ∃ info p',
      LuaStackTraceProvider.getVariable heap l v.referenceId p = some (info, p') ∧
      Shaped heap l p' ∧ Opens p p' [v.referenceId] ∧ Shows p' v.referenceId info := by
  by_cases hinfo : v.variableInfo = none
  · have hbare := h.fresh v hv hscope hinfo
    obtain ⟨a, v', p', ha, hget, hadds, hv', hid, hscope', hinfo', hlists⟩ :=
      h.tree.getVariable_bare hv hbare
    obtain ⟨info, p'', hget', htree, hext, v'', hv'', hgrown, -⟩ := h.tree.getVariable hv
    obtain ⟨rfl, rfl⟩ := Prod.mk.inj (Option.some.inj (hget.symm.trans hget'))
    obtain rfl : v'' = v' :=
      htree.uniqueIds.eq_of_referenceId hv'' hv' (hgrown.referenceId.trans hid.symm)
    have hopens := hadds.opens h.tree.uniqueIds htree.uniqueIds hext hv hbare hv' hid hscope'
      (hinfo' ▸ Option.some_ne_none _)
    refine ⟨_, p', hget, h.opens htree hopens fun u hu hnew info huinfo => ?_, hopens, v'', hv',
      hid, hinfo'⟩
    rcases hadds.new u hu with huid | hold | ⟨hubare, -⟩
    · obtain rfl := htree.uniqueIds.eq_of_referenceId hu hv' (huid.trans hid.symm)
      have hshown : shown u a = info := Option.some.inj (hinfo'.symm.trans huinfo)
      exact ⟨hscope', a, ha.mono hext hgrown, hlists, hshown.symm⟩
    · exact absurd hold hnew
    · rw [hubare.info] at huinfo
      cases huinfo
  · obtain ⟨info, hsome⟩ := Option.ne_none_iff_exists'.1 hinfo
    refine ⟨info, p, ?_, h, .refl p _, v, hv, rfl, hsome⟩
    simp [LuaStackTraceProvider.getVariable, h.tree.uniqueIds.getVariableEntry hv, hsome]

/-- A variable that is no scope remains one. -/
theorem Extends.variable_mem (h : Extends p p') {id : Nat}
    (hv : ∃ v ∈ p.variableEntries, v.referenceId = id ∧ v.parentFrame = none) :
    ∃ v ∈ p'.variableEntries, v.referenceId = id ∧ v.parentFrame = none := by
  obtain ⟨v, hv, hid, hscope⟩ := hv
  obtain ⟨v', hv', hgrown⟩ := h.entries v hv
  exact ⟨v', hv', hgrown.referenceId.trans hid, hgrown.parentFrame.trans hscope⟩

/-- **Evaluation.** Variables are evaluated one after the other, and none of their children is. -/
theorem Shaped.transform (ids : List Nat) : ∀ {p : LuaStackTraceProvider}, Shaped heap l p →
    (∀ id ∈ ids, ∃ v ∈ p.variableEntries, v.referenceId = id ∧ v.parentFrame = none) →
    ∃ infos p', LuaStackTraceProvider.transform heap l ids p = some (infos, p') ∧
      Shaped heap l p' ∧ Opens p p' ids ∧ List.Forall₂ (Shows p') ids infos := by
  induction ids with
  | nil => exact fun h _ => ⟨[], _, rfl, h, .refl _ _, .nil⟩
  | cons id ids ih =>
    intro p h hids
    obtain ⟨v, hv, rfl, hscope⟩ := hids _ List.mem_cons_self
    obtain ⟨info, q, hget, hq, hopens, hshows⟩ := h.getVariable hv hscope
    have hlater : ∀ id ∈ ids, ∃ u ∈ p.variableEntries, u.referenceId = id ∧
        u.parentFrame = none := fun id hid => hids id (List.mem_cons_of_mem _ hid)
    obtain ⟨infos, p', htransform, hp', hopens', hshows'⟩ :=
      ih hq fun id hid => hopens.ext.variable_mem (hlater id hid)
    refine ⟨info :: infos, p', ?_, hp', hopens.trans hopens' fun id hid => ?_,
      .cons (hopens'.shows hshows) hshows'⟩
    · simp [LuaStackTraceProvider.transform, hget, htransform]
    · obtain ⟨u, hu, rfl, -⟩ := hlater id hid
      exact h.tree.referenceId_le hu

/-- What has been evaluated is answered at once. -/
theorem transform_of_shows (hids : UniqueIds p) {ids : List Nat} {infos : List Variable}
    (h : List.Forall₂ (Shows p) ids infos) :
    LuaStackTraceProvider.transform heap l ids p = some (infos, p) := by
  induction h with
  | nil => rfl
  | cons hshows _ ih =>
    obtain ⟨c, hc, rfl, hinfo⟩ := hshows
    simp [LuaStackTraceProvider.transform, LuaStackTraceProvider.getVariable,
      hids.getVariableEntry hc, hinfo, ih]

end LuaToolkit.LuaStackTraceProvider
