import LuaToolkit.LuaStackTraceProvider

/-!
# Values along stored paths

A variable's value is found from a local on, by the keys that the variable and its ancestors have
stored. `Evaluates` says so as a relation, which grows with the provider's tables.

* `lookupOf` — the key that is looked up for a variable of a table's key, and `lookupOf_eq_self`,
  when it is the key itself.
* `Evaluates.pushChildValue` — `PushChildValue` finds the value that the relation names.
* `Evaluates.mono` — no request changes the value of a variable.
-/

namespace LuaToolkit

open Dap

variable {N : Type} [DecidableEq N] [LuaNumber N]

/-! ## Keys of variables -/

namespace LuaValue

/-- The keys that the `lua_next` loop makes variables of. -/
def IsVariableKey : LuaValue N → Prop
  | .number _ | .string _ => True
  | _ => False

/-- Numbers that are an `int`, and strings without a zero byte. -/
def Faithful : LuaValue N → Prop
  | .number n => ∃ i, n = LuaNumber.ofInt i
  | .string s => 0 ∉ s
  | _ => True

/-- The key that is looked up for the variable of a key. -/
def lookupOf : LuaValue N → LuaValue N
  | .number n => .number (LuaNumber.ofInt (LuaNumber.toInteger n).toInt32)
  | .string s => .string (cString s)
  | k => k

omit [DecidableEq N] in
theorem toInt32_toInteger_ofInt (i : Int32) :
    (LuaNumber.toInteger (LuaNumber.ofInt i : N)).toInt32 = i := by
  rw [LuaNumber.toInteger_ofInt, Int32.toInt32_toInt64]

omit [DecidableEq N] in
/-- The faithful keys are those that are looked up as themselves. -/
theorem lookupOf_eq_self {k : LuaValue N} : lookupOf k = k ↔ k.Faithful := by
  cases k with
  | number n =>
    simp only [lookupOf, Faithful, number.injEq]
    constructor
    · exact fun h => ⟨_, h.symm⟩
    · intro h
      obtain ⟨i, rfl⟩ := h
      rw [toInt32_toInteger_ofInt]
  | string s => simp only [lookupOf, Faithful, string.injEq, cString_eq_self]
  | _ => simp [lookupOf, Faithful]

omit [DecidableEq N] in
theorem lookupOf_lookupOf (k : LuaValue N) : lookupOf (lookupOf k) = lookupOf k := by
  rw [lookupOf_eq_self]
  cases k with
  | number n => exact ⟨_, rfl⟩
  | string s => exact zero_notMem_cString s
  | _ => trivial

omit [DecidableEq N] in
theorem isVariableKey_lookupOf {k : LuaValue N} (h : k.IsVariableKey) :
    (lookupOf k).IsVariableKey := by
  cases k <;> exact h

end LuaValue

/-- The variable stores this key, as far as it stores keys. -/
def VariableEntry.Describes (v : VariableEntry) : LuaValue N → Prop
  | .number n => v.indexedKey = some (LuaNumber.toInteger n).toInt32
  | .string s => v.indexedKey = none ∧ v.name = s
  | _ => False

namespace LuaStackTraceProvider

open LuaValue (lookupOf)

omit [DecidableEq N] in
theorem lookupKey_of_describes {v : VariableEntry} {k : LuaValue N} (h : v.Describes k) :
    lookupKey v = lookupOf k := by
  cases k with
  | number n =>
    have hkey : v.indexedKey = some (LuaNumber.toInteger n).toInt32 := h
    simp [lookupKey, hkey, lookupOf]
  | string s => simp [lookupKey, h.1, h.2, lookupOf]
  | _ => cases h

/-! ## The value of a variable -/

variable {heap : LuaHeap N} {l : LuaState (LuaValue N)} {p p' : LuaStackTraceProvider}
  {v v' parent : VariableEntry} {a b : LuaValue N}

/-- Locals whose name starts so are not the program's own. -/
def Visible (name : Bytes) : Prop := (ascii "(*").isPrefixOf name = false

/-- The value of a local is in its slot, and that of any other variable is what its parent's value
holds at the key that is looked up for it. -/
inductive Evaluates (heap : LuaHeap N) (l : LuaState (LuaValue N)) (p : LuaStackTraceProvider) :
    VariableEntry → LuaValue N → Prop
  | slot {v parent : VariableEntry} {frame : StackFrameEntry} {ci : CallInfo (LuaValue N)}
      {index : Nat} {name : Bytes} {a : LuaValue N} (hv : v.parentFrame = none)
      (hparent : v.parentVariableId = some parent.referenceId) (hmem : parent ∈ p.variableEntries)
      (hlt : parent.referenceId < v.referenceId) (hscope : parent.parentFrame = some frame.id)
      (hframe : frame ∈ p.stackFrames) (hindex : v.indexOnFrame = some (index + 1))
      (hci : l.stack[frame.level]? = some ci) (hslot : ci.locals[index]? = some (name, a))
      (hname : Visible name) : Evaluates heap l p v a
  | child {v parent : VariableEntry} {t : Nat} {k w : LuaValue N} (hv : v.parentFrame = none)
      (hparent : v.parentVariableId = some parent.referenceId) (hmem : parent ∈ p.variableEntries)
      (hlt : parent.referenceId < v.referenceId) (hscope : parent.parentFrame = none)
      (ht : Evaluates heap l p parent (.table t)) (hk : (k, w) ∈ (heap t).entries)
      (hdescribes : v.Describes k) : Evaluates heap l p v ((heap t).get (lookupOf k))

theorem Evaluates.parentFrame (h : Evaluates heap l p v a) : v.parentFrame = none := by
  cases h with
  | slot hv => exact hv
  | child hv => exact hv

/-- Ids are unique. -/
structure UniqueIds (p : LuaStackTraceProvider) : Prop where
  entries : (p.variableEntries.map VariableEntry.referenceId).Nodup
  frames : (p.stackFrames.map StackFrameEntry.id).Nodup

theorem UniqueIds.getVariableEntry (h : UniqueIds p) (hv : v ∈ p.variableEntries) :
    p.getVariableEntry v.referenceId = some v := by
  apply List.find?_of_unique hv (by simp)
  intro b hb hid
  exact List.inj_on_of_nodup_map h.entries hb hv (by simpa using hid)

theorem UniqueIds.getStackFrameEntry (h : UniqueIds p) {frame : StackFrameEntry}
    (hf : frame ∈ p.stackFrames) : p.getStackFrameEntry frame.id = some frame := by
  apply List.find?_of_unique hf (by simp)
  intro b hb hid
  exact List.inj_on_of_nodup_map h.frames hb hf (by simpa using hid)

theorem UniqueIds.eq_of_referenceId (h : UniqueIds p) (hv : v ∈ p.variableEntries)
    (hv' : v' ∈ p.variableEntries) (hid : v.referenceId = v'.referenceId) : v = v' :=
  List.inj_on_of_nodup_map h.entries hv hv' hid

theorem Evaluates.exists_parent (h : Evaluates heap l p v a) : ∃ parent ∈ p.variableEntries,
    v.parentVariableId = some parent.referenceId ∧ parent.referenceId < v.referenceId := by
  cases h with
  | slot hv hparent hmem hlt => exact ⟨_, hmem, hparent, hlt⟩
  | child hv hparent hmem hlt => exact ⟨_, hmem, hparent, hlt⟩

/-- `PushChildValue` of the parent finds the value, in whatever state the record is. -/
theorem Evaluates.pushChildValue (hp : UniqueIds p) (h : Evaluates heap l p v a) :
    ∀ n parent ar, v.parentVariableId = some parent.referenceId → parent ∈ p.variableEntries →
      v.referenceId ≤ n →
      ∃ ar', LuaStackTraceProvider.pushChildValue heap l p n parent v ar = some (some a, ar') := by
  induction h with
  | @slot v parent frame ci index name a hv hparent hmem hlt hscope hframe hindex hci hslot hname =>
    intro n parent' ar hparent' hmem' hn
    obtain rfl : parent' = parent :=
      hp.eq_of_referenceId hmem' hmem (Option.some.inj (hparent'.symm.trans hparent))
    obtain ⟨n, rfl⟩ := Nat.exists_eq_add_of_lt (Nat.lt_of_lt_of_le (Nat.zero_lt_of_lt hlt) hn)
    have hlevel : frame.level < l.stack.length := (List.getElem?_eq_some_iff.1 hci).1
    refine ⟨{ ar with i_ci := frame.level }, ?_⟩
    rw [Nat.zero_add, LuaStackTraceProvider.pushChildValue]
    simp [hv, hscope, hindex, hp.getStackFrameEntry hframe, luaGetStack_of_lt hlevel, luaGetLocal,
      hci, hslot]
  | @child v parent t k w hv hparent hmem hlt hscope ht hk hdescribes ih =>
    intro n parent' ar hparent' hmem' hn
    obtain rfl : parent' = parent :=
      hp.eq_of_referenceId hmem' hmem (Option.some.inj (hparent'.symm.trans hparent))
    obtain ⟨n, rfl⟩ := Nat.exists_eq_add_of_lt (Nat.lt_of_lt_of_le (Nat.zero_lt_of_lt hlt) hn)
    obtain ⟨grandparent, hgmem, hg, -⟩ := ht.exists_parent
    obtain ⟨ar', hpush⟩ := ih n grandparent ar hg hgmem (by omega)
    refine ⟨ar', ?_⟩
    rw [Nat.zero_add, LuaStackTraceProvider.pushChildValue]
    simp [hv, hscope, hg, hp.getVariableEntry hgmem, hpush, lookupKey_of_describes hdescribes]

/-- A variable has one value. -/
theorem Evaluates.unique (hp : UniqueIds p) (h : Evaluates heap l p v a)
    (h' : Evaluates heap l p v b) : a = b := by
  obtain ⟨parent, hmem, hparent, -⟩ := h.exists_parent
  obtain ⟨ar, hpush⟩ := h.pushChildValue hp v.referenceId parent p.ar hparent hmem (Nat.le_refl _)
  obtain ⟨ar', hpush'⟩ :=
    h'.pushChildValue hp v.referenceId parent p.ar hparent hmem (Nat.le_refl _)
  rw [hpush] at hpush'
  exact Option.some.inj (congrArg Prod.fst (Option.some.inj hpush'))

/-! ## Growing tables -/

/-- The variable at a later time: what its value depends on is the same, and it only gains
children. -/
structure Grown (v v' : VariableEntry) : Prop where
  referenceId : v'.referenceId = v.referenceId
  name : v'.name = v.name
  indexedKey : v'.indexedKey = v.indexedKey
  parentFrame : v'.parentFrame = v.parentFrame
  parentVariableId : v'.parentVariableId = v.parentVariableId
  indexOnFrame : v'.indexOnFrame = v.indexOnFrame
  children : v.indexedChildren ++ v.namedChildren ⊆ v'.indexedChildren ++ v'.namedChildren
  info : v.variableInfo ≠ none → v'.variableInfo ≠ none

theorem Grown.refl (v : VariableEntry) : Grown v v :=
  ⟨rfl, rfl, rfl, rfl, rfl, rfl, List.Subset.refl _, id⟩

theorem Grown.trans {v'' : VariableEntry} (h : Grown v v') (h' : Grown v' v'') : Grown v v'' where
  referenceId := h'.referenceId.trans h.referenceId
  name := h'.name.trans h.name
  indexedKey := h'.indexedKey.trans h.indexedKey
  parentFrame := h'.parentFrame.trans h.parentFrame
  parentVariableId := h'.parentVariableId.trans h.parentVariableId
  indexOnFrame := h'.indexOnFrame.trans h.indexOnFrame
  children := List.Subset.trans h.children h'.children
  info := fun hv => h'.info (h.info hv)

omit [DecidableEq N] in
theorem Grown.describes {k : LuaValue N} (h : Grown v v') (hk : v.Describes k) :
    v'.Describes k := by
  cases k with
  | number n => exact h.indexedKey.trans hk
  | string s => exact ⟨h.indexedKey.trans hk.1, h.name.trans hk.2⟩
  | _ => cases hk

/-- The provider at a later time. -/
structure Extends (p p' : LuaStackTraceProvider) : Prop where
  frames : ∀ f ∈ p.stackFrames, ∃ f' ∈ p'.stackFrames, f'.id = f.id ∧ f'.level = f.level ∧
    (f.scopes ≠ [] → f'.scopes ≠ [])
  entries : ∀ v ∈ p.variableEntries, ∃ v' ∈ p'.variableEntries, Grown v v'

theorem Extends.refl (p : LuaStackTraceProvider) : Extends p p :=
  ⟨fun f hf => ⟨f, hf, rfl, rfl, id⟩, fun v hv => ⟨v, hv, .refl v⟩⟩

theorem Extends.trans {p'' : LuaStackTraceProvider} (h : Extends p p') (h' : Extends p' p'') :
    Extends p p'' where
  frames f hf := by
    obtain ⟨f', hf', hid, hlevel, hscopes⟩ := h.frames f hf
    obtain ⟨f'', hf'', hid', hlevel', hscopes'⟩ := h'.frames f' hf'
    exact ⟨f'', hf'', hid'.trans hid, hlevel'.trans hlevel, fun hs => hscopes' (hscopes hs)⟩
  entries v hv := by
    obtain ⟨v', hv', hgrown⟩ := h.entries v hv
    obtain ⟨v'', hv'', hgrown'⟩ := h'.entries v' hv'
    exact ⟨v'', hv'', hgrown.trans hgrown'⟩

/-- **Values stay.** -/
theorem Evaluates.mono (hp : Extends p p') (h : Evaluates heap l p v a) :
    ∀ {v'}, Grown v v' → Evaluates heap l p' v' a := by
  induction h with
  | @slot v parent frame ci index name a hv hparent hmem hlt hscope hframe hindex hci hslot hname =>
    intro v' hgrown
    obtain ⟨parent', hmem', hparentGrown⟩ := hp.entries parent hmem
    obtain ⟨frame', hframe', hid, hlevel, -⟩ := hp.frames frame hframe
    refine .slot (hgrown.parentFrame.trans hv) ?_ hmem' ?_ ?_ hframe'
      (hgrown.indexOnFrame.trans hindex) (hlevel ▸ hci) hslot hname
    · rw [hgrown.parentVariableId, hparentGrown.referenceId, hparent]
    · rw [hgrown.referenceId, hparentGrown.referenceId]
      exact hlt
    · rw [hparentGrown.parentFrame, hscope, hid]
  | @child v parent t k w hv hparent hmem hlt hscope ht hk hdescribes ih =>
    intro v' hgrown
    obtain ⟨parent', hmem', hparentGrown⟩ := hp.entries parent hmem
    refine .child (hgrown.parentFrame.trans hv) ?_ hmem' ?_
      (hparentGrown.parentFrame.trans hscope) (ih hparentGrown) hk (hgrown.describes hdescribes)
    · rw [hgrown.parentVariableId, hparentGrown.referenceId, hparent]
    · rw [hgrown.referenceId, hparentGrown.referenceId]
      exact hlt

end LuaStackTraceProvider

end LuaToolkit
