import LuaToolkit.ValueStack
import LuaToolkit.VariableDialogue

/-!
# The value stack is restored

Each function of the provider leaves the stack as it was, but for `PushChildValue`, which leaves the
value that it is for. Above the height at the start there are never more than three values (a table,
a key and the value of the key), unless a lookup has to call a metamethod.

* `Hits` — the lookups for a variable find raw keys.
* `Evaluates.onStack`, `addEntries_onStack`, `addLocals_onStack` — the recursion along the parents
  and the two loops, each with what it leaves and how far it rises.
* `respond_onStack` — a request on the stack gives the same answer as without it.
* `stack_restored` — what holds in all dialogues.
-/

namespace LuaToolkit

open Dap Transition
open LuaValue (lookupOf)
open PeakStack (Leaves)

/-! ## Calls -/

section Calls

variable {N : Type*} [DecidableEq N] {heap : LuaHeap N} {s u : ValueStack N} {k t : Nat}
  {key : LuaValue N}

/-- The value takes the place of the key, and only a metamethod takes more places for it. -/
theorem luaGetTable_cases (heap : LuaHeap N) (slots : Nat) {rest : List (LuaValue N)}
    (hvalues : u.values = key :: .table t :: rest) :
    luaGetTable heap slots u = u.put ((heap t).get key :: .table t :: rest) ∨
      (heap t).rawGet key = .nil ∧
        luaGetTable heap slots u = (u.touch slots).put ((heap t).get key :: .table t :: rest) := by
  unfold luaGetTable LuaTable.get
  rw [hvalues]
  dsimp only
  cases (heap t).rawGet key with
  | nil =>
    cases (heap t).index with
    | none => exact .inl rfl
    | some index => exact .inr ⟨rfl, rfl⟩
  | _ => exact .inl rfl

/-- A lookup leaves the value in place of table and key. -/
theorem leaves_luaGetTable {slots : Nat} (h : Leaves s u [key, .table t] k) (hk : 2 ≤ k)
    (hhits : (heap t).rawGet key ≠ .nil ∨ 2 + slots ≤ k) :
    Leaves s (luaRemoveSecond (luaGetTable heap slots u)) [(heap t).get key] k := by
  have hone : [(heap t).get key].length ≤ k := Nat.le_of_succ_le hk
  have htwo : [(heap t).get key, .table t].length ≤ k := hk
  rcases luaGetTable_cases heap slots h.values with hget | ⟨hnil, hget⟩
  · rw [hget]
    exact (h.put _ htwo).put _ hone
  · rw [hget]
    exact ((h.touch slots (hhits.resolve_left fun hne => hne hnil)).put _ htwo).put _ hone

/-- The key of the entry that the loop was at; it starts with nil. -/
def lastKey (entries : List (LuaValue N × LuaValue N)) : LuaValue N :=
  (entries.getLast?.map Prod.fst).getD .nil

theorem LuaTable.next_of_ne_nil {table : LuaTable N} (h : key ≠ .nil) :
    table.next key = table.entries[table.entries.findIdx (fun e => e.1 = key) + 1]? := by
  cases key with
  | nil => exact absurd rfl h
  | _ => rfl

/-- `lua_next` goes on with the entry behind those that it has gone through. -/
theorem LuaTable.next_lastKey (table : LuaTable N) {before after : List (LuaValue N × LuaValue N)}
    (h : table.entries = before ++ after) : table.next (lastKey before) = after.head? := by
  rcases List.eq_nil_or_concat before with rfl | ⟨before, e, rfl⟩
  · rw [List.nil_append] at h
    rw [← h]
    rfl
  · rw [List.concat_eq_append] at h ⊢
    have hmem : e ∈ table.entries := by
      rw [h]
      simp
    have hindex : table.entries.findIdx (fun e' => e'.1 = e.1) = before.length := by
      have hlt : before.length < table.entries.length := by
        rw [h]
        simp
      rw [List.findIdx_eq hlt]
      refine ⟨by simp [h], fun j hj => decide_eq_false fun heq => ?_⟩
      have hj' : j < table.entries.length := Nat.lt_trans hj hlt
      have hsame : table.entries[j].1 = table.entries[before.length].1 := by
        rw [heq]
        simp [h]
      have hinj := (table.keys_nodup.get_inj_iff (i := ⟨j, by simpa using hj'⟩)
        (j := ⟨before.length, by simpa using hlt⟩)).1 (by simpa using hsame)
      exact absurd (congrArg Fin.val hinj) (Nat.ne_of_lt hj)
    have hkey : lastKey (before ++ [e]) = e.1 := by simp [lastKey]
    have hafter : table.entries[before.length + 1]? = after.head? := by
      rw [h, List.append_assoc, List.getElem?_append_right (Nat.le_succ _),
        List.head?_eq_getElem?]
      simp
    rw [hkey, LuaTable.next_of_ne_nil (table.key_ne_nil e hmem), hindex]
    exact hafter

end Calls

namespace LuaStackTraceProvider

variable {N : Type} [DecidableEq N] [LuaNumber N] {heap : LuaHeap N} {slots : Nat}
  {l : LuaState (LuaValue N)} {p p' : LuaStackTraceProvider} {v v' : VariableEntry}
  {a : LuaValue N} {s u : ValueStack N} {k : Nat}

/-! ## Values of children -/

/-- The lookups for the variable and for its parents find raw keys. -/
inductive Hits (heap : LuaHeap N) (l : LuaState (LuaValue N)) (p : LuaStackTraceProvider) :
    VariableEntry → Prop
  | slot {v parent : VariableEntry} (hparent : v.parentVariableId = some parent.referenceId)
      (hmem : parent ∈ p.variableEntries) (hscope : parent.parentFrame ≠ none) : Hits heap l p v
  | child {v parent : VariableEntry} {t : Nat}
      (hparent : v.parentVariableId = some parent.referenceId)
      (hmem : parent ∈ p.variableEntries) (ht : Evaluates heap l p parent (.table t))
      (hraw : (heap t).rawGet (lookupKey v) ≠ .nil) (hits : Hits heap l p parent) : Hits heap l p v

theorem Hits.mono (hext : Extends p p') (h : Hits heap l p v) :
    ∀ {v'}, Grown v v' → Hits heap l p' v' := by
  induction h with
  | slot hparent hmem hscope =>
    intro v' hgrown
    obtain ⟨parent', hmem', hparentGrown⟩ := hext.entries _ hmem
    refine .slot ?_ hmem' (hparentGrown.parentFrame ▸ hscope)
    rw [hgrown.parentVariableId, hparentGrown.referenceId, hparent]
  | child hparent hmem ht hraw _ ih =>
    intro v' hgrown
    obtain ⟨parent', hmem', hparentGrown⟩ := hext.entries _ hmem
    refine .child ?_ hmem' (ht.mono hext hparentGrown) ?_ (ih hparentGrown)
    · rw [hgrown.parentVariableId, hparentGrown.referenceId, hparent]
    · rw [lookupKey, hgrown.indexedKey, hgrown.name]
      exact hraw

theorem Hits.child_inv (hp : UniqueIds p) (h : Hits heap l p v) {parent : VariableEntry} {t : Nat}
    (hparent : v.parentVariableId = some parent.referenceId) (hmem : parent ∈ p.variableEntries)
    (ht : Evaluates heap l p parent (.table t)) :
    (heap t).rawGet (lookupKey v) ≠ .nil ∧ Hits heap l p parent := by
  cases h with
  | slot hparent' hmem' hscope' =>
    obtain rfl := hp.eq_of_referenceId hmem hmem' (Option.some.inj (hparent.symm.trans hparent'))
    exact absurd ht.parentFrame hscope'
  | child hparent' hmem' ht' hraw hits =>
    obtain rfl := hp.eq_of_referenceId hmem hmem' (Option.some.inj (hparent.symm.trans hparent'))
    obtain rfl : t = _ := by simpa using ht.unique hp ht'
    exact ⟨hraw, hits⟩

/-- Faithful keys are raw keys. -/
theorem Evaluates.hits (hfaithful : AllFaithful heap l) (h : Evaluates heap l p v a) :
    FromLocal heap l a ∧ Hits heap l p v := by
  induction h with
  | slot hv hparent hmem hlt hscope hframe hindex hci hslot hname =>
    exact ⟨.slot (List.mem_of_getElem? hci) (List.mem_of_getElem? hslot) hname,
      .slot hparent hmem (hscope ▸ Option.some_ne_none _)⟩
  | @child v parent t key w hv hparent hmem hlt hscope ht hk hdescribes ih =>
    have hkey : key.IsVariableKey := by cases key <;> trivial
    have hlookup := LuaValue.lookupOf_eq_self.2 (hfaithful t ih.1 key w hk)
    rw [hlookup, LuaTable.get_of_mem hk]
    refine ⟨.entry ih.1 hk hkey, .child hparent hmem ht ?_ ih.2⟩
    rw [lookupKey_of_describes hdescribes, hlookup, LuaTable.rawGet_of_mem hk]
    exact (heap t).value_ne_nil _ hk

/-- The recursion along the parents leaves the value and rises by two, a table and a key. -/
theorem Evaluates.onStack (h : Evaluates heap l p v a) (slots : Nat) (hp : UniqueIds p)
    (hk : 2 ≤ k) : (Hits heap l p v ∨ 2 + slots ≤ k) → ∀ n parent ar,
      v.parentVariableId = some parent.referenceId → parent ∈ p.variableEntries →
      v.referenceId ≤ n → ∃ ar',
        LuaStackTraceProvider.pushChildValue heap l p n parent v ar = some (some a, ar') ∧
        ∀ s, ∃ s', OnStack.pushChildValue heap l slots p n parent v ar s = some (true, ar', s') ∧
          Leaves s s' [a] k := by
  induction h with
  | @slot v parent frame ci index name a hv hparent hmem hlt hscope hframe hindex hci hslot hname =>
    intro _ n parent' ar hparent' hmem' hn
    obtain rfl : parent' = parent :=
      hp.eq_of_referenceId hmem' hmem (Option.some.inj (hparent'.symm.trans hparent))
    obtain ⟨n, rfl⟩ := Nat.exists_eq_add_of_lt (Nat.lt_of_lt_of_le (Nat.zero_lt_of_lt hlt) hn)
    have hlevel : frame.level < l.stack.length := (List.getElem?_eq_some_iff.1 hci).1
    refine ⟨{ ar with i_ci := frame.level }, ?_, fun s => ⟨s.push a, ?_, ?_⟩⟩
    · rw [Nat.zero_add, LuaStackTraceProvider.pushChildValue]
      simp [hv, hscope, hindex, hp.getStackFrameEntry hframe, luaGetStack_of_lt hlevel,
        luaGetLocal, hci, hslot]
    · rw [Nat.zero_add, OnStack.pushChildValue]
      simp [hv, hscope, hindex, hp.getStackFrameEntry hframe, luaGetStack_of_lt hlevel,
        luaGetLocal, hci, hslot]
    · exact ((Leaves.refl s).mono (Nat.zero_le k)).push a (Nat.lt_of_lt_of_le Nat.two_pos hk)
  | @child v parent t key w hv hparent hmem hlt hscope ht hentry hdescribes ih =>
    intro hhits n parent' ar hparent' hmem' hn
    obtain rfl : parent' = parent :=
      hp.eq_of_referenceId hmem' hmem (Option.some.inj (hparent'.symm.trans hparent))
    obtain ⟨n, rfl⟩ := Nat.exists_eq_add_of_lt (Nat.lt_of_lt_of_le (Nat.zero_lt_of_lt hlt) hn)
    obtain ⟨grandparent, hgmem, hg, -⟩ := ht.exists_parent
    have hlookup : (lookupKey v : LuaValue N) = lookupOf key := lookupKey_of_describes hdescribes
    obtain ⟨ar', hpush, hstack⟩ := ih (hhits.imp_left fun hh => (hh.child_inv hp hparent hmem ht).2)
      n grandparent ar hg hgmem (by omega)
    refine ⟨ar', ?_, fun s => ?_⟩
    · rw [Nat.zero_add, LuaStackTraceProvider.pushChildValue]
      simp [hv, hscope, hg, hp.getVariableEntry hgmem, hpush, hlookup]
    · obtain ⟨s₁, hpush₁, hleaves₁⟩ := hstack s
      have htop : s₁.get? 0 = some (.table t) := by rw [PeakStack.get?, hleaves₁.values]; rfl
      have hraw := hhits.imp_left fun hh => hlookup ▸ (hh.child_inv hp hparent hmem ht).1
      refine ⟨_, ?_, leaves_luaGetTable (hleaves₁.push (lookupOf key) hk) hk hraw⟩
      rw [Nat.zero_add, OnStack.pushChildValue]
      simp [hv, hscope, hg, hp.getVariableEntry hgmem, hpush₁, htop, hlookup]

/-- Whatever the tables are: a call that pushes nothing has not touched the stack. -/
theorem OnStack.pushChildValue_false {n : Nat} {self child : VariableEntry} {ar ar' : LuaDebug}
    (h : OnStack.pushChildValue heap l slots p n self child ar s = some (false, ar', u)) :
    u = s := by
  cases n with
  | zero => cases h
  | succ n =>
    rw [OnStack.pushChildValue] at h
    split at h
    · cases h
    · split at h
      · split at h
        · dsimp only at h
          split at h
          · simp at h
          · simp only [Option.some.injEq, Prod.mk.injEq] at h
            exact h.2.2.symm
        · cases h
      · split at h
        · cases h
        · split at h
          · cases h
          · split at h
            · simp at h
            · cases h

/-! ## The loops -/

/-- The `lua_next` loop adds the entries that are left, and ends with the table alone. -/
theorem addEntries_onStack {t : Nat} (variableId : Nat) (hk : 3 ≤ k)
    (after : List (LuaValue N × LuaValue N)) :
    ∀ (before : List (LuaValue N × LuaValue N)) (rounds : Nat) (p : LuaStackTraceProvider)
      (u : ValueStack N), (heap t).entries = before ++ after → after.length < rounds →
        Leaves s u [lastKey before, .table t] k →
        ∃ u', OnStack.addEntries heap variableId rounds p u =
            some (after.foldl (addEntry variableId) p, u') ∧ Leaves s u' [.table t] k := by
  induction after with
  | nil =>
    intro before rounds p u hentries hlt hleaves
    obtain ⟨rounds, rfl⟩ := Nat.exists_eq_add_of_lt hlt
    have hnext : luaNext heap u = (false, u.put (.table t :: s.values)) := by
      rw [luaNext, hleaves.values]
      simp [(heap t).next_lastKey hentries]
    refine ⟨_, ?_, hleaves.put [.table t] (Nat.le_trans (by simp) hk)⟩
    simp [OnStack.addEntries, hnext]
  | cons e after ih =>
    intro before rounds p u hentries hlt hleaves
    obtain ⟨rounds, rfl⟩ := Nat.exists_eq_add_of_lt (Nat.zero_lt_of_lt hlt)
    have hnext : luaNext heap u = (true, u.put (e.2 :: e.1 :: .table t :: s.values)) := by
      rw [luaNext, hleaves.values]
      simp [(heap t).next_lastKey hentries]
    have hput : Leaves s (u.put ([e.2, e.1, .table t] ++ s.values)) ([e.2] ++ [e.1, .table t]) k :=
      hleaves.put [e.2, e.1, .table t] hk
    have hkey : lastKey (before ++ [e]) = e.1 := by simp [lastKey]
    have hpop : Leaves s ((u.put (e.2 :: e.1 :: .table t :: s.values)).pop 1)
        [lastKey (before ++ [e]), .table t] k := by
      rw [hkey]
      exact hput.pop (Nat.le_trans (by simp) hk)
    obtain ⟨u', hloop, hleaves'⟩ := ih (before ++ [e]) rounds (addEntry variableId p e) _
      (by simpa using hentries) (by simp only [List.length_cons] at hlt; omega) hpop
    refine ⟨u', ?_, hleaves'⟩
    rw [Nat.zero_add, OnStack.addEntries, hnext]
    exact hloop

omit [DecidableEq N] [LuaNumber N] in
theorem luaGetLocal_succ {ar : LuaDebug} {ci : CallInfo (LuaValue N)}
    (hci : l.stack[ar.i_ci]? = some ci) (n : Nat) : luaGetLocal l ar (n + 1) = ci.locals[n]? := by
  simp [luaGetLocal, hci]

omit [DecidableEq N] [LuaNumber N] in
/-- The loop over the locals adds the slots that are left, with one value at a time. -/
theorem addLocals_onStack {ar : LuaDebug} (scopeId : Nat) {ci : CallInfo (LuaValue N)}
    (hci : l.stack[ar.i_ci]? = some ci) (hk : 1 ≤ k) (after : List (Bytes × LuaValue N)) :
    ∀ (n rounds : Nat) (p : LuaStackTraceProvider) (u : ValueStack N), ci.locals.drop n = after →
      after.length < rounds → Leaves s u [] k →
      ∃ u', OnStack.addLocals l scopeId ar rounds n p u =
          some ((after.zipIdx (n + 1)).foldl (addLocal scopeId) p, u') ∧ Leaves s u' [] k := by
  induction after with
  | nil =>
    intro n rounds p u hafter hlt hleaves
    obtain ⟨rounds, rfl⟩ := Nat.exists_eq_add_of_lt hlt
    have hlocal : luaGetLocal l ar (n + 1) = none := by
      rw [luaGetLocal_succ hci]
      exact List.getElem?_eq_none (List.drop_eq_nil_iff.1 hafter)
    refine ⟨u, ?_, hleaves⟩
    simp [OnStack.addLocals, hlocal]
  | cons slot after ih =>
    intro n rounds p u hafter hlt hleaves
    obtain ⟨rounds, rfl⟩ := Nat.exists_eq_add_of_lt (Nat.zero_lt_of_lt hlt)
    have hlocal : luaGetLocal l ar (n + 1) = some slot := by
      rw [luaGetLocal_succ hci, ← List.head?_drop, hafter]
      rfl
    have htail : ci.locals.drop (n + 1) = after := by
      rw [← List.tail_drop, hafter]
      rfl
    have hpush : Leaves s (u.push slot.2) ([slot.2] ++ []) k := hleaves.push slot.2 hk
    have hpop : Leaves s ((u.push slot.2).pop 1) [] k := hpush.pop (Nat.zero_le k)
    obtain ⟨u', hloop, hleaves'⟩ := ih (n + 1) rounds (addLocal scopeId p (slot, n + 1)) _ htail
      (by simp only [List.length_cons] at hlt; omega) hpop
    refine ⟨u', ?_, hleaves'⟩
    rw [Nat.zero_add, OnStack.addLocals, hlocal]
    exact hloop

/-! ## Requests -/

theorem describe_onStack (hk : 3 ≤ k) (hleaves : Leaves s u [a] k) (variableId : Nat)
    (info : Variable) (p : LuaStackTraceProvider) : ∃ u' vs,
      OnStack.describe heap variableId info p u =
        some ((describe heap variableId (some a) info p).1,
          (describe heap variableId (some a) info p).2, u') ∧
      Leaves s u' vs k := by
  have htop : u.get? 0 = some a := by
    rw [PeakStack.get?, hleaves.values]
    rfl
  cases a with
  | table t =>
    have hpush : Leaves s (u.push .nil) [lastKey (N := N) [], .table t] k :=
      hleaves.push .nil (Nat.lt_of_succ_lt hk)
    obtain ⟨u', hloop, hleaves'⟩ := addEntries_onStack variableId hk
      (heap t).entries [] ((heap t).entries.length + 1) p _ rfl (Nat.lt_succ_self _) hpush
    refine ⟨u', _, ?_, hleaves'⟩
    simp [OnStack.describe, htop, hloop, describe]
  | _ =>
    refine ⟨u, _, ?_, hleaves⟩
    simp [OnStack.describe, htop]

/-- `GetVariable` on the stack does what it does without, and restores the stack. -/
theorem Tree.getVariable_onStack (h : Tree heap l p) (hv : v ∈ p.variableEntries)
    (hscope : v.parentFrame = none) (hk : 3 ≤ k)
    (hhits : v.variableInfo = none → Hits heap l p v ∨ 2 + slots ≤ k) {info : Variable}
    (hget : LuaStackTraceProvider.getVariable heap l v.referenceId p = some (info, p'))
    (s : ValueStack N) :
    ∃ s', OnStack.getVariable heap l slots v.referenceId p s = some (info, p', s') ∧
      Leaves s s' [] k := by
  have hentry := h.uniqueIds.getVariableEntry hv
  have hrestore : ∀ {u vs}, Leaves s u vs k → Leaves s (u.setHeight .nil s.height) [] k :=
    fun hleaves => hleaves.setHeight .nil
  cases hinfo : v.variableInfo with
  | some info' =>
    refine ⟨_, ?_, hrestore ((Leaves.refl s).mono (Nat.zero_le k))⟩
    obtain ⟨rfl, rfl⟩ : info' = info ∧ p = p' := by
      simpa [LuaStackTraceProvider.getVariable, hentry, hinfo] using hget
    simp [OnStack.getVariable, hentry, hinfo]
  | none =>
    obtain ⟨a, ha⟩ := h.values v hv hscope
    obtain ⟨parent, hmem, hparent, -⟩ := ha.exists_parent
    obtain ⟨ar, hpush, hstack⟩ := ha.onStack slots h.uniqueIds (Nat.le_of_succ_le hk)
      (hhits hinfo) p.variableEntries.length parent p.ar hparent hmem
      (h.length_eq ▸ h.referenceId_le hv)
    obtain ⟨s₁, hpush₁, hleaves₁⟩ := hstack s
    obtain ⟨s₂, vs, hdescribe, hleaves₂⟩ := describe_onStack hk hleaves₁ v.referenceId
      { name := v.name, presentationHint := some "property", variablesReference := v.referenceId }
      { p with ar := ar }
    refine ⟨_, ?_, hrestore hleaves₂⟩
    have hparentEntry := h.uniqueIds.getVariableEntry hmem
    simp only [LuaStackTraceProvider.getVariable, hentry, hinfo, LuaStackTraceProvider.evaluate,
      hscope, hparent, hparentEntry, hpush, Option.bind_eq_bind, Option.bind_some,
      Option.isSome_none, Bool.false_eq_true, if_false] at hget
    simp only [OnStack.getVariable, hentry, hinfo, OnStack.evaluate, hscope, hparent,
      hparentEntry, hpush₁, Option.bind_eq_bind, Option.bind_some, Option.isSome_none,
      Bool.false_eq_true, if_false, if_true]
    obtain ⟨self, hself, hget⟩ := Option.bind_eq_some_iff.1 hget
    rw [hdescribe, Option.bind_some, hself]
    obtain ⟨rfl, rfl⟩ := Prod.mk.inj (Option.some.inj hget)
    rfl

theorem Shaped.transform_onStack (hk : 3 ≤ k) (ids : List Nat) :
    ∀ {p p' : LuaStackTraceProvider} {infos : List Variable}, Shaped heap l p →
      (∀ id ∈ ids, ∃ v ∈ p.variableEntries, v.referenceId = id ∧ v.parentFrame = none) →
      (∀ v ∈ p.variableEntries, v.referenceId ∈ ids → v.variableInfo = none →
        Hits heap l p v ∨ 2 + slots ≤ k) →
      LuaStackTraceProvider.transform heap l ids p = some (infos, p') → ∀ s,
      ∃ s', OnStack.transform heap l slots ids p s = some (infos, p', s') ∧ Leaves s s' [] k := by
  induction ids with
  | nil =>
    intro p p' infos _ _ _ htransform s
    obtain ⟨rfl, rfl⟩ := Prod.mk.inj (Option.some.inj htransform)
    exact ⟨s, rfl, (Leaves.refl s).mono (Nat.zero_le k)⟩
  | cons id ids ih =>
    intro p p' infos h hids hhits htransform s
    obtain ⟨v, hv, rfl, hscope⟩ := hids _ List.mem_cons_self
    obtain ⟨info, q, hget, hq, hopens, -⟩ := h.getVariable hv hscope
    obtain ⟨s₁, hget₁, hleaves₁⟩ :=
      h.tree.getVariable_onStack hv hscope hk (hhits v hv List.mem_cons_self) hget s
    simp only [LuaStackTraceProvider.transform, hget, Option.bind_eq_bind, Option.bind_some]
      at htransform
    obtain ⟨⟨rest, q'⟩, hrest, hsame⟩ := Option.bind_eq_some_iff.1 htransform
    obtain ⟨rfl, rfl⟩ := Prod.mk.inj (Option.some.inj hsame)
    have hids' : ∀ id ∈ ids, ∃ u ∈ q.variableEntries, u.referenceId = id ∧
        u.parentFrame = none :=
      fun id hid => hopens.ext.variable_mem (hids id (List.mem_cons_of_mem _ hid))
    have hhits' : ∀ u ∈ q.variableEntries, u.referenceId ∈ ids → u.variableInfo = none →
        Hits heap l q u ∨ 2 + slots ≤ k := by
      intro u hu huid huinfo
      obtain ⟨w, hw, hwid, -⟩ := hids u.referenceId (List.mem_cons_of_mem _ huid)
      obtain ⟨w', hw', hgrown⟩ := hopens.ext.entries w hw
      obtain rfl := hq.tree.uniqueIds.eq_of_referenceId hw' hu (hgrown.referenceId.trans hwid)
      have hwinfo : w.variableInfo = none := by
        by_contra hne
        exact hgrown.info hne huinfo
      exact (hhits w hw (hwid ▸ List.mem_cons_of_mem _ huid) hwinfo).imp_left
        fun hw => hw.mono hopens.ext hgrown
    obtain ⟨s', hrest', hleaves'⟩ := ih hq hids' hhits' hrest s₁
    refine ⟨s', ?_, hleaves₁.trans hleaves' (by simp)⟩
    simp [OnStack.transform, hget₁, hrest']

theorem OnStack.transform_append (ids ids' : List Nat) (p : LuaStackTraceProvider)
    (s : ValueStack N) : OnStack.transform heap l slots (ids ++ ids') p s =
      (OnStack.transform heap l slots ids p s).bind fun (infos, p, s) =>
        (OnStack.transform heap l slots ids' p s).bind fun (infos', p, s) =>
          some (infos ++ infos', p, s) := by
  induction ids generalizing p s with
  | nil =>
    simp only [List.nil_append, OnStack.transform, Option.bind_some]
    cases OnStack.transform heap l slots ids' p s <;> rfl
  | cons id ids ih =>
    simp only [List.cons_append, OnStack.transform, ih, Option.bind_eq_bind, Option.bind_assoc,
      Option.bind_some]

theorem OnStack.getVariables_eq (arg : VariablesArguments) (p : LuaStackTraceProvider)
    (s : ValueStack N) : OnStack.getVariables heap l slots arg p s =
      (p.getVariableEntry arg.variablesReference).bind fun self =>
        OnStack.transform heap l slots (selected self arg.filter) p s := by
  simp only [selected, filtered, OnStack.transform_append]
  rfl

omit [DecidableEq N] [LuaNumber N] in
theorem getFrameScopes_onStack (hk : 1 ≤ k) (frame : StackFrameEntry) (p : LuaStackTraceProvider)
    (s : ValueStack N) : ∃ s',
      OnStack.getFrameScopes l frame p s = some ((p.getFrameScopes l frame).1,
        (p.getFrameScopes l frame).2, s') ∧ Leaves s s' [] k := by
  have hstay : Leaves s s [] k := (Leaves.refl s).mono (Nat.zero_le k)
  by_cases hempty : frame.scopes.isEmpty = true
  · by_cases hlevel : frame.level < l.stack.length
    · have hci : l.stack[frame.level]? = some l.stack[frame.level] :=
        List.getElem?_eq_getElem hlevel
      let ar : LuaDebug := { p.ar with i_ci := frame.level }
      have hci' : l.stack[ar.i_ci]? = some l.stack[frame.level] := hci
      obtain ⟨s', hloop, hleaves⟩ := addLocals_onStack (p.variableRefId + 1) hci' hk
        l.stack[frame.level].locals 0 (l.stack[frame.level].locals.length + 1)
        (newVariable (.ofFrame frame.id) { p with ar := ar }).2 s rfl (Nat.lt_succ_self _) hstay
      refine ⟨s', ?_, hleaves⟩
      simp only [OnStack.getFrameScopes, getFrameScopes, hempty, if_true,
        luaGetStack_of_lt hlevel, hci, Option.map_some, Option.getD_some]
      exact congrArg (Option.bind · _) hloop
    · refine ⟨s, ?_, hstay⟩
      simp [OnStack.getFrameScopes, getFrameScopes, hempty, luaGetStack_of_le (Nat.not_lt.1 hlevel)]
  · exact ⟨s, by simp [OnStack.getFrameScopes, getFrameScopes, hempty], hstay⟩

/-- The lookups that the request leads to find raw keys. -/
def LookupsHit (heap : LuaHeap N) (l : LuaState (LuaValue N)) (p : LuaStackTraceProvider) :
    Request → Prop
  | .children arg => ∀ v ∈ p.variableEntries, v.referenceId = arg.variablesReference →
    ∀ c ∈ p.variableEntries, c.referenceId ∈ selected v arg.filter → c.variableInfo = none →
      Hits heap l p c
  | _ => True

variable {request : Request} {answer : Answer}

/-- **Requests on the stack.** The answer is that of the request without the stack, and the stack
is restored. -/
theorem Shaped.respond_onStack (h : Shaped heap l p) (slots : Nat) (hk : 3 ≤ k)
    (hhits : LookupsHit heap l p request ∨ 2 + slots ≤ k)
    (hrespond : LuaStackTraceProvider.respond heap l request p = some (answer, p'))
    (s : ValueStack N) : ∃ s',
      OnStack.respond heap l slots request p s = some (answer, p', s') ∧ Leaves s s' [] k := by
  cases request with
  | stackTrace =>
    obtain ⟨⟨frames, q⟩, hget, hsame⟩ := Option.map_eq_some_iff.1 hrespond
    obtain ⟨rfl, rfl⟩ := Prod.mk.inj hsame
    exact ⟨s, by simp [OnStack.respond, hget], (Leaves.refl s).mono (Nat.zero_le k)⟩
  | scopes frameId =>
    obtain ⟨⟨scopes, q⟩, hget, hsame⟩ := Option.map_eq_some_iff.1 hrespond
    obtain ⟨rfl, rfl⟩ := Prod.mk.inj hsame
    obtain ⟨frame, hframe, hscopes⟩ := Option.map_eq_some_iff.1 hget
    obtain ⟨s', hget', hleaves⟩ :=
      getFrameScopes_onStack (l := l) (Nat.le_trans (by decide) hk) frame p s
    rw [hscopes] at hget'
    exact ⟨s', by simp [OnStack.respond, OnStack.getScopes, hframe, hget'], hleaves⟩
  | children arg =>
    obtain ⟨⟨infos, q⟩, hget, hsame⟩ := Option.map_eq_some_iff.1 hrespond
    obtain ⟨rfl, rfl⟩ := Prod.mk.inj hsame
    rw [getVariables_eq] at hget
    obtain ⟨v, hentry, htransform⟩ := Option.bind_eq_some_iff.1 hget
    have hv := List.mem_of_find?_eq_some hentry
    have hid : v.referenceId = arg.variablesReference := by simpa using List.find?_some hentry
    obtain ⟨s', hget', hleaves⟩ := h.transform_onStack hk (selected v arg.filter)
      (h.selected_mem hv)
      (fun c hc hcid hinfo => hhits.imp_left fun hh => hh v hv hid c hc hcid hinfo) htransform s
    exact ⟨s', by simp [OnStack.respond, OnStack.getVariables_eq, hentry, hget'], hleaves⟩

/-- With faithful keys all lookups do. -/
theorem Shaped.lookupsHit (h : Shaped heap l p) (hfaithful : AllFaithful heap l)
    (request : Request) : LookupsHit heap l p request := by
  cases request with
  | children arg =>
    intro v hv _ c hc hcid _
    obtain ⟨c', hc', hcid', hscope⟩ := h.selected_mem hv _ hcid
    obtain rfl := h.tree.uniqueIds.eq_of_referenceId hc' hc hcid'
    obtain ⟨a, ha⟩ := h.tree.values c' hc' hscope
    exact (ha.hits hfaithful).2
  | _ => trivial

/-! ## Dialogues -/

/-- The requests of a stop, each on the stack that the one before has left. -/
def stackSystem (heap : LuaHeap N) (l : LuaState (LuaValue N)) (slots : Nat) :
    System (LuaStackTraceProvider × List (LuaValue N)) Request where
  init x := ∃ ar, x.1 = { ar := ar }
  step request x := (OnStack.respond heap l slots request x.1 (.idle x.2)).map fun r =>
    (r.2.1, r.2.2.values)

def stackDialogue (heap : LuaHeap N) (l : LuaState (LuaValue N)) (slots : Nat) :
    System ((LuaStackTraceProvider × List (LuaValue N)) × List (Request × Answer)) Request :=
  (stackSystem heap l slots).recorded [] fun x request _ log =>
    log ++ ((OnStack.respond heap l slots request x.1 (.idle x.2)).map fun r =>
      (request, r.1)).toList

variable {values : List (LuaValue N)} {log : List (Request × Answer)}

/-- The stack trace does not use the stack. -/
theorem OnStack.respond_stackTrace {s' : ValueStack N}
    (h : OnStack.respond heap l slots .stackTrace p s = some (answer, p', s')) :
    p.stackFrames ≠ [] ∨ p.ar.what ≠ none := by
  obtain ⟨⟨frames, q⟩, hget, -⟩ := Option.map_eq_some_iff.1 h
  exact what_of_getStackTrace hget

theorem kept_of_stackDialogue (h : (stackDialogue heap l slots).Reaches
    (fun x request => Returned x.2 request) ((p, values), log)) : Kept heap l p log := by
  refine h.invariant (I := fun x : (LuaStackTraceProvider × List (LuaValue N)) ×
    List (Request × Answer) => Kept heap l x.1.1 x.2) ?_ ?_
  · rintro ⟨⟨p, values⟩, log⟩ ⟨hinit, hlog⟩
    obtain ⟨ar, hp⟩ := hinit
    obtain rfl : p = { ar := ar } := hp
    obtain rfl : log = [] := hlog
    exact ⟨.new ar, fun _ hentry => absurd hentry List.not_mem_nil⟩
  · rintro ⟨⟨p, values⟩, log⟩ request ⟨⟨p', values'⟩, log'⟩ hkept hreturned hstep
    obtain ⟨hrun, rfl⟩ := System.recorded_step_iff.1 hstep
    obtain ⟨⟨answer, q, s'⟩, hrespond, hsame⟩ := Option.map_eq_some_iff.1 hrun
    obtain ⟨rfl, rfl⟩ := Prod.mk.inj hsame
    obtain ⟨answer', p', hrespond', -⟩ := hkept.shaped.respond (hkept.answerable hreturned
      fun hrequest => by subst hrequest; exact OnStack.respond_stackTrace hrespond)
    obtain ⟨s₁, hstack, -⟩ := hkept.shaped.respond_onStack slots
      (Nat.le_add_right 3 slots) (.inr (by omega)) hrespond' (.idle values)
    obtain ⟨rfl, hsame⟩ := Prod.mk.inj (Option.some.inj (hrespond.symm.trans hstack))
    obtain ⟨rfl, -⟩ := Prod.mk.inj hsame
    refine hkept.step hreturned (dialogue_step.2 ⟨answer, hrespond', ?_⟩)
    simp [hrespond]

/-- **The stack.** At any time of a dialogue with returned ids: a request leaves the stack as it was
and, when its lookups find raw keys, rises by at most three; `PushChildValue` pushes one value for
every variable, and rises by at most two; and when it pushes none it has left the stack alone. -/
theorem stack_restored (h : (stackDialogue heap l slots).Reaches
    (fun x request => Returned x.2 request) ((p, values), log)) :
    (∀ request, Returned log request →
      (request = .stackTrace → p.stackFrames ≠ [] ∨ p.ar.what ≠ none) →
      ∃ answer p' s',
        OnStack.respond heap l slots request p (.idle values) = some (answer, p', s') ∧
        s'.values = values ∧
        (LookupsHit heap l p request → s'.peak ≤ values.length + 3)) ∧
    (∀ v ∈ p.variableEntries, ∀ parent ∈ p.variableEntries,
      v.parentVariableId = some parent.referenceId → ∀ n ar s, v.referenceId ≤ n →
      ∃ value ar' s', OnStack.pushChildValue heap l slots p n parent v ar s =
          some (true, ar', s') ∧
        s'.values = value :: s.values ∧
        (Hits heap l p v → s'.peak ≤ max s.peak (s.height + 2))) ∧
    ∀ (q : LuaStackTraceProvider) n self child ar s ar' s',
      OnStack.pushChildValue heap l slots q n self child ar s = some (false, ar', s') → s' = s := by
  have hkept := kept_of_stackDialogue h
  refine ⟨fun request hreturned hwhat => ?_, fun v hv parent hmem hparent n ar s hn => ?_,
    fun q n self child ar s ar' s' hpush => OnStack.pushChildValue_false hpush⟩
  · obtain ⟨answer, p', hrespond, -⟩ :=
      hkept.shaped.respond (hkept.answerable hreturned hwhat)
    obtain ⟨s', hstack, hleaves⟩ := hkept.shaped.respond_onStack slots
      (Nat.le_add_right 3 slots) (.inr (by omega)) hrespond (.idle values)
    refine ⟨answer, p', s', hstack, hleaves.values, fun hhits => ?_⟩
    obtain ⟨s₁, hstack₁, hleaves₁⟩ :=
      hkept.shaped.respond_onStack slots (Nat.le_refl 3) (.inl hhits) hrespond (.idle values)
    obtain ⟨-, hsame⟩ := Prod.mk.inj (Option.some.inj (hstack.symm.trans hstack₁))
    obtain ⟨-, rfl⟩ := Prod.mk.inj hsame
    simpa [PeakStack.idle, PeakStack.height] using hleaves₁.peak
  · have htree := hkept.shaped.tree
    obtain ⟨a, ha⟩ := htree.values v hv (htree.parents v hv _ hparent).2
    obtain ⟨ar', -, hstack⟩ := ha.onStack slots htree.uniqueIds
      (Nat.le_add_right 2 slots) (.inr (Nat.le_refl _)) n parent ar hparent hmem hn
    obtain ⟨s', hpush, hleaves⟩ := hstack s
    refine ⟨a, ar', s', hpush, hleaves.values, fun hhits => ?_⟩
    obtain ⟨ar₁, -, hstack₁⟩ := ha.onStack slots htree.uniqueIds (Nat.le_refl 2)
      (.inl hhits) n parent ar hparent hmem hn
    obtain ⟨s₁, hpush₁, hleaves₁⟩ := hstack₁ s
    obtain ⟨-, hsame⟩ := Prod.mk.inj (Option.some.inj (hpush.symm.trans hpush₁))
    obtain ⟨-, rfl⟩ := Prod.mk.inj hsame
    exact hleaves₁.peak

/-! ## The table that contains itself -/

theorem allFaithful_loop : AllFaithful (fun _ => loopTable) mixedState := by
  intro t _ key value hkey
  simp only [loopTable, List.mem_cons, List.not_mem_nil, or_false, Prod.mk.injEq] at hkey
  rcases hkey with ⟨rfl, -⟩ | ⟨rfl, -⟩
  · exact ⟨1, rfl⟩
  · show (0 : UInt8) ∉ ascii "self"
    decide

/-- The client has opened the table, on a stack with one value. -/
def loopOnStack : Option ((LuaStackTraceProvider × List (LuaValue Int64)) ×
    List (Request × Answer)) :=
  (stackDialogue (fun _ => loopTable) mixedState 20).exec
    [.stackTrace, .scopes 1, .children { variablesReference := 1 }]
    (({ ar := ⟨.line, none, some "Lua", none, 0, 0⟩ }, [.nil]), [])

theorem stack_restored_loop : ∃ p log, loopOnStack = some ((p, [.nil]), log) ∧ ∃ answer p' s',
    OnStack.respond (fun _ => loopTable) mixedState 20 (.children { variablesReference := 2 }) p
      (.idle [.nil]) = some (answer, p', s') ∧ s'.values = [.nil] ∧ s'.peak ≤ 4 := by
  have hnew : (stackDialogue (fun _ => loopTable) mixedState 20).Reaches
      (fun x request => Returned x.2 request)
      (({ ar := ⟨.line, none, some "Lua", none, 0, 0⟩ }, [.nil]), []) := .init ⟨⟨_, rfl⟩, rfl⟩
  have hframes := hnew.step (a := .stackTrace) (by decide) rfl
  have hscopes := hframes.step (a := .scopes 1) (by decide) rfl
  have hlocals := hscopes.step (a := .children { variablesReference := 1 }) (by decide) rfl
  obtain ⟨answer, p', s', hrespond, hvalues, hpeak⟩ :=
    (stack_restored hlocals).1 (.children { variablesReference := 2 }) (by decide) nofun
  exact ⟨_, _, rfl, answer, p', s', hrespond, hvalues,
    hpeak ((kept_of_stackDialogue hlocals).shaped.lookupsHit allFaithful_loop _)⟩

-- A table, one of its keys and the value of the key: the loop over a table takes all three.
example : (((stackSystem (fun _ => loopTable) mixedState 20).exec [.stackTrace, .scopes 1]
    ({ ar := ⟨.line, none, some "Lua", none, 0, 0⟩ }, [.nil])).bind fun x =>
      (OnStack.respond (fun _ => loopTable) mixedState 20 (.children { variablesReference := 1 })
        x.1 (.idle x.2)).map fun r => r.2.2.peak) = some 4 := by decide

end LuaStackTraceProvider

end LuaToolkit
