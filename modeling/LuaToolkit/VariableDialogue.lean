import LuaToolkit.Lib.Recorded
import LuaToolkit.VariableRequests

/-!
# What a client sees of the variables

A client that uses the ids it got can ask in any order and as often as it likes. Its requests are
answered, the variables form a tree that opens by one level at a time however the tables refer to
each other, and the counts that it is shown are those of the children that it will get.

* `dialogue` — the requests of a stop with all answers so far, and `Returned`, the requests that
  use ids from these answers.
* `Kept` — the variables have their shape, and all answers are kept.
* `Displays.unique` — what is shown of a variable does not depend on when it is asked for.
* `dialogue_linked` — what holds after any such requests.
-/

namespace LuaToolkit.LuaStackTraceProvider

open Dap Transition

variable {N : Type} [DecidableEq N] [LuaNumber N] {heap : LuaHeap N}
  {l : LuaState (LuaValue N)} {p p' q : LuaStackTraceProvider} {v c : VariableEntry}
  {log : List (Request × Answer)} {request : Request}

/-! ## Requests with returned ids -/

/-- The frames that an answer names. -/
def Answer.frameIds : Answer → List Nat
  | .frames infos => infos.map StackFrame.id
  | _ => []

/-- The variables whose children an answer offers; 0 stands for none. -/
def Answer.references : Answer → List Nat
  | .scopes infos => infos.map Scope.variablesReference
  | .children infos => infos.map Variable.variablesReference
  | _ => []

/-- The request uses ids that were returned before. -/
def Returned (log : List (Request × Answer)) : Request → Prop
  | .stackTrace => True
  | .scopes frameId => ∃ entry ∈ log, frameId ∈ entry.2.frameIds
  | .children arg =>
    arg.variablesReference ≠ 0 ∧ ∃ entry ∈ log, arg.variablesReference ∈ entry.2.references

instance : ∀ request, Decidable (Returned log request)
  | .stackTrace => .isTrue trivial
  | .scopes frameId => inferInstanceAs (Decidable (∃ entry ∈ log, frameId ∈ entry.2.frameIds))
  | .children arg => inferInstanceAs (Decidable
    (arg.variablesReference ≠ 0 ∧ ∃ entry ∈ log, arg.variablesReference ∈ entry.2.references))

/-- The requests of a stop, with all answers. -/
def dialogue (heap : LuaHeap N) (l : LuaState (LuaValue N)) :
    System (LuaStackTraceProvider × List (Request × Answer)) Request :=
  (system heap l).recorded [] fun p request _ log =>
    log ++ ((respond heap l request p).map fun r => (request, r.1)).toList

theorem dialogue_step {log' : List (Request × Answer)} :
    (dialogue heap l).step request (p, log) = some (p', log') ↔ ∃ answer,
      respond heap l request p = some (answer, p') ∧ log' = log ++ [(request, answer)] := by
  unfold dialogue
  rw [System.recorded_step_iff, system_step]
  constructor
  · intro h
    obtain ⟨hstep, rfl⟩ := h
    obtain ⟨⟨answer, q⟩, hrespond, rfl⟩ := Option.map_eq_some_iff.1 hstep
    exact ⟨answer, hrespond, by simp [hrespond]⟩
  · intro h
    obtain ⟨answer, hrespond, rfl⟩ := h
    exact ⟨by simp [hrespond], by simp [hrespond]⟩

/-! ## Kept answers -/

/-- The variables have their shape, and the answers so far are kept. -/
structure Kept (heap : LuaHeap N) (l : LuaState (LuaValue N)) (p : LuaStackTraceProvider)
    (log : List (Request × Answer)) : Prop where
  shaped : Shaped heap l p
  cached : ∀ entry ∈ log, Cached p entry.1 entry.2

omit [DecidableEq N] in
/-- The client is shown the numbers of children, and a reference when there are any. -/
theorem shown_counts (v : VariableEntry) (a : LuaValue N) :
    (shown v a).variablesReference = (if children v = [] then 0 else v.referenceId) ∧
      (shown v a).indexedVariables.getD 0 = v.indexedChildren.length ∧
      (shown v a).namedVariables.getD 0 = v.namedChildren.length := by
  unfold shown countChildren children
  cases v.indexedChildren <;> cases v.namedChildren <;> simp

theorem Shaped.reference (h : Shaped heap l p) {id : Nat} {info : Variable}
    (hshows : Shows p id info) (hne : info.variablesReference ≠ 0) :
    ∃ c ∈ p.variableEntries, c.referenceId = info.variablesReference ∧ Settled c := by
  obtain ⟨c, hc, -, hinfo⟩ := hshows
  obtain ⟨-, a, -, -, rfl⟩ := h.evaluated c hc info hinfo
  refine ⟨c, hc, ?_, .inr (hinfo ▸ Option.some_ne_none _)⟩
  rw [(shown_counts c a).1] at hne ⊢
  split_ifs at hne ⊢
  · exact absurd rfl hne
  · rfl

/-- Returned ids are in the tables. -/
theorem Kept.answerable (h : Kept heap l p log) (hreturned : Returned log request)
    (hwhat : request = .stackTrace → p.stackFrames ≠ [] ∨ p.ar.what ≠ none) :
    Answerable p request := by
  cases request with
  | stackTrace => exact hwhat rfl
  | scopes frameId =>
    obtain ⟨⟨asked, answer⟩, hentry, hid⟩ := hreturned
    have hcached := h.cached _ hentry
    cases answer with
    | frames frames =>
      cases asked with
      | stackTrace =>
        obtain ⟨-, rfl⟩ := hcached
        obtain ⟨info, hinfo, rfl⟩ := List.mem_map.1 hid
        obtain ⟨f, hf, rfl⟩ := List.mem_map.1 hinfo
        exact ⟨f, hf, (h.shaped.frameInfo_id hf).2.2.symm⟩
      | _ => exact hcached.elim
    | _ => cases hid
  | children arg =>
    obtain ⟨hne, ⟨asked, answer⟩, hentry, hid⟩ := hreturned
    have hcached := h.cached _ hentry
    cases answer with
    | frames frames => cases hid
    | scopes scopes =>
      cases asked with
      | scopes frameId =>
        obtain ⟨f, hf, -, rfl, hscopes⟩ := hcached
        obtain ⟨v, hv, hscope, hlocals⟩ := h.shaped.frameScopes f hf hscopes
        refine ⟨v, hv, ?_, .inl (hscope ▸ Option.some_ne_none _)⟩
        have hid' : arg.variablesReference = v.referenceId := by
          simpa [Answer.references, hlocals, localsScopes] using hid
        exact hid'.symm
      | _ => exact hcached.elim
    | children infos =>
      cases asked with
      | children asked =>
        obtain ⟨v, -, -, -, hshows⟩ := hcached
        obtain ⟨info, hinfo, href⟩ := List.mem_map.1 hid
        obtain ⟨id, -, hid⟩ := forall₂_mem_right hshows hinfo
        obtain ⟨c, hc, hcid, hsettled⟩ := h.shaped.reference hid (href ▸ hne)
        exact ⟨c, hc, hcid.trans href, hsettled⟩
      | _ => exact hcached.elim

theorem Kept.step {log' : List (Request × Answer)} (h : Kept heap l p log)
    (hreturned : Returned log request)
    (hstep : (dialogue heap l).step request (p, log) = some (p', log')) :
    Kept heap l p' log' := by
  obtain ⟨answer, hrespond, rfl⟩ := dialogue_step.1 hstep
  have hanswerable : Answerable p request := by
    refine h.answerable hreturned fun hrequest => ?_
    subst hrequest
    obtain ⟨⟨frames, q⟩, hget, -⟩ := Option.map_eq_some_iff.1 hrespond
    exact what_of_getStackTrace hget
  obtain ⟨answer', q, hrespond', hshaped, hsettles, hcached, -⟩ := h.shaped.respond hanswerable
  obtain ⟨rfl, rfl⟩ := Prod.mk.inj (Option.some.inj (hrespond.symm.trans hrespond'))
  refine ⟨hshaped, fun entry hentry => ?_⟩
  rcases List.mem_append.1 hentry with hentry | hentry
  · exact hsettles.cached (h.cached entry hentry)
  · rw [List.mem_singleton.1 hentry]
    exact hcached

theorem kept_of_reaches
    (h : (dialogue heap l).Reaches (fun x request => Returned x.2 request) (p, log)) :
    Kept heap l p log := by
  refine h.invariant
    (I := fun x : LuaStackTraceProvider × List (Request × Answer) => Kept heap l x.1 x.2) ?_
    fun x request x' hx hreturned hstep => hx.step hreturned hstep
  rintro ⟨p, log⟩ ⟨hinit, hlog⟩
  obtain ⟨ar, rfl⟩ := hinit
  obtain rfl : log = [] := hlog
  exact ⟨.new ar, fun _ hentry => absurd hentry List.not_mem_nil⟩

/-! ## What is shown of a variable -/

/-- What a provider shows of the variable, now or later. -/
def Displays (heap : LuaHeap N) (l : LuaState (LuaValue N)) (p : LuaStackTraceProvider) (id : Nat)
    (info : Variable) : Prop :=
  ∃ q, Shaped heap l q ∧ Extends p q ∧ Shows q id info

/-- What there is to show of a variable with this value. -/
def display (heap : LuaHeap N) (id : Nat) (name : Bytes) (a : LuaValue N) : Variable :=
  let indexed := ((tableKids heap a).filter (·.isIndexed)).length
  let named := ((tableKids heap a).filter (!·.isIndexed)).length
  { name := name
    value := valueText a
    type := match a with
      | .nil => some "nil"
      | .boolean _ => some "boolean"
      | .number _ => some "number"
      | .string _ => some "string"
      | .table _ => some (if named = 0 ∧ indexed ≠ 0 then "array" else "object")
      | _ => none
    presentationHint := some "property"
    variablesReference := if named = 0 ∧ indexed = 0 then 0 else id
    namedVariables := if named = 0 then none else some named
    indexedVariables := if indexed = 0 then none else some indexed }

omit [DecidableEq N] in
theorem Lists.shown_eq {a : LuaValue N} (h : Lists p v (tableKids heap a)) :
    shown v a = display heap v.referenceId v.name a := by
  have hindexed := h.indexed.length_eq
  have hnamed := h.named.length_eq
  have hempty : v.namedChildren.isEmpty = decide (v.namedChildren.length = 0) ∧
      v.indexedChildren.isEmpty = decide (v.indexedChildren.length = 0) := by
    constructor <;> rw [Bool.eq_iff_iff] <;> simp
  have htype : valueType v a = (display heap v.referenceId v.name a).type := by
    cases a <;> simp [valueType, display, hempty, ← hindexed, ← hnamed]
  unfold shown countChildren
  rw [htype]
  unfold display
  simp only [hempty, hindexed, hnamed]
  split_ifs <;> simp_all

/-- There is one thing to show of a variable: its name, its value, and the numbers of children that
the value has. -/
theorem Displays.unique (h : Shaped heap l p) (hc : c ∈ p.variableEntries) {info info' : Variable}
    (hshows : Displays heap l p c.referenceId info)
    (hshows' : Displays heap l p c.referenceId info') : info = info' := by
  obtain ⟨q, hq, hext, d, hd, hdid, hdinfo⟩ := hshows
  obtain ⟨q', hq', hext', d', hd', hdid', hdinfo'⟩ := hshows'
  obtain ⟨u, hu, hgrown⟩ := hext.entries c hc
  obtain ⟨u', hu', hgrown'⟩ := hext'.entries c hc
  obtain rfl := hq.tree.uniqueIds.eq_of_referenceId hu hd (hgrown.referenceId.trans hdid.symm)
  obtain rfl := hq'.tree.uniqueIds.eq_of_referenceId hu' hd' (hgrown'.referenceId.trans hdid'.symm)
  obtain ⟨hscope, b, hb, hlists, rfl⟩ := hq.evaluated u hd info hdinfo
  obtain ⟨-, b', hb', hlists', rfl⟩ := hq'.evaluated u' hd' info' hdinfo'
  obtain ⟨a, ha⟩ := h.tree.values c hc (hgrown.parentFrame.symm.trans hscope)
  obtain rfl := (ha.mono hext hgrown).unique hq.tree.uniqueIds hb
  obtain rfl := (ha.mono hext' hgrown').unique hq'.tree.uniqueIds hb'
  rw [hlists.shown_eq, hlists'.shown_eq, hgrown.referenceId, hgrown.name, hgrown'.referenceId,
    hgrown'.name]

theorem Displays.unique_list (h : Shaped heap l p) {ids : List Nat}
    (hids : ∀ id ∈ ids, ∃ c ∈ p.variableEntries, c.referenceId = id) {infos : List Variable}
    (hshows : List.Forall₂ (Displays heap l p) ids infos) : ∀ {infos' : List Variable},
    List.Forall₂ (Displays heap l p) ids infos' → infos = infos' := by
  induction hshows with
  | nil =>
    intro infos' hshows'
    cases hshows'
    rfl
  | cons hinfo _ ih =>
    intro infos' hshows'
    cases hshows' with
    | cons hinfo' hrest =>
      obtain ⟨c, hc, rfl⟩ := hids _ List.mem_cons_self
      rw [hinfo.unique h hc hinfo', ih (fun id hid => hids id (List.mem_cons_of_mem _ hid)) hrest]

/-- The answer to a request for children shows the selected ones. -/
theorem Shaped.displays (h : Shaped heap l p) (hv : v ∈ p.variableEntries)
    {arg : VariablesArguments} (harg : arg.variablesReference = v.referenceId) : ∃ infos p',
      p.getVariables heap l arg = some (infos, p') ∧
      List.Forall₂ (Displays heap l p) (selected v arg.filter) infos := by
  obtain ⟨infos, p', hget, hp', hopens, hshows⟩ := h.getVariables hv harg
  exact ⟨infos, p', hget, hshows.imp fun _ _ hs => ⟨p', hp', hopens.ext, hs⟩⟩

theorem filtered_forall₂ {α β : Type*} {R : α → β → Prop} {indexed named : List α}
    {indexed' named' : List β} (hindexed : List.Forall₂ R indexed indexed')
    (hnamed : List.Forall₂ R named named') (filter : String) :
    List.Forall₂ R (filtered filter indexed named) (filtered filter indexed' named') := by
  unfold filtered
  refine List.rel_append ?_ ?_
  · split_ifs
    · exact hindexed
    · exact .nil
  · split_ifs
    · exact hnamed
    · exact .nil

/-- **Children.** A variable has one list of indexed and one of named children, and every request
gets what its filter selects. -/
theorem Shaped.children_answer (h : Shaped heap l p) (hv : v ∈ p.variableEntries) :
    ∃ indexed named : List Variable,
      indexed.length = v.indexedChildren.length ∧ named.length = v.namedChildren.length ∧
      ∀ arg : VariablesArguments, arg.variablesReference = v.referenceId →
        ∃ p', p.getVariables heap l arg = some (filtered arg.filter indexed named, p') := by
  obtain ⟨indexed, -, -, hindexed⟩ := h.displays hv
    (show (⟨v.referenceId, "indexed", none, none⟩ : VariablesArguments).variablesReference = _
      from rfl)
  obtain ⟨named, -, -, hnamed⟩ := h.displays hv
    (show (⟨v.referenceId, "named", none, none⟩ : VariablesArguments).variablesReference = _
      from rfl)
  simp only [selected, filtered] at hindexed hnamed
  have hindexed' : List.Forall₂ (Displays heap l p) v.indexedChildren indexed := by
    simpa using hindexed
  have hnamed' : List.Forall₂ (Displays heap l p) v.namedChildren named := by simpa using hnamed
  refine ⟨indexed, named, hindexed'.length_eq.symm, hnamed'.length_eq.symm, fun arg harg => ?_⟩
  obtain ⟨infos, p', hget, hshows⟩ := h.displays hv harg
  refine ⟨p', hget.trans ?_⟩
  rw [Displays.unique_list h ?_ hshows (filtered_forall₂ hindexed' hnamed' arg.filter)]
  intro id hid
  obtain ⟨c, hc, hcid, -⟩ := h.selected_mem hv id hid
  exact ⟨c, hc, hcid⟩

/-! ## Linked variables -/

/-- Variables have different ids that count them, the ids that they hold are those of variables and
frames, and parents come before their children. -/
structure Linked (p : LuaStackTraceProvider) : Prop where
  ids : (p.variableEntries.map VariableEntry.referenceId).Nodup
  counted : ∀ v ∈ p.variableEntries,
    v.referenceId ≠ 0 ∧ v.referenceId ≤ p.variableEntries.length
  listed : ∀ v ∈ p.variableEntries, (children v).Nodup ∧ ∀ id ∈ children v,
    ∃ c ∈ p.variableEntries, c.referenceId = id ∧ c.parentVariableId = some v.referenceId
  parents : ∀ v ∈ p.variableEntries, ∀ id ∈ v.parentVariableId, id < v.referenceId ∧
    ∃ parent ∈ p.variableEntries, parent.referenceId = id ∧ v.referenceId ∈ children parent
  rooted : ∀ v ∈ p.variableEntries, v.parentFrame = none → v.parentVariableId ≠ none
  frames : ∀ v ∈ p.variableEntries, ∀ frameId ∈ v.parentFrame, ∃ f ∈ p.stackFrames, f.id = frameId

theorem Shaped.linked (h : Shaped heap l p) : Linked p where
  ids := h.tree.uniqueIds.entries
  counted v hv := by
    have hbounds := CountedIds.bounds h.tree.ids hv
    rw [h.tree.length_eq]
    exact ⟨Nat.ne_of_gt hbounds.1, hbounds.2⟩
  listed v hv := by
    obtain ⟨kids, hlists⟩ := h.lists hv
    refine ⟨hlists.nodup, fun id hid => ?_⟩
    obtain ⟨c, hc, hcid, hparent, -⟩ := hlists.child hid
    exact ⟨c, hc, hcid, hparent⟩
  parents v hv id hid := by
    obtain ⟨hlt, hscope⟩ := h.tree.parents v hv id hid
    obtain ⟨a, ha⟩ := h.tree.values v hv hscope
    obtain ⟨parent, hparent, hpid, -⟩ := ha.exists_parent
    obtain rfl : id = parent.referenceId := Option.some.inj (hid.symm.trans hpid)
    exact ⟨hlt, parent, hparent, rfl, h.tree.linked parent hparent v hv hpid⟩
  rooted v hv hscope := by
    obtain ⟨a, ha⟩ := h.tree.values v hv hscope
    obtain ⟨parent, -, hpid, -⟩ := ha.exists_parent
    rw [hpid]
    exact Option.some_ne_none _
  frames v hv frameId hframe := by
    obtain ⟨f, hf, hid, -⟩ := h.scope v hv frameId hframe
    exact ⟨f, hf, hid⟩

/-- The numbers that are shown of a variable are those of the children that requests get, indexed
ones first. It has a reference when there are any. -/
def Counts (heap : LuaHeap N) (l : LuaState (LuaValue N)) (p : LuaStackTraceProvider)
    (info : Variable) : Prop :=
  ∃ v ∈ p.variableEntries, v.variableInfo = some info ∧ ∃ indexed named : List Variable,
    indexed.length = info.indexedVariables.getD 0 ∧ named.length = info.namedVariables.getD 0 ∧
    (info.variablesReference ≠ 0 ↔ indexed ++ named ≠ []) ∧
    (info.variablesReference ≠ 0 → info.variablesReference = v.referenceId) ∧
    ∀ arg : VariablesArguments, arg.variablesReference = v.referenceId →
      ∃ p', respond heap l (.children arg) p =
        some (.children (filtered arg.filter indexed named), p')

theorem Shaped.counts (h : Shaped heap l p) (hv : v ∈ p.variableEntries) {info : Variable}
    (hinfo : v.variableInfo = some info) : Counts heap l p info := by
  obtain ⟨-, a, -, -, rfl⟩ := h.evaluated v hv info hinfo
  obtain ⟨hreference, hindexedCount, hnamedCount⟩ := shown_counts v a
  obtain ⟨indexed, named, hindexed, hnamed, hanswer⟩ := h.children_answer hv
  have hempty : children v = [] ↔ indexed ++ named = [] := by
    rw [← List.length_eq_zero_iff, ← List.length_eq_zero_iff (l := indexed ++ named), children,
      List.length_append, List.length_append, hindexed, hnamed]
  have hpos := (h.linked.counted v hv).1
  refine ⟨v, hv, hinfo, indexed, named, hindexed.trans hindexedCount.symm,
    hnamed.trans hnamedCount.symm, ?_, ?_, fun arg harg => ?_⟩
  · rw [hreference, ne_eq, ne_eq, ← hempty]
    split_ifs with hnil
    · simp [hnil]
    · simp [hnil, hpos]
  · intro hne
    rw [hreference] at hne ⊢
    exact if_neg fun hnil => hne (if_pos hnil)
  · obtain ⟨p', hget⟩ := hanswer arg harg
    exact ⟨p', congrArg (Option.map _) hget⟩

/-- **Linked variables.** After any requests with returned ids: the variables are linked; every
such request is answered, and opens one level; what was shown counts the children that are there;
and all earlier requests are answered as before, with no change. -/
theorem dialogue_linked
    (h : (dialogue heap l).Reaches (fun x request => Returned x.2 request) (p, log)) :
    Linked p ∧
      (∀ request, Returned log request →
        (request = .stackTrace → p.stackFrames ≠ [] ∨ p.ar.what ≠ none) →
        ∃ answer p', respond heap l request p = some (answer, p') ∧ OpensOneLevel p p' request) ∧
      (∀ arg infos, (.children arg, .children infos) ∈ log → ∀ info ∈ infos,
        Counts heap l p info) ∧
      ∀ entry ∈ log, respond heap l entry.1 p = some (entry.2, p) := by
  have hkept := kept_of_reaches h
  refine ⟨hkept.shaped.linked, fun request hreturned hwhat => ?_,
    fun arg infos hentry info hinfo => ?_,
    fun entry hentry => (hkept.cached entry hentry).respond hkept.shaped.tree.uniqueIds⟩
  · obtain ⟨answer, p', hrespond, -, -, -, hopens⟩ :=
      hkept.shaped.respond (hkept.answerable hreturned hwhat)
    exact ⟨answer, p', hrespond, hopens⟩
  · obtain ⟨v, -, -, -, hshows⟩ := hkept.cached _ hentry
    obtain ⟨id, -, c, hc, -, hcinfo⟩ := forall₂_mem_right hshows hinfo
    exact hkept.shaped.counts hc hcinfo

/-! ## A table that contains itself -/

/-- The table `t = {[1] = true}` with `t.self = t`. -/
def loopTable : LuaTable Int64 where
  entries := [(.number 1, .boolean true), (.string (ascii "self"), .table 0)]

/-- The client opens the table, and the table in it. -/
def loopDialogue : Option (LuaStackTraceProvider × List (Request × Answer)) :=
  (dialogue (fun _ => loopTable) mixedState).exec
    [.stackTrace, .scopes 1, .children { variablesReference := 1 },
      .children { variablesReference := 2 }, .children { variablesReference := 4 }]
    ({ ar := ⟨.line, none, some "Lua", none, 0, 0⟩ }, [])

-- The table in the table has the same children as the table, and they have other ids.
example : (loopDialogue.map fun x => x.1.variableEntries.map fun v =>
    (v.referenceId, v.indexedChildren, v.namedChildren)) =
      some [(1, [], [2]), (2, [3], [4]), (3, [], []), (4, [5], [6]), (5, [], []),
        (6, [7], [8]), (7, [], []), (8, [], [])] := by decide

theorem dialogue_linked_loop : ∃ p log, loopDialogue = some (p, log) ∧ Linked p ∧
    ∀ entry ∈ log, respond (fun _ => loopTable) mixedState entry.1 p = some (entry.2, p) := by
  have hnew : (dialogue (fun _ => loopTable) mixedState).Reaches
      (fun x request => Returned x.2 request)
      ({ ar := ⟨.line, none, some "Lua", none, 0, 0⟩ }, []) := .init ⟨⟨_, rfl⟩, rfl⟩
  have hframes := hnew.step (a := .stackTrace) (by decide) rfl
  have hscopes := hframes.step (a := .scopes 1) (by decide) rfl
  have hlocals := hscopes.step (a := .children { variablesReference := 1 }) (by decide) rfl
  have houter := hlocals.step (a := .children { variablesReference := 2 }) (by decide) rfl
  have hinner := houter.step (a := .children { variablesReference := 4 }) (by decide) rfl
  have hlinked := dialogue_linked hinner
  exact ⟨_, _, rfl, hlinked.1, hlinked.2.2.2⟩

end LuaToolkit.LuaStackTraceProvider
