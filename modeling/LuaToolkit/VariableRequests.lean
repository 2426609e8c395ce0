import LuaToolkit.VariableShape

/-!
# The requests of a stop

A client asks for the stack trace, for the scopes of frames and for the children of variables, each
time with ids that it got before. Every answer is kept: the frames, the scopes of a frame, and what
is shown of a variable. So the tables only grow, by one level with each request, and a request that
is repeated changes nothing.

* `respond` — a request with its answer.
* `Cached` — the provider has kept this answer, and `Settles.cached`, it goes on to keep it.
* `OpensOneLevel` — the new variables are children of variables that were not evaluated before.
* `Shaped.respond` — what one request does.
* `shaped_of_reachable`, `Shaped.run` — any requests keep the shape, and what was found out.
-/

namespace LuaToolkit.LuaStackTraceProvider

open Dap Transition

variable {N : Type} [DecidableEq N] [LuaNumber N] {heap : LuaHeap N}
  {l : LuaState (LuaValue N)} {p p' q : LuaStackTraceProvider} {v u : VariableEntry}

inductive Answer where
  | frames (frames : List StackFrame)
  | scopes (scopes : List Scope)
  | children (infos : List Variable)
  deriving DecidableEq, Repr

def respond (heap : LuaHeap N) (l : LuaState (LuaValue N)) :
    Request → LuaStackTraceProvider → Option (Answer × LuaStackTraceProvider)
  | .stackTrace, p => (p.getStackTrace l).map fun (frames, p) => (.frames frames, p)
  | .scopes frameId, p => (p.getScopes l frameId).map fun (scopes, p) => (.scopes scopes, p)
  | .children arg, p => (p.getVariables heap l arg).map fun (infos, p) => (.children infos, p)

theorem system_step (request : Request) (p : LuaStackTraceProvider) :
    (system heap l).step request p = (respond heap l request p).map Prod.snd := by
  cases request <;> simp [system, respond, Option.map_map, Function.comp_def]

/-! ## Children -/

def filtered {α : Type*} (filter : String) (indexed named : List α) : List α :=
  (if filter = "" ∨ filter = "indexed" then indexed else []) ++
    (if filter = "" ∨ filter = "named" then named else [])

/-- The children that a request for them names. -/
def selected (v : VariableEntry) (filter : String) : List Nat :=
  filtered filter v.indexedChildren v.namedChildren

theorem filtered_subset {α : Type*} (filter : String) (indexed named : List α) :
    filtered filter indexed named ⊆ indexed ++ named := by
  unfold filtered
  refine List.append_subset.2 ⟨?_, ?_⟩
  · split_ifs
    · exact List.subset_append_left _ _
    · exact List.nil_subset _
  · split_ifs
    · exact List.subset_append_right _ _
    · exact List.nil_subset _

theorem selected_subset (v : VariableEntry) (filter : String) : selected v filter ⊆ children v :=
  filtered_subset filter _ _

theorem transform_append (ids ids' : List Nat) (p : LuaStackTraceProvider) :
    transform heap l (ids ++ ids') p = (transform heap l ids p).bind fun (infos, p) =>
      (transform heap l ids' p).bind fun (infos', p) => some (infos ++ infos', p) := by
  induction ids generalizing p with
  | nil =>
    simp only [List.nil_append, transform, Option.bind_some]
    cases transform heap l ids' p <;> rfl
  | cons id ids ih =>
    simp only [List.cons_append, transform, ih, Option.bind_eq_bind, Option.bind_assoc,
      Option.bind_some]

theorem getVariables_eq (arg : VariablesArguments) (p : LuaStackTraceProvider) :
    getVariables heap l arg p = (p.getVariableEntry arg.variablesReference).bind fun self =>
      transform heap l (selected self arg.filter) p := by
  simp only [selected, filtered, transform_append]
  rfl

theorem forall₂_mem_left {α β : Type*} {R : α → β → Prop} {as : List α} {bs : List β}
    (h : List.Forall₂ R as bs) {a : α} (ha : a ∈ as) : ∃ b ∈ bs, R a b := by
  induction h with
  | nil => cases ha
  | cons hab _ ih =>
    rcases List.mem_cons.1 ha with rfl | ha
    · exact ⟨_, List.mem_cons_self, hab⟩
    · obtain ⟨b, hb, hR⟩ := ih ha
      exact ⟨b, List.mem_cons_of_mem _ hb, hR⟩

theorem forall₂_mem_right {α β : Type*} {R : α → β → Prop} {as : List α} {bs : List β}
    (h : List.Forall₂ R as bs) {b : β} (hb : b ∈ bs) : ∃ a ∈ as, R a b :=
  forall₂_mem_left (List.Forall₂.flip (R := fun b a => R a b) h) hb

/-- The children of a variable are variables, and none of them is a scope. -/
theorem Lists.child {kids : List Kid} (h : Lists p v kids) {id : Nat} (hid : id ∈ children v) :
    ∃ c ∈ p.variableEntries, c.referenceId = id ∧ c.parentVariableId = some v.referenceId ∧
      c.parentFrame = none := by
  have hkid : ∃ kid, IsKid p v.referenceId id kid := by
    rcases List.mem_append.1 hid with hid | hid
    · obtain ⟨kid, -, hkid⟩ := forall₂_mem_left h.indexed hid
      exact ⟨kid, hkid⟩
    · obtain ⟨kid, -, hkid⟩ := forall₂_mem_left h.named hid
      exact ⟨kid, hkid⟩
  obtain ⟨kid, c, hc, hcid, hparent, hscope, -⟩ := hkid
  exact ⟨c, hc, hcid, hparent, hscope⟩

theorem Shaped.lists (h : Shaped heap l p) (hv : v ∈ p.variableEntries) :
    ∃ kids, Lists p v kids := by
  by_cases hscope : v.parentFrame = none
  · cases hinfo : v.variableInfo with
    | none =>
      have hnone : v.indexedChildren = [] ∧ v.namedChildren = [] := by
        simpa [children] using (h.fresh v hv hscope hinfo).children
      refine ⟨[], ?_, ?_, ?_⟩
      · simp [hnone]
      · simp [hnone]
      · simp [children, hnone]
    | some info =>
      obtain ⟨-, a, -, hlists, -⟩ := h.evaluated v hv info hinfo
      exact ⟨_, hlists⟩
  · obtain ⟨frameId, hframe⟩ := Option.ne_none_iff_exists'.1 hscope
    obtain ⟨f, -, -, -, ci, -, hlists⟩ := h.scope v hv frameId hframe
    exact ⟨_, hlists⟩

theorem Shaped.selected_mem (h : Shaped heap l p) (hv : v ∈ p.variableEntries) {filter : String} :
    ∀ id ∈ selected v filter,
      ∃ c ∈ p.variableEntries, c.referenceId = id ∧ c.parentFrame = none := by
  intro id hid
  obtain ⟨kids, hlists⟩ := h.lists hv
  obtain ⟨c, hc, hcid, -, hscope⟩ := hlists.child (selected_subset v filter hid)
  exact ⟨c, hc, hcid, hscope⟩

/-! ## Kept answers -/

/-- What has been found out stays. -/
structure Settles (p p' : LuaStackTraceProvider) : Prop where
  entries : ∀ u ∈ p.variableEntries, Settled u → u ∈ p'.variableEntries
  frames : ∀ f ∈ p.stackFrames, f.scopes ≠ [] → f ∈ p'.stackFrames
  infos : p.stackFrames ≠ [] →
    p'.stackFrames.map StackFrameEntry.frameInfo = p.stackFrames.map StackFrameEntry.frameInfo

theorem Settles.refl (p : LuaStackTraceProvider) : Settles p p :=
  ⟨fun _ hu _ => hu, fun _ hf _ => hf, fun _ => rfl⟩

theorem Settles.trans (h : Settles p q) (h' : Settles q p') : Settles p p' where
  entries u hu hsettled := h'.entries u (h.entries u hu hsettled) hsettled
  frames f hf hscopes := h'.frames f (h.frames f hf hscopes) hscopes
  infos hne := by
    have hinfos := h.infos hne
    rw [← hinfos]
    refine h'.infos fun hnil => hne ?_
    rw [hnil] at hinfos
    exact List.map_eq_nil_iff.1 hinfos.symm

theorem Opens.settles {ids : List Nat} (h : Opens p p' ids) : Settles p p' :=
  ⟨h.settled, fun _ hf _ => h.frames ▸ hf, fun _ => by rw [h.frames]⟩

theorem Settles.shows {id : Nat} {info : Variable} (h : Settles p p') (hshows : Shows p id info) :
    Shows p' id info := by
  obtain ⟨c, hc, hid, hinfo⟩ := hshows
  exact ⟨c, h.entries c hc (.inr (hinfo ▸ Option.some_ne_none _)), hid, hinfo⟩

/-- The provider has kept this answer. -/
def Cached (p : LuaStackTraceProvider) : Request → Answer → Prop
  | .stackTrace, .frames frames =>
    p.stackFrames ≠ [] ∧ p.stackFrames.map StackFrameEntry.frameInfo = frames
  | .scopes frameId, .scopes scopes =>
    ∃ f ∈ p.stackFrames, f.id = frameId ∧ f.scopes = scopes ∧ scopes ≠ []
  | .children arg, .children infos =>
    ∃ v ∈ p.variableEntries, v.referenceId = arg.variablesReference ∧ Settled v ∧
      List.Forall₂ (Shows p) (selected v arg.filter) infos
  | _, _ => False

variable {request : Request} {answer : Answer}

theorem Settles.cached (h : Settles p p') (hcached : Cached p request answer) :
    Cached p' request answer := by
  cases request with
  | stackTrace =>
    cases answer with
    | frames frames =>
      obtain ⟨hne, hframes⟩ := hcached
      have hinfos := h.infos hne
      refine ⟨fun hnil => hne ?_, hinfos.trans hframes⟩
      rw [hnil] at hinfos
      exact List.map_eq_nil_iff.1 hinfos.symm
    | _ => exact hcached.elim
  | scopes frameId =>
    cases answer with
    | scopes scopes =>
      obtain ⟨f, hf, hid, hscopes, hne⟩ := hcached
      exact ⟨f, h.frames f hf (hscopes ▸ hne), hid, hscopes, hne⟩
    | _ => exact hcached.elim
  | children arg =>
    cases answer with
    | children infos =>
      obtain ⟨v, hv, hid, hsettled, hshows⟩ := hcached
      exact ⟨v, h.entries v hv hsettled, hid, hsettled, hshows.imp fun _ _ hs => h.shows hs⟩
    | _ => exact hcached.elim

/-- A kept answer is given again, and nothing changes. -/
theorem Cached.respond (h : Cached p request answer) (hids : UniqueIds p) :
    respond heap l request p = some (answer, p) := by
  cases request with
  | stackTrace =>
    cases answer with
    | frames frames =>
      obtain ⟨hne, rfl⟩ := h
      simp [LuaStackTraceProvider.respond, LuaStackTraceProvider.getStackTrace, hne]
    | _ => exact h.elim
  | scopes frameId =>
    cases answer with
    | scopes scopes =>
      obtain ⟨f, hf, rfl, rfl, hne⟩ := h
      simp [LuaStackTraceProvider.respond, LuaStackTraceProvider.getScopes,
        hids.getStackFrameEntry hf, LuaStackTraceProvider.getFrameScopes, hne]
    | _ => exact h.elim
  | children arg =>
    cases answer with
    | children infos =>
      obtain ⟨v, hv, hid, -, hshows⟩ := h
      simp [LuaStackTraceProvider.respond, getVariables_eq, ← hid, hids.getVariableEntry hv,
        transform_of_shows hids hshows]
    | _ => exact h.elim

/-! ## One request -/

theorem Shaped.frameInfo_id (h : Shaped heap l p) {f : StackFrameEntry} (hf : f ∈ p.stackFrames) :
    f.level < l.stack.length ∧ f.id = f.level + 1 ∧ f.frameInfo.id = f.id := by
  rcases h.frames with hnil | hframes
  · rw [hnil] at hf
    cases hf
  · have hplace : place f ∈ (List.range l.stack.length).map fun n => (n + 1, n, n + 1) := by
      rw [← hframes]
      exact List.mem_map_of_mem hf
    obtain ⟨n, hn, hplace⟩ := List.mem_map.1 hplace
    simp only [place, Prod.mk.injEq] at hplace
    obtain ⟨hid, hlevel, hinfo⟩ := hplace
    exact ⟨hlevel ▸ List.mem_range.1 hn, by rw [← hid, hlevel], by rw [← hinfo, hid]⟩

/-- The first stack trace reads all frames. -/
theorem Shaped.getStackTrace (h : Shaped heap l p)
    (hanswer : p.stackFrames ≠ [] ∨ p.ar.what ≠ none) : ∃ frames p',
      p.getStackTrace l = some (frames, p') ∧ Shaped heap l p' ∧ Settles p p' ∧
      Cached p' .stackTrace (.frames frames) ∧ p'.variableEntries = p.variableEntries ∧
      p'.variableRefId = p.variableRefId := by
  by_cases hempty : p.stackFrames = []
  · obtain ⟨what, hwhat⟩ := Option.ne_none_iff_exists'.1 (hanswer.resolve_left (not_not.2 hempty))
    obtain ⟨ar, hcollect⟩ := collectFrames_of_some (l := l) hwhat
    set frames := l.stack.zipIdx.map (recordedEntry what p.ar.source)
    have hget : p.getStackTrace l = some (frames.map StackFrameEntry.frameInfo,
        { p with stackFrames := frames, ar := ar }) := by
      simp [LuaStackTraceProvider.getStackTrace, hempty, hcollect]
    obtain ⟨htree, hext⟩ := h.tree.getStackTrace hget
    have hmem : ∀ f ∈ frames, f.scopes = [] := by
      intro f hf
      obtain ⟨level, -, rfl⟩ := List.mem_map.1 hf
      rfl
    refine ⟨_, _, hget, ⟨htree, .inr ?_, h.fresh, ?_, ?_, ?_⟩, ⟨fun _ hu _ => hu, ?_, ?_⟩,
      ⟨?_, rfl⟩, rfl, rfl⟩
    · show frames.map place = _
      rw [List.map_map, List.range_eq_range', ← List.zipIdx_map_snd 0 l.stack, List.map_map]
      rfl
    · intro v hv info hinfo
      obtain ⟨hscope, a, ha, hlists, hshown⟩ := h.evaluated v hv info hinfo
      exact ⟨hscope, a, ha.mono hext (.refl v), hlists.mono hext, hshown⟩
    · intro v hv frameId hframe
      obtain ⟨f, hf, -⟩ := h.scope v hv frameId hframe
      rw [hempty] at hf
      cases hf
    · exact fun f hf hscopes => absurd (hmem f hf) hscopes
    · intro f hf
      rw [hempty] at hf
      cases hf
    · exact fun hne => absurd hempty hne
    · show frames ≠ []
      simp [frames, LuaState.stack]
  · refine ⟨_, p, ?_, h, .refl p, ⟨hempty, rfl⟩, rfl, rfl⟩
    simp [LuaStackTraceProvider.getStackTrace, hempty]

/-- The frame with this id takes scopes. -/
def takeScopes (frameId : Nat) (scopes : List Scope) (f : StackFrameEntry) : StackFrameEntry :=
  if f.id = frameId then { f with scopes := scopes } else f

theorem takeScopes_other {frameId : Nat} {scopes : List Scope} {f : StackFrameEntry}
    (h : f.id ≠ frameId) : takeScopes frameId scopes f = f := if_neg h

theorem takeScopes_frameInfo (frameId : Nat) (scopes : List Scope) :
    place ∘ takeScopes frameId scopes = place ∧
      StackFrameEntry.frameInfo ∘ takeScopes frameId scopes = StackFrameEntry.frameInfo := by
  constructor <;> funext f <;> simp only [Function.comp_apply, takeScopes] <;> split_ifs <;> rfl

/-- The scope of a frame has been made, with a child for each local. -/
structure Scoped (l : LuaState (LuaValue N)) (p p' : LuaStackTraceProvider)
    (frame : StackFrameEntry) (scope : VariableEntry) : Prop where
  mem : scope ∈ p'.variableEntries
  parentFrame : scope.parentFrame = some frame.id
  info : scope.variableInfo = none
  lists : ∃ ci, l.stack[frame.level]? = some ci ∧ Lists p' scope (localKids ci)
  old : ∀ u ∈ p.variableEntries, u ∈ p'.variableEntries
  new : ∀ u ∈ p'.variableEntries, u ∈ p.variableEntries ∨ u = scope ∨
    (Bare u ∧ u.parentVariableId = some scope.referenceId)
  frames : p'.stackFrames =
    p.stackFrames.map (takeScopes frame.id (localsScopes scope.referenceId))

/-- The first request for the scopes of a frame makes the variable of the scope. -/
theorem Shaped.collectScopes (h : Shaped heap l p) {frame : StackFrameEntry}
    (hf : frame ∈ p.stackFrames) (hempty : frame.scopes = []) : ∃ scope p',
      p.getScopes l frame.id = some (localsScopes scope.referenceId, p') ∧
      Scoped l p p' frame scope := by
  have hlevel := h.tree.levels frame hf
  have hci : l.stack[frame.level]? = some l.stack[frame.level] := List.getElem?_eq_getElem hlevel
  set ci := l.stack[frame.level]
  set scope := VariableEntry.ofFrame frame.id (p.variableRefId + 1) with hscope
  set q := (newVariable (.ofFrame frame.id)
    { p with ar := { p.ar with i_ci := frame.level } }).2 with hq
  have hmem : ∀ u, u ∈ q.variableEntries ↔ u ∈ p.variableEntries ∨ u = scope := by
    intro u
    rw [hq, newVariable, List.mem_append, List.mem_singleton]
  have hids : CountedIds q := ((h.tree.setRecord _).1.newScope frame.id).1.ids
  have hscopeMem : scope ∈ q.variableEntries := (hmem scope).2 (.inr rfl)
  obtain ⟨indexed, named, hids', hext, hadds, hscope', hindexed, hnamed, hnodup, -⟩ :=
    foldl_addKid (localKids ci) hids hscopeMem
  set r := (localKids ci).foldl (addKid scope.referenceId) q with hr
  set scope' := withChildren scope indexed named
  have hlists : Lists r scope' (localKids ci) := ⟨hindexed, hnamed, hnodup⟩
  refine ⟨scope', { r with
    stackFrames := p.stackFrames.map (takeScopes frame.id (localsScopes scope.referenceId)) }, ?_,
    hscope', rfl, rfl, ⟨ci, hci, hlists.indexed, hlists.named, hlists.nodup⟩, ?_, ?_, rfl⟩
  · have hframes : r.stackFrames = p.stackFrames := hadds.frames
    have hfold : (ci.locals.zipIdx 1).foldl (addLocal scope.referenceId) q = r :=
      foldl_addLocal_eq _ _ _
    simp only [LuaStackTraceProvider.getScopes, h.tree.uniqueIds.getStackFrameEntry hf,
      Option.map_some, getFrameScopes, hempty, List.isEmpty_nil, if_true, luaGetStack_of_lt hlevel,
      hci, Option.getD_some]
    show some (localsScopes scope.referenceId,
      { (ci.locals.zipIdx 1).foldl (addLocal scope.referenceId) q with
        stackFrames := ((ci.locals.zipIdx 1).foldl (addLocal scope.referenceId) q).stackFrames.map
          (takeScopes frame.id (localsScopes scope.referenceId)) }) = _
    rw [hfold, hframes]
    rfl
  · intro u hu
    refine hadds.others u ((hmem u).2 (.inl hu)) fun hid => ?_
    have hle := h.tree.referenceId_le hu
    rw [hid] at hle
    exact Nat.lt_irrefl _ hle
  · intro u hu
    have hsame : u.referenceId = scope.referenceId → u = scope' :=
      fun hid => hids'.eq_of_referenceId hu hscope' hid
    rcases hadds.new u hu with hid | hu | ⟨hbare, hparent, -⟩
    · exact .inr (.inl (hsame hid))
    · rcases (hmem u).1 hu with hu | rfl
      · exact .inl hu
      · exact .inr (.inl (hsame rfl))
    · exact .inr (.inr ⟨hbare, hparent⟩)

section Scoped

variable {frame : StackFrameEntry} {scope : VariableEntry}

omit [DecidableEq N] [LuaNumber N]

theorem Scoped.frame_mem (h : Scoped l p p' frame scope) (hf : frame ∈ p.stackFrames) :
    { frame with scopes := localsScopes scope.referenceId } ∈ p'.stackFrames := by
  rw [h.frames]
  exact List.mem_map.2 ⟨frame, hf, if_pos rfl⟩

theorem Scoped.settles (h : Scoped l p p' frame scope)
    (hids : (p.stackFrames.map StackFrameEntry.id).Nodup) (hf : frame ∈ p.stackFrames)
    (hempty : frame.scopes = []) : Settles p p' := by
  refine ⟨fun u hu _ => h.old u hu, fun f hfmem hscopes => ?_, fun _ => ?_⟩
  · rw [h.frames]
    refine List.mem_map.2 ⟨f, hfmem, takeScopes_other fun hid => hscopes ?_⟩
    rw [List.inj_on_of_nodup_map hids hfmem hf hid]
    exact hempty
  · rw [h.frames, List.map_map, (takeScopes_frameInfo _ _).2]

end Scoped

theorem Scoped.shaped {frame : StackFrameEntry} {scope : VariableEntry}
    (hscoped : Scoped l p p' frame scope) (h : Shaped heap l p) (htree : Tree heap l p')
    (hext : Extends p p') (hsettles : Settles p p') (hf : frame ∈ p.stackFrames) :
    Shaped heap l p' := by
  refine ⟨htree, .inr ?_, ?_, ?_, ?_, ?_⟩
  · rw [hscoped.frames, List.map_map, (takeScopes_frameInfo _ _).1]
    exact h.frames.resolve_left (List.ne_nil_of_mem hf)
  · intro u hu huscope huinfo
    rcases hscoped.new u hu with hu | rfl | ⟨hbare, -⟩
    · exact h.fresh u hu huscope huinfo
    · rw [hscoped.parentFrame] at huscope
      cases huscope
    · exact hbare
  · intro u hu info huinfo
    rcases hscoped.new u hu with hu | rfl | ⟨hbare, -⟩
    · obtain ⟨huscope, a, ha, hulists, hshown⟩ := h.evaluated u hu info huinfo
      exact ⟨huscope, a, ha.mono hext (.refl u), hulists.mono hext, hshown⟩
    · rw [hscoped.info] at huinfo
      cases huinfo
    · rw [hbare.info] at huinfo
      cases huinfo
  · intro u hu frameId hframe
    rcases hscoped.new u hu with hu | rfl | ⟨hbare, -⟩
    · obtain ⟨f, hfmem, hid, hscopes, ci, hci, hulists⟩ := h.scope u hu frameId hframe
      exact ⟨f, hsettles.frames f hfmem (hscopes ▸ List.cons_ne_nil _ _), hid, hscopes, ci, hci,
        hulists.mono hext⟩
    · exact ⟨_, hscoped.frame_mem hf, Option.some.inj (hscoped.parentFrame.symm.trans hframe), rfl,
        hscoped.lists⟩
    · rw [hbare.parentFrame] at hframe
      cases hframe
  · intro f' hf' hscopes
    rw [hscoped.frames] at hf'
    obtain ⟨f, hfmem, rfl⟩ := List.mem_map.1 hf'
    by_cases hid : f.id = frame.id
    · rw [takeScopes, if_pos hid]
      exact ⟨scope, hscoped.mem, hscoped.parentFrame.trans (congrArg some hid.symm), rfl⟩
    · rw [takeScopes_other hid] at hscopes ⊢
      obtain ⟨u, hu, huscope, hufscopes⟩ := h.frameScopes f hfmem hscopes
      exact ⟨u, hscoped.old u hu, huscope, hufscopes⟩

theorem Shaped.getScopes (h : Shaped heap l p) {frame : StackFrameEntry}
    (hf : frame ∈ p.stackFrames) : ∃ scopes p',
      p.getScopes l frame.id = some (scopes, p') ∧ Shaped heap l p' ∧ Settles p p' ∧
      Cached p' (.scopes frame.id) (.scopes scopes) ∧
      ∀ u ∈ p'.variableEntries, u ∈ p.variableEntries ∨ u.parentFrame = some frame.id ∨
        (Bare u ∧ ∃ s ∈ p'.variableEntries, s.parentFrame = some frame.id ∧
          u.parentVariableId = some s.referenceId) := by
  by_cases hempty : frame.scopes = []
  · obtain ⟨scope, p', hget, hscoped⟩ := h.collectScopes hf hempty
    obtain ⟨scopes, p'', hget', htree, hext, -⟩ := h.tree.getScopes hf
    obtain ⟨rfl, rfl⟩ := Prod.mk.inj (Option.some.inj (hget.symm.trans hget'))
    have hsettles := hscoped.settles h.tree.frameIds hf hempty
    refine ⟨_, p', hget, hscoped.shaped h htree hext hsettles hf, hsettles,
      ⟨_, hscoped.frame_mem hf, rfl, rfl, List.cons_ne_nil _ _⟩, fun u hu => ?_⟩
    rcases hscoped.new u hu with hu | rfl | ⟨hbare, hparent⟩
    · exact .inl hu
    · exact .inr (.inl hscoped.parentFrame)
    · exact .inr (.inr ⟨hbare, scope, hscoped.mem, hscoped.parentFrame, hparent⟩)
  · refine ⟨frame.scopes, p, ?_, h, .refl p, ⟨frame, hf, rfl, rfl, hempty⟩, fun u hu => .inl hu⟩
    simp [LuaStackTraceProvider.getScopes, h.tree.uniqueIds.getStackFrameEntry hf, getFrameScopes,
      hempty]

theorem Shaped.getVariables (h : Shaped heap l p) (hv : v ∈ p.variableEntries)
    {arg : VariablesArguments} (harg : arg.variablesReference = v.referenceId) : ∃ infos p',
      p.getVariables heap l arg = some (infos, p') ∧ Shaped heap l p' ∧
      Opens p p' (selected v arg.filter) ∧
      List.Forall₂ (Shows p') (selected v arg.filter) infos := by
  obtain ⟨infos, p', htransform, hp', hopens, hshows⟩ :=
    h.transform (selected v arg.filter) (h.selected_mem hv)
  refine ⟨infos, p', ?_, hp', hopens, hshows⟩
  simp [getVariables_eq, harg, h.tree.uniqueIds.getVariableEntry hv, htransform]

/-- The ids of the request are in the tables. For the first stack trace Lua has to have said what
kind of function is running. -/
def Answerable (p : LuaStackTraceProvider) : Request → Prop
  | .stackTrace => p.stackFrames ≠ [] ∨ p.ar.what ≠ none
  | .scopes frameId => ∃ f ∈ p.stackFrames, f.id = frameId
  | .children arg =>
    ∃ v ∈ p.variableEntries, v.referenceId = arg.variablesReference ∧ Settled v

/-- The new variables are those of a scope, or children of selected variables that were not
evaluated before. None of them has children of its own, but for the scope. -/
def OpensOneLevel (p p' : LuaStackTraceProvider) (request : Request) : Prop :=
  ∀ u ∈ p'.variableEntries, p.variableRefId < u.referenceId → match request with
    | .stackTrace => False
    | .scopes frameId => u.parentFrame = some frameId ∨
      (Bare u ∧ ∃ s ∈ p'.variableEntries, s.parentFrame = some frameId ∧
        u.parentVariableId = some s.referenceId)
    | .children arg => Bare u ∧ ∃ v ∈ p.variableEntries, v.referenceId = arg.variablesReference ∧
      ∃ c ∈ p.variableEntries, c.referenceId ∈ selected v arg.filter ∧ c.variableInfo = none ∧
        u.parentVariableId = some c.referenceId

/-- **One request.** It is answered, the answer and all earlier ones are kept, and the tables grow
by one level. -/
theorem Shaped.respond (h : Shaped heap l p) (hanswer : Answerable p request) :
    ∃ answer p', LuaStackTraceProvider.respond heap l request p = some (answer, p') ∧
      Shaped heap l p' ∧ Settles p p' ∧ Cached p' request answer ∧ OpensOneLevel p p' request := by
  have hold : ∀ u ∈ p.variableEntries, ¬ p.variableRefId < u.referenceId :=
    fun u hu => Nat.not_lt.2 (h.tree.referenceId_le hu)
  cases request with
  | stackTrace =>
    obtain ⟨frames, p', hget, hp', hsettles, hcached, hentries, -⟩ := h.getStackTrace hanswer
    refine ⟨.frames frames, p', congrArg (Option.map _) hget, hp', hsettles, hcached, ?_⟩
    intro u hu hlt
    exact hold u (hentries ▸ hu) hlt
  | scopes frameId =>
    obtain ⟨frame, hf, rfl⟩ := hanswer
    obtain ⟨scopes, p', hget, hp', hsettles, hcached, hnew⟩ := h.getScopes hf
    refine ⟨.scopes scopes, p', congrArg (Option.map _) hget, hp', hsettles, hcached, ?_⟩
    intro u hu hlt
    exact (hnew u hu).resolve_left fun hmem => hold u hmem hlt
  | children arg =>
    obtain ⟨v, hv, hid, hsettled⟩ := hanswer
    obtain ⟨infos, p', hget, hp', hopens, hshows⟩ := h.getVariables hv hid.symm
    refine ⟨.children infos, p', congrArg (Option.map _) hget, hp', hopens.settles,
      ⟨v, hopens.settled v hv hsettled, hid, hsettled, hshows⟩, ?_⟩
    intro u hu hlt
    rcases hopens.new u hu with hmem | ⟨huid, -⟩ | ⟨hbare, -, c, hc, hcid, hinfo, hparent⟩
    · exact absurd hlt (hold u hmem)
    · obtain ⟨c, hc, hcid, -⟩ := h.selected_mem hv _ huid
      exact absurd (hcid ▸ hlt) (hold c hc)
    · exact ⟨hbare, v, hv, hid, c, hc, hcid, hinfo, hparent⟩

/-! ## Runs -/

theorem Shaped.new (ar : LuaDebug) : Shaped heap l { ar := ar } where
  tree := .new ar
  frames := .inl rfl
  fresh _ h := absurd h List.not_mem_nil
  evaluated _ h := absurd h List.not_mem_nil
  scope _ h := absurd h List.not_mem_nil
  frameScopes _ h := absurd h List.not_mem_nil

omit [DecidableEq N] [LuaNumber N] in
/-- The first stack trace is answered only when Lua has said what kind of function is running. -/
theorem what_of_getStackTrace {frames : List StackFrame}
    (hget : p.getStackTrace l = some (frames, p')) : p.stackFrames ≠ [] ∨ p.ar.what ≠ none := by
  by_contra hnot
  obtain ⟨hempty, hwhat⟩ := not_or.1 hnot
  simp [LuaStackTraceProvider.getStackTrace, not_not.1 hempty,
    collectFrames_of_none (not_not.1 hwhat)] at hget

/-- Requests keep the shape, whatever ids they use. -/
theorem Shaped.step (h : Shaped heap l p) (hstep : (system heap l).step request p = some p') :
    Shaped heap l p' ∧ Settles p p' := by
  cases request with
  | stackTrace =>
    obtain ⟨⟨frames, q⟩, hget, rfl⟩ := Option.map_eq_some_iff.1 hstep
    obtain ⟨frames', p', hget', hp', hsettles, -⟩ := h.getStackTrace (what_of_getStackTrace hget)
    obtain ⟨-, rfl⟩ := Prod.mk.inj (Option.some.inj (hget.symm.trans hget'))
    exact ⟨hp', hsettles⟩
  | scopes frameId =>
    obtain ⟨⟨scopes, q⟩, hget, rfl⟩ := Option.map_eq_some_iff.1 hstep
    obtain ⟨frame, hframe, -⟩ := Option.map_eq_some_iff.1 hget
    obtain rfl : frame.id = frameId := by simpa using List.find?_some hframe
    obtain ⟨scopes', p', hget', hp', hsettles, -⟩ :=
      h.getScopes (List.mem_of_find?_eq_some hframe)
    obtain ⟨-, rfl⟩ := Prod.mk.inj (Option.some.inj (hget.symm.trans hget'))
    exact ⟨hp', hsettles⟩
  | children arg =>
    obtain ⟨⟨infos, q⟩, hget, rfl⟩ := Option.map_eq_some_iff.1 hstep
    obtain ⟨v, hv, -⟩ := Option.bind_eq_some_iff.1 hget
    have hid : v.referenceId = arg.variablesReference := by simpa using List.find?_some hv
    obtain ⟨infos', p', hget', hp', hopens, -⟩ :=
      h.getVariables (List.mem_of_find?_eq_some hv) hid.symm
    obtain ⟨-, rfl⟩ := Prod.mk.inj (Option.some.inj (hget.symm.trans hget'))
    exact ⟨hp', hopens.settles⟩

theorem shaped_of_reachable (h : (system heap l).Reachable p) : Shaped heap l p := by
  refine h.invariant ?_ fun p request p' hp hstep => (hp.step hstep).1
  intro p hinit
  obtain ⟨ar, rfl⟩ := hinit
  exact .new ar

theorem Shaped.run {ok : LuaStackTraceProvider → Request → Prop} (h : Shaped heap l p)
    (hrun : (system heap l).Run ok p p') : Shaped heap l p' ∧ Settles p p' :=
  hrun.invariant (I := fun q => Shaped heap l q ∧ Settles p q)
    (fun _ _ _ hi _ hstep => ⟨(hi.1.step hstep).1, hi.2.trans (hi.1.step hstep).2⟩) ⟨h, .refl p⟩

end LuaToolkit.LuaStackTraceProvider
