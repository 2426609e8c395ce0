import LuaToolkit.ClientRequests
import LuaToolkit.DebugSessionAnswers
import LuaToolkit.Lib.Projection
import LuaToolkit.VariableDialogue

/-!
# Which stop a response tells of

Every stop has a provider of its own, and the session outlives the stops. What the client reads in
the responses to its inspection requests are the answers of these providers, in the order in which
they were given.

* `projects_session` — the session moves as `DebugSession.system` does.
* `Stop`, `recordStops` — the stops of a run, each with the dialogue of its provider.
* `Faithful` — the condition of `inspected_of_reaches`, and bodies that are the provider's answers.
* `answers_of_reaches` — the responses carry the answers of the stops, and each stop is a dialogue
  with a new provider.
-/

namespace LuaToolkit.Debugger

open Dap Transition
open DebugSession (Inspections Inspected InspectSafe Exchange Exchanged InFlight Inspects bodies
  results)
open LuaStackTraceProvider (Answer Linked Request Returned dialogue dialogue_step
  kept_of_reaches respond system_step)

variable {V : Type*} {N : Type}

/-! ## The session of a debugger -/

/-- What a step does to the session and the controller. -/
def lifetimeMove (d : Debugger V N) : Action V N → SessionLifetime.Action V (LuaValue N)
  | .acquire _ _ => .acquire
  | .answer result => .lua (.answer result) d.provider.ar
  | .other a => a

/-- What a step does to the session. -/
def sessionMove (d : Debugger V N) (a : Action V N) : Option (DebugSession.Action V) :=
  d.lifetime.sessionMove (d.lifetimeMove a)

variable [DecidableEq N] [LuaNumber N] {rt : Runtime} {app : Application V} {P : PathEquality}
  {args : InspectionArguments V} {d d' : Debugger V N}

theorem step_lifetime {a : Action V N} (h : (system V N rt app P args).step a d = some d') :
    (SessionLifetime.system V (LuaValue N) rt app P).step (d.lifetimeMove a) d.lifetime =
      some d'.lifetime := by
  simp only [system, step] at h
  split at h
  · obtain ⟨lifetime, hs, rfl⟩ := Option.map_eq_some_iff.1 h
    exact hs
  · obtain ⟨⟨l, invocation⟩, -, h⟩ := Option.bind_eq_some_iff.1 h
    obtain ⟨provider, -, h⟩ := Option.bind_eq_some_iff.1 h
    obtain ⟨lifetime, hs, rfl⟩ := Option.map_eq_some_iff.1 h
    exact hs
  · cases h
  · cases h
  · obtain ⟨lifetime, hs, rfl⟩ := Option.map_eq_some_iff.1 h
    exact hs

/-- The session and the controller run as they do without the provider. -/
theorem projects_lifetime (V : Type*) (N : Type) [DecidableEq N] [LuaNumber N] (rt : Runtime)
    (app : Application V) (P : PathEquality) (args : InspectionArguments V) :
    (system V N rt app P args).Projects (SessionLifetime.system V (LuaValue N) rt app P) lifetime
      fun d a => some (d.lifetimeMove a) where
  moves := by
    rintro d a d' b hstep ⟨⟩
    exact step_lifetime hstep
  rests := by
    rintro d a d' - ⟨⟩

theorem init_session (h : (system V N rt app P args).init d) :
    d.lifetime.session = { run := .receive } := by
  have hinit : (SessionLifetime.system V (LuaValue N) rt app P).init d.lifetime := h
  exact SessionLifetime.init_session hinit

/-- **The session of a debugger** moves as a session does. -/
theorem projects_session (V : Type*) (N : Type) [DecidableEq N] [LuaNumber N] (rt : Runtime)
    (app : Application V) (P : PathEquality) (args : InspectionArguments V) :
    (system V N rt app P args).Projects (DebugSession.system V rt) (fun d => d.lifetime.session)
      sessionMove :=
  (projects_lifetime V N rt app P args).trans
    (SessionLifetime.projects_session V (LuaValue N) rt app P)

/-! ## The stops of a run -/

/-- A stop: the Lua state with its heap, the provider made for the stop, and all that it was asked
for and has answered. -/
structure Stop (N : Type) where
  heap : LuaHeap N
  state : LuaState (LuaValue N)
  provider : LuaStackTraceProvider
  log : List (Request × Answer) := []

/-- The stops so far, the last one first. -/
def recordStops (args : InspectionArguments V) (d : Debugger V N) :
    Action V N → Debugger V N → List (Stop N) → List (Stop N)
  | .acquire heap ar, d', stops =>
    match d'.lifetime.hook with
    | .stopped l => { heap := heap, state := l, provider := { ar := ar } } :: stops
    | _ => stops
  | .answer _, d', stops =>
    match d.next, stops with
    | some (l, invocation), stop :: stops =>
      let request := args.request invocation
      let answer := (respond d.heap l request d.provider).map Prod.fst
      { stop with
        provider := d'.provider
        log := stop.log ++ (answer.map fun answer => (request, answer)).toList } :: stops
    | _, _ => stops
  | .other _, _, stops => stops

/-- All answers of the stops, in the order in which they were given. -/
def answers (stops : List (Stop N)) : List (Request × Answer) := stops.reverse.flatMap Stop.log

omit [DecidableEq N] [LuaNumber N] in
theorem answers_cons (stop : Stop N) (stops : List (Stop N)) :
    answers (stop :: stops) = answers stops ++ stop.log := by
  simp [answers]

/-- A debugger with a record of its inspections. -/
abbrev inspectionSystem (V : Type*) (N : Type) [DecidableEq N] [LuaNumber N] (rt : Runtime)
    (app : Application V) (P : PathEquality) (args : InspectionArguments V) :
    System (Debugger V N × Inspections V) (Action V N) :=
  (system V N rt app P args).recorded {} (System.Projects.recordMove
    (fun d : Debugger V N => d.lifetime.session) sessionMove Inspections.record)

/-- A debugger with records of its inspections and of its stops. -/
abbrev stopSystem (V : Type*) (N : Type) [DecidableEq N] [LuaNumber N] (rt : Runtime)
    (app : Application V) (P : PathEquality) (args : InspectionArguments V) :
    System ((Debugger V N × Inspections V) × List (Stop N)) (Action V N) :=
  (inspectionSystem V N rt app P args).recorded [] fun x a x' => recordStops args x.1 a x'.1

/-- Inspection requests are handled in stops that have not been resumed, and the body of a response
is the provider's answer, put into a `RuntimeValue` by `encode`. -/
def Faithful (args : InspectionArguments V) (encode : Answer → V) (d : Debugger V N) :
    Action V N → Prop
  | .other (.run input) => InspectSafe d.lifetime.session (.run input)
  | .answer result => ∀ l invocation answer provider, d.next = some (l, invocation) →
      respond d.heap l (args.request invocation) d.provider = some (answer, provider) →
        result = .ok (encode answer)
  | _ => True

/-! ## The property -/

/-- Every request uses ids that were returned before it. -/
def Honest (log : List (Request × Answer)) : Prop :=
  ∀ before entry after, log = before ++ entry :: after → Returned before entry.1

/-- What a response tells: the message that asked, what it asked of the provider, and the answer. -/
structure Told (V : Type*) where
  message : RequestMessage V
  request : Request
  answer : Answer

structure Answered (rt : Runtime) (args : InspectionArguments V) (encode : Answer → V)
    (s : DebugSession V) (stops : List (Stop N)) : Prop where
  /-- The bodies that were sent are the answers of the stops, each to the message that asked for it;
  one answer may still be on its way. -/
  told : ∃ (ys : List (Told V)) (pending : List (Request × Answer)), pending.length ≤ 1 ∧
    answers stops = ys.map (fun y => (y.request, y.answer)) ++ pending ∧
    bodies (Inspects V rt) s = ys.map (fun y => (y.message.seq, encode y.answer)) ∧
    ∀ y ∈ ys, ∃ invocation : Invocation V, y.request = args.request invocation ∧
      (rt.dispatch y.message.command : HandlerPoint V) = .inspectAssert invocation.inspection
  /-- Every stop is a dialogue with a provider of its own. -/
  dialogues : ∀ stop ∈ stops,
    (dialogue stop.heap stop.state).Reachable (stop.provider, stop.log)
  /-- A client that uses the ids that it got in the stop sees one set of linked variables, and gets
  the same answer whenever it asks the same. -/
  consistent : ∀ stop ∈ stops, Honest stop.log → Linked stop.provider ∧
    ∀ entry ∈ stop.log, ∀ entry' ∈ stop.log, entry.1 = entry'.1 → entry.2 = entry'.2

/-! ## One stop -/

variable {heap : LuaHeap N} {l : LuaState (LuaValue N)} {p : LuaStackTraceProvider}
  {log : List (Request × Answer)}

theorem respond_eq_none {request : Request} (h : ¬ p.Issued request) :
    respond heap l request p = none := by
  rw [← LuaStackTraceProvider.asserts_iff, Bool.not_eq_true] at h
  cases request with
  | stackTrace => cases h
  | scopes frameId =>
    have hnone : p.getStackFrameEntry frameId = none := by
      simpa [LuaStackTraceProvider.asserts] using h
    simp [respond, LuaStackTraceProvider.getScopes, hnone]
  | children arg =>
    have hnone : p.getVariableEntry arg.variablesReference = none := by
      simpa [LuaStackTraceProvider.asserts] using h
    simp [respond, LuaStackTraceProvider.getVariables, hnone]

theorem Honest.concat {entry : Request × Answer} (h : Honest (log ++ [entry])) :
    Honest log ∧ Returned log entry.1 :=
  ⟨fun before e after heq => h before e (after ++ [entry]) (by simp [heq]), h log entry [] rfl⟩

theorem reaches_of_honest (h : (dialogue heap l).Reachable (p, log)) (hlog : Honest log) :
    (dialogue heap l).Reaches (fun x request => Returned x.2 request) (p, log) := by
  refine h.invariant (I := fun x => Honest x.2 →
    (dialogue heap l).Reaches (fun x request => Returned x.2 request) x)
    (fun x hx _ => .init hx) ?_ hlog
  rintro ⟨p, log⟩ request ⟨p', log'⟩ ih hstep hlog'
  obtain ⟨answer, -, rfl⟩ := dialogue_step.1 hstep
  obtain ⟨hlog, hreturned⟩ := hlog'.concat
  exact (ih hlog).step hreturned hstep

theorem consistent_of_reachable (h : (dialogue heap l).Reachable (p, log)) (hlog : Honest log) :
    Linked p ∧ ∀ entry ∈ log, ∀ entry' ∈ log, entry.1 = entry'.1 → entry.2 = entry'.2 := by
  have hreach := reaches_of_honest h hlog
  have hkept := kept_of_reaches hreach
  refine ⟨hkept.shaped.linked, fun entry hentry entry' hentry' heq => ?_⟩
  have hsame : ∀ e ∈ log, respond heap l e.1 p = some (e.2, p) := fun e he =>
    (hkept.cached e he).respond hkept.shaped.tree.uniqueIds
  have hanswers := (hsame entry hentry).symm.trans (heq ▸ hsame entry' hentry')
  exact (Prod.mk.inj (Option.some.inj hanswers)).1

/-! ## The invariant -/

/-- The stop in progress is the last one. -/
def Current (d : Debugger V N) (stops : List (Stop N)) : Prop :=
  ∀ l, d.lifetime.hook = .stopped l → ∃ stop rest, stops = stop :: rest ∧
    stop.heap = d.heap ∧ stop.state = l ∧ stop.provider = d.provider

/-- The body that an invocation has ended with, if it has not ended with an exception. -/
def ranBody (args : InspectionArguments V) (x : Nat × Invocation V × Except String V) :
    Option (Request × V) :=
  x.2.2.toOption.map fun value => (args.request x.2.1, value)

structure Recorded (args : InspectionArguments V) (encode : Answer → V) (d : Debugger V N)
    (g : Inspections V) (stops : List (Stop N)) : Prop where
  current : Current d stops
  dialogues : ∀ stop ∈ stops,
    (dialogue stop.heap stop.state).Reachable (stop.provider, stop.log)
  /-- What the Lua thread has run are the dialogues. -/
  ran : g.ran.filterMap (ranBody args) =
    (answers stops).map fun entry => (entry.1, encode entry.2)

variable {encode : Answer → V} {g : Inspections V} {stops : List (Stop N)}

theorem record_ran {a : Action V N} (hs : (system V N rt app P args).step a d = some d')
    (ha : ∀ result, a ≠ .answer result) :
    (System.Projects.recordMove (fun d : Debugger V N => d.lifetime.session) sessionMove
      Inspections.record d a d' g).ran = g.ran := by
  unfold System.Projects.recordMove
  split
  · rfl
  · rename_i b hm
    cases b with
    | run i =>
      simp only [Inspections.record]
      split <;> rfl
    | lua i =>
      cases i with
      | answer result =>
        obtain ⟨ar, hmove⟩ := SessionLifetime.eq_of_sessionMove_answer hm
        cases a with
        | acquire heap ar' => cases hmove
        | answer result' => exact absurd rfl (ha result')
        | other a =>
          obtain rfl : a = _ := hmove
          cases hs
      | _ => rfl

/-- What happens in a stop, or outside, stays in the stop or leaves it. -/
theorem hook_other {a : SessionLifetime.Action V (LuaValue N)}
    (h : (system V N rt app P args).step (.other a) d = some d') {l : LuaState (LuaValue N)}
    (hl : d'.lifetime.hook = .stopped l) :
    d.lifetime.hook = .stopped l ∧ d'.heap = d.heap ∧ d'.provider = d.provider := by
  obtain ⟨-, hs⟩ := step_cases h
  cases hs with
  | other ha hs =>
    refine ⟨?_, rfl, rfl⟩
    cases hs with
    | @event x stop ar c hh hb => cases stop <;> cases hl
    | leave => cases hl
    | fail | acquire => exact absurd rfl ha
    | _ => exact hl

theorem recorded_acquire {g' : Inspections V} {ar : LuaDebug} (h : Recorded args encode d g stops)
    (hran : g'.ran = g.ran) (hs : Step rt app P args d (.acquire heap ar) d') :
    Recorded args encode d' g' (recordStops args d (.acquire heap ar) d' stops) := by
  cases hs with
  | acquire hs =>
    cases hs with
    | fail hh ha =>
      simp only [recordStops, hh]
      exact ⟨fun l hl => by simp at hl, h.dialogues, by rw [hran, h.ran]⟩
    | @acquire l ev k session hh ha hs =>
      refine ⟨fun l' hl => ?_, fun stop hstop => ?_, ?_⟩
      · cases hl
        exact ⟨_, stops, rfl, rfl, rfl, rfl⟩
      · rcases List.mem_cons.1 hstop with rfl | hstop
        · exact .init ⟨⟨ar, rfl⟩, rfl⟩
        · exact h.dialogues stop hstop
      · rw [hran, h.ran, recordStops, answers_cons, List.append_nil]

omit [DecidableEq N] [LuaNumber N] in
/-- What the Lua thread runs next is recorded with its result. -/
theorem record_answer {l : LuaState (LuaValue N)} {invocation : Invocation V}
    (hn : d.next = some (l, invocation)) (result : Except String V) (s : DebugSession V) :
    ∃ k, (Inspections.record d.lifetime.session (.lua (.answer result)) s g).ran =
      g.ran ++ [(k, invocation, result)] := by
  unfold next at hn
  split at hn
  · rename_i hook l' k hhook' hlua
    split at hn
    · rename_i hpoint
      cases hn
      exact ⟨k, by simp only [Inspections.record, hlua, hpoint]⟩
    · cases hn
  · cases hn

omit [DecidableEq N] [LuaNumber N] in
theorem Current.concat {stop : Stop N} {result : Except String V} {l : LuaState (LuaValue N)}
    {lifetime : SessionLifetime V (LuaValue N)} (hl : d.lifetime.hook = .stopped l)
    (hs : SessionLifetime.Step rt app P d.lifetime (.lua (.answer result) d.provider.ar) lifetime)
    (hheap : stop.heap = d.heap) (hstate : stop.state = l) (p : LuaStackTraceProvider)
    (log : List (Request × Answer)) (rest : List (Stop N)) :
    Current { d with lifetime := lifetime, provider := p }
      ({ stop with provider := p, log := log } :: rest) := by
  intro l' hl'
  refine ⟨_, rest, rfl, hheap, hstate.trans ?_, rfl⟩
  cases hs with
  | leave => cases hl'
  | lua => exact HookPoint.stopped.inj (hl.symm.trans hl')

/-- What an invocation adds to the dialogue of its stop. -/
theorem dialogue_runInvocation {request : Request} {result : Except String V}
    {p' : LuaStackTraceProvider} (h : (dialogue heap l).Reachable (p, log))
    (hp : p.runInvocation rt heap l request result = some p')
    (hok : ∀ answer q, respond heap l request p = some (answer, q) →
      result = .ok (encode answer)) :
    ∃ answer : Option Answer, (respond heap l request p).map Prod.fst = answer ∧
      result.toOption = answer.map encode ∧ (dialogue heap l).Reachable
        (p', log ++ (answer.map fun answer => (request, answer)).toList) := by
  rcases LuaStackTraceProvider.runInvocation_cases hp with hp | ⟨hissued, rfl, what, rfl⟩
  · rw [system_step] at hp
    obtain ⟨⟨answer, q⟩, hrespond, rfl⟩ := Option.map_eq_some_iff.1 hp
    obtain rfl := hok answer q hrespond
    refine ⟨some answer, by rw [hrespond]; rfl, rfl, ?_⟩
    exact h.step (dialogue_step.2 ⟨answer, hrespond, rfl⟩)
  · -- The assertion has failed before the provider has changed.
    refine ⟨none, by rw [respond_eq_none hissued]; rfl, rfl, ?_⟩
    simpa using h

theorem recorded_answer {result : Except String V} (h : Recorded args encode d g stops)
    (hok : Faithful args encode d (.answer result))
    (hs : Step rt app P args d (.answer result) d') :
    Recorded args encode d'
      (Inspections.record d.lifetime.session (.lua (.answer result)) d'.lifetime.session g)
      (recordStops args d (.answer result) d' stops) := by
  cases hs with
  | @answer _ l invocation provider lifetime hn hp hs =>
    have hhook : d.lifetime.hook = .stopped l := (next_eq_some hn).1
    obtain ⟨stop, rest, rfl, hheap, hstate, hprovider⟩ := h.current l hhook
    obtain ⟨k, hran⟩ := record_answer (g := g) hn result lifetime.session
    have hdialogue := h.dialogues stop List.mem_cons_self
    rw [hheap, hstate, hprovider] at hdialogue
    obtain ⟨answer, hanswer, hresult, hdialogue⟩ :=
      dialogue_runInvocation hdialogue hp fun answer q hr => hok l invocation answer q hn hr
    simp only [recordStops, hn, hanswer]
    refine ⟨.concat hhook hs hheap hstate _ _ rest, fun stop' hstop => ?_, ?_⟩
    · rcases List.mem_cons.1 hstop with rfl | hstop
      · rwa [← hheap, ← hstate] at hdialogue
      · exact h.dialogues stop' (List.mem_cons_of_mem _ hstop)
    · have hold := h.ran
      rw [answers_cons] at hold
      rw [answers_cons, hran, List.filterMap_append, hold]
      cases answer <;> simp [ranBody, hresult]

theorem recorded_other {g' : Inspections V} {a : SessionLifetime.Action V (LuaValue N)}
    (h : Recorded args encode d g stops) (hran : g'.ran = g.ran)
    (hs : (system V N rt app P args).step (.other a) d = some d') :
    Recorded args encode d' g' stops := by
  refine ⟨fun l hl => ?_, h.dialogues, by rw [hran, h.ran]⟩
  obtain ⟨hl, hheap, hprovider⟩ := hook_other hs hl
  rw [hheap, hprovider]
  exact h.current l hl

theorem recorded_of_reaches (h : (stopSystem V N rt app P args).Reaches
    (fun x a => Faithful args encode x.1.1 a) ((d, g), stops)) :
    (inspectionSystem V N rt app P args).Reaches (fun x a => Faithful args encode x.1 a) (d, g) ∧
      Recorded args encode d g stops := by
  refine ⟨System.Reaches.of_recorded
    (fun (x : Debugger V N × Inspections V) a => Faithful args encode x.1 a) h, ?_⟩
  refine h.recorded (fun (x : Debugger V N × Inspections V) a => Faithful args encode x.1 a)
    (I := fun x stops => Recorded args encode x.1 x.2 stops) ?_ ?_
  · rintro ⟨d, g⟩ ⟨hd, rfl⟩
    refine ⟨fun l hl => ?_, fun stop hstop => absurd hstop List.not_mem_nil, rfl⟩
    obtain ⟨t, -, heq⟩ := hd
    rw [heq] at hl
    cases hl
  · rintro ⟨d, g⟩ stops a ⟨d', g'⟩ hi hok hstep
    obtain ⟨hs, rfl⟩ := System.recorded_step_iff.1 hstep
    cases a with
    | acquire heap ar =>
      exact recorded_acquire hi (record_ran hs nofun) (step_cases hs).2
    | answer result => exact recorded_answer hi hok (step_cases hs).2
    | other a => exact recorded_other hi (record_ran hs nofun) hs

/-- The messages that asked, with their answers. -/
theorem exists_told {xs : List (Exchange V)} : ∀ {entries : List (Request × Answer)},
    xs.filterMap (fun x => ranBody args (x.scheduler, x.invocation, x.result)) =
      entries.map (fun entry => (entry.1, encode entry.2)) →
    ∃ ys : List (Told V), entries = ys.map (fun y => (y.request, y.answer)) ∧
      results (xs.map fun x => (x.request, x.result)) =
        ys.map (fun y => (y.message.seq, encode y.answer)) ∧
      ∀ y ∈ ys, ∃ x ∈ xs, y.message = x.request ∧ y.request = args.request x.invocation := by
  induction xs with
  | nil =>
    intro entries h
    obtain rfl := List.map_eq_nil_iff.1 h.symm
    exact ⟨[], rfl, rfl, nofun⟩
  | cons x xs ih =>
    intro entries h
    obtain ⟨message, k, invocation, result⟩ := x
    cases result with
    | error what =>
      obtain ⟨ys, hentries, hys, hmem⟩ := ih h
      refine ⟨ys, hentries, hys, fun y hy => ?_⟩
      obtain ⟨x, hx, heq⟩ := hmem y hy
      exact ⟨x, List.mem_cons_of_mem _ hx, heq⟩
    | ok body =>
      cases entries with
      | nil => cases h
      | cons entry entries =>
        obtain ⟨hx, hxs⟩ := List.cons.inj h
        obtain ⟨hrequest, hbody⟩ := Prod.mk.inj hx
        obtain ⟨ys, rfl, hys, hmem⟩ := ih hxs
        refine ⟨⟨message, entry.1, entry.2⟩ :: ys, rfl, ?_, fun y hy => ?_⟩
        · rw [List.map_cons, List.map_cons, ← hys, ← hbody]
          rfl
        · rcases List.mem_cons.1 hy with rfl | hy
          · exact ⟨_, List.mem_cons_self, rfl, hrequest.symm⟩
          · obtain ⟨x, hx, heq⟩ := hmem y hy
            exact ⟨x, List.mem_cons_of_mem _ hx, heq⟩

/-! ## The session's own record -/

theorem inspectSafe_move {b : DebugSession.Action V} {a : Action V N}
    (hok : Faithful args encode d a) (hm : sessionMove d a = some b) :
    InspectSafe d.lifetime.session b := by
  cases b with
  | lua i => trivial
  | run i =>
    have hmove := SessionLifetime.eq_of_sessionMove_run hm
    cases a with
    | acquire heap ar => cases hmove
    | answer result => cases hmove
    | other a =>
      obtain rfl : a = _ := hmove
      exact hok

theorem inspected_of_recorded (h : (inspectionSystem V N rt app P args).Reaches
    (fun x a => Faithful args encode x.1 a) (d, g)) : Inspected rt d.lifetime.session g := by
  refine (DebugSession.placed_inspected
    (((projects_session V N rt app P args).recorded {} Inspections.record).reaches ?_ ?_ h)).2
  · rintro ⟨d, g⟩ ⟨hd, rfl⟩
    -- `Run` has introduced itself to the controller before.
    have hstart : (DebugSession.inspectionSystem V rt).Reaches (fun x a => InspectSafe x.1 a)
        ({}, {}) := .init ⟨rfl, rfl⟩
    refine hstart.step (a := .run .step) (fun q r i st hr => nomatch hr) ?_
    exact System.recorded_step_iff.2 ⟨by rw [init_session hd]; rfl, rfl⟩
  · rintro ⟨d, g⟩ a x' b - hok - hm
    exact inspectSafe_move hok hm

theorem Recorded.answered (h : Recorded args encode d g stops)
    (hreach : (inspectionSystem V N rt app P args).Reaches (fun x a => Faithful args encode x.1 a)
      (d, g)) : Answered rt args encode d.lifetime.session stops := by
  obtain ⟨⟨xs, asked, ran, hflight, hasked, hran, htold⟩, hresponses, hrequests⟩ :=
    inspected_of_recorded hreach
  refine ⟨?_, h.dialogues, fun stop hstop => consistent_of_reachable (h.dialogues stop hstop)⟩
  have hentries := h.ran
  rw [hran, List.filterMap_append, eq_comm, List.map_eq_append_iff] at hentries
  obtain ⟨entries, pending, hanswers, hxs, hpending⟩ := hentries
  rw [List.filterMap_map] at hxs
  obtain ⟨ys, rfl, hys, hmem⟩ := exists_told hxs.symm
  refine ⟨ys, pending, ?_, hanswers, ?_, fun y hy => ?_⟩
  · have hlength := congrArg List.length hpending
    rw [List.length_map] at hlength
    rw [hlength]
    refine Nat.le_trans (List.length_filterMap_le _ _) ?_
    cases hflight <;> simp
  · rw [hresponses, htold, hys]
  · obtain ⟨x, hx, hmessage, hrequest⟩ := hmem y hy
    refine ⟨x.invocation, hrequest, ?_⟩
    rw [hmessage]
    refine hrequests (x.request, x.scheduler, x.invocation) ?_
    rw [hasked]
    exact List.mem_append_left _ (List.mem_map_of_mem hx)

/-- **Answers.** What the client reads in the responses to its inspection requests is what the
stops' providers have answered, each of them new and asked by this dialogue only. -/
theorem answers_of_reaches (V : Type*) (N : Type) [DecidableEq N] [LuaNumber N] (rt : Runtime)
    (app : Application V) (P : PathEquality) (args : InspectionArguments V) (encode : Answer → V) :
    ∀ d g stops, (stopSystem V N rt app P args).Reaches
      (fun x a => Faithful args encode x.1.1 a) ((d, g), stops) →
        Answered rt args encode d.lifetime.session stops := by
  intro d g stops h
  obtain ⟨hreach, hrec⟩ := recorded_of_reaches h
  exact hrec.answered hreach

/-! ## A stack trace -/

section Sample

open LuaStackTraceProvider (mixedState mixedTable)

/-- A session that has not received a message, and a controller with a breakpoint. -/
def watching : Debugger Unit Int64 where
  lifetime := {
    session := { run := .receive }
    controller := ((LuaDebugSessionController.enableDebug {}).call Stepping.exactPaths
      (.source ⟨⟨"@main.lua"⟩, [⟨1⟩]⟩)).2.setSession 0 }
  heap _ := mixedTable
  provider := { ar := (Stepping.mainLine 1).ar }

/-- The Lua thread comes to the breakpoint. -/
def mixedLine : HookCall (LuaValue Int64) where
  l := mixedState
  ar := {
    event := .line, name := none, what := some "Lua", source := some "@main.lua", currentline := 1,
    i_ci := 0 }
  i_ci_eq := rfl
  currentline_eq _ := rfl

theorem init_watching : (system Unit Int64 DebugSession.plainRuntime
    (SessionLifetime.plainApplication false) Stepping.exactPaths plainArguments).init watching :=
  ⟨_, System.Reachable.of_exec (T := Stepping.system (LuaValue Int64) Stepping.exactPaths)
    [.enable, .request (.source ⟨⟨"@main.lua"⟩, [⟨1⟩]⟩)] (s := {}) rfl rfl, rfl⟩

/-- The Lua thread stops, and waits for requests. -/
def toStop : List (Action Unit Int64) :=
  [.other (.event mixedLine), .acquire (fun _ => mixedTable) mixedLine.ar] ++
    List.replicate 5 (.other (.lua .step mixedLine.ar))

/-- A request for the stack arrives. -/
def toRequest : List (Action Unit Int64) :=
  toStop ++ [.other (.run (.message (.ok (some ⟨.ok "request", .ok ⟨1, "stackTrace", ()⟩⟩))))]

/-- The Lua thread takes the invocation and runs it. -/
def toAnswer : List (Action Unit Int64) :=
  [.other (.lua .step mixedLine.ar), .other (.lua .step mixedLine.ar), .answer (.ok ())]

theorem faithful_toStop (d : Debugger Unit Int64) :
    ∀ a ∈ toStop, Faithful plainArguments (fun _ => ()) d a := by
  simp [toStop, Faithful]

theorem faithful_toAnswer (d : Debugger Unit Int64) :
    ∀ a ∈ toAnswer, Faithful plainArguments (fun _ => ()) d a := by
  simp [toAnswer, Faithful]

theorem answers_of_reaches_stackTrace : ∃ (s : DebugSession Unit) (stops : List (Stop Int64)),
    stops.length = 1 ∧ (answers stops).length = 1 ∧ s.sent.length = 2 ∧
      Answered DebugSession.plainRuntime plainArguments (fun _ => ()) s stops := by
  let T := stopSystem Unit Int64 DebugSession.plainRuntime (SessionLifetime.plainApplication false)
    Stepping.exactPaths plainArguments
  let ok (x : (Debugger Unit Int64 × Inspections Unit) × List (Stop Int64)) :=
    Faithful plainArguments (fun _ => ()) x.1.1
  have hrequest : ∀ x, ∀ a ∈ toRequest, ok x a := fun x =>
    List.forall_mem_append.2 ⟨faithful_toStop x.1.1, by simp [ok, Faithful, InspectSafe]⟩
  have hanswer : ∀ x, ∀ a ∈ toAnswer, ok x a := fun x => faithful_toAnswer x.1.1
  have hstep : ∀ x : (Debugger Unit Int64 × Inspections Unit) × List (Stop Int64),
      x.1.1.lifetime.session.Unresumed → ok x (.other (.run .step)) := fun x h => h.inspectSafe
  have hcast : ∀ x, ok x (.other (.run (.cast (.ok ())))) := fun _ => trivial
  have hsent : ∀ x, ok x (.other (.run (.sent (.ok ())))) := fun _ => trivial
  have hinit : T.init ((watching, {}), []) := ⟨⟨init_watching, rfl⟩, rfl⟩
  have hasked := (System.Reaches.init hinit).run (.of_exec hrequest (by rfl))
  have hchecked := ((hasked.step (hstep _ trivial) rfl).step (hstep _ rfl) rfl).step (hcast _) rfl
  have hran := (hchecked.step (hstep _ trivial) rfl).run (.of_exec hanswer (by rfl))
  have hreach := ((hran.step (hstep _ trivial) rfl).step (hstep _ trivial) rfl).step (hsent _) rfl
  exact ⟨_, _, rfl, rfl, rfl, answers_of_reaches Unit Int64 _ _ _ _ _ _ _ _ hreach⟩

end Sample

end LuaToolkit.Debugger
