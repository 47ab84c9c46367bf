import Dialogue.Proofs.Flow.Values
import Dialogue.Proofs.Path.Spelling
import Dialogue.Proofs.Turn.Outbound
import Dialogue.Proofs.Turn.Private
import Mathlib.Data.List.TakeWhile

/-! # Names of variables

The nodes that give variables values take blanks off the names that they were given. What is left of
a blank name is the empty one, and it depends on the kind of node whether anything is done about it:
an input with a blank name is not compiled, a template and a call without one keep nothing, but a
node that sets a value does not look, and neither does a mapping.

* `Sets`: what a visit sets, for the nodes that set something themselves.
* `asks_sets`: a visit that finishes has set just that.
* `exists_nameless_iff`: whether the variable without a name is among it.
* `advance_invariant`, `turn_invariant`: what every node keeps of the variables, a turn keeps.
* `sets_nameless`: every compiled flow. -/

namespace Dialogue

namespace Text

theorem trim_eq_empty_iff {s : String} : trim s = "" ↔ isBlankText s = true := by
  have hall (cs : List Char) : (∀ c ∈ trimStartChars cs, isBlank c = true) ↔
      ∀ c ∈ cs, isBlank c = true := by
    constructor
    · intro h c hc
      rw [← List.takeWhile_append_dropWhile (p := isBlank) (l := cs), List.mem_append] at hc
      exact hc.elim List.mem_takeWhile_imp (h c)
    · exact fun h c hc => h c ((List.dropWhile_suffix _).subset hc)
  rw [trim, String.ofList_eq_empty_iff, trimChars, trimEndChars, List.reverse_eq_nil_iff,
    List.dropWhile_eq_nil_iff, isBlankText, List.all_eq_true]
  simp only [List.mem_reverse, hall]

end Text

namespace Action

/-- The node sets variables itself. -/
def IsSetter : Action → Prop
  | .input _ _ | .setValue _ _ | .template _ _ _ | .request _ => True
  | _ => False

/-- The node gives the variable without a name a value, if it gets that answer from a peer. -/
def SetsNameless (answer : Option Json) : Action → Prop
  | .setValue name _ => Text.isBlankText name = true
  | .request call => ∃ m ∈ call.mappings, Text.isBlankText m.name = true ∧
      ∃ body, answer = some body ∧ (Http.Call.find? m body).isSome = true
  | _ => False

end Action

namespace Turn

open Program Procedure

/-- The label that a template keeps, if it has a name for it. -/
def keptLabel (name : Option String) (label : String) : Fields :=
  ((keptIn name).map (·, Json.str label)).toList

/-- What a node sets in a step, one after the other, if it goes on by a transition and has got that
answer from a peer. Other nodes set nothing; scripts are their own masters. -/
inductive Scene.Sets (sc : Scene) (vars : Variables) :
    Action → Step → Transition → Option Json → Fields → Prop
  | value {node name : String} {v : Json} {t : Transition} :
      Sets sc vars (.setValue name v) (.run node) t none
        [(Text.trim name, vars.interpolateJson v)]
  | asked {node name : String} {ask : Option String} {t : Transition} :
      Sets sc vars (.input ask name) (.run node) t none []
  | reply {node name text : String} {ask : Option String} {t : Transition} :
      Sets sc vars (.input ask name) (.resume node (.text text)) t none
        [(Text.trim name, .str text)]
  | shown {node text : String} {buttons : List Button} {name : Option String} {t : Transition} :
      Sets sc vars (.template text buttons name) (.run node) t none []
  | click {node text id label : String} {buttons : List Button} {name : Option String}
      {t : Transition} :
      Sets sc vars (.template text buttons name) (.resume node (.click id label)) t none
        (keptLabel name label)
  | typed {node text s : String} {buttons : List Button} {name : Option String} {b : Button}
      {t : Transition} (h : buttonFor? s buttons vars = some b) :
      Sets sc vars (.template text buttons name) (.resume node (.text s)) t none
        (keptLabel name b.label)
  | again {node text s : String} {buttons : List Button} {name : Option String} {t : Transition}
      (h : buttonFor? s buttons vars = none) :
      Sets sc vars (.template text buttons name) (.resume node (.text s)) t none []
  | faulted {node : String} {call : Http.Call} :
      Sets sc vars (.request call) (.run node) (.branch (.fixed .error)) none []
  | answered {node : String} {call : Http.Call} {peer : Http.Attempt} {body : Json}
      (h : call.Answers vars sc.settings.engine.httpTimeout peer body) :
      Sets sc vars (.request call) (.run node) (.next (.fixed .success)) (some body)
        (call.kept body)
  | script {node body : String} {delta : Variables} {t : Transition}
      (h : Script.run body vars = .ok delta) : Sets sc vars (.script body) (.run node) t none delta
  | other {a : Action} {st : Step} {t : Transition} (h : ¬ a.IsSetter) : Sets sc vars a st t none []

/-- A visit that has finished leaves the variables with what it sets. -/
def Visit.Left (sc : Scene) (vars : Variables) (a : Action) (st : Step) : Visit → Prop
  | .finished o => ∃ answer sets,
      sc.Sets vars a st o.transition answer sets ∧ o.vars = Fields.merge vars sets
  | .cut | .failed _ => True

namespace Scene

variable {sc : Scene} {vars : Variables} {a : Action} {st : Step} {node : String}

/-! ### What visits set -/

/-- Nothing is set. -/
theorem left_via {t : Transition} {us : List Utterance} (h : sc.Sets vars a st t none []) :
    Visit.Left sc vars a st (.finished ⟨us, t, vars⟩) :=
  ⟨none, [], h, rfl⟩

/-- A failed call sets nothing. -/
theorem asks_callFailed_left (call : Http.Call) (fault : Http.Fault) :
    (sc.callFailed node fault vars).Asks Ask.Visiting
      (Visit.Left sc vars (.request call) (.run node)) := by
  unfold callFailed
  refine asks_log ?_
  dsimp only
  split_ifs
  · exact left_via .faulted
  · exact trivial

theorem asks_call_left (call : Http.Call) :
    (sc.visitCall node call vars).Asks Ask.Visiting
      (Visit.Left sc vars (.request call) (.run node)) := by
  unfold visitCall
  cases hreq : call.request vars sc.settings.engine.httpTimeout with
  | error fault => exact asks_callFailed_left call fault
  | ok request =>
    refine ⟨trivial, fun answered => ?_⟩
    cases answered with
    | none => exact trivial
    | some attempt =>
      dsimp only [Program.bind]
      cases hread : call.read vars request attempt with
      | error fault => exact asks_callFailed_left call fault
      | ok body =>
        exact asks_answered call body
          ⟨some body, _, .answered ⟨request, hreq, hread⟩, Http.Call.store_eq⟩

theorem asks_clicked_left {text label id : String} {buttons : List Button} {name : Option String}
    (h : ∀ t, sc.Sets vars (.template text buttons name) st t none (keptLabel name label)) :
    (sc.clicked node name id label vars).Asks Ask.Visiting
      (Visit.Left sc vars (.template text buttons name) st) := by
  unfold clicked
  refine asks_log ⟨none, _, h _, ?_⟩
  unfold keptLabel
  cases keptIn name <;> rfl

/-- A script sets what it gives. -/
theorem asks_script_left (body : String) :
    (sc.visitScript node body vars).Asks Ask.Visiting
      (Visit.Left sc vars (.script body) (.run node)) := by
  unfold visitScript
  refine ⟨trivial, fun went => ?_⟩
  cases went with
  | false => exact trivial
  | true =>
    cases h : Script.run body vars with
    | error f => exact trivial
    | ok delta => exact asks_log ⟨none, delta, .script h, rfl⟩

/-- Other nodes set nothing. -/
theorem left_of_revised {v : Visit} (ha : ¬ a.IsSetter) (hs : a.kind ≠ .script)
    (h : Visit.Revised a vars v) : Visit.Left sc vars a st v := by
  cases v with
  | cut | failed => exact trivial
  | finished o =>
    refine ⟨none, [], .other ha, ?_⟩
    have h : a.Revises vars o.vars := h
    generalize o.vars = after at h ⊢
    cases h with
    | same => rfl
    | script => exact absurd rfl hs
    | value | text | label | answer => exact absurd trivial ha

theorem asks_run_left (a : Action) :
    (sc.run node a vars).Asks Ask.Visiting (Visit.Left sc vars a (.run node)) := by
  cases a with
  | input ask name =>
    unfold run
    dsimp only
    cases ask.filter (!Text.isBlankText ·) <;> exact left_via .asked
  | setValue name v => exact asks_log ⟨none, _, .value, rfl⟩
  | script body => exact asks_script_left body
  | request call => exact asks_call_left call
  | template text buttons name => exact left_via .shown
  | start | message | condition | delay | anchor | goto | queue | schedule | finish =>
    exact (asks_run _).imp fun v hv => left_of_revised id nofun hv

theorem asks_resume_left (a : Action) (reply : Reply) :
    (sc.resume node a reply vars).Asks Ask.Visiting
      (Visit.Left sc vars a (.resume node reply)) := by
  cases a with
  | input ask name =>
    cases reply with
    | text s => exact ⟨none, _, .reply, rfl⟩
    | click id label => exact trivial
  | template text buttons name =>
    cases reply with
    | click id label => exact asks_clicked_left fun _ => .click
    | text s =>
      unfold resume
      dsimp only
      cases h : buttonFor? s buttons vars with
      | some b => exact asks_clicked_left fun _ => .typed h
      | none => exact left_via (.again h)
  | _ => exact trivial

/-- **A visit that finishes** has set what it sets, whatever is answered. -/
theorem asks_sets (n : Flow.Node) (st : Step) :
    (sc.visit n st vars).Asks Ask.Visiting (Visit.Left sc vars n.action st) := by
  refine ⟨trivial, fun aborted => ?_⟩
  cases aborted with
  | true => cases st <;> exact trivial
  | false =>
    cases st with
    | run node => exact asks_run_left n.action
    | resume node reply => exact asks_resume_left n.action reply

/-- Nodes that are neither setters nor scripts set nothing. -/
theorem Sets.eq_nil {t : Transition} {answer : Option Json} {sets : Fields}
    (h : sc.Sets vars a st t answer sets) (ha : ¬ a.IsSetter) (hs : a.kind ≠ .script) :
    sets = [] := by
  cases h with
  | other => rfl
  | script => exact absurd rfl hs
  | _ => exact absurd trivial ha

/-! ### The variable without a name -/

theorem ne_empty_of_keptIn {name : Option String} {kept : String} (h : keptIn name = some kept) :
    Text.trim kept ≠ "" := by
  obtain ⟨n, -, hn⟩ := Option.bind_eq_some_iff.mp h
  split at hn
  · cases hn
  · next hblank =>
    cases hn
    rwa [Text.trim_trim, ne_eq, Text.trim_eq_empty_iff]

/-- A label is not kept without a name. -/
theorem ne_empty_of_mem_keptLabel {name : Option String} {label : String} {m : String × Json}
    (h : m ∈ keptLabel name label) : Text.trim m.1 ≠ "" := by
  unfold keptLabel at h
  obtain ⟨kept, hkept, rfl⟩ := Option.map_eq_some_iff.mp (Option.mem_toList.mp h)
  exact ne_empty_of_keptIn hkept

/-- Of an answer, the mappings without a name keep what they find under the empty one. -/
theorem exists_mem_kept_iff {call : Http.Call} {body : Json} :
    (∃ m ∈ call.kept body, Text.trim m.1 = "") ↔
      ∃ m ∈ call.mappings, Text.isBlankText m.name = true ∧
        (Http.Call.find? m body).isSome = true := by
  have hfound (f : String × Json) : (f ∈ call.mappings.filterMap fun m =>
      (Http.Call.find? m body).map (Text.trim m.name, ·)) ↔
        ∃ m ∈ call.mappings, ∃ v, Http.Call.find? m body = some v ∧ (Text.trim m.name, v) = f := by
    rw [List.mem_filterMap]
    exact exists_congr fun m => and_congr_right fun _ => Option.map_eq_some_iff
  have hwhole (f : String × Json) (h : f ∈
      (((call.responseVariable.map Text.trim).filter (· ≠ "")).map (·, body)).toList) :
        Text.trim f.1 ≠ "" := by
    obtain ⟨name, hname, rfl⟩ := Option.map_eq_some_iff.mp (Option.mem_toList.mp h)
    obtain ⟨hsome, hne⟩ := Option.filter_eq_some_iff.mp hname
    obtain ⟨n, -, rfl⟩ := Option.map_eq_some_iff.mp hsome
    rw [Text.trim_trim]
    exact of_decide_eq_true hne
  constructor
  · rintro ⟨f, hf, hblank⟩
    rcases List.mem_append.mp hf with hf | hf
    · obtain ⟨m, hm, v, hv, rfl⟩ := (hfound f).mp hf
      rw [Text.trim_trim, Text.trim_eq_empty_iff] at hblank
      exact ⟨m, hm, hblank, Option.isSome_of_eq_some hv⟩
    · exact absurd hblank (hwhole f hf)
  · rintro ⟨m, hm, hblank, hsome⟩
    obtain ⟨v, hv⟩ := Option.isSome_iff_exists.mp hsome
    refine ⟨(Text.trim m.name, v), List.mem_append_left _ ((hfound _).mpr ⟨m, hm, v, hv, rfl⟩), ?_⟩
    rwa [Text.trim_trim, Text.trim_eq_empty_iff]

/-- **Who sets the variable without a name**: a node that sets a value under a blank name, and a
call one of whose mappings has a blank name and finds something. -/
theorem exists_nameless_iff {t : Transition} {answer : Option Json} {sets : Fields}
    (h : sc.Sets vars a st t answer sets) (ha : a.IsSetter)
    (hinput : ∀ ask name, a = .input ask name → Text.isBlankText name = false) :
    (∃ m ∈ sets, Text.trim m.1 = "") ↔ a.SetsNameless answer := by
  have hone (name : String) (v : Json) :
      (∃ m ∈ [(Text.trim name, v)], Text.trim m.1 = "") ↔ Text.isBlankText name = true := by
    rw [← Text.trim_eq_empty_iff]
    simp [Text.trim_trim]
  have hnone : ¬ ∃ m ∈ ([] : Fields), Text.trim m.1 = "" := nofun
  have hlabel (name : Option String) (label : String) :
      ¬ ∃ m ∈ keptLabel name label, Text.trim m.1 = "" :=
    fun ⟨_, hm, hblank⟩ => ne_empty_of_mem_keptLabel hm hblank
  cases h with
  | value => exact hone _ _
  | asked | shown | again => exact iff_of_false hnone id
  | @reply node name text ask =>
    refine iff_of_false ?_ id
    rw [hone, hinput ask name rfl]
    exact Bool.false_ne_true
  | click | typed => exact iff_of_false (hlabel _ _) id
  | faulted =>
    refine iff_of_false hnone ?_
    rintro ⟨_, -, -, _, h, -⟩
    cases h
  | @answered node call peer body =>
    rw [exists_mem_kept_iff]
    refine exists_congr fun m => and_congr_right fun _ => and_congr_right fun _ => ?_
    exact ⟨fun hsome => ⟨body, rfl, hsome⟩, fun ⟨_, he, hsome⟩ => Option.some.inj he ▸ hsome⟩
  | script => exact ha.elim
  | other hnot => exact absurd ha hnot

end Scene

/-! ### Variables along a turn -/

theorem asks_any {α : Type} (p : Program α) : p.Asks (fun _ => True) fun _ => True := by
  induction p with
  | done a => exact trivial
  | ask a next ih => exact ⟨trivial, ih⟩

section
variable {s : Session}

/-- The session is kept with its variables. -/
theorem asks_commit_vars (spoken : List Message) (delta : Variables) :
    (commit s spoken delta).run.Asks (fun _ => True)
      fun o => ∀ k, o = .ok k → ∀ y, k = some y → y.vars = s.vars := by
  have hnone : ∀ k, (.ok none : Outcome (Option Session)) = .ok k →
      ∀ y, k = some y → y.vars = s.vars := by
    rintro _ h _ rfl
    cases h
  unfold commit
  refine asks_lift ((asks_any isAborted).imp fun aborted _ => ?_)
  show Asks _ _ (ExceptT.run (if aborted = true then _ else _))
  split
  · exact hnone
  refine asks_then ((asks_any (sessionStatus s.id).run).imp fun _ _ status _ => ?_)
  split
  · exact hnone
  refine asks_lift ((asks_any now).imp fun t _ => ?_)
  refine asks_then ((asks_any (saveSession _).run).imp fun _ _ _ _ => ?_)
  have hdone : ∀ k, (.ok (some { s with updateTime := t }) : Outcome (Option Session)) = .ok k →
      ∀ y, k = some y → y.vars = s.vars := by
    rintro _ h _ rfl
    cases h
    rfl
  refine asks_lift ((asks_any _).imp fun _ _ => ?_)
  split
  · exact hdone
  · exact asks_lift ((asks_any _).imp fun _ _ => hdone)

namespace Scene

variable {sc : Scene} {Q : Variables → Prop}

/-- What is reported of a turn, or in hand where it goes on, has variables of a sort. -/
def Bears (Q : Variables → Prop) (o : Outcome Progress) : Prop :=
  ∀ p, o = .ok p → Q p.session.vars

theorem bears_over {rep : Report} (h : Q rep.session.vars) :
    (pure (.done rep) : Procedure Progress).run.Asks (fun _ => True) (Bears Q) := by
  rintro _ hp
  cases hp
  exact h

/-- A question before what is reported. -/
theorem bears_aside {p : Program Unit} {f : Unit → Procedure Progress}
    (h : (f ()).run.Asks (fun _ => True) (Bears Q)) :
    ((p : Procedure Unit) >>= f).run.Asks (fun _ => True) (Bears Q) :=
  asks_lift ((asks_any p).imp fun _ _ => h)

theorem bears_stop (hs : Q s.vars) (h : Halt) (steps : Nat) :
    (sc.stop s h steps).run.Asks (fun _ => True) fun o =>
      ∀ rep, o = .ok rep → Q rep.session.vars := by
  unfold stop
  refine asks_lift ((asks_any _).imp fun m _ => ?_)
  refine asks_then ((asks_commit_vars (s := haltedBy s h m) _ _).imp fun _ hk k hok => ?_)
  cases k with
  | none =>
    rintro _ hp
    cases hp
    exact hs
  | some y =>
    refine asks_lift ((asks_any _).imp fun _ _ => ?_)
    rintro _ hp
    cases hp
    rw [hk _ hok y rfl]
    exact hs

theorem bears_halt (hs : Q s.vars) (h : Halt) (steps : Nat) :
    (do return .done (← sc.stop s h steps) : Procedure Progress).run.Asks (fun _ => True)
      (Bears Q) :=
  asks_then ((bears_stop hs h steps).imp fun _ hrep rep hok => bears_over (hrep rep hok))

theorem bears_follow (hs : Q s.vars) (node : String) (r : Route) (steps : Nat) :
    (sc.follow s node r steps).run.Asks (fun _ => True) (Bears Q) := by
  cases r with
  | go next =>
    rintro _ hp
    cases hp
    exact hs
  | finish | pause => exact bears_aside (bears_over hs)
  | handoff | close => exact bears_aside (bears_aside (bears_over hs))
  | halt kind text retryable => exact bears_halt hs _ steps

theorem bears_conclude (node : String) (o : Output) (steps : Nat) (h : Q o.vars) :
    (sc.conclude s node o steps).run.Asks (fun _ => True) (Bears Q) := by
  unfold conclude
  refine asks_lift ((asks_any _).imp fun spoken _ => ?_)
  have hafter : Q (after s node o.vars spoken (o.transition.route sc.flow node)).vars := by
    rwa [vars_after]
  refine asks_then ((asks_commit_vars spoken _).imp fun _ hk k hok => ?_)
  cases k with
  | none => exact bears_aside (bears_over hafter)
  | some y =>
    rw [← hk _ hok y rfl] at hafter
    exact bears_aside (bears_follow hafter node _ steps)

/-- **One node**: what its visit keeps of the variables, the step keeps. -/
theorem advance_invariant (st : Step) (steps : Nat) (hs : Q s.vars)
    (h : ∀ n ∈ sc.flow.nodes, (sc.visit n st s.vars).Asks Ask.Visiting
      fun v => ∀ o, v = .finished o → Q o.vars) :
    (sc.advance s st steps).run.Asks (fun _ => True) (Bears Q) := by
  unfold advance
  dsimp only
  cases hn : sc.flow.node? st.node with
  | none => exact bears_halt hs _ steps
  | some n =>
    have hvisit := (h n (List.mem_of_find?_eq_some hn)).mono fun _ _ => trivial
    refine bears_aside (asks_lift (hvisit.imp fun v hv => ?_))
    cases v with
    | cut => exact bears_aside (bears_over hs)
    | failed f =>
      dsimp only
      split
      · rintro _ hp
        cases hp
      · exact bears_aside (bears_halt hs _ steps)
    | finished o => exact bears_conclude st.node o steps (hv o rfl)

/-- **A turn** keeps of the variables what the visits of all nodes keep. -/
theorem turn_invariant (h : ∀ n ∈ sc.flow.nodes, ∀ st vars, Q vars →
      (sc.visit n st vars).Asks Ask.Visiting fun v => ∀ o, v = .finished o → Q o.vars)
    (st : Step) (hs : Q s.vars) :
    (sc.turn s st).run.Asks (fun _ => True) fun o => ∀ rep, o = .ok rep → Q rep.session.vars := by
  have hwalk (budget : Nat) : ∀ (s : Session) (steps : Nat) (st : Step), Q s.vars →
      (sc.walk budget steps s st).run.Asks (fun _ => True)
        fun o => ∀ rep, o = .ok rep → Q rep.session.vars := by
    induction budget with
    | zero => exact fun s steps st hs => bears_stop hs _ steps
    | succ budget ih =>
      intro s steps st hs
      rw [walk_succ]
      have hstep := advance_invariant st (steps + 1) hs fun n hn => h n hn st s.vars hs
      refine asks_then (hstep.imp fun _ hp p hok => ?_)
      cases p with
      | on y next => exact ih y (steps + 1) (.run next) (hp _ hok)
      | done rep =>
        rintro _ hrep
        cases hrep
        exact hp _ hok
  exact hwalk _ (begun s) 0 st hs

end Scene

end

/-! ### Compiled flows -/

/-- What is read off data has passed its checks. -/
theorem check_of_ofData {k : NodeKind} {data : Json} {a : Action}
    (h : Action.ofData k data = .ok a) : a.check = .ok () := by
  unfold Action.ofData at h
  cases hd : Action.decoder? k with
  | none => rw [hd] at h; cases h
  | some dec =>
    rw [hd] at h
    dsimp only at h
    split at h
    · cases h
    · obtain ⟨b, -, h⟩ := bind_eq_ok.mp h
      obtain ⟨_, hcheck, h⟩ := bind_eq_ok.mp h
      cases h
      exact hcheck

/-- The inputs of a compiled flow have names. -/
theorem not_blank_of_compile {g : Graph} {f : Flow} {id name : String} {version : Nat}
    {ask : Option String} {n : Flow.Node} (hc : Flow.compile id version g = .ok f)
    (hn : n ∈ f.nodes) (ha : n.action = .input ask name) : Text.isBlankText name = false := by
  obtain ⟨x, -, hx⟩ := Flow.compile_nodes hc n hn
  rw [ha] at hx
  refine Bool.eq_false_iff.mpr fun hblank => ?_
  have hfails : (Action.input ask name).check = .error .blankVariable := if_pos hblank
  cases hfails.symm.trans (check_of_ofData hx)

/-- A variable that is not among what is set stays as it is. -/
theorem get?_merge_of_ne {sets : Fields} {name : String} (h : ∀ m ∈ sets, m.1 ≠ name)
    (vars : Variables) : (Fields.merge vars sets).get? name = vars.get? name := by
  induction sets generalizing vars with
  | nil => rfl
  | cons m rest ih =>
    rw [List.forall_mem_cons] at h
    show (Fields.merge (Fields.insert m.1 m.2 vars) rest).get? name = _
    rw [ih h.2, Fields.get?_insert_of_ne h.1.symm]

namespace Scene

/-- **What is set without a name.** In a compiled flow a visit that finishes leaves the variables
with what its node sets, and if the node is one that sets variables itself, the variable without a
name is among them exactly if it sets a value under a blank name, or calls a peer and a mapping with
a blank name finds something in the answer: never the reply to an input, the label of a button or
the whole of an answer. So without such nodes and scripts, that variable is after any turn as it was
before. -/
theorem sets_nameless {sc : Scene} {id : String} {version : Nat} {g : Graph}
    (hc : Flow.compile id version g = .ok sc.flow) :
    (∀ n ∈ sc.flow.nodes, ∀ (st : Step) (vars : Variables),
      (sc.visit n st vars).Asks Ask.Visiting fun v => ∀ o, v = .finished o →
        ∃ answer sets, sc.Sets vars n.action st o.transition answer sets ∧
          o.vars = Fields.merge vars sets ∧ (n.action.IsSetter →
            ((∃ m ∈ sets, Text.trim m.1 = "") ↔ n.action.SetsNameless answer))) ∧
    ((∀ n ∈ sc.flow.nodes, n.action.kind ≠ .script ∧ ∀ answer, ¬ n.action.SetsNameless answer) →
      ∀ (s : Session) (st : Step), (sc.turn s st).run.Asks (fun _ => True) fun o =>
        ∀ rep, o = .ok rep → rep.session.vars.get? "" = s.vars.get? "") := by
  have hvisit (n : Flow.Node) (hn : n ∈ sc.flow.nodes) (st : Step) (vars : Variables) :
      (sc.visit n st vars).Asks Ask.Visiting fun v => ∀ o, v = .finished o →
        ∃ answer sets, sc.Sets vars n.action st o.transition answer sets ∧
          o.vars = Fields.merge vars sets ∧ (n.action.IsSetter →
            ((∃ m ∈ sets, Text.trim m.1 = "") ↔ n.action.SetsNameless answer)) := by
    refine (asks_sets n st).imp ?_
    rintro _ hleft o rfl
    obtain ⟨answer, sets, hsets, hvars⟩ := hleft
    exact ⟨answer, sets, hsets, hvars, fun ha =>
      exists_nameless_iff hsets ha fun ask name he => not_blank_of_compile hc hn he⟩
  refine ⟨hvisit, fun hclean s st => ?_⟩
  refine turn_invariant (Q := fun vars => vars.get? "" = s.vars.get? "")
    (fun n hn st vars hvars => ?_) st rfl
  obtain ⟨hscript, hnone⟩ := hclean n hn
  refine (hvisit n hn st vars).imp fun v hv o ho => ?_
  obtain ⟨answer, sets, hsets, hmerge, hiff⟩ := hv o ho
  rw [hmerge, get?_merge_of_ne (fun m hm hname => ?_), hvars]
  by_cases ha : n.action.IsSetter
  · have hblank : Text.trim m.1 = "" := by
      rw [hname, Text.trim_eq_empty_iff]
      rfl
    exact hnone answer ((hiff ha).mp ⟨m, hm, hblank⟩)
  · rw [hsets.eq_nil ha hscript] at hm
    cases hm

/-! ### A value under a blank name -/

/-- A node that sets a value, under a name of one blank. -/
def blankSetter : Flow.Node :=
  ⟨"v", .setValue, .obj [("value", .int 1), ("variableName", .str " ")], .setValue " " (.int 1)⟩

/-- A graph with that node. -/
def blankGraph : Graph :=
  ⟨[⟨"start", "start", .null, none⟩, ⟨"v", "setValue", blankSetter.data, none⟩],
    [⟨"e1", "start", "v", none⟩]⟩

/-- The graph, compiled. -/
def blankFlow : Flow :=
  ⟨"f1", 1, [⟨"start", .start, .null, .start none⟩, blankSetter],
    [⟨"e1", "start", "v", .plain⟩], [], [], "start"⟩

/-- The node sets the variable without a name. -/
theorem sets_nameless_blank : Flow.compile "f1" 1 blankGraph = .ok blankFlow ∧
    (visit ⟨"s1", blankFlow, .default⟩ blankSetter (.run "v") []).Asks Ask.Visiting fun v =>
      ∀ o, v = .finished o → ∃ sets, o.vars = Fields.merge [] sets ∧
        ∃ m ∈ sets, Text.trim m.1 = "" := by
  have hc : Flow.compile "f1" 1 blankGraph = .ok blankFlow := rfl
  refine ⟨hc, ?_⟩
  obtain ⟨hvisit, -⟩ := @sets_nameless ⟨"s1", blankFlow, .default⟩ _ _ _ hc
  have hmem : blankSetter ∈ blankFlow.nodes := List.mem_cons_of_mem _ List.mem_cons_self
  refine (hvisit blankSetter hmem (.run "v") []).imp fun v hv o ho => ?_
  obtain ⟨answer, sets, -, hmerge, hiff⟩ := hv o ho
  have hblank : Text.isBlankText " " = true := by decide
  exact ⟨sets, hmerge, (hiff trivial).mpr hblank⟩

/-- **A variable without a name**: the graph compiles, and the visit leaves one. -/
theorem nameless_blank : Flow.compile "f1" 1 blankGraph = .ok blankFlow ∧
    ∃ o, (World.live World.calmly
      (visit ⟨"s1", blankFlow, .default⟩ blankSetter (.run "v") []) (.new .empty 0)).2.2 =
        .finished o ∧ o.vars = [("", .int 1)] := by
  refine ⟨rfl, _, rfl, ?_⟩
  decide

end Scene

end Turn

end Dialogue
