import Dialogue.Proofs.Flow.Authored
import Dialogue.Proofs.Turn.Outcome

/-! # Branches

A node may want to go on by a branch: a template by the button that was clicked, a condition by the
rule that holds or by none, a request by its failure. A branch that is drawn is honoured if the turn
goes on where its only edge leads, and halts at the node, so that it can be tried again, where there
is no such place. A node asks first whether the flow has a route by the branch, and the flow has
none if every edge of the branch is lost in case nodes. So a template goes the only other way then,
and a condition says that nothing holds.

* `route_branch`, `route_only`: which transitions honour a branch.
* `visitCall_failed`: what becomes of a call that fails.
* `Wants.visit`: on which route a node decides that wants a branch.
* `honours_iff`: a step honours the branch that its node wants unless it strays. -/

namespace Dialogue

/-- The call fails with that answer: it cannot be made, or the answer is no success. -/
def Http.Call.Fails (call : Http.Call) (vars : Variables) (timeout : Nat) (peer : Http.Attempt) :
    Prop :=
  ∀ request, call.request vars timeout = .ok request →
    ∃ fault, call.read vars request peer = .error fault

namespace Turn

open Program Procedure World

/-! ### Honouring a branch -/

/-- A branch as drawn decides on the route: to the node to which its only edge leads, or to a halt
that can be tried again where there is no such node. -/
def Route.Honours (g : Graph) (node key : String) : Route → Prop
  | .go next => ∃ e, g.branch node key = [e] ∧ g.Leads e next
  | .halt kind _ again => kind = .graphIntegrity ∧ again = true ∧
      ∀ e t, g.branch node key = [e] → ¬ g.Leads e t
  | _ => False

/-- The step went on where the only edge of a branch leads, or it halted at the node, so that it can
be tried again, where there is no such place. -/
def Progress.Honours (g : Graph) (node key : String) : Progress → Prop
  | .on _ next => ∃ e, g.branch node key = [e] ∧ g.Leads e next
  | .done rep => rep.ending = .halted ∧
      (∃ text, rep.session.halt = some ⟨node, .graphIntegrity, text, true⟩) ∧
      ∀ e t, g.branch node key = [e] → ¬ g.Leads e t

/-- The branch that the node of a step wants to take, if the step is made in these moments. -/
inductive Scene.Wants (sc : Scene) (e : Nat → Moment) (vars : Variables) :
    Action → Step → Handle → Prop
  /-- A button was clicked. -/
  | click {text : String} {buttons : List Button} {name : Option String} {node id label : String} :
      Wants sc e vars (.template text buttons name) (.resume node (.click id label)) (.branch id)
  /-- The label of a button was written. -/
  | label {text t : String} {buttons : List Button} {name : Option String} {node : String}
      {b : Button} (h : buttonFor? t buttons vars = some b) :
      Wants sc e vars (.template text buttons name) (.resume node (.text t)) (.branch b.id)
  /-- A rule holds. -/
  | rule {rules : List Condition} {hasElse : Bool} {node : String} {rule : Condition}
      (h : Condition.first? rules vars = some rule) :
      Wants sc e vars (.condition rules hasElse) (.run node) (.branch rule.id)
  /-- No rule holds. -/
  | otherwise {rules : List Condition} {node : String} (h : Condition.first? rules vars = none) :
      Wants sc e vars (.condition rules true) (.run node) (.fixed .otherwise)
  /-- The request fails. -/
  | failed {call : Http.Call} {node : String}
      (h : ∀ i, call.Fails vars sc.settings.engine.httpTimeout (e i).circumstance.peer) :
      Wants sc e vars (.request call) (.run node) (.fixed .error)

/-- A node does not honour a branch of which nothing is left: a template that can go another way,
and a condition. -/
inductive Scene.Strays (sc : Scene) (g : Graph) (node : String) : Action → Handle → Prop
  | button {text id : String} {buttons : List Button} {name : Option String}
      {way : Option String} (h : g.Lost node id) (hway : sc.flow.nextSingle node = .ok way) :
      Strays sc g node (.template text buttons name) (.branch id)
  | otherwise {rules : List Condition} {hasElse : Bool}
      (h : g.Lost node (Handle.fixed .otherwise).key) :
      Strays sc g node (.condition rules hasElse) (.fixed .otherwise)

variable {g : Graph} {f : Flow} {id : String} {v : Nat} {node key : String} {way : Handle}

theorem Progress.Takes.honours_congr {r : Route} {p : Progress} (h : p.Takes node r) :
    p.Honours g node key ↔ r.Honours g node key := by
  cases r with
  | go next =>
    cases p with
    | on s target =>
      obtain rfl : target = next := h
      exact Iff.rfl
    | done rep => exact h.elim
  | halt kind text again =>
    cases p with
    | on s target => exact h.elim
    | done rep =>
      obtain ⟨hending, hhalt⟩ := h
      constructor
      · rintro ⟨-, ⟨text', heq⟩, hl⟩
        cases hhalt.symm.trans heq
        exact ⟨rfl, rfl, hl⟩
      · rintro ⟨rfl, rfl, hl⟩
        exact ⟨hending, ⟨text, hhalt⟩, hl⟩
  | finish | pause | handoff | close =>
    cases p with
    | on s target => exact h.elim
    | done rep =>
      exact iff_of_false (fun hh => nomatch h.symm.trans hh.1) nofun

/-! ### Transitions -/

/-- A transition by a branch honours it. -/
theorem route_branch (h : Flow.compile id v g = .ok f) (hn : g.Executes node)
    (hb : g.branch node way.key ≠ []) :
    ((Transition.branch way).route f node).Honours g node way.key := by
  simp only [Transition.route]
  by_cases hl : ∃ e t, g.branch node way.key = [e] ∧ g.Leads e t
  · obtain ⟨e, t, he, ht⟩ := hl
    rw [Flow.next_of_leads h hn he ht]
    exact ⟨e, he, ht⟩
  · simp only [not_exists, not_and] at hl
    obtain ⟨x, hx⟩ := Flow.next_of_lost h hn hb hl
    rw [hx]
    exact ⟨rfl, rfl, hl⟩

/-- The only way on honours a lost branch just where it cannot be told. -/
theorem route_only (hl : g.Lost node key) :
    (Transition.only.route f node).Honours g node key ↔ ∀ o, f.nextSingle node ≠ .ok o := by
  have hlost (e : Graph.Edge) (t : String) (he : g.branch node key = [e]) : ¬ g.Leads e t :=
    hl e (by rw [he]; exact List.mem_singleton_self e) t
  simp only [Transition.route]
  cases hs : f.nextSingle node with
  | error x => exact iff_of_true ⟨rfl, rfl, hlost⟩ nofun
  | ok o =>
    refine iff_of_false ?_ fun hne => hne o rfl
    cases o with
    | none => exact nofun
    | some t =>
      rintro ⟨e, he, ht⟩
      exact hlost e t he ht


/-! ### Visits -/

namespace Scene

variable {sc : Scene} {e : Nat → Moment} {vars : Variables} {K : Prop} {w : World}

theorem given_log {α : Type} {P : Moment → Prop} {post : α → World → Prop} {text : String}
    {f : Unit → Program α} (h : ∀ w, (f ()).Given P post w) :
    (sc.log node text >>= f).Given P post w :=
  fun _ _ _ _ => h _

/-- Why a visit is cut. -/
theorem decides_cut {R : Route → Prop} (hK : K) : sc.Decides node K R .cut w :=
  ⟨fun _ => hK, nofun, nofun⟩

theorem decides_via {R : Route → Prop} {t : Transition} (h : R (t.route sc.flow node)) :
    sc.Decides node K R (.via vars t) w := by
  refine ⟨nofun, nofun, fun r' hr => ?_⟩
  cases hr
  exact h

theorem decides_failed {R : Route → Prop} {x : Failure} (hx : x.isSession = false)
    (h : R (.halt (haltKind x) x.message true)) : sc.Decides node K R (.failed x) w := by
  refine ⟨nofun, fun f hf => ?_, fun r' hr => ?_⟩
  · cases hf
    exact hx
  · cases hr
    exact h

/-- The answer to a request is what the peer gives then, unless the turn was told to stop. -/
theorem exchange_given (hK : (∃ i, (e i).circumstance.aborted = true) → K) (r : Http.Request) :
    (question (.exchange r)).Given (fun m => ∃ i, m = e i)
      (fun (x : Option Http.Attempt) _ => (x = none → K) ∧
        ∀ y, x = some y → ∃ i, y = (e i).circumstance.peer) w := by
  rintro m ⟨i, rfl⟩
  show (_ → _) ∧ _
  simp only [reply, answer]
  split
  · refine ⟨fun _ => hK ⟨i, ‹_›⟩, fun y hy => ?_⟩
    cases hy
  · refine ⟨fun hy => ?_, fun y hy => ⟨i, ?_⟩⟩
    · cases hy
    · cases hy
      rfl

/-- What becomes of a failed call: the turn goes its way for errors, or else the visit fails. -/
def GivesUp (sc : Scene) (node : String) (vars : Variables) (v : Visit) : Prop :=
  if sc.flow.hasRoute node (.fixed .error) then v = .via vars (.branch (.fixed .error))
  else ∃ fault : Http.Fault, v = .failed (.plain .external fault.message)

theorem GivesUp.eq_or {v : Visit} (hv : sc.GivesUp node vars v) :
    v = .via vars (.branch (.fixed .error)) ∨
      ∃ fault : Http.Fault, v = .failed (.plain .external fault.message) := by
  unfold GivesUp at hv
  split at hv
  · exact .inl hv
  · exact .inr hv

theorem callFailed_given {P : Moment → Prop} (fault : Http.Fault) :
    (sc.callFailed node fault vars).Given P (fun v _ => sc.GivesUp node vars v) w := by
  refine given_log fun w => ?_
  unfold GivesUp
  dsimp only
  split
  · rfl
  · exact ⟨fault, rfl⟩

/-- A call that fails is given up, wherever it fails. -/
theorem visitCall_failed {call : Http.Call} (hK : (∃ i, (e i).circumstance.aborted = true) → K)
    (hfails : ∀ i, call.Fails vars sc.settings.engine.httpTimeout (e i).circumstance.peer) :
    (sc.visitCall node call vars).Given (fun m => ∃ i, m = e i)
      (fun v _ => v = .cut ∧ K ∨ sc.GivesUp node vars v) w := by
  have hgiven (fault : Http.Fault) (w : World) :
      (sc.callFailed node fault vars).Given (fun m => ∃ i, m = e i)
        (fun v _ => v = .cut ∧ K ∨ sc.GivesUp node vars v) w :=
    (callFailed_given fault).imp fun _ _ => .inr
  unfold visitCall
  split
  · exact hgiven _ _
  · rename_i request hrequest
    refine given_bind ((exchange_given hK request).imp fun answer w hanswer => ?_)
    split
    · exact .inl ⟨rfl, hanswer.1 rfl⟩
    · obtain ⟨j, rfl⟩ := hanswer.2 _ rfl
      obtain ⟨fault, hfault⟩ := hfails j request hrequest
      rw [hfault]
      exact hgiven _ _

section
variable (h : Flow.compile id v g = .ok sc.flow) (hn : g.Executes node) {P : Moment → Prop}
include h hn

/-- A clicked button is honoured unless the template goes the only other way. -/
theorem clicked_given {text branch label : String} {buttons : List Button} {name : Option String}
    (hb : g.branch node branch ≠ []) :
    (sc.clicked node name branch label vars).Given P
      (sc.Decides node K fun r => r.Honours g node branch ↔
        ¬ sc.Strays g node (.template text buttons name) (.branch branch)) w := by
  refine given_log fun w => decides_via ?_
  have hroute := Flow.hasRoute_iff h hn (.branch branch)
  split
  · have hl := hroute.mp ‹_›
    refine iff_of_true (route_branch h hn hb) ?_
    rintro ⟨hl', -⟩
    exact hl hl'
  · have hl : g.Lost node branch := Classical.not_not.mp (mt hroute.mpr ‹_›)
    rw [route_only hl]
    constructor
    · rintro hnone ⟨-, hway⟩
      exact hnone _ hway
    · exact fun hs o ho => hs (.button hl ho)

/-- A failed call is honoured. -/
theorem GivesUp.honours {v : Visit} {r : Route} (hv : sc.GivesUp node vars v)
    (hr : v.route? sc.flow node = some r) : r.Honours g node FixedHandle.error.name := by
  have hroute := Flow.hasRoute_iff h hn (.fixed .error)
  unfold GivesUp at hv
  split at hv
  · obtain rfl := hv
    cases hr
    refine route_branch h hn fun hnil => hroute.mp ‹_› fun e he => ?_
    rw [hnil] at he
    cases he
  · obtain ⟨fault, rfl⟩ := hv
    cases hr
    have hl : g.Lost node FixedHandle.error.name := Classical.not_not.mp (mt hroute.mpr ‹_›)
    exact ⟨rfl, rfl, fun e t he => hl e (by simp [he]) t⟩

/-- A condition goes by the rule that holds. If none does it goes its other way, unless nothing is
left of it. -/
theorem condition_given {rules : List Condition} {hasElse : Bool} {way : Handle}
    (hway : (∃ rule, Condition.first? rules vars = some rule ∧ way = .branch rule.id) ∨
      Condition.first? rules vars = none ∧ hasElse = true ∧ way = .fixed .otherwise)
    (hb : g.branch node way.key ≠ []) :
    (sc.visitCondition node rules hasElse vars).Given P
      (sc.Decides node K fun r => r.Honours g node way.key ↔
        ¬ sc.Strays g node (.condition rules hasElse) way) w := by
  unfold visitCondition
  rcases hway with ⟨rule, hrule, rfl⟩ | ⟨hrule, rfl, rfl⟩
  · rw [hrule]
    exact given_log fun w => decides_via (iff_of_true (route_branch h hn hb) nofun)
  · rw [hrule]
    have hroute := Flow.hasRoute_iff h hn (.fixed .otherwise)
    dsimp only [Bool.true_and]
    split
    · have hl := hroute.mp ‹_›
      refine given_log fun w => decides_via (iff_of_true (route_branch h hn hb) ?_)
      rintro ⟨⟩
      exact hl ‹_›
    · have hl : g.Lost node _ := Classical.not_not.mp (mt hroute.mpr ‹_›)
      refine decides_via (iff_of_false (fun hh => nomatch hh.1) (not_not_intro (.otherwise hl)))

/-- **A visit** of a node that wants a branch honours it unless it strays. -/
theorem Wants.visit {n : Flow.Node} {st : Step} {way : Handle}
    (hwant : sc.Wants e vars n.action st way) (hnode : st.node = node)
    (hb : g.branch node way.key ≠ [])
    (hK : (∃ i, (e i).circumstance.aborted = true) → K) :
    (sc.visit n st vars).Given (fun m => ∃ i, m = e i)
      (sc.Decides node K fun r => r.Honours g node way.key ↔
        ¬ sc.Strays g node n.action way) w := by
  rintro m ⟨i, rfl⟩
  show Given _ _ (if (e i).circumstance.aborted = true then _ else _) _
  split
  · exact decides_cut (hK ⟨i, ‹_›⟩)
  subst hnode
  generalize n.action = a at hwant
  cases hwant with
  | click => exact clicked_given h hn hb
  | label hbutton =>
    show Given _ _ (sc.resume _ (.template _ _ _) (.text _) vars) _
    rw [resume, hbutton]
    exact clicked_given h hn hb
  | rule hrule => exact condition_given h hn (.inl ⟨_, hrule, rfl⟩) hb
  | otherwise hrule => exact condition_given h hn (.inr ⟨hrule, rfl, rfl⟩) hb
  | @failed call node hfails =>
    refine (visitCall_failed hK hfails).imp ?_
    rintro v w (⟨rfl, hk⟩ | hv)
    · exact decides_cut hk
    · have hhonours (r : Route) (hr : v.route? sc.flow node = some r) :
          r.Honours g node FixedHandle.error.name ↔
            ¬ sc.Strays g node (.request call) (.fixed .error) :=
        iff_of_true (hv.honours h hn hr) nofun
      rcases hv.eq_or with rfl | ⟨fault, rfl⟩
      · exact decides_via (hhonours _ rfl)
      · exact decides_failed rfl (hhonours _ rfl)

end

/-- **Authored branches.** A step of a node that wants a branch which is drawn does not fail. It is
cut because the turn was told to stop or the session was closed, or else it honours the branch,
exactly if the node does not stray. -/
theorem honours_iff (h : Flow.compile id v g = .ok sc.flow) {x : Status} {s : Session}
    {n : Flow.Node} {st : Step} {way : Handle} (steps : Nat) (hw : w.Shows s.id x)
    (hnode : sc.flow.node? st.node = some n) (hwant : sc.Wants e s.vars n.action st way)
    (hb : g.branch st.node way.key ≠ []) :
    ∃ p, (w.live e (sc.advance s st steps).run).2.2 = .ok p ∧
      (p.IsCut ∧ ((∃ i, (e i).circumstance.aborted = true) ∨ x = .closed ∨ s.status = .closed) ∨
        ¬ p.IsCut ∧ (p.Honours g st.node way.key ↔ ¬ sc.Strays g st.node n.action way)) := by
  have hn : g.Executes st.node := (Flow.executes_iff h _).mp (by rw [hnode]; rfl)
  have hstep := advance_given
    (K := (∃ i, (e i).circumstance.aborted = true) ∨ x = .closed ∨ s.status = .closed)
    (by rintro _ ⟨i, rfl⟩ ha; exact .inl ⟨i, ha⟩) (fun hx => .inr (.inl hx))
    (fun hs => .inr (.inr hs)) steps hnode hw fun w => hwant.visit h hn rfl hb .inl
  have hcame := hstep.live fun i => ⟨i, rfl⟩
  generalize (w.live e (sc.advance s st steps).run).2.2 = o at hcame
  cases o with
  | error f => exact hcame.elim
  | ok p =>
    refine ⟨p, rfl, ?_⟩
    rcases hcame with hcut | ⟨r, hr, ht⟩
    · exact .inl hcut
    · exact .inr ⟨ht.not_isCut, ht.honours_congr.trans hr⟩

/-! ### A template that goes another way -/

/-- A button leads to a case node that leads nowhere, and there is one more edge. -/
def astray : Graph :=
  ⟨[⟨"start", "start", .null, none⟩,
      ⟨"t", "template", .obj [("text", .str "?"), ("buttons",
        .arr [.obj [("id", .str "b1"), ("label", .str "Yes")]])], none⟩,
      ⟨"c", "case", .null, none⟩,
      ⟨"m", "message", .obj [("text", .str "other")], none⟩],
    [⟨"e1", "start", "t", none⟩, ⟨"e2", "t", "c", some "b1"⟩, ⟨"e3", "t", "m", none⟩]⟩

/-- Its template. -/
def strayNode : Flow.Node :=
  ⟨"t", .template, .obj [("text", .str "?"), ("buttons",
    .arr [.obj [("id", .str "b1"), ("label", .str "Yes")]])], .template "?" [⟨"b1", "Yes"⟩] none⟩

/-- The graph, compiled. -/
def strayFlow : Flow :=
  ⟨"f1", 1, [⟨"start", .start, .null, .start none⟩, strayNode,
    ⟨"m", .message, .obj [("text", .str "other")], .message "other"⟩],
    [⟨"e1", "start", "t", .plain⟩, ⟨"e3", "t", "m", .plain⟩], [], [("t", "b1")], "start"⟩

theorem compile_astray : Flow.compile "f1" 1 astray = .ok strayFlow := rfl

theorem lost_astray : astray.Lost "t" "b1" := by
  have hbranch : astray.branch "t" "b1" = [⟨"e2", "t", "c", some "b1"⟩] := rfl
  intro e he t hl
  rw [hbranch] at he
  obtain rfl := List.mem_singleton.mp he
  cases hl with
  | straight hx => exact absurd hx.case?_eq nofun
  | folded _ hleaving => cases hleaving

/-- A session of that flow has just got the click. -/
def clicking : Session := .new "s1" "f1" 1 0

/-- The session is stored. -/
def clickingWorld : World :=
  ((World.new .empty 0).answer ⟨false, .unreachable⟩ (.createSession clicking)).1

/-- The step that the click leads to. -/
def clickStep : Program (Outcome Progress) :=
  (advance ⟨"s1", strayFlow, .default⟩ clicking (.resume "t" (.click "b1" "Yes")) 1).run

theorem shows_clicking : clickingWorld.Shows "s1" .bot := ⟨rfl, _, rfl, rfl⟩

/-- **A branch that is treated as absent**: the click leads on by an edge that is drawn under
another key. -/
theorem unhonoured_astray : ∃ s, Flow.compile "f1" 1 astray = .ok strayFlow ∧
    clickingWorld.Shows "s1" .bot ∧ strayFlow.node? "t" = some strayNode ∧
    Wants ⟨"s1", strayFlow, .default⟩ calmly clicking.vars strayNode.action
      (.resume "t" (.click "b1" "Yes")) (.branch "b1") ∧
    astray.branch "t" "b1" ≠ [] ∧
    (clickingWorld.live calmly clickStep).2.2 = .ok (.on s "m") ∧
    ¬ Progress.Honours astray "t" "b1" (.on s "m") := by
  refine ⟨_, compile_astray, shows_clicking, rfl, .click, nofun, rfl, ?_⟩
  rintro ⟨e, he, hl⟩
  exact lost_astray e (by rw [he]; exact List.mem_singleton_self e) _ hl

/-- The template can go another way, and so it strays. -/
theorem honours_iff_astray : ∃ p, (clickingWorld.live calmly clickStep).2.2 = .ok p ∧
    ¬ p.IsCut ∧ ¬ p.Honours astray "t" "b1" := by
  have hnode : strayFlow.node? "t" = some strayNode := rfl
  have hwant : Wants ⟨"s1", strayFlow, .default⟩ calmly clicking.vars strayNode.action
      (.resume "t" (.click "b1" "Yes")) (.branch "b1") := .click
  have hway : strayFlow.nextSingle "t" = .ok (some "m") := rfl
  obtain ⟨p, hp, ⟨-, hcut⟩ | ⟨hcut, hiff⟩⟩ :=
    honours_iff (s := clicking) compile_astray 1 shows_clicking hnode hwant nofun
  · rcases hcut with ⟨_, ha⟩ | ha | ha <;> cases ha
  · exact ⟨p, hp, hcut, fun hh => hiff.mp hh (.button lost_astray hway)⟩

end Scene

end Turn

end Dialogue
