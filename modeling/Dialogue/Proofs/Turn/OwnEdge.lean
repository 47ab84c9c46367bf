import Dialogue.Proofs.Flow.OnlyEdge
import Dialogue.Proofs.Turn.Branches

/-! # Own edges

A rule or a button meets the edge that bears its name. The name that an edge bears is read: outer
blanks do not count, and a few names stand for the plain way. The identity of a rule or a button is
not read. So an edge is met that bears a name without outer blanks, and where the name stands for
the plain way it is met only if the edge is plain: not if a case node holds another handle for it,
and not by the rule of a condition unless it is called by the name of that way.

* `ofText_eq_plain_iff`, `key_ofText`: what the name of an edge is read as.
* `OwnEdge.branch_eq`: the branches of a node, one of whose edges is the only one of its name.
* `meets_own_edge`: a step by that name goes on where the edge leads. -/

namespace Dialogue

/-! ### Names of edges -/

theorem FixedHandle.name_of_ofName? {name : String} {h : FixedHandle} (hn : ofName? name = some h) :
    h.name = name := by
  simpa using List.find?_some hn

namespace Handle

/-- The names that stand for the plain way. -/
def plainNames : List String := ["", "source", "default"]

variable {raw : Option String}

theorem ofText_eq_plain_iff : ofText raw = .plain ↔ Text.trim (raw.getD "") ∈ plainNames := by
  unfold ofText
  generalize Text.trim (raw.getD "") = name
  simp only [plainNames, List.mem_cons, List.not_mem_nil, or_false, String.isEmpty_iff,
    Bool.or_eq_true, decide_eq_true_eq]
  split_ifs with hname
  · exact iff_of_true rfl (hname.imp_right .inl)
  · rw [not_or] at hname
    simp only [hname.1, hname.2, false_or]
    cases hfixed : FixedHandle.ofName? name with
    | none =>
      refine iff_of_false nofun ?_
      rintro rfl
      cases (FixedHandle.ofName?_name .default).symm.trans hfixed
    | some h =>
      obtain rfl := FixedHandle.name_of_ofName? hfixed
      simp only [plain, fixed.injEq]
      cases h <;> decide

/-- A name that does not stand for the plain way is the key, without outer blanks. -/
theorem key_ofText (h : ofText raw ≠ .plain) : (ofText raw).key = Text.trim (raw.getD "") := by
  unfold ofText at h ⊢
  dsimp only at h ⊢
  split_ifs at h ⊢ with hname
  · exact absurd rfl h
  · cases hfixed : FixedHandle.ofName? (Text.trim (raw.getD "")) with
    | none => rfl
    | some h => exact FixedHandle.name_of_ofName? hfixed

end Handle

namespace Graph

/-! ### The only edge of a name -/

/-- One edge of the node bears the name. Each of the other ones bears a name too, which differs even
in small letters and without outer blanks, and which does not stand for the plain way. -/
structure OwnEdge (g : Graph) (node r : String) (own : Edge) : Prop where
  borne : own.handle = some r
  others : ∃ before after, g.leaving node = before ++ own :: after ∧
    ∀ e ∈ before ++ after, ∃ raw, e.handle = some raw ∧ Turn.folded raw ≠ Turn.folded r ∧
      Text.trim raw ∉ Handle.plainNames

variable {g : Graph} {e own : Edge} {node r : String}

theorem handle_of_ne_plain (h : Handle.ofText e.handle ≠ .plain) :
    g.handle e = Handle.ofText e.handle :=
  if_neg h

namespace OwnEdge

variable (h : g.OwnEdge node r own) (hr : Text.trim r = r)
include h hr

/-- By the key of its name, or by the plain one, no other edge leaves the node. -/
theorem branch_eq {key : String} (hkey : key = r ∨ key = Handle.plain.key) :
    g.branch node key = if (g.handle own).key = key then [own] else [] := by
  obtain ⟨before, after, hleaving, hothers⟩ := h.others
  have hne (e : Edge) (he : e ∈ before ++ after) : ¬ (g.handle e).key = key := by
    obtain ⟨raw, hraw, hfold, hnames⟩ := hothers e he
    have hplain : Handle.ofText e.handle ≠ .plain := by
      rw [Ne, Handle.ofText_eq_plain_iff, hraw]
      exact hnames
    rw [handle_of_ne_plain hplain, Handle.key_ofText hplain, hraw]
    rintro rfl
    rcases hkey with heq | heq
    · refine hfold ?_
      rw [Turn.folded, Turn.folded, hr]
      exact congrArg Text.lower heq
    · exact hnames (by rw [show Text.trim raw = _ from heq]; decide)
  have hnil (l : List Edge) (hl : ∀ e ∈ l, e ∈ before ++ after) :
      (l.filter fun e => (g.handle e).key = key) = [] :=
    List.filter_eq_nil_iff.mpr fun e he => by simpa using hne e (hl e he)
  rw [branch, hleaving, List.filter_append, List.filter_cons,
    hnil before fun e he => List.mem_append_left _ he,
    hnil after fun e he => List.mem_append_right _ he]
  simp only [decide_eq_true_eq, List.nil_append]

/-- The edge leaves by its name or, if the name only stands for that, by the plain way. -/
theorem key_own (hplain : Handle.ofText (some r) = .plain → g.handle own = .plain) :
    (g.handle own).key = r ∨ (r = "" ∨ r = "source") ∧ g.handle own = .plain := by
  by_cases hp : Handle.ofText (some r) = .plain
  · have hnames := Handle.ofText_eq_plain_iff.mp hp
    rw [Option.getD_some, hr] at hnames
    simp only [Handle.plainNames, List.mem_cons, List.not_mem_nil, or_false] at hnames
    rcases hnames with hr | hr | hr
    · exact .inr ⟨.inl hr, hplain hp⟩
    · exact .inr ⟨.inr hr, hplain hp⟩
    · refine .inl ?_
      rw [hplain hp, hr]
      rfl
  · refine .inl ?_
    rw [← h.borne] at hp
    rw [handle_of_ne_plain hp, Handle.key_ofText hp, h.borne, Option.getD_some, hr]

end OwnEdge

end Graph

namespace Turn

open Program Procedure World

namespace Scene

variable {g : Graph} {own : Graph.Edge} {node r t id : String} {v : Nat} {sc : Scene}
  {e : Nat → Moment} {vars : Variables} {K : Prop} {w : World} {P : Moment → Prop}

/-! ### Visits -/

section
variable (h : Flow.compile id v g = .ok sc.flow) (hn : g.Executes node)
  (hown : g.OwnEdge node r own) (ht : g.Leads own t) (hr : Text.trim r = r)
include h hn hown ht hr

/-- Where the edge leaves by its name, that branch is its way. -/
theorem route_own (hkey : (g.handle own).key = r) :
    (Transition.branch (.branch r)).route sc.flow node = .go t := by
  have hbranch : g.branch node (Handle.branch r).key = [own] :=
    (hown.branch_eq hr (.inl rfl)).trans (if_pos hkey)
  rw [Transition.route, Flow.next_of_leads h hn hbranch ht]

/-- A clicked button goes where its edge leads. -/
theorem clicked_own {name : Option String} {label : String}
    (hplain : Handle.ofText (some r) = .plain → g.handle own = .plain) :
    (sc.clicked node name r label vars).Given P (sc.Decides node K (· = .go t)) w := by
  refine given_log fun w => decides_via ?_
  have hroute := Flow.hasRoute_iff h hn (.branch r)
  by_cases hkey : (g.handle own).key = r
  · have hbranch : g.branch node (Handle.branch r).key = [own] :=
      (hown.branch_eq hr (.inl rfl)).trans (if_pos hkey)
    rw [if_pos (hroute.mpr fun hl => hl own (by simp [hbranch]) t ht)]
    exact route_own h hn hown ht hr hkey
  · -- nothing leaves by the name of the button, and so the template goes its plain way
    have hnil : g.branch node (Handle.branch r).key = [] :=
      (hown.branch_eq hr (.inl rfl)).trans (if_neg hkey)
    have hlost : g.Lost node (Handle.branch r).key := by
      intro e he
      rw [hnil] at he
      cases he
    rw [if_neg fun hx => hroute.mp hx hlost]
    obtain ⟨-, hp⟩ := (hown.key_own hr hplain).resolve_left hkey
    have hbranch : g.branch node Handle.plain.key = [own] :=
      (hown.branch_eq hr (.inr rfl)).trans (if_pos (by rw [hp]))
    show Transition.route _ _ .only = _
    rw [Transition.route, Flow.nextSingle_of_leads h hn hbranch ht]

/-- **A visit** of a node that goes by a name decides to go where the edge of that name leads. -/
theorem visit_own {n : Flow.Node} {st : Step}
    (hwant : sc.Wants e vars n.action st (.branch r)) (hnode : st.node = node)
    (hrule : n.action.kind = .condition → r ≠ "" ∧ r ≠ "source")
    (hplain : Handle.ofText (some r) = .plain → g.handle own = .plain)
    (hK : (∃ i, (e i).circumstance.aborted = true) → K) :
    (sc.visit n st vars).Given (fun m => ∃ i, m = e i) (sc.Decides node K (· = .go t)) w := by
  rintro m ⟨i, rfl⟩
  show Given _ _ (if (e i).circumstance.aborted = true then _ else _) _
  split
  · exact decides_cut (hK ⟨i, ‹_›⟩)
  subst hnode
  generalize n.action = a at hwant hrule
  cases hwant with
  | click => exact clicked_own h hn hown ht hr hplain
  | label hbutton =>
    show Given _ _ (sc.resume _ (.template _ _ _) (.text _) vars) _
    rw [resume, hbutton]
    exact clicked_own h hn hown ht hr hplain
  | @rule rules hasElse node rule hholds =>
    obtain ⟨hempty, hsource⟩ := hrule rfl
    have hkey : (g.handle own).key = rule.id := by
      rcases hown.key_own hr hplain with hkey | ⟨hx | hx, -⟩
      · exact hkey
      · exact absurd hx hempty
      · exact absurd hx hsource
    show Given _ _ (sc.visitCondition _ rules hasElse vars) _
    unfold visitCondition
    rw [hholds]
    exact given_log fun w => decides_via (route_own h hn hown ht hr hkey)

end

/-! ### Steps -/

/-- **Own edges.** A node has an edge for a rule or a button, which is the only one of its name and
leads to a node. If that rule is the first that holds, or that button is clicked, then the turn goes
on at that node, unless it is cut because it was told to stop or the session was closed. The name is
one without outer blanks; for a rule it is not another name of the plain way, and if it stands for
the plain way then no case node holds another handle for the edge. -/
theorem meets_own_edge (h : Flow.compile id v g = .ok sc.flow) {x : Status} {s : Session}
    {n : Flow.Node} {st : Step} (steps : Nat) (hw : w.Shows s.id x)
    (hnode : sc.flow.node? st.node = some n) (hwant : sc.Wants e s.vars n.action st (.branch r))
    (hown : g.OwnEdge st.node r own) (ht : g.Leads own t) (hr : Text.trim r = r)
    (hrule : n.action.kind = .condition → r ≠ "" ∧ r ≠ "source")
    (hplain : Handle.ofText (some r) = .plain → g.handle own = .plain) :
    ∃ p, (w.live e (sc.advance s st steps).run).2.2 = .ok p ∧
      (p.IsCut ∧ ((∃ i, (e i).circumstance.aborted = true) ∨ x = .closed ∨ s.status = .closed) ∨
        ∃ s', p = .on s' t) := by
  have hn : g.Executes st.node := (Flow.executes_iff h _).mp (by rw [hnode]; rfl)
  have hstep := advance_given
    (K := (∃ i, (e i).circumstance.aborted = true) ∨ x = .closed ∨ s.status = .closed)
    (by rintro _ ⟨i, rfl⟩ ha; exact .inl ⟨i, ha⟩) (fun hx => .inr (.inl hx))
    (fun hs => .inr (.inr hs)) steps hnode hw
    fun w => visit_own h hn hown ht hr hwant rfl hrule hplain .inl
  have hcame := hstep.live fun i => ⟨i, rfl⟩
  generalize (w.live e (sc.advance s st steps).run).2.2 = o at hcame
  cases o with
  | error f => exact hcame.elim
  | ok p =>
    refine ⟨p, rfl, hcame.imp_right ?_⟩
    rintro ⟨_, rfl, htakes⟩
    cases p with
    | on s' target => exact ⟨s', congrArg (Progress.on s') htakes⟩
    | done rep => exact htakes.elim

/-! ### Names of rules -/

/-- A condition with one rule, and an edge of that name to a message or to a case node before it. -/
def ruled (r target : String) : Graph :=
  ⟨[⟨"start", "start", .null, none⟩,
      ⟨"c", "condition", .obj [("conditions",
        .arr [.obj [("id", .str r), ("variable", .str "x"), ("value", .str "")]])], none⟩,
      ⟨"k", "case", .obj [("handle", .str "x")], none⟩,
      ⟨"m", "message", .obj [("text", .str "Hi")], none⟩],
    [⟨"e1", "start", "c", none⟩, ⟨"e2", "c", target, some r⟩, ⟨"e3", "k", "m", none⟩]⟩

/-- Its rule. -/
def onlyRule (r : String) : Condition := ⟨r, "x", .equal, .str ""⟩

/-- Its condition. -/
def ruledNode (r : String) : Flow.Node :=
  ⟨"c", .condition, .obj [("conditions",
    .arr [.obj [("id", .str r), ("variable", .str "x"), ("value", .str "")]])],
    .condition [onlyRule r] true⟩

/-- The graph, compiled, where the edge leaves by a handle. -/
def ruledFlow (r : String) (way : Handle) : Flow :=
  ⟨"f1", 1, [⟨"start", .start, .null, .start none⟩, ruledNode r,
    ⟨"m", .message, .obj [("text", .str "Hi")], .message "Hi"⟩],
    [⟨"e1", "start", "c", .plain⟩, ⟨"e2", "c", "m", way⟩], [], [], "start"⟩

/-- The step that runs the condition. -/
def ruledStep (r : String) (way : Handle) : Program (Outcome Progress) :=
  (advance ⟨"s1", ruledFlow r way, .default⟩ clicking (.run "c") 1).run

/-- The rule holds, its edge is the only one of its name and leads to the message, and the turn is
over. -/
structure Unmet (r target : String) (way : Handle) : Prop where
  compile : Flow.compile "f1" 1 (ruled r target) = .ok (ruledFlow r way)
  wants : Wants ⟨"s1", ruledFlow r way, .default⟩ calmly clicking.vars (ruledNode r).action
    (.run "c") (.branch r)
  own : (ruled r target).OwnEdge "c" r ⟨"e2", "c", target, some r⟩
  leads : (ruled r target).Leads ⟨"e2", "c", target, some r⟩ "m"
  halts : ∃ rep, (clickingWorld.live calmly (ruledStep r way)).2.2 = .ok (.done rep) ∧
    rep.ending = .halted

theorem wants_ruled (r : String) (way : Handle) :
    Wants ⟨"s1", ruledFlow r way, .default⟩ calmly clicking.vars (ruledNode r).action
      (.run "c") (.branch r) := by
  -- the variable is missing, and so it is the empty text that the rule compares it with
  have hequal : ((clicking.vars.find? (Condition.variableName "x")).bind Json.shown?).getD "" =
      clicking.vars.interpolate "" := by decide +kernel
  have hholds : (onlyRule r).holds clicking.vars = true := by
    show (Condition.normal ((onlyRule r).actual clicking.vars) == Condition.normal _) = true
    rw [Condition.actual, onlyRule, hequal]
    exact beq_self_eq_true _
  exact @Wants.rule _ _ _ _ _ _ (onlyRule r) (List.find?_cons_of_pos hholds)

theorem ownEdge_ruled (r target : String) :
    (ruled r target).OwnEdge "c" r ⟨"e2", "c", target, some r⟩ :=
  ⟨rfl, [], [], rfl, nofun⟩

theorem leads_ruled (r : String) : (ruled r "m").Leads ⟨"e2", "c", "m", some r⟩ "m" :=
  .straight ⟨_, .message, rfl, rfl, nofun⟩

theorem leads_ruled_case (r : String) : (ruled r "k").Leads ⟨"e2", "c", "k", some r⟩ "m" :=
  @Graph.Leads.folded _ _ ⟨"e3", "k", "m", none⟩ rfl rfl ⟨_, .message, rfl, rfl, nofun⟩

/-- A rule with a name of its own meets its edge. -/
theorem meets_own_edge_gold : ∃ s',
    (clickingWorld.live calmly (ruledStep "gold" (.branch "gold"))).2.2 = .ok (.on s' "m") := by
  have h : Flow.compile "f1" 1 (ruled "gold" "m") = .ok (ruledFlow "gold" (.branch "gold")) := rfl
  obtain ⟨p, hp, ⟨-, ha | ha | ha⟩ | ⟨s', rfl⟩⟩ :=
    meets_own_edge h 1 shows_clicking rfl (wants_ruled _ _) (ownEdge_ruled _ _)
      (leads_ruled _) (by decide) (fun _ => by decide) (fun hx => absurd hx (by decide))
  · obtain ⟨_, ha⟩ := ha
    cases ha
  · cases ha
  · cases ha
  · exact ⟨s', hp⟩

/-- **Rules that miss their edge**: one that is called by another name of the plain way, one whose
plain edge is given another handle by a case node, and one with an outer blank. -/
theorem unmet_names : Unmet "source" "m" .plain ∧ Unmet "default" "k" (.branch "x") ∧
    Unmet "gold " "m" (.branch "gold") :=
  ⟨⟨rfl, wants_ruled _ _, ownEdge_ruled _ _, leads_ruled _, _, rfl, rfl⟩,
    ⟨rfl, wants_ruled _ _, ownEdge_ruled _ _, leads_ruled_case _, _, rfl, rfl⟩,
    ⟨rfl, wants_ruled _ _, ownEdge_ruled _ _, leads_ruled _, _, rfl, rfl⟩⟩

end Scene

end Turn

end Dialogue
