import Dialogue.Proofs.Flow.Authored

/-! # The only edge

Nodes that do not choose go on by their plain edge or, if none is drawn, by the only edge. What the
compiled flow counts are the edges that are left: one that runs into a case node which leads nowhere
is gone. So of several edges none of which is plain the flow takes the only one that leads anywhere,
and where none does the turn just ends.

* `outgoing_eq_nil_iff`, `exists_outgoing_iff`: when no edge is left of those drawn, and when one.
* `nextSingle_of_nil`, `nextSingle_of_leads`, `nextSingle_of_lost`: where such a node goes on.
* `nextSingle_eq_none_iff`, `nextSingle_eq_some_iff`, `exists_nextSingle_eq_error_iff`: when it
  gives each of its answers.
* `nextSingle_authored`: all of that, and when a fault is missed. -/

namespace Dialogue

namespace Graph

/-- No edge that leaves the node leads anywhere. -/
def DeadEnd (g : Graph) (node : String) : Prop := ∀ e ∈ g.leaving node, ∀ t, ¬ g.Leads e t

/-- An edge of the node leads there, and none of the other ones leads anywhere. -/
def SoleWay (g : Graph) (node t : String) : Prop :=
  ∃ l e r, g.leaving node = l ++ e :: r ∧ g.Leads e t ∧ ∀ e' ∈ l ++ r, ∀ t', ¬ g.Leads e' t'

/-- The rule of the only edge, for an answer where to go on. -/
structure FailsClosed (g : Graph) (node : String) (answer : Except Flow.Fault (Option String)) :
    Prop where
  /-- The only plain edge leads there or, if none is plain, the only edge. -/
  only : ∀ t, answer = .ok (some t) →
    (∃ e, g.branch node Handle.plain.key = [e] ∧ g.Leads e t) ∨
      g.branch node Handle.plain.key = [] ∧ ∃ e, g.leaving node = [e] ∧ g.Leads e t
  /-- Of several edges one has to be plain. -/
  fault : g.branch node Handle.plain.key = [] → 2 ≤ (g.leaving node).length →
    ∃ x text, answer = .error x ∧ x.toFailure = .plain .graph text

/-- The rule does not see that there are several edges: none is plain, and at most one of them leads
anywhere. -/
def Overlooked (g : Graph) (node : String) : Prop :=
  g.branch node Handle.plain.key = [] ∧ 2 ≤ (g.leaving node).length ∧
    (g.DeadEnd node ∨ ∃ t, g.SoleWay node t)

variable {g : Graph} {node t : String} {e : Edge}

/-- Where there is but one edge. -/
theorem SoleWay.exists_leaving (h : g.SoleWay node t) (hl : (g.leaving node).length < 2) :
    ∃ e, g.leaving node = [e] ∧ g.Leads e t := by
  obtain ⟨l, e, r, heq, ht, -⟩ := h
  rw [heq, List.length_append, List.length_cons] at hl
  obtain rfl : l = [] := List.length_eq_zero_iff.mp (by omega)
  obtain rfl : r = [] := List.length_eq_zero_iff.mp (by omega)
  exact ⟨e, heq, ht⟩

end Graph

namespace Flow

variable {id : String} {v : Nat} {g : Graph} {f : Flow} {node t : String}

section
variable (h : compile id v g = .ok f) (hn : g.Executes node)
include h hn

/-! ### What is left -/

theorem outgoing_eq_nil_iff : f.outgoing node = [] ↔ g.DeadEnd node := by
  obtain ⟨arrow, harrow, hout⟩ := exists_arrow h hn
  rw [hout, List.filterMap_eq_nil_iff]
  refine forall₂_congr fun e he => ?_
  rcases harrow e he with ⟨t, ht, ha⟩ | ⟨ht, ha⟩
  · exact ⟨fun hnone => absurd (ha.symm.trans hnone) nofun, fun hl => absurd ht (hl t)⟩
  · exact ⟨fun _ => ht, fun _ => ha⟩

theorem exists_outgoing_iff :
    (∃ e, f.outgoing node = [e] ∧ e.target = t) ↔ g.SoleWay node t := by
  obtain ⟨arrow, harrow, hout⟩ := exists_arrow h hn
  have hnone (e : Graph.Edge) (he : e ∈ g.leaving node) :
      arrow e = none ↔ ∀ t, ¬ g.Leads e t := by
    rcases harrow e he with ⟨t, ht, ha⟩ | ⟨ht, ha⟩
    · exact iff_of_false (by rw [ha]; nofun) fun hl => hl t ht
    · exact iff_of_true ha ht
  rw [hout]
  constructor
  · rintro ⟨e', he', rfl⟩
    obtain ⟨l, e, r, hl, hleft, he, hright⟩ := List.filterMap_eq_cons_iff.mp he'
    have hmem : e ∈ g.leaving node := by rw [hl]; simp
    rcases harrow e hmem with ⟨t, ht, ha⟩ | ⟨-, ha⟩
    · cases ha.symm.trans he
      refine ⟨l, e, r, hl, ht, fun x hx => ?_⟩
      rcases List.mem_append.mp hx with hx | hx
      · exact (hnone x (by rw [hl]; simp [hx])).mp (hleft x hx)
      · exact (hnone x (by rw [hl]; simp [hx])).mp (List.filterMap_eq_nil_iff.mp hright x hx)
    · cases ha.symm.trans he
  · rintro ⟨l, e, r, hl, ht, hothers⟩
    have hmem (x : Graph.Edge) (hx : x ∈ l ++ e :: r) : x ∈ g.leaving node := hl ▸ hx
    rcases harrow e (hmem e (by simp)) with ⟨t', ht', ha⟩ | ⟨hno, -⟩
    · obtain rfl := ht.unique ht'
      refine ⟨⟨e.id, node, t, g.handle e⟩, ?_, rfl⟩
      rw [hl, List.filterMap_eq_cons_iff]
      refine ⟨l, e, r, rfl, fun x hx => ?_, ha, List.filterMap_eq_nil_iff.mpr fun x hx => ?_⟩
      · exact (hnone x (hmem x (by simp [hx]))).mpr (hothers x (by simp [hx]))
      · exact (hnone x (hmem x (by simp [hx]))).mpr (hothers x (by simp [hx]))
    · exact absurd ht (hno t)

/-! ### Where a node goes on -/

/-- Where no plain edge is drawn, what counts are the edges that are left. -/
theorem nextSingle_of_nil (hb : g.branch node Handle.plain.key = []) :
    f.nextSingle node = match f.outgoing node with
      | [] => .ok none
      | [e] => .ok (some e.target)
      | es => .error (.noDefault node es.length) := by
  unfold nextSingle
  rw [next_of_nil h hn hb]
  rfl

theorem nextSingle_of_leads {e : Graph.Edge} (hb : g.branch node Handle.plain.key = [e])
    (ht : g.Leads e t) : f.nextSingle node = .ok (some t) := by
  unfold nextSingle
  rw [next_of_leads h hn hb ht]
  rfl

theorem nextSingle_of_lost (hb : g.branch node Handle.plain.key ≠ [])
    (hl : ∀ e t, g.branch node Handle.plain.key = [e] → ¬ g.Leads e t) :
    ∃ x, f.nextSingle node = .error x := by
  obtain ⟨x, hx⟩ := next_of_lost h hn hb hl
  refine ⟨x, ?_⟩
  unfold nextSingle
  rw [hx]
  rfl

/-- A plain edge is drawn: its way, or a fault. -/
theorem nextSingle_of_ne_nil (hb : g.branch node Handle.plain.key ≠ []) :
    (∃ e t, g.branch node Handle.plain.key = [e] ∧ g.Leads e t ∧
      f.nextSingle node = .ok (some t)) ∨
    (∀ e t, g.branch node Handle.plain.key = [e] → ¬ g.Leads e t) ∧
      ∃ x, f.nextSingle node = .error x := by
  by_cases hl : ∃ e t, g.branch node Handle.plain.key = [e] ∧ g.Leads e t
  · obtain ⟨e, t, he, ht⟩ := hl
    exact .inl ⟨e, t, he, ht, nextSingle_of_leads h hn he ht⟩
  · simp only [not_exists, not_and] at hl
    exact .inr ⟨hl, nextSingle_of_lost h hn hb hl⟩

theorem nextSingle_eq_none_iff : f.nextSingle node = .ok none ↔
    g.branch node Handle.plain.key = [] ∧ g.DeadEnd node := by
  by_cases hb : g.branch node Handle.plain.key = []
  · rw [nextSingle_of_nil h hn hb, ← outgoing_eq_nil_iff h hn]
    rcases f.outgoing node with - | ⟨e, - | ⟨e', rest⟩⟩ <;> simp [hb]
  · refine iff_of_false ?_ fun hh => hb hh.1
    rcases nextSingle_of_ne_nil h hn hb with ⟨e, t, -, -, hx⟩ | ⟨-, x, hx⟩ <;> simp [hx]

theorem nextSingle_eq_some_iff : f.nextSingle node = .ok (some t) ↔
    (∃ e, g.branch node Handle.plain.key = [e] ∧ g.Leads e t) ∨
      g.branch node Handle.plain.key = [] ∧ g.SoleWay node t := by
  by_cases hb : g.branch node Handle.plain.key = []
  · rw [nextSingle_of_nil h hn hb, ← exists_outgoing_iff h hn]
    rcases f.outgoing node with - | ⟨e, - | ⟨e', rest⟩⟩ <;> simp [hb]
  · simp only [hb, false_and, or_false]
    rcases nextSingle_of_ne_nil h hn hb with ⟨e, t', he, ht', hx⟩ | ⟨hl, x, hx⟩
    · rw [hx]
      constructor
      · rintro ⟨⟩
        exact ⟨e, he, ht'⟩
      · rintro ⟨e', he', ht⟩
        cases he.symm.trans he'
        rw [ht.unique ht']
    · refine iff_of_false (by simp [hx]) ?_
      rintro ⟨e, he, ht⟩
      exact hl e t he ht

theorem exists_nextSingle_eq_error_iff : (∃ x, f.nextSingle node = .error x) ↔
    g.branch node Handle.plain.key ≠ [] ∧
        (∀ e t, g.branch node Handle.plain.key = [e] → ¬ g.Leads e t) ∨
      g.branch node Handle.plain.key = [] ∧ ¬ g.DeadEnd node ∧ ∀ t, ¬ g.SoleWay node t := by
  have hanswer : (∃ x, f.nextSingle node = .error x) ↔
      f.nextSingle node ≠ .ok none ∧ ∀ t, f.nextSingle node ≠ .ok (some t) := by
    rcases f.nextSingle node with x | - | t <;> simp
  simp only [hanswer, ne_eq, nextSingle_eq_none_iff h hn, nextSingle_eq_some_iff h hn]
  by_cases hb : g.branch node Handle.plain.key = []
  · simp [hb]
  · simp only [hb, false_and, or_false, not_false_eq_true, true_and, not_exists, not_and]
    exact forall_comm

end

/-- **The only edge.** A node that does not choose goes on by the only plain edge, and if none is
drawn by the only one that leads anywhere; it goes nowhere if none does, and in every other case the
graph is faulty. So the rule of the only edge is kept unless it does not see that there are several
edges. -/
theorem nextSingle_authored (h : compile id v g = .ok f) (hn : g.Executes node) :
    (f.nextSingle node = .ok none ↔ g.branch node Handle.plain.key = [] ∧ g.DeadEnd node) ∧
    (∀ t, f.nextSingle node = .ok (some t) ↔
      (∃ e, g.branch node Handle.plain.key = [e] ∧ g.Leads e t) ∨
        g.branch node Handle.plain.key = [] ∧ g.SoleWay node t) ∧
    ((∃ x text, f.nextSingle node = .error x ∧ x.toFailure = .plain .graph text) ↔
      g.branch node Handle.plain.key ≠ [] ∧
          (∀ e t, g.branch node Handle.plain.key = [e] → ¬ g.Leads e t) ∨
        g.branch node Handle.plain.key = [] ∧ ¬ g.DeadEnd node ∧ ∀ t, ¬ g.SoleWay node t) ∧
    (g.FailsClosed node (f.nextSingle node) ↔ ¬ g.Overlooked node) := by
  have hnone := nextSingle_eq_none_iff h hn
  have hsome (t : String) := nextSingle_eq_some_iff (t := t) h hn
  have herror := exists_nextSingle_eq_error_iff h hn
  have hfault : (∃ x text, f.nextSingle node = .error x ∧ x.toFailure = .plain .graph text) ↔
      ∃ x, f.nextSingle node = .error x :=
    ⟨fun ⟨x, _, hx, _⟩ => ⟨x, hx⟩, fun ⟨x, hx⟩ => ⟨x, x.message, hx, rfl⟩⟩
  refine ⟨hnone, hsome, hfault.trans herror, fun hc => ?_, fun ho => ⟨fun t ht => ?_, ?_⟩⟩
  · rintro ⟨hb, hl, hd | ⟨t, ht⟩⟩ <;> obtain ⟨x, hx⟩ := hfault.mp (hc.fault hb hl)
    · cases (hnone.mpr ⟨hb, hd⟩).symm.trans hx
    · cases ((hsome t).mpr (.inr ⟨hb, ht⟩)).symm.trans hx
  · refine ((hsome t).mp ht).imp_right fun ⟨hb, ht⟩ => ⟨hb, ht.exists_leaving ?_⟩
    exact Nat.lt_of_not_le fun hl => ho ⟨hb, hl, .inr ⟨t, ht⟩⟩
  · intro hb hl
    refine hfault.mpr (herror.mpr (.inr ⟨hb, fun hd => ho ⟨hb, hl, .inl hd⟩, fun t ht => ?_⟩))
    exact ho ⟨hb, hl, .inr ⟨t, ht⟩⟩

/-! ### Two edges -/

/-- Two edges leave the start by handles. -/
def undecided : Graph :=
  ⟨[⟨"start", "start", .null, none⟩, ⟨"m", "message", .obj [("text", .str "Hi")], none⟩],
    [⟨"e1", "start", "m", some "a"⟩, ⟨"e2", "start", "m", some "b"⟩]⟩

/-- The graph, compiled. -/
def undecidedFlow : Flow :=
  ⟨"f1", 1, [⟨"start", .start, .null, .start none⟩,
    ⟨"m", .message, .obj [("text", .str "Hi")], .message "Hi"⟩],
    [⟨"e1", "start", "m", .branch "a"⟩, ⟨"e2", "start", "m", .branch "b"⟩], [], [], "start"⟩

theorem leads_undecided (id : String) (way : Option String) :
    undecided.Leads ⟨id, "start", "m", way⟩ "m" :=
  .straight ⟨_, .message, rfl, rfl, nofun⟩

/-- The flow cannot say which of them to take. -/
theorem nextSingle_authored_undecided : compile "f1" 1 undecided = .ok undecidedFlow ∧
    undecided.Executes "start" ∧ (∃ x, undecidedFlow.nextSingle "start" = .error x) ∧
    undecided.FailsClosed "start" (undecidedFlow.nextSingle "start") := by
  have h : compile "f1" 1 undecided = .ok undecidedFlow := rfl
  have hn : undecided.Executes "start" := ⟨_, .start, rfl, rfl, nofun⟩
  have hplain : undecided.branch "start" Handle.plain.key = [] := rfl
  have hleaving : undecided.leaving "start" =
    [⟨"e1", "start", "m", some "a"⟩, ⟨"e2", "start", "m", some "b"⟩] := rfl
  have hdead : ¬ undecided.DeadEnd "start" := fun hd =>
    hd ⟨"e1", "start", "m", some "a"⟩ (by simp [hleaving]) "m" (leads_undecided _ _)
  have hsole (t : String) : ¬ undecided.SoleWay "start" t := by
    rintro ⟨l, e, r, hl, -, hothers⟩
    rw [hleaving] at hl
    rcases l with - | ⟨e', l⟩
    · obtain ⟨rfl, rfl⟩ := List.cons.inj hl
      exact hothers ⟨"e2", "start", "m", some "b"⟩ (by simp) "m" (leads_undecided _ _)
    · obtain ⟨rfl, -⟩ := List.cons.inj hl
      exact hothers ⟨"e1", "start", "m", some "a"⟩ (by simp) "m" (leads_undecided _ _)
  obtain ⟨-, -, herror, hcloses⟩ := nextSingle_authored h hn
  obtain ⟨x, -, hx, -⟩ := herror.mpr (.inr ⟨hplain, hdead, hsole⟩)
  refine ⟨h, hn, ⟨x, hx⟩, hcloses.mpr ?_⟩
  rintro ⟨-, -, hd | ⟨t, ht⟩⟩
  · exact hdead hd
  · exact hsole t ht

/-- The same with one of the edges running into a case node that leads nowhere. -/
def blinded : Graph :=
  ⟨[⟨"start", "start", .null, none⟩, ⟨"c", "case", .null, none⟩,
      ⟨"m", "message", .obj [("text", .str "Hi")], none⟩],
    [⟨"e1", "start", "c", some "a"⟩, ⟨"e2", "start", "m", some "b"⟩]⟩

/-- The graph, compiled. -/
def blindedFlow : Flow :=
  ⟨"f1", 1, [⟨"start", .start, .null, .start none⟩,
    ⟨"m", .message, .obj [("text", .str "Hi")], .message "Hi"⟩],
    [⟨"e2", "start", "m", .branch "b"⟩], [], [("start", "a")], "start"⟩

/-- **An edge that is not counted**: two edges leave the start, none of them plain, and the flow
goes on by one of them. -/
theorem overlooked_blinded : compile "f1" 1 blinded = .ok blindedFlow ∧
    blinded.Executes "start" ∧ blinded.branch "start" Handle.plain.key = [] ∧
    (blinded.leaving "start").length = 2 ∧ blindedFlow.nextSingle "start" = .ok (some "m") ∧
    ¬ blinded.FailsClosed "start" (blindedFlow.nextSingle "start") := by
  refine ⟨rfl, ⟨_, .start, rfl, rfl, nofun⟩, rfl, rfl, rfl, fun hc => ?_⟩
  obtain ⟨x, -, hx, -⟩ := hc.fault rfl (Nat.le_refl 2)
  cases hx

end Flow

end Dialogue
