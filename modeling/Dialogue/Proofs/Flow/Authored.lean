import Dialogue.Proofs.Flow.Compile

/-! # The authored graph and its compiled flow

The graph as its author reads it: an edge leaves its node by the handle that is written on it, or by
the handle of the case node into which it runs, and through a case node it leads on only where
exactly one edge leaves that node for an executable one. A compiled flow answers what this reading
says.

* `Census.ofNodes_records`: what the compiler knows of the nodes is what is drawn.
* `foldEdge_cases`: what becomes of an authored edge.
* `next_of_leads`, `next_of_nil`, `next_of_lost`: where the flow leads from a node by a handle.
* `next_authored`: the same as one equivalence for each answer. -/

namespace Dialogue

namespace Graph

/-! ### Two hops -/

/-- The node of that identity. -/
def node? (g : Graph) (id : String) : Option Node := g.nodes.find? (·.id = id)

/-- The node is there and is no case node. -/
def Executes (g : Graph) (id : String) : Prop :=
  ∃ n k, g.node? id = some n ∧ NodeKind.ofName? n.type = some k ∧ k ≠ .case

/-- The case node of that identity. -/
def case? (g : Graph) (id : String) : Option Node :=
  (g.node? id).filter fun n => NodeKind.ofName? n.type = some .case

/-- The handle by which an edge leaves its node. -/
def handle (g : Graph) (e : Edge) : Handle :=
  let own := Handle.ofText e.handle
  if own = .plain then
    match (g.case? e.target).bind fun n => Flow.Census.caseHandle? n.data with
    | some held => Handle.ofText (some held)
    | none => own
  else own

/-- The edges that leave a node. -/
def leaving (g : Graph) (node : String) : List Edge := g.edges.filter (·.source = node)

/-- The edges that leave a node by a handle of that key. -/
def branch (g : Graph) (node key : String) : List Edge :=
  (g.leaving node).filter fun e => (g.handle e).key = key

/-- The edge leads to an executable node, at once or through a case node which exactly one edge
leaves. -/
inductive Leads (g : Graph) (e : Edge) : String → Prop
  | straight (h : g.Executes e.target) : Leads g e e.target
  | folded {e' : Edge} (hc : (g.case? e.target).isSome) (hl : g.leaving e.target = [e'])
      (h : g.Executes e'.target) : Leads g e e'.target

/-- No edge of the branch leads anywhere. -/
def Lost (g : Graph) (node key : String) : Prop := ∀ e ∈ g.branch node key, ∀ t, ¬ g.Leads e t

variable {g : Graph} {e : Edge} {id t t' : String}

theorem mem_leaving {node : String} : e ∈ g.leaving node ↔ e ∈ g.edges ∧ e.source = node := by
  simp [leaving]

theorem mem_branch {node key : String} :
    e ∈ g.branch node key ↔ e ∈ g.edges ∧ e.source = node ∧ (g.handle e).key = key := by
  rw [branch, List.mem_filter, mem_leaving, and_assoc, decide_eq_true_eq]

theorem Executes.case?_eq (h : g.Executes id) : g.case? id = none := by
  obtain ⟨n, k, hn, hk, hne⟩ := h
  rw [case?, hn, Option.filter_some, hk]
  simp [hne]

/-- An edge leads to one node only. -/
theorem Leads.unique (h : g.Leads e t) (h' : g.Leads e t') : t = t' := by
  cases h with
  | straight hx =>
    cases h' with
    | straight => rfl
    | folded hc => rw [hx.case?_eq] at hc; cases hc
  | folded hc hl =>
    cases h' with
    | straight hx => rw [hx.case?_eq] at hc; cases hc
    | folded hc' hl' =>
      rw [hl] at hl'
      cases hl'
      rfl

end Graph

namespace Flow

/-! ### Censuses -/

namespace Census

/-- What is known are the nodes that are drawn, no two of them with one identity. -/
structure Records (g : Graph) (c : Census) : Prop where
  seen : c.seen = g.nodes.map (·.id)
  executes : ∀ id, c.isExecutable id = true ↔ g.Executes id
  cases : ∀ id, c.cases.lookup id = (g.case? id).map fun n => caseHandle? n.data

variable {c c' : Census} {n : Graph.Node} {ns : List Graph.Node} {es : List Graph.Edge}

/-- One more node: its identity is new and its kind is known, and it is either a case or an
executable node. -/
theorem add_kind (h : c.add n = .ok c') : n.id ∉ c.seen ∧ c'.seen = c.seen ++ [n.id] ∧
    ∃ k, NodeKind.ofName? n.type = some k ∧
      ((k = .case ∧ c'.cases = c.cases ++ [(n.id, caseHandle? n.data)] ∧ c'.nodes = c.nodes) ∨
        k ≠ .case ∧ c'.cases = c.cases ∧
          ∃ node, node.id = n.id ∧ c'.nodes = c.nodes ++ [node]) := by
  unfold add at h
  have h := of_unless_error h
  have hseen : n.id ∉ c.seen := by
    intro hmem
    rw [if_pos (List.contains_iff_mem.mpr hmem)] at h
    cases h
  have h := of_unless_error h
  refine ⟨hseen, ?_⟩
  split at h
  · rename_i k hk
    dsimp only at h
    split at h
    · cases h
      exact ⟨rfl, _, hk, .inl ⟨rfl, rfl, rfl⟩⟩
    · obtain ⟨node, hnode, h⟩ := bind_eq_ok.mp (of_unless_error h)
      cases h
      exact ⟨rfl, _, hk, .inr ⟨nofun, rfl, node, (compileNode_eq_ok hnode).1, rfl⟩⟩
    · obtain ⟨node, hnode, h⟩ := bind_eq_ok.mp (of_unless_error h)
      cases h
      exact ⟨rfl, _, hk, .inr ⟨nofun, rfl, node, (compileNode_eq_ok hnode).1, rfl⟩⟩
    · rename_i hcase _ _
      obtain ⟨node, hnode, h⟩ := bind_eq_ok.mp h
      cases h
      exact ⟨rfl, _, hk, .inr ⟨hcase, rfl, node, (compileNode_eq_ok hnode).1, rfl⟩⟩
  · cases h

theorem node?_concat (ns : List Graph.Node) (es : List Graph.Edge) (n : Graph.Node) (id : String) :
    Graph.node? ⟨ns ++ [n], es⟩ id =
      (Graph.node? ⟨ns, es⟩ id).or (if n.id = id then some n else none) := by
  simp only [Graph.node?, List.find?_append, List.find?_singleton, decide_eq_true_eq]

theorem node?_of_notMem (h : n.id ∉ ns.map (·.id)) : Graph.node? ⟨ns, es⟩ n.id = none := by
  rw [Graph.node?, List.find?_eq_none]
  intro m hm he
  exact h (List.mem_map.mpr ⟨m, hm, of_decide_eq_true he⟩)

theorem executes_concat {k : NodeKind} (h : n.id ∉ ns.map (·.id))
    (hk : NodeKind.ofName? n.type = some k) (id : String) :
    Graph.Executes ⟨ns ++ [n], es⟩ id ↔
      Graph.Executes ⟨ns, es⟩ id ∨ n.id = id ∧ k ≠ .case := by
  unfold Graph.Executes
  rw [node?_concat]
  by_cases hid : n.id = id
  · subst hid
    simp [node?_of_notMem h, hk]
  · simp [hid]

theorem case?_concat {k : NodeKind} (h : n.id ∉ ns.map (·.id))
    (hk : NodeKind.ofName? n.type = some k) (id : String) :
    Graph.case? ⟨ns ++ [n], es⟩ id =
      (Graph.case? ⟨ns, es⟩ id).or (if n.id = id ∧ k = .case then some n else none) := by
  unfold Graph.case?
  rw [node?_concat]
  by_cases hid : n.id = id
  · subst hid
    simp [node?_of_notMem h, Option.filter, hk]
  · simp [hid]

theorem records_empty : Records ⟨[], es⟩ empty := by
  refine ⟨rfl, fun id => ⟨nofun, ?_⟩, fun id => rfl⟩
  rintro ⟨n, k, hn, -⟩
  cases hn

/-- One more node is one that is drawn. -/
theorem add_records (h : c.add n = .ok c') (hc : Records ⟨ns, es⟩ c) :
    Records ⟨ns ++ [n], es⟩ c' := by
  obtain ⟨hnew, hseen, k, hk, hcases⟩ := add_kind h
  rw [hc.seen] at hnew
  refine ⟨by rw [hseen, hc.seen, List.map_append]; rfl, fun id => ?_, fun id => ?_⟩
  · rw [executes_concat hnew hk, ← hc.executes]
    rcases hcases with ⟨rfl, -, hnodes⟩ | ⟨hne, -, node, hnode, hnodes⟩
    · simp [isExecutable, hnodes]
    · simp [isExecutable, hnodes, hnode, hne]
  · rw [case?_concat hnew hk, Option.map_or, ← hc.cases]
    rcases hcases with ⟨rfl, hcs, -⟩ | ⟨hne, hcs, -⟩
    · rw [hcs, List.lookup_append]
      by_cases hid : n.id = id
      · subst hid
        simp
      · have hne : (id == n.id) = false := by simpa using Ne.symm hid
        simp [List.lookup_cons, hne, hid]
    · simp [hcs, hne]

/-- **What the compiler knows of the nodes** is what is drawn. -/
theorem ofNodes_records (h : ofNodes ns = .ok c) : Records ⟨ns, es⟩ c := by
  have hfold (ms rest : List Graph.Node) (c₀ : Census) (h₀ : Records ⟨ms, es⟩ c₀)
      (h : rest.foldlM add c₀ = .ok c) : Records ⟨ms ++ rest, es⟩ c := by
    induction rest generalizing ms c₀ with
    | nil =>
      cases h
      rwa [List.append_nil]
    | cons n rest ih =>
      rw [List.foldlM_cons] at h
      obtain ⟨c₁, h₁, h⟩ := bind_eq_ok.mp h
      have := ih (ms ++ [n]) c₁ (add_records h₁ h₀) h
      rwa [List.append_assoc] at this
  exact hfold [] ns empty records_empty h

end Census

/-! ### Edges -/

variable {id : String} {v : Nat} {g : Graph} {f : Flow} {c : Census} {e : Graph.Edge}

/-- What a flow is compiled to. -/
theorem compile_eq_ok (h : compile id v g = .ok f) :
    ∃ c, Census.Records g c ∧ c.Sound ∧ (∀ e ∈ g.edges, e.target ∈ c.seen) ∧
      f.nodes = c.nodes ∧ f.edges = (g.edges.map (foldEdge c g.edges)).filterMap Folded.edge? ∧
      f.broken = (g.edges.map (foldEdge c g.edges)).filterMap Folded.broken? := by
  unfold compile at h
  obtain ⟨c, hnodes, h⟩ := bind_eq_ok.mp h
  split at h
  · obtain ⟨_, hedges, h⟩ := bind_eq_ok.mp h
    cases h
    exact ⟨c, Census.ofNodes_records hnodes, Census.ofNodes_sound hnodes, mem_seen_of_forM hedges,
      rfl, rfl, rfl⟩
  · cases h

/-- The executable nodes of a flow are those that are drawn. -/
theorem executes_iff (h : compile id v g = .ok f) (node : String) :
    (f.node? node).isSome ↔ g.Executes node := by
  obtain ⟨c, hc, -, -, hnodes, -, -⟩ := compile_eq_ok h
  have hx : c.isExecutable node = true ↔ g.Executes node := hc.executes node
  rw [node?, hnodes, List.find?_isSome, ← hx, Census.isExecutable_iff]
  simp

theorem Census.Records.effectiveHandle_eq (hc : Records g c) (e : Graph.Edge) :
    effectiveHandle e (c.cases.lookup e.target) = g.handle e := by
  rw [hc.cases]
  unfold effectiveHandle Graph.handle Handle.isPlain
  cases g.case? e.target with
  | none => simp
  | some n =>
    cases hn : caseHandle? n.data with
    | none => simp [hn]
    | some held => simp [hn]

/-- **What becomes of an edge** that leaves an executable node: it leads to a node, by its handle,
or it is broken. -/
theorem foldEdge_cases (hc : Census.Records g c) (hs : c.Sound) (ht : e.target ∈ c.seen)
    (hx : g.Executes e.source) :
    (∃ t, g.Leads e t ∧ foldEdge c g.edges e = .edge ⟨e.id, e.source, t, g.handle e⟩) ∨
      (∀ t, ¬ g.Leads e t) ∧ foldEdge c g.edges e = .broken e.source (g.handle e).key := by
  have hx : c.isExecutable e.source = true := (hc.executes _).mpr hx
  unfold foldEdge
  rw [hx]
  dsimp only
  rw [hc.effectiveHandle_eq e]
  cases hcase : g.case? e.target with
  | none =>
    have hnone : c.cases.lookup e.target = none := by rw [hc.cases, hcase]; rfl
    have hstraight : c.isExecutable e.target = true := by
      rw [Census.isExecutable_iff]
      exact (hs.seen _ ht).resolve_right (by rw [hnone]; nofun)
    exact .inl ⟨e.target, .straight ((hc.executes _).mp hstraight), by rw [hnone]; rfl⟩
  | some n =>
    have hcs : (g.case? e.target).isSome := by rw [hcase]; rfl
    have hsome : c.cases.lookup e.target = some (Census.caseHandle? n.data) := by
      rw [hc.cases, hcase]
      rfl
    rw [hsome]
    have hleaving : targets g.edges e.target = (g.leaving e.target).map (·.target) := rfl
    rw [hleaving]
    have hlost (h : ∀ e', g.leaving e.target = [e'] → ¬ g.Executes e'.target) (t : String) :
        ¬ g.Leads e t := by
      rintro (hx | ⟨_, hl, hx⟩)
      · rw [hx.case?_eq] at hcase
        cases hcase
      · exact h _ hl hx
    rcases hl : g.leaving e.target with - | ⟨e', - | ⟨e'', rest⟩⟩
    · exact .inr ⟨hlost (by rw [hl]; nofun), rfl⟩
    · cases hx' : c.isExecutable e'.target with
      | true =>
        refine .inl ⟨e'.target, .folded hcs hl ((hc.executes _).mp hx'), ?_⟩
        simp [hx']
      | false =>
        refine .inr ⟨hlost fun e'' he hx'' => ?_, by simp [hx']⟩
        rw [hl] at he
        cases he
        rw [(hc.executes _).mpr hx''] at hx'
        cases hx'
    · exact .inr ⟨hlost (by rw [hl]; nofun), rfl⟩

theorem foldEdge_absorbed (hc : Census.Records g c) (hx : ¬ g.Executes e.source) :
    foldEdge c g.edges e = .absorbed := by
  have hx : c.isExecutable e.source = false := by rwa [Bool.eq_false_iff, Ne, hc.executes]
  unfold foldEdge
  rw [hx]
  rfl

theorem foldEdge_source {es : List Graph.Edge} {e' : Edge}
    (h : (foldEdge c es e).edge? = some e') : e'.source = e.source := by
  unfold foldEdge at h
  dsimp only at h
  split_ifs at h
  · cases h
  · cases h
    rfl
  · split at h
    · split_ifs at h
      · cases h
        rfl
      · cases h
    · cases h

/-! ### Branches -/

/-- What is kept of the results, by a test that can be made beforehand. -/
theorem filter_filterMap_of_agree {α β : Type} {p : β → Bool} {q : α → Bool} {F : α → Option β}
    (l : List α) (h : ∀ a ∈ l, ∀ b, F a = some b → p b = q a) :
    (l.filterMap F).filter p = (l.filter q).filterMap F := by
  induction l with
  | nil => rfl
  | cons a rest ih =>
    have ih := ih fun x hx => h x (List.mem_cons_of_mem a hx)
    cases ha : F a with
    | none =>
      rw [List.filterMap_cons_none ha, ih, List.filter_cons]
      split
      · rw [List.filterMap_cons_none ha]
      · rfl
    | some b =>
      rw [List.filterMap_cons_some ha, List.filter_cons, List.filter_cons,
        h a List.mem_cons_self b ha, ih]
      split
      · rw [List.filterMap_cons_some ha]
      · rfl

section
variable {node key t : String} (h : compile id v g = .ok f) (hn : g.Executes node)
include h hn

/-- What leaves a node of the flow is what is left of the edges that leave it as drawn. -/
theorem exists_arrow : ∃ arrow : Graph.Edge → Option Edge,
    (∀ e ∈ g.leaving node, (∃ t, g.Leads e t ∧ arrow e = some ⟨e.id, node, t, g.handle e⟩) ∨
      (∀ t, ¬ g.Leads e t) ∧ arrow e = none) ∧
    f.outgoing node = (g.leaving node).filterMap arrow := by
  obtain ⟨c, hc, hs, hseen, -, hedges, -⟩ := compile_eq_ok h
  refine ⟨fun e => (foldEdge c g.edges e).edge?, fun e he => ?_, ?_⟩
  · obtain ⟨hmem, rfl⟩ := Graph.mem_leaving.mp he
    rcases foldEdge_cases hc hs (hseen e hmem) hn with ⟨t, ht, hf⟩ | ⟨ht, hf⟩
    · exact .inl ⟨t, ht, congrArg Folded.edge? hf⟩
    · exact .inr ⟨ht, congrArg Folded.edge? hf⟩
  · rw [outgoing, hedges, List.filterMap_map, Graph.leaving]
    refine filter_filterMap_of_agree _ fun e _ e' he' => ?_
    rw [foldEdge_source he']

/-- The same for one branch. -/
theorem exists_arrow_branch (key : String) : ∃ arrow : Graph.Edge → Option Edge,
    (∀ e ∈ g.branch node key,
      (∃ t, g.Leads e t ∧ arrow e = some ⟨e.id, node, t, g.handle e⟩) ∨
      (∀ t, ¬ g.Leads e t) ∧ arrow e = none) ∧
    f.leaving node key = (g.branch node key).filterMap arrow := by
  obtain ⟨arrow, harrow, hout⟩ := exists_arrow h hn
  refine ⟨arrow, fun e he => harrow e (List.mem_filter.mp he).1, ?_⟩
  rw [leaving, hout, Graph.branch]
  refine filter_filterMap_of_agree _ fun e he e' he' => ?_
  rcases harrow e he with ⟨t, -, ha⟩ | ⟨-, ha⟩
  · rw [ha] at he'
    cases he'
    rfl
  · rw [ha] at he'
    cases he'

/-- The branches that are broken are those with an edge that leads nowhere. -/
theorem mem_broken_iff : (node, key) ∈ f.broken ↔
    ∃ e ∈ g.branch node key, ∀ t, ¬ g.Leads e t := by
  obtain ⟨c, hc, hs, hseen, -, -, hbroken⟩ := compile_eq_ok h
  rw [hbroken, List.filterMap_map, List.mem_filterMap]
  constructor
  · rintro ⟨e, he, hb⟩
    by_cases hx : g.Executes e.source
    · rcases foldEdge_cases hc hs (hseen e he) hx with ⟨t, -, hf⟩ | ⟨ht, hf⟩
      · simp [hf, Folded.broken?] at hb
      · obtain ⟨hsource, hkey⟩ : e.source = node ∧ (g.handle e).key = key := by
          simpa [hf, Folded.broken?] using hb
        exact ⟨e, Graph.mem_branch.mpr ⟨he, hsource, hkey⟩, ht⟩
    · simp [foldEdge_absorbed hc hx, Folded.broken?] at hb
  · rintro ⟨e, he, ht⟩
    obtain ⟨hmem, rfl, hkey⟩ := Graph.mem_branch.mp he
    rcases foldEdge_cases hc hs (hseen e hmem) hn with ⟨t, hl, -⟩ | ⟨-, hf⟩
    · exact absurd hl (ht t)
    · exact ⟨e, hmem, by simp [hf, Folded.broken?, hkey]⟩

/-- An edge leaves a node by a handle unless its branch is lost. -/
theorem hasRoute_iff (way : Handle) : f.hasRoute node way = true ↔ ¬ g.Lost node way.key := by
  obtain ⟨arrow, harrow, hleaving⟩ := exists_arrow_branch h hn way.key
  have hnil : f.leaving node way.key = [] ↔ g.Lost node way.key := by
    rw [hleaving, List.filterMap_eq_nil_iff]
    refine forall₂_congr fun e he => ?_
    rcases harrow e he with ⟨t, ht, ha⟩ | ⟨ht, ha⟩
    · exact ⟨fun hnone => absurd (ha.symm.trans hnone) nofun, fun hl => absurd ht (hl t)⟩
    · exact ⟨fun _ => ht, fun _ => ha⟩
  rw [hasRoute, ← hnil, Bool.not_eq_true', List.isEmpty_eq_false_iff]

theorem next_of_nil {way : Handle} (hb : g.branch node way.key = []) :
    f.next node way = .ok none := by
  obtain ⟨arrow, -, hleaving⟩ := exists_arrow_branch h hn way.key
  rw [next_eq_none_iff, mem_broken_iff h hn, hleaving, hb]
  exact ⟨fun ⟨e, he, _⟩ => absurd he List.not_mem_nil, rfl⟩

theorem next_of_leads {way : Handle} {e : Graph.Edge} (hb : g.branch node way.key = [e])
    (ht : g.Leads e t) : f.next node way = .ok (some t) := by
  obtain ⟨arrow, harrow, hleaving⟩ := exists_arrow_branch h hn way.key
  have hsound : (node, way.key) ∉ f.broken := by
    rw [mem_broken_iff h hn, hb]
    rintro ⟨e', he', hl⟩
    obtain rfl := List.mem_singleton.mp he'
    exact hl t ht
  rw [hb] at harrow hleaving
  rcases harrow e (List.mem_singleton_self e) with ⟨t', ht', ha⟩ | ⟨hl, -⟩
  · obtain rfl := ht.unique ht'
    rw [next, if_neg (by rwa [List.contains_iff_mem]), hleaving, List.filterMap_cons_some ha]
    rfl
  · exact absurd ht (hl t)

/-- Where several edges make up a branch, or its only edge leads nowhere, the flow cannot say where
to go on. -/
theorem next_of_lost {way : Handle} (hb : g.branch node way.key ≠ [])
    (hl : ∀ e t, g.branch node way.key = [e] → ¬ g.Leads e t) :
    ∃ x, f.next node way = .error x := by
  obtain ⟨arrow, harrow, hleaving⟩ := exists_arrow_branch h hn way.key
  unfold next
  split_ifs with hbroken
  · exact ⟨_, rfl⟩
  rw [List.contains_iff_mem, mem_broken_iff h hn] at hbroken
  -- every edge of the branch leads somewhere, so as many are left as are drawn
  have hall (e : Graph.Edge) (he : e ∈ g.branch node way.key) :
      ∃ t, g.Leads e t ∧ arrow e = some ⟨e.id, node, t, g.handle e⟩ :=
    (harrow e he).resolve_right fun hlost => hbroken ⟨e, he, hlost.1⟩
  have hlength : (f.leaving node way.key).length = (g.branch node way.key).length := by
    rw [hleaving]
    refine List.filterMap_length_eq_length.mpr fun e he => ?_
    obtain ⟨t, -, ha⟩ := hall e he
    rw [ha]
    rfl
  split
  · rename_i hnil
    rw [hnil] at hlength
    exact absurd (List.length_eq_zero_iff.mp hlength.symm) hb
  · rename_i e' hone
    rw [hone] at hlength
    obtain ⟨e, he⟩ := List.length_eq_one_iff.mp hlength.symm
    obtain ⟨t, ht, -⟩ := hall e (by rw [he]; exact List.mem_singleton_self e)
    exact absurd ht (hl e t he)
  · exact ⟨_, rfl⟩

end

/-- **Folding is exact.** From an executable node the flow leads on by a handle as it is drawn:
nowhere if no edge leaves the node by that key, to a node if exactly one does and leads there, and
in every other case the graph is faulty. -/
theorem next_authored (h : compile id v g = .ok f) {node : String} (hn : g.Executes node)
    (way : Handle) :
    (f.next node way = .ok none ↔ g.branch node way.key = []) ∧
    (∀ t, f.next node way = .ok (some t) ↔ ∃ e, g.branch node way.key = [e] ∧ g.Leads e t) ∧
    ((∃ x text, f.next node way = .error x ∧ x.toFailure = .plain .graph text) ↔
      g.branch node way.key ≠ [] ∧ ∀ e t, g.branch node way.key = [e] → ¬ g.Leads e t) := by
  by_cases hb : g.branch node way.key = []
  · rw [next_of_nil h hn hb, hb]
    simp
  by_cases hl : ∃ e t, g.branch node way.key = [e] ∧ g.Leads e t
  · obtain ⟨e, t, he, ht⟩ := hl
    rw [next_of_leads h hn he ht, he]
    refine ⟨by simp, fun t' => ⟨?_, ?_⟩, ?_⟩
    · rintro ⟨⟩
      exact ⟨e, rfl, ht⟩
    · rintro ⟨_, ⟨⟩, ht'⟩
      rw [ht.unique ht']
    · exact ⟨fun ⟨_, _, hx, _⟩ => absurd hx nofun, fun hl => absurd ht (hl.2 e t rfl)⟩
  · simp only [not_exists, not_and] at hl
    obtain ⟨x, hx⟩ := next_of_lost h hn hb hl
    rw [hx]
    refine ⟨⟨nofun, fun h => absurd h hb⟩, fun t => ⟨nofun, ?_⟩, fun _ => ⟨hb, hl⟩, fun _ => ?_⟩
    · rintro ⟨e, he, ht⟩
      exact absurd ht (hl e t he)
    · exact ⟨x, x.message, rfl, rfl⟩

/-- Two case nodes hold a handle for the plain edges into them; one leads on, one forks. -/
def folding : Graph :=
  ⟨[⟨"start", "start", .null, none⟩, ⟨"m", "message", .obj [("text", .str "Hi")], none⟩,
      ⟨"c", "case", .obj [("handle", .str "yes")], none⟩,
      ⟨"d", "case", .obj [("handle", .str "no")], none⟩],
    [⟨"e1", "start", "c", none⟩, ⟨"e2", "c", "m", none⟩, ⟨"e3", "start", "d", none⟩,
      ⟨"e4", "d", "m", none⟩, ⟨"e5", "d", "start", none⟩]⟩

theorem executes_folding : folding.Executes "start" :=
  ⟨⟨"start", "start", .null, none⟩, .start, rfl, by decide +kernel, nofun⟩

theorem leads_folding : folding.Leads ⟨"e1", "start", "c", none⟩ "m" :=
  @Graph.Leads.folded _ _ ⟨"e2", "c", "m", none⟩ (by decide +kernel) (by decide +kernel)
    ⟨⟨"m", "message", .obj [("text", .str "Hi")], none⟩, .message, rfl, by decide +kernel, nofun⟩

theorem compile_folding : (compile "f1" 1 folding).toOption.isSome := by decide +kernel

/-- No plain edge is left of that graph, one branch leads on, and the other one is faulty. -/
theorem next_authored_folding : ∃ f x, compile "f1" 1 folding = .ok f ∧
    f.next "start" .plain = .ok none ∧ f.next "start" (.branch "yes") = .ok (some "m") ∧
    f.next "start" (.branch "no") = .error x := by
  obtain ⟨f, hf⟩ : ∃ f, compile "f1" 1 folding = .ok f := by
    have h := compile_folding
    cases hc : compile "f1" 1 folding with
    | ok f => exact ⟨f, rfl⟩
    | error d => rw [hc] at h; cases h
  have hplain := (next_authored hf executes_folding .plain).1
  have hyes := (next_authored hf executes_folding (.branch "yes")).2.1 "m"
  have hno := (next_authored hf executes_folding (.branch "no")).2.2
  have hone : folding.branch "start" "yes" = [⟨"e1", "start", "c", none⟩] := by decide +kernel
  have hforked : folding.branch "start" "no" = [⟨"e3", "start", "d", none⟩] := by decide +kernel
  have hcase : (folding.case? "d").isSome := by decide +kernel
  have hfork : (folding.leaving "d").length = 2 := by decide +kernel
  have hlost (t : String) : ¬ folding.Leads ⟨"e3", "start", "d", none⟩ t := by
    rintro (hx | ⟨-, hl, -⟩)
    · rw [hx.case?_eq] at hcase
      cases hcase
    · rw [hl] at hfork
      cases hfork
  obtain ⟨x, -, hx, -⟩ := hno.mpr ⟨by rw [Handle.key, hforked]; nofun, fun e t he => by
    rw [Handle.key, hforked] at he
    cases he
    exact hlost t⟩
  exact ⟨f, x, hf, hplain.mpr (by decide +kernel), hyes.mpr ⟨_, hone, leads_folding⟩, hx⟩

end Flow

end Dialogue
