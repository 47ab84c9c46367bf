import Dialogue.Proofs.Flow.Authored
import Mathlib.Data.List.Induction

/-! # Well-formed graphs

Which graphs can be compiled, said of the graph as a whole: nothing depends on the order in which
the compiler meets the nodes, or on which of its passes makes a check. What it knows of the nodes
after any number of them is what can be read off them at once, `Census.drawn`.

* `Census.add_drawn_iff`: one more node is taken into account exactly if it fits the ones before.
* `Census.ofNodes_eq_ok_iff`: so nodes are taken into account exactly if they are orderly.
* `compile_eq_ok_iff`: a graph is compiled exactly if it is well-formed, to the flow `drawn`. -/

namespace Dialogue

namespace Graph

/-! ### Nodes as drawn -/

namespace Node

/-- The kind that the type of the node names. -/
def kind? (n : Node) : Option NodeKind := NodeKind.ofName? n.type

/-- The name to jump to the node by, if it is an anchor with a name. -/
def anchorName? (n : Node) : Option String :=
  let name := Flow.Census.anchorName n.data
  if n.kind? = some .anchor ∧ name ≠ "" then some name else none

/-- The executable node that is drawn, if its kind accepts its data. -/
def executable? (n : Node) : Option Flow.Node :=
  n.kind?.bind fun k => (Flow.Census.compileNode n k).toOption

/-- The case node with the handle that it holds. -/
def held? (n : Node) : Option (String × Option String) :=
  if n.kind? = some .case then some (n.id, Flow.Census.caseHandle? n.data) else none

end Node

/-- Nodes that can stand in one graph. -/
structure Orderly (ns : List Node) : Prop where
  named : ∀ n ∈ ns, n.id ≠ ""
  distinct : (ns.map (·.id)).Nodup
  /-- Every type is the name of a kind. -/
  known : ∀ n ∈ ns, ∃ k, n.kind? = some k
  starts : ns.countP (·.kind? = some .start) ≤ 1
  anchors : (ns.filterMap Node.anchorName?).Nodup
  /-- The data of every node that is no case node is accepted. -/
  accepted : ∀ n ∈ ns, ∀ k, n.kind? = some k → k ≠ .case → ∃ a, Action.ofData k n.data = .ok a

/-- **A well-formed graph**: its nodes can stand together, exactly one of them is a start, and every
edge joins two of them. -/
structure WellFormed (g : Graph) : Prop where
  nodes : Orderly g.nodes
  start : g.nodes.countP (·.kind? = some .start) = 1
  joined : ∀ e ∈ g.edges, e.source ∈ g.nodes.map (·.id) ∧ e.target ∈ g.nodes.map (·.id)

/-- The node can stand behind those nodes. -/
structure Fits (ns : List Node) (n : Node) : Prop where
  named : n.id ≠ ""
  fresh : n.id ∉ ns.map (·.id)
  known : ∃ k, n.kind? = some k
  start : n.kind? = some .start → ns.countP (·.kind? = some .start) = 0
  anchor : ∀ name, n.anchorName? = some name → name ∉ ns.filterMap Node.anchorName?
  accepted : ∀ k, n.kind? = some k → k ≠ .case → ∃ a, Action.ofData k n.data = .ok a

variable {ns : List Node} {n : Node}

theorem orderly_nil : Orderly [] := by
  constructor <;> simp

/-- One more node. -/
theorem orderly_concat_iff : Orderly (ns ++ [n]) ↔ Orderly ns ∧ Fits ns n := by
  constructor
  · intro h
    have hleft (m : Node) (hm : m ∈ ns) : m ∈ ns ++ [n] := List.mem_append_left _ hm
    have hlast : n ∈ ns ++ [n] := List.mem_append_right _ (List.mem_singleton_self n)
    have hids := h.distinct
    have hnames := h.anchors
    have hstarts := h.starts
    rw [List.map_append, List.nodup_append] at hids
    rw [List.filterMap_append, List.nodup_append] at hnames
    rw [List.countP_append] at hstarts
    refine ⟨⟨fun m hm => h.named m (hleft m hm), hids.1, fun m hm => h.known m (hleft m hm),
      by omega, hnames.1, fun m hm => h.accepted m (hleft m hm)⟩,
      h.named n hlast, fun hm => hids.2.2 _ hm _ (by simp) rfl, h.known n hlast, fun hs => ?_,
      fun name hname hm => hnames.2.2 _ hm name ?_ rfl, h.accepted n hlast⟩
    · have hone : [n].countP (·.kind? = some .start) = 1 := by simp [hs]
      omega
    · simp [hname]
  · rintro ⟨h, hn⟩
    have hcases (m : Node) (hm : m ∈ ns ++ [n]) : m ∈ ns ∨ m = n := by simpa using hm
    constructor
    case named =>
      intro m hm
      rcases hcases m hm with hm | rfl
      · exact h.named m hm
      · exact hn.named
    case distinct =>
      rw [List.map_append, List.nodup_append]
      refine ⟨h.distinct, by simp, fun id hid id' hid' => ?_⟩
      obtain rfl : id' = n.id := by simpa using hid'
      rintro rfl
      exact hn.fresh hid
    case known =>
      intro m hm
      rcases hcases m hm with hm | rfl
      · exact h.known m hm
      · exact hn.known
    case starts =>
      rw [List.countP_append]
      by_cases hs : n.kind? = some .start
      · rw [hn.start hs]
        simp [hs]
      · have hnone : [n].countP (·.kind? = some .start) = 0 := by simp [hs]
        rw [hnone]
        exact h.starts
    case anchors =>
      rw [List.filterMap_append, List.nodup_append]
      refine ⟨h.anchors, ?_, fun name hname name' hname' => ?_⟩
      · cases hn : n.anchorName? with
        | none => simp [hn]
        | some name => simp [hn]
      · rintro rfl
        refine hn.anchor name ?_ hname
        simpa using hname'
    case accepted =>
      intro m hm
      rcases hcases m hm with hm | rfl
      · exact h.accepted m hm
      · exact hn.accepted

end Graph

namespace Flow

variable {β ε : Type}

theorem unless_error_iff {p : Prop} [Decidable p] {e : ε} {f : Unit → Except ε β} {b : β} :
    (if p then Except.error e >>= f else f ()) = .ok b ↔ ¬ p ∧ f () = .ok b := by
  split_ifs with h
  · exact ⟨nofun, fun hb => absurd h hb.1⟩
  · exact ⟨fun hb => ⟨h, hb⟩, And.right⟩

/-! ### Censuses -/

namespace Census

/-- What is known of one more node as well. -/
def extend (c : Census) (n : Graph.Node) : Census where
  seen := c.seen ++ [n.id]
  nodes := c.nodes ++ n.executable?.toList
  cases := c.cases ++ n.held?.toList
  anchors := c.anchors ++ (n.anchorName?.map fun name => (name, n.id)).toList
  start := if n.kind? = some .start then some n.id else c.start

/-- What can be known of the nodes. -/
def drawn (ns : List Graph.Node) : Census where
  seen := ns.map (·.id)
  nodes := ns.filterMap Graph.Node.executable?
  cases := ns.filterMap Graph.Node.held?
  anchors := ns.filterMap fun n => n.anchorName?.map fun name => (name, n.id)
  start := (ns.find? (·.kind? = some .start)).map (·.id)

variable {ns : List Graph.Node} {n : Graph.Node} {c c' : Census} {k : NodeKind}

/-- A node of some kind that is executed is kept behind the others. -/
theorem compiled_iff (hk : n.kind? = some k) {F : Node → Census}
    (hF : ∀ node, n.executable? = some node → F node = c.extend n) :
    (compileNode n k >>= fun node => pure (F node)) = .ok c' ↔
      (∃ node, compileNode n k = .ok node) ∧ c' = c.extend n := by
  cases hnode : compileNode n k with
  | error e =>
    constructor
    · intro h
      cases h
    · rintro ⟨⟨node, h⟩, -⟩
      cases h
  | ok node =>
    have hF := hF node (by simp only [Graph.Node.executable?, hk, hnode, Option.bind_some,
      Except.toOption])
    refine ⟨fun h => ?_, fun h => ?_⟩
    · cases h
      exact ⟨⟨node, rfl⟩, hF⟩
    · rw [h.2, ← hF]
      rfl

/-- When one more node is taken into account. -/
theorem add_eq_ok_iff : c.add n = .ok c' ↔
    n.id ≠ "" ∧ n.id ∉ c.seen ∧
      (∃ k, n.kind? = some k ∧ (k = .start → c.start = none) ∧
        (k ≠ .case → ∃ node, compileNode n k = .ok node)) ∧
      (∀ name, n.anchorName? = some name → c.anchors.lookup name = none) ∧ c' = c.extend n := by
  unfold add
  rw [unless_error_iff, unless_error_iff]
  refine and_congr (by simp) (and_congr (by simp) ?_)
  cases hk : n.kind? with
  | none =>
    rw [show NodeKind.ofName? n.type = none from hk]
    exact ⟨nofun, fun ⟨⟨k, hk, _⟩, _⟩ => nomatch hk⟩
  | some k =>
    rw [show NodeKind.ofName? n.type = some k from hk]
    dsimp only
    cases k
    case case =>
      have hnone : n.executable? = none := by rw [Graph.Node.executable?, hk]; rfl
      have heq : c.extend n = { c with
          seen := c.seen ++ [n.id], cases := c.cases ++ [(n.id, caseHandle? n.data)] } := by
        simp [extend, hnone, Graph.Node.held?, Graph.Node.anchorName?, hk]
      rw [heq]
      refine ⟨fun h => ?_, fun h => by rw [h.2.2]; rfl⟩
      cases h
      exact ⟨⟨_, rfl, nofun, nofun⟩, by simp [Graph.Node.anchorName?, hk], rfl⟩
    case start =>
      rw [unless_error_iff, compiled_iff (c := c) hk fun node hnode => by
        simp [extend, hnode, Graph.Node.held?, Graph.Node.anchorName?, hk]]
      simp [Graph.Node.anchorName?, hk, and_assoc]
    case anchor =>
      rw [unless_error_iff, compiled_iff (c := c) hk fun node hnode => by
        by_cases hname : anchorName n.data = "" <;>
          simp [extend, hnode, Graph.Node.held?, Graph.Node.anchorName?, hk, hname]]
      have hcheck : ¬ (!(anchorName n.data).isEmpty &&
          (c.anchors.lookup (anchorName n.data)).isSome) = true ↔
          ∀ name, n.anchorName? = some name → c.anchors.lookup name = none := by
        by_cases hname : anchorName n.data = "" <;>
          simp [Graph.Node.anchorName?, hk, hname, -List.lookup_eq_none_iff,
            -List.lookup_isSome_iff]
      rw [hcheck]
      simp [and_left_comm]
    all_goals
      rw [compiled_iff (c := c) hk fun node hnode => by
        simp [extend, hnode, Graph.Node.held?, Graph.Node.anchorName?, hk]]
      simp [Graph.Node.anchorName?, hk]

theorem drawn_concat (h : n.kind? = some .start → (drawn ns).start = none) :
    drawn (ns ++ [n]) = (drawn ns).extend n := by
  have hone {α : Type} (F : Graph.Node → Option α) : [n].filterMap F = (F n).toList := by
    cases h : F n <;> simp [h]
  simp only [drawn, extend, List.map_append, List.map_singleton, List.filterMap_append, hone,
    List.find?_append, List.find?_singleton, Option.map_or, decide_eq_true_eq]
  split
  · rw [show (ns.find? _).map _ = none from h ‹_›]
    rfl
  · rw [Option.map_none, Option.or_none]

theorem lookup_drawn (name : String) :
    ((drawn ns).anchors.lookup name).isSome ↔ name ∈ ns.filterMap Graph.Node.anchorName? := by
  rw [List.lookup_isSome_iff]
  simp [drawn]

theorem start_drawn :
    (drawn ns).start.isSome ↔ ns.countP (·.kind? = some .start) ≠ 0 := by
  rw [← Nat.pos_iff_ne_zero, List.countP_pos_iff]
  simp [drawn]

theorem exists_compileNode_iff :
    (∃ node, compileNode n k = .ok node) ↔ ∃ a, Action.ofData k n.data = .ok a := by
  unfold compileNode
  cases Action.ofData k n.data with
  | error e => simp
  | ok a => simp

/-- **One more node** is taken into account exactly if it fits the ones before. -/
theorem add_drawn_iff : (drawn ns).add n = .ok c ↔ Graph.Fits ns n ∧ c = drawn (ns ++ [n]) := by
  have hstart : (drawn ns).start = none ↔ ns.countP (·.kind? = some .start) = 0 := by
    rw [← Option.not_isSome_iff_eq_none, start_drawn, not_not]
  have hanchor (name : String) :
      (drawn ns).anchors.lookup name = none ↔ name ∉ ns.filterMap Graph.Node.anchorName? := by
    rw [← lookup_drawn, Option.not_isSome_iff_eq_none]
  rw [add_eq_ok_iff]
  simp only [exists_compileNode_iff, hstart, hanchor]
  constructor
  · rintro ⟨hid, hfresh, ⟨k, hk, hs, ha⟩, hname, rfl⟩
    have hs (h : n.kind? = some .start) : ns.countP (·.kind? = some .start) = 0 :=
      hs (Option.some.inj (hk.symm.trans h))
    refine ⟨⟨hid, hfresh, ⟨k, hk⟩, hs, hname, fun k' hk' hne => ?_⟩, ?_⟩
    · obtain rfl := Option.some.inj (hk.symm.trans hk')
      exact ha hne
    · exact (drawn_concat fun h => hstart.mpr (hs h)).symm
  · rintro ⟨h, rfl⟩
    obtain ⟨k, hk⟩ := h.known
    refine ⟨h.named, h.fresh, ⟨k, hk, fun hs => h.start (hs ▸ hk), h.accepted k hk⟩, h.anchor, ?_⟩
    exact drawn_concat fun hs => hstart.mpr (h.start hs)

/-- Nodes are taken into account exactly if they are orderly. -/
theorem ofNodes_eq_ok_iff : ofNodes ns = .ok c ↔ Graph.Orderly ns ∧ c = drawn ns := by
  induction ns using List.reverseRecOn generalizing c with
  | nil =>
    constructor
    · rintro ⟨⟩
      exact ⟨Graph.orderly_nil, rfl⟩
    · rintro ⟨-, rfl⟩
      rfl
  | append_singleton ns n ih =>
    have hlast : ofNodes (ns ++ [n]) = ofNodes ns >>= fun c => c.add n := by
      simp only [ofNodes, List.foldlM_append, List.foldlM_cons, List.foldlM_nil, bind_pure]
    rw [hlast, bind_eq_ok, Graph.orderly_concat_iff]
    constructor
    · rintro ⟨c₀, h₀, h⟩
      obtain ⟨hns, rfl⟩ := ih.mp h₀
      obtain ⟨hn, rfl⟩ := add_drawn_iff.mp h
      exact ⟨⟨hns, hn⟩, rfl⟩
    · rintro ⟨⟨hns, hn⟩, rfl⟩
      exact ⟨drawn ns, ih.mpr ⟨hns, rfl⟩, add_drawn_iff.mpr ⟨hn, rfl⟩⟩

end Census

/-! ### Flows -/

/-- The flow that is drawn. -/
def drawn (id : String) (version : Nat) (g : Graph) : Flow :=
  let c := Census.drawn g.nodes
  let folded := g.edges.map (foldEdge c g.edges)
  ⟨id, version, c.nodes, folded.filterMap Folded.edge?, c.anchors,
    folded.filterMap Folded.broken?, c.start.getD ""⟩

theorem forM_checkEdge_iff {seen : List String} {es : List Graph.Edge} :
    es.forM (checkEdge seen) = .ok () ↔ ∀ e ∈ es, e.source ∈ seen ∧ e.target ∈ seen := by
  induction es with
  | nil => exact ⟨fun _ => nofun, fun _ => rfl⟩
  | cons e rest ih =>
    have hone : checkEdge seen e = .ok () ↔ e.source ∈ seen ∧ e.target ∈ seen := by
      unfold checkEdge
      split_ifs with hs ht <;> simp_all
    show (checkEdge seen e >>= fun _ => rest.forM (checkEdge seen)) = .ok () ↔ _
    rw [bind_eq_ok, List.forall_mem_cons, ← hone, ← ih]
    exact ⟨fun ⟨_, he, hrest⟩ => ⟨he, hrest⟩, fun ⟨he, hrest⟩ => ⟨(), he, hrest⟩⟩

/-- **A graph is compiled** exactly if it is well-formed, to the flow that is drawn. -/
theorem compile_eq_ok_iff {id : String} {v : Nat} {g : Graph} {f : Flow} :
    compile id v g = .ok f ↔ g.WellFormed ∧ f = drawn id v g := by
  unfold compile
  rw [bind_eq_ok]
  constructor
  · rintro ⟨c, hc, h⟩
    obtain ⟨hnodes, rfl⟩ := Census.ofNodes_eq_ok_iff.mp hc
    split at h
    · rename_i start hstart
      obtain ⟨_, hedges, h⟩ := bind_eq_ok.mp h
      cases h
      have hsome : (Census.drawn g.nodes).start.isSome := by rw [hstart]; rfl
      have hone := Census.start_drawn.mp hsome
      refine ⟨⟨hnodes, by have := hnodes.starts; omega, forM_checkEdge_iff.mp hedges⟩, ?_⟩
      rw [drawn, hstart]
      rfl
    · cases h
  · rintro ⟨hg, rfl⟩
    refine ⟨_, Census.ofNodes_eq_ok_iff.mpr ⟨hg.nodes, rfl⟩, ?_⟩
    obtain ⟨start, hstart⟩ := Option.isSome_iff_exists.mp
      (Census.start_drawn.mpr (by rw [hg.start]; exact Nat.one_ne_zero))
    have hedges : g.edges.forM (checkEdge (Census.drawn g.nodes).seen) = .ok () :=
      forM_checkEdge_iff.mpr hg.joined
    rw [drawn, hstart, hedges]
    rfl

/-- Exactly the well-formed graphs can be compiled. -/
theorem exists_compile_iff {id : String} {v : Nat} {g : Graph} :
    (∃ f, compile id v g = .ok f) ↔ g.WellFormed := by
  simp only [compile_eq_ok_iff, exists_and_left, exists_eq, and_true]

end Flow

end Dialogue
