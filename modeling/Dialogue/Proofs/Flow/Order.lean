import Dialogue.Proofs.Flow.WellFormed
import Mathlib.Data.List.Find
import Mathlib.Data.List.Nodup

/-! # The order of nodes and edges

An author may draw the nodes and the edges of a graph in any order. The compiled flow keeps its
nodes, its edges, its anchors and its broken branches as lists, but whatever is asked of it depends
on what is in the lists only: nodes and anchors are looked up by keys that are different, and of
several edges it counts how many they are.

* `Census.Alike.foldEdge_eq`: what becomes of an edge.
* `drawn_alike`: graphs that differ in order are drawn as flows that differ in order.
* `Alike.answersAs`: flows that differ in order give the same answers.
* `compiles_in_any_order`: exactly the well-formed graphs are compiled, whatever their order. -/

namespace Dialogue

variable {α β : Type} {l l' : List α}

/-! ### Lists in another order -/

/-- Lists that differ in order have no member, one and the same member, or several. -/
theorem perm_cases (h : l.Perm l') : l = [] ∧ l' = [] ∨ (∃ a, l = [a] ∧ l' = [a]) ∨
    ∃ a b r a' b' r', l = a :: b :: r ∧ l' = a' :: b' :: r' := by
  rcases l with - | ⟨a, - | ⟨b, r⟩⟩
  · exact .inl ⟨rfl, h.nil_eq.symm⟩
  · exact .inr (.inl ⟨a, rfl, List.perm_singleton.mp h.symm⟩)
  · have hlength := h.length_eq
    rcases l' with - | ⟨a', - | ⟨b', r'⟩⟩
    · cases hlength
    · cases hlength
    · exact .inr (.inr ⟨a, b, r, a', b', r', rfl, rfl⟩)

/-- The member with a key is the same in any order where no two members have one key. -/
theorem find?_key_of_perm [DecidableEq β] {key : α → β} (h : l.Perm l')
    (hn : (l.map key).Nodup) (b : β) :
    l.find? (fun a => key a = b) = l'.find? (fun a => key a = b) := by
  refine List.find?_eq_find?_of_perm h fun x hx y hy => ?_
  have hkey : key x = key y := (of_decide_eq_true hx.2).trans (of_decide_eq_true hy.2).symm
  exact List.inj_on_of_nodup_map hn hx.1 hy.1 hkey

theorem lookup_eq_map_find? [DecidableEq α] (l : List (α × β)) (a : α) :
    l.lookup a = (l.find? fun x => x.1 = a).map (·.2) := by
  induction l with
  | nil => rfl
  | cons x rest ih =>
    rw [List.lookup_cons, List.find?_cons, ih]
    by_cases h : x.1 = a
    · subst h
      simp
    · have hne : (a == x.1) = false := by simpa using Ne.symm h
      simp [h, hne]

theorem lookup_of_perm [DecidableEq α] {l l' : List (α × β)} (h : l.Perm l')
    (hn : (l.map (·.1)).Nodup) (a : α) : l.lookup a = l'.lookup a := by
  rw [lookup_eq_map_find?, lookup_eq_map_find?, find?_key_of_perm h hn a]

/-- The member that passes a test is the same in any order where at most one does. -/
theorem find?_of_perm {p : α → Bool} (h : l.Perm l') (hp : l.countP p ≤ 1) :
    l.find? p = l'.find? p := by
  refine List.find?_eq_find?_of_perm h fun x hx y hy => ?_
  have hx := List.mem_filter.mpr hx
  have hy := List.mem_filter.mpr hy
  rw [List.countP_eq_length_filter] at hp
  rcases hl : l.filter p with - | ⟨a, - | ⟨b, r⟩⟩ <;> rw [hl] at hp hx hy
  · cases hx
  · rw [List.mem_singleton.mp hx, List.mem_singleton.mp hy]
  · simp at hp

/-- What is kept of the members under their own keys has the keys of some of them. -/
theorem filterMap_sublist_map {F : α → Option β} {key : α → β}
    (h : ∀ a b, F a = some b → b = key a) : (l.filterMap F).Sublist (l.map key) := by
  induction l with
  | nil => exact .slnil
  | cons a rest ih =>
    cases ha : F a with
    | none =>
      rw [List.filterMap_cons_none ha]
      exact ih.cons _
    | some b =>
      rw [List.filterMap_cons_some ha, h a b ha]
      exact ih.cons_cons _

/-! ### Graphs in another order -/

namespace Graph

/-- The graph is drawn in another order. -/
structure Reordered (g g' : Graph) : Prop where
  nodes : g.nodes.Perm g'.nodes
  edges : g.edges.Perm g'.edges

variable {ns ns' : List Node} {g g' : Graph}

theorem Orderly.perm (h : ns.Perm ns') (ho : Orderly ns) : Orderly ns' where
  named n hn := ho.named n (h.mem_iff.mpr hn)
  distinct := (h.map _).nodup_iff.mp ho.distinct
  known n hn := ho.known n (h.mem_iff.mpr hn)
  starts := h.countP_eq _ ▸ ho.starts
  anchors := (h.filterMap _).nodup_iff.mp ho.anchors
  accepted n hn := ho.accepted n (h.mem_iff.mpr hn)

/-- A graph is well-formed in any order. -/
theorem WellFormed.reordered (h : Reordered g g') (hg : g.WellFormed) : g'.WellFormed where
  nodes := hg.nodes.perm h.nodes
  start := h.nodes.countP_eq _ ▸ hg.start
  joined e he := by
    obtain ⟨hs, ht⟩ := hg.joined e (h.edges.mem_iff.mpr he)
    exact ⟨(h.nodes.map _).mem_iff.mp hs, (h.nodes.map _).mem_iff.mp ht⟩

end Graph

namespace Flow

variable {id : String} {v : Nat} {g g' : Graph} {f f' : Flow}

/-! ### Censuses -/

namespace Census

variable {c c' : Census} {ns ns' : List Graph.Node}

/-- The same is known, in another order. -/
structure Alike (c c' : Census) : Prop where
  nodes : c.nodes.Perm c'.nodes
  ids : (c.nodes.map (·.id)).Nodup
  cases : ∀ id, c.cases.lookup id = c'.cases.lookup id
  anchors : c.anchors.Perm c'.anchors
  names : (c.anchors.map (·.1)).Nodup
  start : c.start = c'.start

theorem executable?_id {n : Graph.Node} {m : Node} (h : n.executable? = some m) : m.id = n.id := by
  obtain ⟨k, -, h⟩ := Option.bind_eq_some_iff.mp h
  cases hc : compileNode n k with
  | error e => rw [hc] at h; cases h
  | ok node => rw [hc] at h; cases h; exact (compileNode_eq_ok hc).1

/-- What is known of nodes does not depend on their order. -/
theorem drawn_alike (h : ns.Perm ns') (ho : Graph.Orderly ns) : (drawn ns).Alike (drawn ns') where
  nodes := h.filterMap _
  ids := by
    refine ho.distinct.sublist ?_
    show ((ns.filterMap Graph.Node.executable?).map _).Sublist _
    rw [List.map_filterMap]
    refine filterMap_sublist_map fun n id hid => ?_
    obtain ⟨m, hm, rfl⟩ := Option.map_eq_some_iff.mp hid
    exact executable?_id hm
  cases := by
    refine lookup_of_perm (h.filterMap _) (ho.distinct.sublist ?_)
    show ((ns.filterMap Graph.Node.held?).map _).Sublist _
    rw [List.map_filterMap]
    refine filterMap_sublist_map fun n id hid => ?_
    obtain ⟨m, hm, rfl⟩ := Option.map_eq_some_iff.mp hid
    unfold Graph.Node.held? at hm
    split_ifs at hm
    cases hm
    rfl
  anchors := h.filterMap _
  names := by
    have heq : (drawn ns).anchors.map (·.1) = ns.filterMap Graph.Node.anchorName? := by
      simp [drawn, List.map_filterMap, Option.map_map, Function.comp_def]
    rw [heq]
    exact ho.anchors
  start := congrArg (Option.map _) (find?_of_perm h ho.starts)

/-- What becomes of an edge does not depend on the order of nodes and edges. -/
theorem Alike.foldEdge_eq (h : c.Alike c') {es es' : List Graph.Edge} (hes : es.Perm es')
    (e : Graph.Edge) : foldEdge c es e = foldEdge c' es' e := by
  have hx : c.isExecutable = c'.isExecutable := funext fun id => h.nodes.any_eq
  have ht : (targets es e.target).Perm (targets es' e.target) := (hes.filter _).map _
  unfold foldEdge
  rw [hx, h.cases]
  rcases perm_cases ht with ⟨hl, hl'⟩ | ⟨t, hl, hl'⟩ | ⟨_, _, _, _, _, _, hl, hl'⟩
  · rw [hl, hl']
  · rw [hl, hl']
  · rw [hl, hl']

end Census

/-! ### Flows -/

/-- The same flow, in another order. -/
structure Alike (f f' : Flow) : Prop where
  nodes : f.nodes.Perm f'.nodes
  ids : (f.nodes.map (·.id)).Nodup
  edges : f.edges.Perm f'.edges
  broken : f.broken.Perm f'.broken
  anchors : f.anchors.Perm f'.anchors
  names : (f.anchors.map (·.1)).Nodup
  start : f.start = f'.start

/-- The flows give the same answers. -/
structure AnswersAs (f f' : Flow) : Prop where
  start : f.start = f'.start
  node? : ∀ id, f.node? id = f'.node? id
  anchor? : ∀ name, f.anchor? name = f'.anchor? name
  hasRoute : ∀ node way, f.hasRoute node way = f'.hasRoute node way
  next : ∀ node way, f.next node way = f'.next node way
  nextSingle : ∀ node, f.nextSingle node = f'.nextSingle node

/-- A graph is drawn as the same flow in any order. -/
theorem drawn_alike (id : String) (v : Nat) (h : g.Reordered g') (hg : g.WellFormed) :
    (drawn id v g).Alike (drawn id v g') := by
  have hc := Census.drawn_alike h.nodes hg.nodes
  have hfold : foldEdge (Census.drawn g.nodes) g.edges =
      foldEdge (Census.drawn g'.nodes) g'.edges :=
    funext fun e => hc.foldEdge_eq h.edges e
  have hedges : (g.edges.map (foldEdge (Census.drawn g.nodes) g.edges)).Perm
      (g'.edges.map (foldEdge (Census.drawn g'.nodes) g'.edges)) := hfold ▸ h.edges.map _
  exact ⟨hc.nodes, hc.ids, hedges.filterMap _, hedges.filterMap _, hc.anchors, hc.names,
    congrArg (Option.getD · "") hc.start⟩

namespace Alike

variable (h : f.Alike f')
include h

theorem outgoing (node : String) : (f.outgoing node).Perm (f'.outgoing node) := h.edges.filter _

theorem leaving (node key : String) : (f.leaving node key).Perm (f'.leaving node key) :=
  (h.outgoing node).filter _

theorem next_eq (node : String) (way : Handle) : f.next node way = f'.next node way := by
  have hl := h.leaving node way.key
  have hlength := hl.length_eq
  unfold Flow.next
  rw [h.broken.contains_eq]
  rcases perm_cases hl with ⟨hl, hl'⟩ | ⟨t, hl, hl'⟩ | ⟨_, _, _, _, _, _, hl, hl'⟩
  · rw [hl, hl']
  · rw [hl, hl']
  · rw [hl, hl'] at hlength ⊢
    simp only [hlength]

theorem nextSingle_eq (node : String) : f.nextSingle node = f'.nextSingle node := by
  have ho := h.outgoing node
  have hlength := ho.length_eq
  unfold Flow.nextSingle
  rw [h.next_eq]
  rcases perm_cases ho with ⟨hl, hl'⟩ | ⟨t, hl, hl'⟩ | ⟨_, _, _, _, _, _, hl, hl'⟩
  · rw [hl, hl']
  · rw [hl, hl']
  · rw [hl, hl'] at hlength ⊢
    simp only [hlength]

/-- Flows that differ in order give the same answers. -/
theorem answersAs : f.AnswersAs f' where
  start := h.start
  node? := find?_key_of_perm h.nodes h.ids
  anchor? _ := lookup_of_perm h.anchors h.names _
  hasRoute node way := congrArg (!·) (h.leaving node way.key).isEmpty_eq
  next := h.next_eq
  nextSingle := h.nextSingle_eq

end Alike

/-- **Compilation in any order.** Exactly the well-formed graphs are compiled, and one that is
compiled is so in every order of its nodes and its edges, to a flow with the same answers. -/
theorem compiles_in_any_order (id : String) (v : Nat) (g : Graph) :
    ((∃ f, compile id v g = .ok f) ↔ g.WellFormed) ∧
    ∀ g', g.nodes.Perm g'.nodes → g.edges.Perm g'.edges → ∀ f, compile id v g = .ok f →
      ∃ f', compile id v g' = .ok f' ∧ f.AnswersAs f' := by
  refine ⟨exists_compile_iff, fun g' hnodes hedges f hf => ?_⟩
  obtain ⟨hg, rfl⟩ := compile_eq_ok_iff.mp hf
  have h : g.Reordered g' := ⟨hnodes, hedges⟩
  exact ⟨_, compile_eq_ok_iff.mpr ⟨hg.reordered h, rfl⟩, (drawn_alike id v h hg).answersAs⟩

/-- A graph with case nodes, drawn backwards. -/
def backwards : Graph := ⟨folding.nodes.reverse, folding.edges.reverse⟩

theorem exists_compile_folding : ∃ f, compile "f1" 1 folding = .ok f := by
  have h := compile_folding
  cases hc : compile "f1" 1 folding with
  | ok f => exact ⟨f, rfl⟩
  | error d => rw [hc] at h; cases h

/-- The flow of that graph gives the same answers. -/
theorem compiles_in_any_order_backwards : folding.WellFormed ∧
    folding.nodes.Perm backwards.nodes ∧ folding.edges.Perm backwards.edges ∧
    ∃ f, compile "f1" 1 folding = .ok f ∧ ∃ f', compile "f1" 1 backwards = .ok f' ∧
      f.AnswersAs f' := by
  have hnodes : folding.nodes.Perm backwards.nodes := (List.reverse_perm _).symm
  have hedges : folding.edges.Perm backwards.edges := (List.reverse_perm _).symm
  have h := compiles_in_any_order "f1" 1 folding
  obtain ⟨f, hf⟩ := exists_compile_folding
  exact ⟨h.1.mp ⟨f, hf⟩, hnodes, hedges, f, hf, h.2 backwards hnodes hedges f hf⟩

end Flow

end Dialogue
