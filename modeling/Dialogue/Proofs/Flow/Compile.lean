import Dialogue.Flow.Compile
import Mathlib.Tactic.SplitIfs

/-! # Compiled flows lead to executable nodes

A case node has no place in a compiled flow: every edge leads to an executable node, and so do the
start and the anchors. What an executable node does is what its kind says.

* `Census.add_sound`: what is known of the nodes stays sound as one more is met.
* `compile_sound`: a compiled flow is sound.
* `Sound.next`, `Sound.nextSingle`, `Sound.anchor`: wherever a sound flow leads, there is an
  executable node. -/

namespace Dialogue

variable {α β ε : Type}

theorem bind_eq_ok {x : Except ε α} {f : α → Except ε β} {b : β} :
    (x >>= f) = .ok b ↔ ∃ a, x = .ok a ∧ f a = .ok b := by
  cases x with
  | error e => exact ⟨nofun, nofun⟩
  | ok a => exact ⟨fun h => ⟨a, rfl, h⟩, fun ⟨_, ha, h⟩ => by cases ha; exact h⟩

theorem bind_eq_error {x : Except ε α} {f : α → Except ε β} {e : ε} :
    (x >>= f) = .error e ↔ x = .error e ∨ ∃ a, x = .ok a ∧ f a = .error e := by
  cases x with
  | error e' =>
    refine ⟨fun h => .inl (by cases h; rfl), ?_⟩
    rintro (h | ⟨a, ha, -⟩)
    · cases h; rfl
    · cases ha
  | ok a =>
    refine ⟨fun h => .inr ⟨a, rfl, h⟩, ?_⟩
    rintro (h | ⟨a', ha, h⟩)
    · cases h
    · cases ha; exact h

theorem of_unless_error {p : Prop} [Decidable p] {e : ε} {f : Unit → Except ε β} {b : β}
    (h : (if p then Except.error e >>= f else f ()) = .ok b) : f () = .ok b := by
  split_ifs at h
  · cases h
  · exact h

/-! ### What nodes do -/

namespace Decode

/-- Whatever the record is read off, it satisfies a condition. -/
def Shape.Gives (P : α → Prop) (s : Shape α) : Prop :=
  ∀ position src a, s.read position src = .ok a → P a

theorem Shape.gives_map {P : β → Prop} {f : α → β} {s : Shape α} (h : ∀ a, P (f a)) :
    (f <$> s).Gives P := by
  intro position src b hb
  change (s.read position src).map f = .ok b at hb
  cases hs : s.read position src with
  | error e => rw [hs] at hb; cases hb
  | ok a => rw [hs] at hb; cases hb; exact h a

theorem Shape.gives_seq {P : β → Prop} {s : Shape (α → β)} {t : Shape α}
    (h : s.Gives fun f => ∀ a, P (f a)) : (s <*> t).Gives P := by
  intro position src b hb
  change ((s.read position src).both (t.read (position + s.size) src)).map _ = .ok b at hb
  cases hs : s.read position src with
  | error e =>
    rw [hs] at hb
    cases ht : t.read (position + s.size) src <;> rw [ht] at hb <;> cases hb
  | ok f =>
    cases ht : t.read (position + s.size) src with
    | error e => rw [hs, ht] at hb; cases hb
    | ok a => rw [hs, ht] at hb; cases hb; exact h position src f hs a

theorem record_gives {P : α → Prop} {name : String} {s : Shape α} {d : Document} {a : α}
    (hs : s.Gives P) (h : record name s d = .ok a) : P a := by
  unfold record at h
  split at h
  · rename_i ms
    cases hr : s.read 0 (.members ms) with
    | error e => rw [fromMembers, hr] at h; cases h
    | ok b => rw [fromMembers, hr] at h; cases h; exact hs _ _ _ hr
  · rename_i ds
    obtain ⟨b, hb, h⟩ := bind_eq_ok.mp h
    split_ifs at h
    cases h
    cases hr : s.read 0 (.items ds ("struct " ++ name ++ " with " ++ elements s.size)) with
    | error e => rw [hr] at hb; cases hb
    | ok b => rw [hr] at hb; cases hb; exact hs _ _ _ hr
  · cases h

end Decode

namespace Action

open Decode

/-- The kind that the action of a node has: both ways to end a conversation are one action. -/
def actualKind : NodeKind → NodeKind
  | .final => .finish
  | k => k

theorem kind_of_record {k : NodeKind} {name : String} {s : Shape Action} {d : Document} {a : Action}
    (hs : s.Gives fun a => a.kind = k) (h : record name s d = .ok a) : a.kind = k :=
  record_gives (P := fun a => a.kind = k) hs h

theorem kind_of_decoder? {k : NodeKind} {dec : Decoder Action} {d : Document} {a : Action}
    (hd : decoder? k = some dec) (h : dec d = .ok a) : a.kind = actualKind k := by
  cases k <;> cases hd
  case httpRequest =>
    change (Http.Call.decode d).map request = .ok a at h
    cases hc : Http.Call.decode d with
    | error e => rw [hc] at h; cases h
    | ok c => rw [hc] at h; cases h; rfl
  case start | message | script | delay | anchor | goto | final | finish =>
    exact kind_of_record (Shape.gives_map fun _ => rfl) h
  case input | setValue | condition =>
    exact kind_of_record (Shape.gives_seq (Shape.gives_map fun _ _ => rfl)) h
  case queue | schedule | template =>
    exact kind_of_record (Shape.gives_seq (Shape.gives_seq (Shape.gives_map fun _ _ _ => rfl))) h

/-- **What a node does** is what its kind says, and case nodes do nothing. -/
theorem kind_of_ofData {k : NodeKind} {data : Json} {a : Action} (h : ofData k data = .ok a) :
    k ≠ .case ∧ a.kind = actualKind k := by
  unfold ofData at h
  cases hd : decoder? k with
  | none => rw [hd] at h; cases h
  | some dec =>
    have hne : k ≠ .case := by
      rintro rfl
      cases hd
    refine ⟨hne, ?_⟩
    rw [hd] at h
    dsimp only at h
    split at h
    · cases h
    · obtain ⟨b, hb, h⟩ := bind_eq_ok.mp h
      obtain ⟨-, -, h⟩ := bind_eq_ok.mp h
      cases h
      generalize Document.ofJson (if data = Json.null then Json.obj [] else data) = d at hb
      cases hc : dec d with
      | error e => rw [hc] at hb; cases hb
      | ok a => rw [hc] at hb; cases hb; exact kind_of_decoder? hd hc

end Action

namespace Flow

/-- The flow has an executable node of that identity. -/
def Executes (f : Flow) (node : String) : Prop := ∃ n, f.node? node = some n ∧ n.kind ≠ .case

/-- The node is executable and does what its kind says. -/
structure Node.Sound (n : Node) : Prop where
  kind : n.kind ≠ .case
  action : n.action.kind = Action.actualKind n.kind

/-- The flow leads to executable nodes only. -/
structure Sound (f : Flow) : Prop where
  nodes : ∀ n ∈ f.nodes, n.Sound
  start : ∃ n ∈ f.nodes, n.id = f.start
  edges : ∀ e ∈ f.edges, ∃ n ∈ f.nodes, n.id = e.target
  anchors : ∀ a ∈ f.anchors, ∃ n ∈ f.nodes, n.id = a.2

/-! ### Censuses -/

namespace Census

/-- Every node met is executable or a case, and the start and the anchors are executable. -/
structure Sound (c : Census) : Prop where
  nodes : ∀ n ∈ c.nodes, n.Sound
  seen : ∀ id ∈ c.seen, (∃ n ∈ c.nodes, n.id = id) ∨ (c.cases.lookup id).isSome
  start : ∀ id, c.start = some id → ∃ n ∈ c.nodes, n.id = id
  anchors : ∀ a ∈ c.anchors, ∃ n ∈ c.nodes, n.id = a.2

variable {c c' : Census} {n : Graph.Node}

theorem isExecutable_iff {id : String} : c.isExecutable id = true ↔ ∃ n ∈ c.nodes, n.id = id := by
  simp only [isExecutable, List.any_eq_true, decide_eq_true_eq]

theorem compileNode_eq_ok {k : NodeKind} {node : Node} (h : compileNode n k = .ok node) :
    node.id = n.id ∧ node.Sound := by
  unfold compileNode at h
  split at h
  · rename_i a ha
    cases h
    obtain ⟨hk, hkind⟩ := Action.kind_of_ofData ha
    exact ⟨rfl, hk, hkind⟩
  · cases h

/-- What is known with one more node: it is a case, or it is executable and may be the start or an
anchor. -/
theorem add_eq_ok (h : c.add n = .ok c') :
    (∃ held, c' = { c with seen := c.seen ++ [n.id], cases := c.cases ++ [(n.id, held)] }) ∨
    ∃ node start anchors, node.id = n.id ∧ node.Sound ∧
      (start = c.start ∨ start = some n.id) ∧
      (anchors = c.anchors ∨ ∃ name, anchors = c.anchors ++ [(name, n.id)]) ∧
      c' = ⟨c.seen ++ [n.id], c.nodes ++ [node], c.cases, anchors, start⟩ := by
  unfold add at h
  have h := of_unless_error (of_unless_error h)
  split at h
  · rename_i k _
    dsimp only at h
    split at h
    · cases h
      exact .inl ⟨_, rfl⟩
    · obtain ⟨node, hnode, h⟩ := bind_eq_ok.mp (of_unless_error h)
      cases h
      obtain ⟨hid, hsound⟩ := compileNode_eq_ok hnode
      exact .inr ⟨node, _, _, hid, hsound, .inr rfl, .inl rfl, rfl⟩
    · obtain ⟨node, hnode, h⟩ := bind_eq_ok.mp (of_unless_error h)
      cases h
      obtain ⟨hid, hsound⟩ := compileNode_eq_ok hnode
      refine .inr ⟨node, _, _, hid, hsound, .inl rfl, ?_, rfl⟩
      split_ifs
      · exact .inl rfl
      · exact .inr ⟨_, rfl⟩
    · obtain ⟨node, hnode, h⟩ := bind_eq_ok.mp h
      cases h
      obtain ⟨hid, hsound⟩ := compileNode_eq_ok hnode
      exact .inr ⟨node, _, _, hid, hsound, .inl rfl, .inl rfl, rfl⟩
  · cases h

theorem sound_empty : empty.Sound := by
  constructor <;> simp [empty]

/-- One more node, met first of all nodes of its identity. -/
theorem add_sound (h : c.add n = .ok c') (hc : c.Sound) : c'.Sound := by
  rcases add_eq_ok h with ⟨held, rfl⟩ | ⟨node, start, anchors, hid, hn, hstart, hanchors, rfl⟩
  · refine ⟨hc.nodes, fun id hid => ?_, hc.start, hc.anchors⟩
    rw [List.lookup_append]
    rcases List.mem_append.mp hid with hid | hid
    · refine (hc.seen id hid).imp_right fun h => ?_
      rw [Option.isSome_or, h, Bool.true_or]
    · obtain rfl := List.mem_singleton.mp hid
      right
      rw [Option.isSome_or, List.lookup_cons_self, Option.isSome_some, Bool.or_true]
  · have hold (id : String) (h : ∃ m ∈ c.nodes, m.id = id) :
        ∃ m ∈ c.nodes ++ [node], m.id = id := by
      obtain ⟨m, hm, rfl⟩ := h
      exact ⟨m, List.mem_append_left _ hm, rfl⟩
    have hnew : ∃ m ∈ c.nodes ++ [node], m.id = n.id := ⟨node, by simp, hid⟩
    refine ⟨fun m hm => ?_, fun id hid => ?_, fun id hs => ?_, fun a ha => ?_⟩
    · rcases List.mem_append.mp hm with hm | hm
      · exact hc.nodes m hm
      · obtain rfl := List.mem_singleton.mp hm
        exact hn
    · rcases List.mem_append.mp hid with hid | hid
      · exact (hc.seen id hid).imp_left (hold id)
      · obtain rfl := List.mem_singleton.mp hid
        exact .inl hnew
    · dsimp only at hs
      rcases hstart with rfl | rfl
      · exact hold id (hc.start id hs)
      · cases hs
        exact hnew
    · dsimp only at ha
      rcases hanchors with rfl | ⟨name, rfl⟩
      · exact hold _ (hc.anchors a ha)
      · rcases List.mem_append.mp ha with ha | ha
        · exact hold _ (hc.anchors a ha)
        · obtain rfl := List.mem_singleton.mp ha
          exact hnew

theorem ofNodes_sound {ns : List Graph.Node} (h : ofNodes ns = .ok c) : c.Sound := by
  have hfold (ns : List Graph.Node) (c₀ : Census) (h₀ : c₀.Sound) (h : ns.foldlM add c₀ = .ok c) :
      c.Sound := by
    induction ns generalizing c₀ with
    | nil =>
      cases h
      exact h₀
    | cons n rest ih =>
      rw [List.foldlM_cons] at h
      obtain ⟨c₁, h₁, h⟩ := bind_eq_ok.mp h
      exact ih c₁ (add_sound h₁ h₀) h
  exact hfold ns empty sound_empty h

end Census

/-! ### Compiled flows -/

theorem checkEdge_eq_ok {seen : List String} {e : Graph.Edge} (h : checkEdge seen e = .ok ()) :
    e.target ∈ seen := by
  unfold checkEdge at h
  split_ifs at h with hs ht
  simpa using ht

theorem mem_seen_of_forM {seen : List String} {es : List Graph.Edge}
    (h : es.forM (checkEdge seen) = .ok ()) : ∀ e ∈ es, e.target ∈ seen := by
  induction es with
  | nil => nofun
  | cons e rest ih =>
    obtain ⟨_, he, h⟩ := bind_eq_ok.mp h
    intro x hx
    rcases List.mem_cons.mp hx with rfl | hx
    · exact checkEdge_eq_ok he
    · exact ih h x hx

/-- An edge that is left leads to an executable node: the authored target, or that of the case node
in between. -/
theorem foldEdge_target {c : Census} (hc : c.Sound) {es : List Graph.Edge} {e : Graph.Edge}
    (he : e.target ∈ c.seen) {e' : Edge} (h : (foldEdge c es e).edge? = some e') :
    ∃ n ∈ c.nodes, n.id = e'.target := by
  unfold foldEdge at h
  dsimp only at h
  split_ifs at h with hs hheld
  · cases h
  · cases h
    refine (hc.seen _ he).resolve_right ?_
    rw [Option.isNone_iff_eq_none.mp hheld]
    nofun
  · split at h
    · split_ifs at h with ht
      · cases h
        exact Census.isExecutable_iff.mp ht
      · cases h
    · cases h

/-- **A compiled flow** has the identity and the version asked for, and leads to executable nodes
only. -/
theorem compile_sound {id : String} {v : Nat} {g : Graph} {f : Flow}
    (h : compile id v g = .ok f) : f.id = id ∧ f.version = v ∧ f.Sound := by
  unfold compile at h
  obtain ⟨c, hnodes, h⟩ := bind_eq_ok.mp h
  have hc := Census.ofNodes_sound hnodes
  split at h
  · rename_i start hstart
    obtain ⟨_, hedges, h⟩ := bind_eq_ok.mp h
    cases h
    refine ⟨rfl, rfl, hc.nodes, hc.start start hstart, fun e' he' => ?_, hc.anchors⟩
    obtain ⟨x, hx, he'⟩ := List.mem_filterMap.mp he'
    obtain ⟨e, he, rfl⟩ := List.mem_map.mp hx
    exact foldEdge_target hc (mem_seen_of_forM hedges e he) he'
  · cases h

/-! ### Where a flow leads -/

namespace Sound

variable {f : Flow} {node target : String}

theorem executes (hf : f.Sound) (h : ∃ n ∈ f.nodes, n.id = node) : f.Executes node := by
  obtain ⟨n, hn, rfl⟩ := h
  have hs : (f.node? n.id).isSome := by
    rw [node?, List.find?_isSome]
    exact ⟨n, hn, by simp⟩
  obtain ⟨m, hm⟩ := Option.isSome_iff_exists.mp hs
  exact ⟨m, hm, (hf.nodes m (List.mem_of_find?_eq_some hm)).kind⟩

theorem executes_start (hf : f.Sound) : f.Executes f.start := hf.executes hf.start

theorem of_node? (hf : f.Sound) {n : Node} (h : f.node? node = some n) : n.Sound :=
  hf.nodes n (List.mem_of_find?_eq_some h)

theorem executes_of_mem (hf : f.Sound) {e : Edge} {es : List Edge} (h : es ⊆ f.edges)
    (he : e ∈ es) : f.Executes e.target :=
  hf.executes (hf.edges e (h he))

theorem leaving_subset (f : Flow) (node key : String) : f.leaving node key ⊆ f.edges := by
  unfold leaving outgoing
  intro e he
  exact (List.mem_filter.mp (List.mem_filter.mp he).1).1

/-- The way by a handle. -/
theorem next (hf : f.Sound) {h : Handle} (hn : f.next node h = .ok (some target)) :
    f.Executes target := by
  unfold Flow.next at hn
  split_ifs at hn
  split at hn
  · cases hn
  · rename_i e he
    cases hn
    refine hf.executes_of_mem (leaving_subset f node h.key) ?_
    rw [he]
    exact List.mem_singleton_self e
  · cases hn

/-- The plain way, or the only one. -/
theorem nextSingle (hf : f.Sound) (hn : f.nextSingle node = .ok (some target)) :
    f.Executes target := by
  unfold Flow.nextSingle at hn
  obtain ⟨way, hway, hn⟩ := bind_eq_ok.mp hn
  split at hn
  · cases hn
    exact hf.next hway
  · split at hn
    · cases hn
    · rename_i e he
      cases hn
      have hsub : f.outgoing node ⊆ f.edges := List.filter_sublist.subset
      exact hf.executes_of_mem hsub (by rw [he]; exact List.mem_singleton_self e)
    · cases hn

/-- The node of an anchor. -/
theorem anchor (hf : f.Sound) {name : String} (h : f.anchor? name = some target) :
    f.Executes target := by
  unfold Flow.anchor? at h
  have hmem : (Text.trim name, target) ∈ f.anchors := by
    revert h
    induction f.anchors with
    | nil => exact nofun
    | cons a rest ih =>
      intro h
      rw [List.lookup_cons] at h
      split at h
      · rename_i ha
        cases h
        rw [eq_of_beq ha]
        exact List.mem_cons_self
      · exact List.mem_cons_of_mem _ (ih h)
  exact hf.executes (hf.anchors _ hmem)

end Sound

end Flow

end Dialogue
