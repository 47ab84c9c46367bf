import Dialogue.Proofs.Json.Bounded
import Dialogue.Proofs.Registry.Shelves

/-! # Values in flows

A flow that was compiled from a stored graph gives its variables values that were read, inside of
other containers, off the text of that graph.

* `accepts_record`: what is read of a record whose parts satisfy a condition.
* `Graph.data_bounded`, `Action.ofData_bounded`: the data of a graph, and what is made of them.
* `Store.versionFlow_bounded`: the flows that are stored. -/

namespace Dialogue

/-! ### Records -/

namespace Decode

variable {α β : Type} {B : Document → Prop} {P : β → Prop} {Q : α → Prop}

/-- All parts that are looked at satisfy a condition. -/
def Source.All (B : Document → Prop) : Source → Prop
  | .members ms => ∀ m ∈ ms, B m.2
  | .items ds _ => ∀ d ∈ ds, B d

/-- What the record is read off satisfies the condition if all parts satisfy theirs. -/
def Shape.Takes (B : Document → Prop) (Q : α → Prop) (s : Shape α) : Prop :=
  ∀ position src a, src.All B → s.read position src = .ok a → Q a

/-- The decoder makes of parts that satisfy a condition what satisfies another one. -/
def Accepts (B : Document → Prop) (Q : α → Prop) (dec : Decoder α) : Prop :=
  ∀ d a, B d → dec d = .ok a → Q a

theorem Shape.takes_map {f : α → β} {s : Shape α} (hs : s.Takes B Q) (h : ∀ a, Q a → P (f a)) :
    (f <$> s).Takes B P := by
  intro position src b hsrc hb
  change (s.read position src).map f = .ok b at hb
  cases ha : s.read position src with
  | error e => rw [ha] at hb; cases hb
  | ok a =>
    rw [ha] at hb
    cases hb
    exact h a (hs position src a hsrc ha)

theorem Shape.takes_seq {s : Shape (α → β)} {t : Shape α} (ht : t.Takes B Q)
    (hs : s.Takes B fun f => ∀ a, Q a → P (f a)) : (s <*> t).Takes B P := by
  intro position src b hsrc hb
  change ((s.read position src).both (t.read (position + s.size) src)).map _ = .ok b at hb
  cases hf : s.read position src with
  | error e =>
    rw [hf] at hb
    cases ha : t.read (position + s.size) src <;> rw [ha] at hb <;> cases hb
  | ok f =>
    cases ha : t.read (position + s.size) src with
    | error e => rw [hf, ha] at hb; cases hb
    | ok a =>
      rw [hf, ha] at hb
      cases hb
      exact hs position src f hsrc hf a (ht _ src a hsrc ha)

/-- A field that nothing is asked of. -/
theorem Shape.takes_any (s : Shape α) : s.Takes B fun _ => True := fun _ _ _ _ _ => trivial

/-- What is known for the absence of a field. -/
def Absent.Satisfies (Q : α → Prop) : Absent α → Prop
  | .error => True
  | .inObject a | .always a => Q a

theorem Shape.mem_of_find {names : List String} {ms : List (String × Document)} {i : Nat}
    {d : Document} {again : Option Nat} (h : find names ms = some (i, d, again)) :
    ∃ name, (name, d) ∈ ms := by
  unfold find at h
  split at h
  · cases h
  · rename_i name d' i' rest hfilter
    cases h
    have hmem : ((name, d), i) ∈ ms.zipIdx.filter fun m => names.contains m.1.1 := by
      rw [hfilter]
      exact List.mem_cons_self
    exact ⟨name, List.fst_mem_of_mem_zipIdx (List.mem_filter.mp hmem).1⟩

theorem Shape.takes_field {names : List String} {absent : Absent α} {dec : Decoder α}
    (hd : Accepts B Q dec) (ha : absent.Satisfies Q) : (field names absent dec).Takes B Q := by
  intro position src a hsrc h
  cases src with
  | members ms =>
    change inMembers names absent dec ms = .ok a at h
    unfold inMembers at h
    split at h
    · rename_i i d again hfind
      obtain ⟨name, hmem⟩ := mem_of_find hfind
      cases hdec : dec d with
      | error e => rw [hdec] at h; cases h
      | ok b =>
        rw [hdec] at h
        split at h
        · cases h
        · cases h
        · rename_i heq
          cases heq
          cases h
          exact hd d _ (hsrc _ hmem) hdec
    · split at h
      · cases h
      · cases h; exact ha
      · cases h; exact ha
  | items ds expected =>
    change inItems position absent dec ds expected = .ok a at h
    unfold inItems at h
    split at h
    · rename_i d hget
      cases hdec : dec d with
      | error e => rw [hdec] at h; cases h
      | ok b =>
        rw [hdec] at h
        cases h
        exact hd d _ (hsrc d (List.mem_of_getElem? hget)) hdec
    · split at h
      · cases h; exact ha
      · cases h
      · cases h

/-- What is read of a record whose parts satisfy a condition. -/
theorem accepts_record {C : Document → Prop} {name : String} {s : Shape α} (hs : s.Takes B Q)
    (hobj : ∀ ms, C (.obj ms) → ∀ m ∈ ms, B m.2) (harr : ∀ ds, C (.arr ds) → ∀ d ∈ ds, B d) :
    Accepts C Q (record name s) := by
  intro d a hd h
  unfold record at h
  split at h
  · rename_i ms
    cases hr : s.read 0 (.members ms) with
    | error e => rw [fromMembers, hr] at h; cases h
    | ok b =>
      rw [fromMembers, hr] at h
      cases h
      exact hs 0 (.members ms) _ (hobj ms hd) hr
  · rename_i ds
    obtain ⟨b, hb, h⟩ := bind_eq_ok.mp h
    split_ifs at h
    cases h
    cases hr : s.read 0 (.items ds ("struct " ++ name ++ " with " ++ elements s.size)) with
    | error e => rw [hr] at hb; cases hb
    | ok b =>
      rw [hr] at hb
      cases hb
      exact hs 0 (.items ds _) _ (harr ds hd) hr
  · cases h

/-- What is read of a list whose items satisfy a condition. -/
theorem accepts_list {C : Document → Prop} {dec : Decoder α} (hd : Accepts B Q dec)
    (harr : ∀ ds, C (.arr ds) → ∀ d ∈ ds, B d) :
    Accepts C (fun xs => ∀ x ∈ xs, Q x) (list dec) := by
  intro d xs hC h
  cases d with
  | arr ds =>
    have hB := harr ds hC
    clear hC
    replace h : ds.mapM dec = .ok xs := h
    induction ds generalizing xs with
    | nil => cases h; nofun
    | cons d rest ih =>
      rw [List.forall_mem_cons] at hB
      rw [List.mapM_cons] at h
      obtain ⟨x, hx, h⟩ := bind_eq_ok.mp h
      obtain ⟨ys, hys, h⟩ := bind_eq_ok.mp h
      cases h
      exact List.forall_mem_cons.mpr ⟨hd d x hB.1 hx, ih ys hB.2 hys⟩
  | _ => cases h

/-- Parts of a bounded document are bounded more tightly. -/
theorem accepts_bounded_record {n : Nat} {name : String} {s : Shape α}
    (hs : s.Takes (Document.Bounded n) Q) : Accepts (Document.Bounded (n + 1)) Q (record name s) :=
  accepts_record hs (fun ms h => by cases h; assumption) fun ds h => by cases h; assumption

theorem accepts_bounded_list {n : Nat} {dec : Decoder α} (hd : Accepts (Document.Bounded n) Q dec) :
    Accepts (Document.Bounded (n + 1)) (fun xs => ∀ x ∈ xs, Q x) (list dec) :=
  accepts_list hd fun ds h => by cases h; assumption

theorem accepts_json (n : Nat) : Accepts (Document.Bounded n) (Json.Bounded n) json := by
  intro d v hd h
  unfold json at h
  split at h
  · rename_i hv
    cases h
    exact hd.toJson? hv
  · cases h

/-- What is read off the text of a value. -/
theorem Accepts.ofText {kind : Failure.Kind} {dec : Decoder α} {s : String} {a : α}
    (hd : Accepts (Document.Bounded Document.maxDepth) Q dec) (h : ofText kind dec s = .ok a) :
    Q a := by
  unfold Decode.ofText at h
  split at h
  · cases h
  · rename_i d hread
    cases hdec : dec d with
    | error e => rw [hdec] at h; cases h
    | ok b =>
      rw [hdec] at h
      cases h
      exact hd d _ (Document.bounded_of_read? hread) hdec

end Decode

open Decode

/-! ### Graphs -/

/-- **The data of a graph** that was read off a text are values inside of three containers. -/
theorem Graph.data_bounded {kind : Failure.Kind} {s : String} {g : Graph}
    (h : Decode.ofText kind decode s = .ok g) : ∀ n ∈ g.nodes, n.data.Bounded 124 := by
  have hnode : Accepts (Document.Bounded 125) (fun n => n.data.Bounded 124) Node.decode := by
    refine accepts_bounded_record ?_
    refine Shape.takes_seq (Shape.takes_any _) ?_
    have hdata : (Shape.defaulted "data" Json.null json).Takes (Document.Bounded 124)
        (Json.Bounded 124) := Shape.takes_field (accepts_json 124) (.null 124)
    refine Shape.takes_seq hdata ?_
    refine Shape.takes_seq (Shape.takes_any _) (Shape.takes_map (Shape.takes_any _) ?_)
    exact fun _ _ _ _ _ hd _ _ => hd
  have hgraph : Accepts (Document.Bounded 127)
      (fun g : Graph => ∀ n ∈ g.nodes, n.data.Bounded 124) decode := by
    refine accepts_bounded_record ?_
    refine Shape.takes_seq (Shape.takes_any _) ?_
    have hnodes : (Shape.defaulted "nodes" [] (list Node.decode)).Takes (Document.Bounded 126)
        (fun ns => ∀ n ∈ ns, n.data.Bounded 124) :=
      Shape.takes_field (accepts_bounded_list hnode) nofun
    exact Shape.takes_map hnodes fun _ hns _ _ => hns
  exact hgraph.ofText h

/-! ### Actions and flows -/

/-- The value that the action gives a variable is bounded. -/
def Action.Bounded (n : Nat) : Action → Prop
  | .setValue _ v => v.Bounded n
  | _ => True

theorem Action.bounded_of_kind {a : Action} {n : Nat} (h : a.kind ≠ .setValue) : a.Bounded n := by
  cases a with
  | setValue => exact absurd rfl h
  | _ => exact trivial

/-- What is made of bounded data. -/
theorem Action.ofData_bounded {k : NodeKind} {data : Json} {a : Action} {n : Nat}
    (hdata : data.Bounded (n + 1)) (h : ofData k data = .ok a) : a.Bounded n := by
  have hkind := (kind_of_ofData h).2
  by_cases hk : k = .setValue
  · subst hk
    unfold ofData at h
    dsimp only [decoder?] at h
    split at h
    · cases h
    · obtain ⟨b, hb, h⟩ := bind_eq_ok.mp h
      obtain ⟨-, -, h⟩ := bind_eq_ok.mp h
      cases h
      have hvalue : (Shape.defaulted "value" Json.null json).Takes (Document.Bounded n)
          (Json.Bounded n) := Shape.takes_field (accepts_json n) (.null n)
      have hset : Accepts (Document.Bounded (n + 1)) (Action.Bounded n)
          (record "SetValueAction" <|
            setValue <$> Shape.requiredAs "variableName" "variable" string
              <*> Shape.defaulted "value" .null json) :=
        accepts_bounded_record <| Shape.takes_seq hvalue <|
          Shape.takes_map (Shape.takes_any _) fun _ _ _ hv => hv
      have hwhole : (if data = .null then .obj [] else data : Json).Bounded (n + 1) := by
        split_ifs
        · exact .obj List.Pairwise.nil nofun
        · exact hdata
      cases hdec : record "SetValueAction"
          (setValue <$> Shape.requiredAs "variableName" "variable" string
            <*> Shape.defaulted "value" Json.null json)
          (.ofJson (if data = .null then .obj [] else data)) with
      | error e => rw [hdec] at hb; cases hb
      | ok b' =>
        rw [hdec] at hb
        cases hb
        exact hset _ _ (Document.bounded_ofJson hwhole) hdec
  · refine bounded_of_kind ?_
    rw [hkind]
    cases k <;> first | exact absurd rfl hk | nofun

namespace Flow

/-- The values that the flow gives variables are bounded. -/
def Bounded (n : Nat) (f : Flow) : Prop := ∀ m ∈ f.nodes, m.action.Bounded n

variable {c c' : Census} {n : Graph.Node} {f : Flow} {g : Graph} {id : String} {v : Nat}

/-- The executable node is compiled from a node of the list. -/
def Node.From (ns : List Graph.Node) (m : Node) : Prop :=
  ∃ n ∈ ns, Action.ofData m.kind n.data = .ok m.action

theorem from_of_compileNode {k : NodeKind} {node : Node}
    (h : Census.compileNode n k = .ok node) : node.From [n] := by
  unfold Census.compileNode at h
  split at h
  · rename_i a ha
    cases h
    exact ⟨n, List.mem_singleton_self n, ha⟩
  · cases h

theorem Census.add_nodes (h : c.add n = .ok c') :
    ∀ m ∈ c'.nodes, m ∈ c.nodes ∨ m.From [n] := by
  have hconcat {node : Node} {k : NodeKind} (hn : compileNode n k = .ok node) :
      ∀ m ∈ c.nodes ++ [node], m ∈ c.nodes ∨ m.From [n] := by
    intro m hm
    rcases List.mem_append.mp hm with hm | hm
    · exact .inl hm
    · obtain rfl := List.mem_singleton.mp hm
      exact .inr (from_of_compileNode hn)
  unfold add at h
  have h := of_unless_error (of_unless_error h)
  split at h
  · dsimp only at h
    split at h
    · cases h
      exact fun m hm => .inl hm
    · obtain ⟨node, hnode, h⟩ := bind_eq_ok.mp (of_unless_error h)
      cases h
      exact hconcat hnode
    · obtain ⟨node, hnode, h⟩ := bind_eq_ok.mp (of_unless_error h)
      cases h
      exact hconcat hnode
    · obtain ⟨node, hnode, h⟩ := bind_eq_ok.mp h
      cases h
      exact hconcat hnode
  · cases h

/-- **The nodes of a flow** are compiled from those of its graph. -/
theorem compile_nodes (h : compile id v g = .ok f) : ∀ m ∈ f.nodes, m.From g.nodes := by
  have hfold (ns : List Graph.Node) (c₀ : Census) (c : Census)
      (h : ns.foldlM Census.add c₀ = .ok c) :
      ∀ m ∈ c.nodes, m ∈ c₀.nodes ∨ m.From ns := by
    induction ns generalizing c₀ with
    | nil =>
      cases h
      exact fun m hm => .inl hm
    | cons n rest ih =>
      rw [List.foldlM_cons] at h
      obtain ⟨c₁, h₁, h⟩ := bind_eq_ok.mp h
      intro m hm
      rcases ih c₁ h m hm with hm | ⟨x, hx, ha⟩
      · refine (Census.add_nodes h₁ m hm).imp_right ?_
        rintro ⟨x, hx, ha⟩
        exact ⟨x, List.mem_singleton.mp hx ▸ List.mem_cons_self, ha⟩
      · exact .inr ⟨x, List.mem_cons_of_mem _ hx, ha⟩
  unfold compile at h
  obtain ⟨c, hc, h⟩ := bind_eq_ok.mp h
  split at h
  · obtain ⟨-, -, h⟩ := bind_eq_ok.mp h
    cases h
    exact fun m hm => (hfold _ _ _ hc m hm).resolve_left (by simp [Census.empty])
  · cases h

end Flow

/-- **The flows that are stored** give their variables values that were inside of other containers
of a text. -/
theorem Store.versionFlow_bounded {s : Store} {flow : String} {v : Nat} {f : Flow}
    (h : s.versionFlow flow v = .ok f) : f.Bounded 126 := by
  obtain ⟨g, hg, hc⟩ := versionFlow_eq_ok h
  obtain ⟨-, r, -, hgraph⟩ := loadVersion_eq_ok hg
  have hdata := Graph.data_bounded hgraph
  intro m hm
  obtain ⟨n, hn, ha⟩ := Flow.compile_nodes hc m hm
  exact Action.ofData_bounded ((hdata n hn).mono (by decide)) ha

end Dialogue
