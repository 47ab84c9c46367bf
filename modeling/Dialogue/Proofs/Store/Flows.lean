import Dialogue.Proofs.Store.Rows

/-! # Stored flows and versions

Flows are found by their identity, and published graphs by the identity of their flow together with
the version. No two versions share an identity, whatever the identities of flows look like.

* `VersionRow.key_injective`: the identity of a version tells the flow and the version.
* `FlowRow.toDefinition_of_readsAs`: a stored flow is read as its graphs are.
* `FlowRow.toDefinition_ofDefinition`: it is read as it was kept if they are read back. -/

namespace Dialogue

/-! ### Signed numbers -/

theorem toSigned64_lt (n : Nat) : toSigned64 n < 0x8000000000000000 := by
  unfold toSigned64
  have := Int.bmod_lt (x := n) (m := 0x10000000000000000) (by decide)
  omega

theorem toSigned64_eq {n : Nat} (h : n < 0x8000000000000000) : toSigned64 n = n := by
  unfold toSigned64
  exact Int.bmod_eq_of_le (by omega) (by omega)

theorem ofSigned64_lt (n : Nat) : ofSigned64 (toSigned64 n) < 0x8000000000000000 := by
  have := toSigned64_lt n
  unfold ofSigned64
  omega

@[simp] theorem ofSigned64_natCast (n : Nat) : ofSigned64 (n : Int) = n := Int.toNat_natCast n

/-! ### Identities of versions -/

theorem at_notMem_toString (v : Nat) : '@' ∉ (toString v).toList := by
  intro h
  rw [Nat.toString_eq_repr, Nat.toList_repr] at h
  have := Nat.isDigit_of_mem_toDigits (by decide) (by decide) h
  revert this
  decide

theorem toString_injective {v v' : Nat} (h : toString v = toString v') : v = v' := by
  have h : Nat.toDigits 10 v = Nat.toDigits 10 v' := by
    rw [← Nat.toList_repr, ← Nat.toList_repr, ← Nat.toString_eq_repr, h, Nat.toString_eq_repr]
  rw [← Nat.ofDigitChars_ten_toDigits (n := v), h, Nat.ofDigitChars_ten_toDigits]

/-- A list is cut at the first place of an element in one way only. -/
theorem cut_unique {α : Type} {x : α} {l l' r r' : List α} (h : x ∉ l) (h' : x ∉ l')
    (he : l ++ x :: r = l' ++ x :: r') : l = l' ∧ r = r' := by
  induction l generalizing l' with
  | nil =>
    cases l' with
    | nil => exact ⟨rfl, (List.cons.inj he).2⟩
    | cons a l' =>
      obtain rfl := (List.cons.inj he).1
      exact absurd List.mem_cons_self h'
  | cons a l ih =>
    cases l' with
    | nil =>
      obtain rfl := (List.cons.inj he).1
      exact absurd List.mem_cons_self h
    | cons a' l' =>
      obtain ⟨ha, htail⟩ := List.cons.inj he
      obtain ⟨hl, hr⟩ := ih (fun hx => h (List.mem_cons_of_mem _ hx))
        (fun hx => h' (List.mem_cons_of_mem _ hx)) htail
      exact ⟨by rw [ha, hl], hr⟩

/-- The identity of a version tells the flow and the version: it is cut at its last `@`. -/
theorem VersionRow.key_injective {flow flow' : String} {v v' : Nat}
    (h : key flow v = key flow' v') : flow = flow' ∧ v = v' := by
  have hchars (flow : String) (v : Nat) : (key flow v).toList.reverse =
      (toString v).toList.reverse ++ '@' :: flow.toList.reverse := by
    simp [key]
  have hat (v : Nat) : '@' ∉ (toString v).toList.reverse := by
    rw [List.mem_reverse]
    exact at_notMem_toString v
  have h : (key flow v).toList.reverse = (key flow' v').toList.reverse := by rw [h]
  rw [hchars, hchars] at h
  obtain ⟨hv, hflow⟩ := cut_unique (hat v) (hat v') h
  exact ⟨String.toList_injective (List.reverse_inj.mp hflow),
    toString_injective (String.toList_injective (List.reverse_inj.mp hv))⟩

/-! ### Flows -/

/-- The text of the graph is read as that graph. -/
def Graph.ReadsBack (g : Graph) : Prop := Decode.ofText .convert decode g.toJson.text = .ok g

/-- The text of the graph is read as another graph, or as itself. -/
def Graph.ReadsAs (g g' : Graph) : Prop := Decode.ofText .convert decode g.toJson.text = .ok g'

theorem Graph.ReadsBack.readsAs {g : Graph} (h : g.ReadsBack) : g.ReadsAs g := h

theorem Graph.readsBack {g : Graph} (hl : g.toJson.Legible)
    (hd : g.toJson.depth ≤ Document.maxDepth) (h : decode (.ofJson g.toJson) = .ok g) :
    g.ReadsBack :=
  Decode.ofText_text hl hd h

theorem Graph.readsBack_initial : initial.ReadsBack := by
  refine readsBack ?_ (by decide) rfl
  simp [initial, toJson, Node.toJson, Json.Legible, Json.LegibleFields, Json.LegibleItems]

/-- The graphs of the definition are read back from their texts. -/
def Definition.ReadsBack (d : Definition) : Prop :=
  d.draft.ReadsBack ∧ ∀ g, d.published = some g → g.ReadsBack

/-- The graphs of the definition are read from their texts as those of another one, which is like it
otherwise. -/
structure Definition.ReadsAs (d d' : Definition) : Prop where
  draft : d.draft.ReadsAs d'.draft
  published : Option.Rel Graph.ReadsAs d.published d'.published
  others : { d with draft := d'.draft, published := d'.published } = d'

theorem Definition.ReadsBack.readsAs {d : Definition} (h : d.ReadsBack) : d.ReadsAs d where
  draft := h.1
  published := by
    obtain ⟨-, hp⟩ := h
    cases hg : d.published with
    | none => exact .none
    | some g => exact .some (hp g hg)
  others := rfl

/-- How a stored flow is read, as long as its version fits the column. -/
theorem FlowRow.toDefinition_of_readsAs {d d' : Definition} (h : d.ReadsAs d') :
    (ofDefinition d).toDefinition =
      .ok { d' with version := ofSigned64 (toSigned64 d'.version) } := by
  obtain ⟨hd, hp, hothers⟩ := h
  have hdraft : Decode.ofText .convert Graph.decode d.draft.toJson.text = .ok d'.draft := hd
  have hpublished : (d.published.map fun g => g.toJson.text).mapM
      (Decode.ofText .convert Graph.decode) = .ok d'.published := by
    generalize d.published = p, d'.published = p' at hp
    cases hp with
    | none => rfl
    | some hg =>
      rw [Option.map_some, Option.mapM_some, show Decode.ofText _ _ _ = _ from hg]
      rfl
  rw [← hothers]
  simp only [toDefinition, ofDefinition, hdraft, hpublished]
  rfl

/-- A stored flow is read as it was kept, as long as its version fits the column. -/
theorem FlowRow.toDefinition_ofDefinition {d : Definition} (h : d.ReadsBack) :
    (ofDefinition d).toDefinition =
      .ok { d with version := ofSigned64 (toSigned64 d.version) } :=
  toDefinition_of_readsAs h.readsAs

/-- **The columns of a row** are the fields of the flow that is read off it. -/
theorem FlowRow.toDefinition_eq_ok {r : FlowRow} {d : Definition} (h : r.toDefinition = .ok d) :
    d.id = r.id ∧ d.version = ofSigned64 r.version ∧
      Decode.ofText .convert Graph.decode r.draft = .ok d.draft ∧
      r.published.mapM (Decode.ofText .convert Graph.decode) = .ok d.published := by
  unfold toDefinition at h
  cases h1 : Decode.ofText .convert Graph.decode r.draft with
  | error e => rw [h1] at h; cases h
  | ok draft =>
  cases h2 : r.published.mapM (Decode.ofText .convert Graph.decode) with
  | error e => rw [h1, h2] at h; cases h
  | ok published =>
  rw [h1, h2] at h
  cases h
  exact ⟨rfl, rfl, rfl, rfl⟩

namespace Store

variable {s s' : Store} {flow id : String} {v : Nat} {d : Definition} {g : Graph} {now : Millis}

theorem loadFlow_eq_ok (h : s.loadFlow id = .ok d) :
    s.registered = true ∧ ∃ r, s.flows.row? id = some r ∧ r.toDefinition = .ok d := by
  cases hs : s.registered with
  | false => simp [loadFlow, access, hs, bind, Except.bind] at h
  | true =>
    simp only [loadFlow, access, hs, if_true, bind, Except.bind, Collection.exists?_eq,
      Collection.find_eq] at h
    cases hr : s.flows.row? id with
    | none => rw [hr] at h; cases h
    | some r => rw [hr] at h; exact ⟨rfl, r, rfl, h⟩

theorem loadFlow_eq {r : FlowRow} (hs : s.registered = true) (h : s.flows.row? id = some r) :
    s.loadFlow id = r.toDefinition := by
  simp only [loadFlow, access, hs, if_true, bind, Except.bind, Collection.exists?_eq,
    Collection.find_eq, h, Option.isSome_some]

theorem saveFlow_eq_ok (h : s.saveFlow d = .ok s') :
    s' = { s with flows := s.flows.put (.ofDefinition d) } := by
  cases hs : s.registered with
  | false => simp [saveFlow, access, hs, bind, Except.bind] at h
  | true =>
    simp only [saveFlow, access, hs, if_true, bind, Except.bind] at h
    cases h
    rfl

/-! ### Versions -/

theorem loadVersion_eq_ok (h : s.loadVersion flow v = .ok g) :
    s.registered = true ∧
      ∃ r, s.versions.row? (VersionRow.key flow v) = some r ∧ r.toGraph = .ok g := by
  cases hs : s.registered with
  | false => simp [loadVersion, access, hs, bind, Except.bind] at h
  | true =>
    simp only [loadVersion, access, hs, if_true, bind, Except.bind, Collection.exists?_eq,
      Collection.find_eq] at h
    cases hr : s.versions.row? (VersionRow.key flow v) with
    | none => rw [hr] at h; cases h
    | some r => rw [hr] at h; exact ⟨rfl, r, rfl, h⟩

theorem loadVersion_eq {r : VersionRow} (hs : s.registered = true)
    (h : s.versions.row? (VersionRow.key flow v) = some r) : s.loadVersion flow v = r.toGraph := by
  simp only [loadVersion, access, hs, if_true, bind, Except.bind, Collection.exists?_eq,
    Collection.find_eq, h, Option.isSome_some]

theorem toGraph_ofGraph (h : g.ReadsBack) : (VersionRow.ofGraph flow v g now).toGraph = .ok g := h

/-- Published graphs are read from the versions alone. -/
theorem loadVersion_congr (hr : s'.registered = s.registered) (hv : s'.versions = s.versions) :
    s'.loadVersion flow v = s.loadVersion flow v := by
  simp only [loadVersion, access, hr, hv]

theorem saveVersion_eq (hs : s.registered = true)
    (h : s.versions.row? (VersionRow.key flow v) = none) :
    s.saveVersion flow v g now = .ok { s with versions :=
      { s.versions with rows := s.versions.rows ++ [.ofGraph flow v g now] } } := by
  have hnone : s.versions.row? (Row.id (VersionRow.ofGraph flow v g now)) = none := h
  have hc := Collection.create_eq_ok_iff.mpr ⟨hnone, rfl⟩
  simp only [saveVersion, access, hs, if_true, bind, Except.bind, hc]
  rfl

/-- A graph is kept under an identity that has no row yet. -/
theorem saveVersion_eq_ok (h : s.saveVersion flow v g now = .ok s') :
    s.registered = true ∧ ∃ versions, s' = { s with versions } ∧
      s.versions.row? (VersionRow.key flow v) = none ∧
      ∀ id, versions.row? id = if id = VersionRow.key flow v then
        some (.ofGraph flow v g now) else s.versions.row? id := by
  cases hs : s.registered with
  | false => simp [saveVersion, access, hs, bind, Except.bind] at h
  | true =>
    cases hc : s.versions.create (.ofGraph flow v g now) with
    | error e => simp [saveVersion, access, hs, bind, Except.bind, hc] at h
    | ok versions =>
      simp only [saveVersion, access, hs, if_true, bind, Except.bind, hc] at h
      cases h
      exact ⟨rfl, versions, rfl, (Collection.create_eq_ok_iff.mp hc).1,
        fun id => Collection.row?_create hc id⟩

end Store

end Dialogue
