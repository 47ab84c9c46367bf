import Dialogue.Variables

/-! # Changes of variables

A delta has the variables that are not the same as before, and put on top of what was before it
gives what is afterwards. Values that compare equal need not be one: the two zeros do. So what comes
of putting deltas on each other is `Alike` the variables and no more.

* `same_trans`: comparing equal is transitive.
* `Fields.Sorted.get?_merge`, `Variables.get?_delta`: the variables of a merge and of a delta.
* `Fields.Sorted.ext`: members in order are told by their look-ups.
* `Grows`: no variable is lost.
* `Grows.has_delta_iff`: a delta has exactly the variables that changed.
* `Grows.merge_delta`: putting a delta on what was before gives what is afterwards. -/

namespace Dialogue

namespace Json

/-! ### Values that compare equal -/

/-- Numbers that compare equal are one, unless both are zeros. -/
theorem eq_or_zeros {u v : Float.Model.UnpackedFloat} (h : u.beq v = true) :
    u = v ∨ ∃ s t, u = .zero s ∧ v = .zero t := by
  change (u.compare v == some .eq) = true at h
  rw [beq_iff_eq] at h
  cases u with
  | notANumber => cases h
  | infinity s => cases v with
    | infinity t => cases s <;> cases t <;> first | exact .inl rfl | cases h
    | _ => cases s <;> cases h
  | zero s => cases v with
    | zero t => exact .inr ⟨s, t, rfl, rfl⟩
    | notANumber => cases h
    | infinity t => cases t <;> cases h
    | finite t => cases t <;> cases h
  | finite s m e hm => cases v with
    | notANumber => cases s <;> cases h
    | infinity t => cases s <;> cases t <;> cases h
    | zero t => cases s <;> cases h
    | finite t m' e' hm' =>
      -- of the same sign, so mantissa and exponent compare equal
      have hsame (h : (compare e e').then (compare m m') = .eq) : e = e' ∧ m = m' := by
        rwa [Ordering.then_eq_eq, Std.compare_eq_iff_eq, Std.compare_eq_iff_eq] at h
      cases s with
      | positive => cases t with
        | positive =>
          obtain ⟨rfl, rfl⟩ := hsame (Option.some.inj h)
          exact .inl rfl
        | negative => cases h
      | negative => cases t with
        | positive => cases h
        | negative =>
          obtain ⟨rfl, rfl⟩ := hsame (Ordering.swap_eq_eq.mp (Option.some.inj h))
          exact .inl rfl

theorem float_same_trans {x y z : Float} (h : (x == y) = true) (h' : (y == z) = true) :
    (x == z) = true := by
  change x.toModel.unpack.beq y.toModel.unpack = true at h
  change y.toModel.unpack.beq z.toModel.unpack = true at h'
  change x.toModel.unpack.beq z.toModel.unpack = true
  rcases eq_or_zeros h with hxy | ⟨s, t, hx, hy⟩
  · rwa [hxy]
  rcases eq_or_zeros h' with hyz | ⟨s', t', -, hz⟩
  · rwa [← hyz]
  · rw [hx, hz]
    rfl

mutual

theorem same_trans : ∀ a b c : Json, a.same b = true → b.same c = true → a.same c = true
  | .null, b, c, h, h' => by
    cases b <;> first | exact h' | cases h
  | .bool a, b, c, h, h' => by
    cases b <;> simp only [same, Bool.false_eq_true, beq_iff_eq] at h
    rwa [h]
  | .int a, b, c, h, h' => by
    cases b <;> simp only [same, Bool.false_eq_true, beq_iff_eq] at h
    rwa [h]
  | .str a, b, c, h, h' => by
    cases b <;> simp only [same, Bool.false_eq_true, beq_iff_eq] at h
    rwa [h]
  | .float a, b, c, h, h' => by
    cases b <;> simp only [same, Bool.false_eq_true] at h
    cases c <;> simp only [same, Bool.false_eq_true] at h' ⊢
    exact float_same_trans h h'
  | .arr a, b, c, h, h' => by
    cases b <;> simp only [same, Bool.false_eq_true] at h
    cases c <;> simp only [same, Bool.false_eq_true] at h' ⊢
    exact sameItems_trans a _ _ h h'
  | .obj a, b, c, h, h' => by
    cases b <;> simp only [same, Bool.false_eq_true] at h
    cases c <;> simp only [same, Bool.false_eq_true] at h' ⊢
    exact sameFields_trans a _ _ h h'

theorem sameItems_trans : ∀ a b c : List Json, sameItems a b = true → sameItems b c = true →
    sameItems a c = true
  | [], b, c, h, h' => by
    cases b <;> first | exact h' | cases h
  | a :: as, b, c, h, h' => by
    cases b <;> simp only [sameItems, Bool.false_eq_true, Bool.and_eq_true] at h
    cases c <;> simp only [sameItems, Bool.false_eq_true, Bool.and_eq_true] at h' ⊢
    exact ⟨same_trans a _ _ h.1 h'.1, sameItems_trans as _ _ h.2 h'.2⟩

theorem sameFields_trans : ∀ a b c : List (String × Json), sameFields a b = true →
    sameFields b c = true → sameFields a c = true
  | [], b, c, h, h' => by
    cases b <;> first | exact h' | cases h
  | (k, a) :: as, b, c, h, h' => by
    cases b <;> simp only [sameFields, Bool.false_eq_true, Bool.and_eq_true, beq_iff_eq] at h
    cases c <;> simp only [sameFields, Bool.false_eq_true, Bool.and_eq_true, beq_iff_eq] at h' ⊢
    exact ⟨⟨h.1.1.trans h'.1.1, same_trans a _ _ h.1.2 h'.1.2⟩, sameFields_trans as _ _ h.2 h'.2⟩

end

/-- The value is another one or compares equal to it. -/
def Alike (v w : Json) : Prop := v = w ∨ v.same w = true

theorem Alike.trans {u v w : Json} (h : u.Alike v) (h' : v.Alike w) : u.Alike w := by
  rcases h with rfl | h
  · exact h'
  rcases h' with rfl | h'
  · exact .inr h
  · exact .inr (same_trans _ _ _ h h')

theorem isSame_iff {v : Json} {o : Option Json} :
    v.isSame o = true ↔ ∃ w, o = some w ∧ v.same w = true := by
  cases o <;> simp [isSame]

end Json

namespace Fields

variable {fs gs acc delta : Fields} {name : String}

/-! ### Members in order -/

/-- What is put in is the only new member. -/
theorem mem_insert {name : String} {value : Json} {f : String × Json}
    (h : f ∈ fs.insert name value) : f = (name, value) ∨ f ∈ fs := by
  induction fs with
  | nil => exact .inl (List.mem_singleton.mp h)
  | cons g rest ih =>
    unfold insert at h
    split at h
    · exact List.mem_cons.mp h
    · split at h
      · exact (List.mem_cons.mp h).imp_right (List.mem_cons_of_mem _)
      · rcases List.mem_cons.mp h with rfl | h
        · exact .inr List.mem_cons_self
        · exact (ih h).imp_right (List.mem_cons_of_mem _)

theorem mem_merge {f : String × Json} (h : f ∈ fs.merge delta) : f ∈ fs ∨ f ∈ delta := by
  unfold merge at h
  induction delta generalizing fs with
  | nil => exact .inl h
  | cons g rest ih =>
    rcases ih h with h | h
    · rcases mem_insert h with rfl | h
      · exact .inr List.mem_cons_self
      · exact .inl h
    · exact .inr (List.mem_cons_of_mem _ h)

theorem mem_ofList {fs : List (String × Json)} {f : String × Json} (h : f ∈ ofList fs) : f ∈ fs :=
  (mem_merge h).resolve_left (by simp)

theorem sorted_insert (h : fs.Sorted) (name : String) (value : Json) :
    (fs.insert name value).Sorted := by
  induction fs with
  | nil => exact List.pairwise_singleton _ _
  | cons f rest ih =>
    obtain ⟨hf, hrest⟩ := List.pairwise_cons.mp h
    unfold insert
    split
    · rename_i hlt
      refine List.pairwise_cons.mpr ⟨fun g hg => ?_, h⟩
      rcases List.mem_cons.mp hg with rfl | hg
      · exact hlt
      · exact String.lt_trans hlt (hf g hg)
    · split
      · rename_i heq
        exact List.pairwise_cons.mpr ⟨fun g hg => heq ▸ hf g hg, hrest⟩
      · rename_i hlt hne
        refine List.pairwise_cons.mpr ⟨fun g hg => ?_, ih hrest⟩
        rcases mem_insert hg with hg | hg
        · rw [hg]
          exact String.not_le.mp fun hle => hne (String.le_antisymm hle (String.not_lt.mp hlt))
        · exact hf g hg

theorem sorted_merge (h : fs.Sorted) (delta : Fields) : (fs.merge delta).Sorted := by
  unfold merge
  induction delta generalizing fs with
  | nil => exact h
  | cons f rest ih => exact ih (sorted_insert h f.1 f.2)

theorem sorted_ofList (fs : List (String × Json)) : (ofList fs).Sorted :=
  sorted_merge List.Pairwise.nil fs

theorem get?_eq_none_of_lt {g : String} (h : ∀ f ∈ fs, g < f.1) : fs.get? g = none := by
  unfold get?
  rw [Option.map_eq_none_iff, List.find?_eq_none]
  intro f hf heq
  have hlt := h f hf
  rw [decide_eq_true_eq.mp heq] at hlt
  exact String.lt_irrefl _ hlt

/-- The members that are put in win. -/
theorem Sorted.get?_merge (h : delta.Sorted) (acc : Fields) (name : String) :
    (acc.merge delta).get? name = (delta.get? name).or (acc.get? name) := by
  induction delta generalizing acc with
  | nil => rfl
  | cons f rest ih =>
    obtain ⟨hf, hrest⟩ := List.pairwise_cons.mp h
    show ((acc.insert f.1 f.2).merge rest).get? name = _
    rw [ih hrest, get?_cons]
    split
    · rename_i heq
      subst heq
      rw [get?_eq_none_of_lt hf, get?_insert_self]
      rfl
    · rename_i hne
      rw [get?_insert_of_ne (fun e => hne e.symm)]

theorem mem_of_get? {v : Json} (h : fs.get? name = some v) : (name, v) ∈ fs := by
  obtain ⟨f, hf, rfl⟩ := Option.map_eq_some_iff.mp h
  have hname : f.1 = name := by simpa using List.find?_some hf
  exact hname ▸ List.mem_of_find?_eq_some hf

theorem get?_head (f : String × Json) (fs : Fields) : Fields.get? (f :: fs) f.1 = some f.2 := by
  rw [get?_cons, if_pos rfl]

/-- Members in order have no name below the first. -/
theorem Sorted.get?_of_lt {f : String × Json} (h : Sorted (f :: fs)) (hlt : name < f.1) :
    Fields.get? (f :: fs) name = none :=
  get?_eq_none_of_lt fun g hg => (List.mem_cons.mp hg).elim (fun e => e ▸ hlt)
    fun hg => String.lt_trans hlt ((List.pairwise_cons.mp h).1 g hg)

/-- Of two lists of members in order with the same look-ups, neither begins below the other. -/
theorem Sorted.head_le {f g : String × Json} (h : Sorted (f :: fs))
    (heq : Fields.get? (f :: fs) g.1 = Fields.get? (g :: gs) g.1) : f.1 ≤ g.1 := by
  refine String.not_lt.mp fun hlt => ?_
  rw [h.get?_of_lt hlt, get?_head] at heq
  cases heq

/-- **Members in order** are told by their look-ups. -/
theorem Sorted.ext (hf : fs.Sorted) (hg : gs.Sorted) (h : ∀ name, fs.get? name = gs.get? name) :
    fs = gs := by
  induction fs generalizing gs with
  | nil =>
    cases gs with
    | nil => rfl
    | cons g gs => cases (h g.1).trans (get?_head g gs)
  | cons f fs ih =>
    cases gs with
    | nil => cases (h f.1).symm.trans (get?_head f fs)
    | cons g gs =>
      have hname : f.1 = g.1 := String.le_antisymm (hf.head_le (h g.1)) (hg.head_le (h f.1).symm)
      have hvalue : some f.2 = some g.2 :=
        (get?_head f fs).symm.trans ((h f.1).trans (hname ▸ get?_head g gs))
      obtain ⟨hlt, hfs⟩ := List.pairwise_cons.mp hf
      obtain ⟨hlt', hgs⟩ := List.pairwise_cons.mp hg
      rw [Prod.ext hname (Option.some.inj hvalue), ih hfs hgs fun name => ?_]
      by_cases hn : f.1 = name
      · rw [get?_eq_none_of_lt (hn ▸ hlt), get?_eq_none_of_lt (hn ▸ hname ▸ hlt')]
      · have hrest := h name
        rwa [get?_cons, get?_cons, if_neg hn, if_neg (hname ▸ hn)] at hrest

end Fields

/-- The members of an object that is read are in order. -/
theorem Decode.sorted_fields {d : Document} {fs : Fields} (h : Decode.fields d = .ok fs) :
    fs.Sorted := by
  cases d with
  | obj ms =>
    rw [Decode.fields, Decode.json, Document.toJson?] at h
    cases hm : Document.membersToJson? ms with
    | none => rw [hm] at h; cases h
    | some gs =>
      rw [hm] at h
      cases h
      exact Fields.sorted_ofList gs
  | _ => cases h

namespace Variables

variable {before after acc : Variables} {name : String}

/-! ### Deltas -/

theorem sorted_delta (h : after.Sorted) : (delta before after).Sorted :=
  List.Pairwise.filter _ h

theorem get?_delta (h : after.Sorted) (name : String) :
    (delta before after).get? name =
      (after.get? name).filter fun v => !v.isSame (before.get? name) := by
  unfold delta
  induction after with
  | nil => rfl
  | cons f rest ih =>
    obtain ⟨hf, hrest⟩ := List.pairwise_cons.mp h
    rw [Fields.get?_cons, List.filter_cons]
    by_cases hname : f.1 = name
    · subst hname
      rw [if_pos rfl, Option.filter_some]
      split
      · rw [Fields.get?_cons, if_pos rfl]
      · exact Fields.get?_eq_none_of_lt fun g hg => hf g (List.mem_filter.mp hg).1
    · rw [if_neg hname, ← ih hrest]
      split
      · rw [Fields.get?_cons, if_neg hname]
      · rfl

/-- The value of a variable is not what it was before. -/
def Changed (before after : Variables) (name : String) : Prop :=
  match before.get? name, after.get? name with
  | none, none => False
  | some v, some w => w.same v = false
  | _, _ => True

/-- No variable is lost, and the order stays. -/
structure Grows (before after : Variables) : Prop where
  kept : ∀ name, before.has name = true → after.has name = true
  sorted : before.Sorted → after.Sorted

namespace Grows

theorem refl (vars : Variables) : vars.Grows vars := ⟨fun _ => id, id⟩

theorem trans {vars : Variables} (h : vars.Grows before) (h' : before.Grows after) :
    vars.Grows after :=
  ⟨fun name hn => h'.kept name (h.kept name hn), fun hs => h'.sorted (h.sorted hs)⟩

theorem insert (vars : Variables) (name : String) (value : Json) :
    vars.Grows (Fields.insert name value vars) where
  kept other h := by
    rw [Fields.has]
    by_cases he : other = name
    · rw [he, Fields.get?_insert_self]; rfl
    · rw [Fields.get?_insert_of_ne he]; exact h
  sorted h := Fields.sorted_insert h name value

theorem merge (vars delta : Variables) : vars.Grows (Fields.merge vars delta) := by
  unfold Fields.merge
  induction delta generalizing vars with
  | nil => exact refl vars
  | cons f rest ih => exact (insert vars f.1 f.2).trans (ih _)

/-- **A delta** has exactly the variables that changed. -/
theorem has_delta_iff (h : before.Grows after) (hs : after.Sorted) :
    (delta before after).has name = true ↔ Changed before after name := by
  have hkept := h.kept name
  simp only [Fields.has] at hkept ⊢
  rw [get?_delta hs, Changed]
  cases hb : before.get? name <;> cases ha : after.get? name <;>
    simp_all [Option.filter, Json.isSame]

/-- **A delta put on what was before** gives what is afterwards. -/
theorem merge_delta (h : before.Grows after) (hs : after.Sorted)
    (hacc : Option.Rel Json.Alike (before.get? name) (acc.get? name)) :
    Option.Rel Json.Alike (after.get? name)
      ((Fields.merge acc (delta before after)).get? name) := by
  have hkept := h.kept name
  simp only [Fields.has] at hkept
  rw [(sorted_delta hs).get?_merge, get?_delta hs]
  cases ha : after.get? name with
  | none =>
    cases hb : before.get? name with
    | some u => rw [hb, ha] at hkept; cases hkept rfl
    | none => rwa [hb] at hacc
  | some v =>
    rw [Option.filter_some]
    split
    · exact .some (.inl rfl)
    · rename_i hv
      obtain ⟨u, hu, hsame⟩ := Json.isSame_iff.mp (by simpa using hv)
      rw [hu] at hacc
      generalize acc.get? name = o at hacc
      cases hacc with
      | some hw => exact .some (.trans (.inr hsame) hw)

end Grows

end Variables

end Dialogue
