import Mathlib
import Dialogue.Proofs.Json.Bounded

/-! # Values without the signs of their zeros

Binary64 numbers compare as numbers, so the two zeros compare equal although their texts differ.
They are the only two: values compare equal exactly if they are one value once all zeros have lost
their signs.

* `Json.unsigned`: the value with no sign at any of its zeros.
* `Json.Proper`: values that a text can say.
* `Json.same_iff`: which values compare equal.
* `Json.eq_of_unsigned_eq`: in a value without binary64 zeros nothing is lost. -/

namespace Dialogue

namespace Json

/-- The number; of the two zeros the one without sign. -/
def unsignedFloat (x : Float) : Float := if x = -0 then 0 else x

mutual

/-- The value with no sign at any of its zeros. -/
def unsigned : Json → Json
  | .float x => .float (unsignedFloat x)
  | .arr items => .arr (unsignedItems items)
  | .obj fs => .obj (unsignedFields fs)
  | .null => .null
  | .bool b => .bool b
  | .int n => .int n
  | .str s => .str s
termination_by structural v => v

/-- The items with no sign at any zero. -/
def unsignedItems : List Json → List Json
  | [] => []
  | v :: rest => unsigned v :: unsignedItems rest
termination_by structural v => v

/-- The members with no sign at any zero. -/
def unsignedFields : List (String × Json) → List (String × Json)
  | [] => []
  | (name, v) :: rest => (name, unsigned v) :: unsignedFields rest
termination_by structural v => v

end

/-- The value is one that a text can say: its objects are in order, and each of its
binary64 numbers is a number. -/
structure Proper (v : Json) : Prop where
  ordered : v.Ordered
  numbers : ∀ x ∈ v.doubles, x.isNaN = false

theorem float_same_iff {x y : Float} (hx : x.isNaN = false) :
    (x == y) = true ↔ unsignedFloat x = unsignedFloat y := by
  have hx' : x ≠ Float.nan := by simpa using hx
  have hzero : (0 : Float) ≠ -0 := by decide
  have hnan : (0 : Float) ≠ Float.nan := by decide
  have hnan' : (-0 : Float) ≠ Float.nan := by decide
  rw [Float.beq_iff_ne_nan_and_eq]
  unfold unsignedFloat
  grind

theorem float_eq_of_unsigned_eq {x y : Float} (hy : (y == 0) = false)
    (h : unsignedFloat x = unsignedFloat y) : x = y := by
  have hzero : (0 : Float) ≠ Float.nan := by decide
  have hy' : y ≠ 0 := by
    rintro rfl
    exact absurd (Float.beq_self_iff.mpr hzero) (by simp [hy])
  have hsigned : y ≠ -0 := by
    rintro rfl
    exact absurd hy (by decide)
  unfold unsignedFloat at h
  grind

mutual

/-- **Values compare equal** exactly if they are one but for the signs of zeros. -/
theorem same_iff : ∀ v w : Json, (∀ x ∈ v.doubles, x.isNaN = false) →
    (v.same w = true ↔ v.unsigned = w.unsigned)
  | .null, w, _ => by cases w <;> simp [same, unsigned]
  | .bool b, w, _ => by cases w <;> simp [same, unsigned]
  | .int n, w, _ => by cases w <;> simp [same, unsigned]
  | .str s, w, _ => by cases w <;> simp [same, unsigned]
  | .float x, w, h => by
    cases w <;> simp only [same, unsigned, reduceCtorEq, Bool.false_eq_true, float.injEq]
    exact float_same_iff (h x (by simp [doubles]))
  | .arr items, w, h => by
    cases w <;> simp only [same, unsigned, reduceCtorEq, Bool.false_eq_true, arr.injEq]
    exact sameItems_iff items _ (by simpa only [doubles] using h)
  | .obj fs, w, h => by
    cases w <;> simp only [same, unsigned, reduceCtorEq, Bool.false_eq_true, obj.injEq]
    exact sameFields_iff fs _ (by simpa only [doubles] using h)

theorem sameItems_iff : ∀ vs ws : List Json, (∀ x ∈ doublesItems vs, x.isNaN = false) →
    (sameItems vs ws = true ↔ unsignedItems vs = unsignedItems ws)
  | [], ws, _ => by cases ws <;> simp [sameItems, unsignedItems]
  | v :: vs, ws, h => by
    simp only [doublesItems, List.forall_mem_append] at h
    cases ws with
    | nil => simp [sameItems, unsignedItems]
    | cons w ws =>
      simp only [sameItems, unsignedItems, Bool.and_eq_true, List.cons.injEq, same_iff v w h.1,
        sameItems_iff vs ws h.2]

theorem sameFields_iff : ∀ fs gs : List (String × Json), (∀ x ∈ doublesFields fs, x.isNaN = false) →
    (sameFields fs gs = true ↔ unsignedFields fs = unsignedFields gs)
  | [], gs, _ => by cases gs <;> simp [sameFields, unsignedFields]
  | (k, v) :: fs, gs, h => by
    simp only [doublesFields, List.forall_mem_append] at h
    cases gs with
    | nil => simp [sameFields, unsignedFields]
    | cons g gs =>
      obtain ⟨l, w⟩ := g
      simp only [sameFields, unsignedFields, Bool.and_eq_true, beq_iff_eq, List.cons.injEq,
        Prod.mk.injEq, same_iff v w h.1, sameFields_iff fs gs h.2]

end

mutual

/-- **Without binary64 zeros** in a value nothing is lost with their signs. -/
theorem eq_of_unsigned_eq : ∀ v w : Json, (∀ x ∈ w.doubles, (x == 0) = false) →
    v.unsigned = w.unsigned → v = w
  | v, .null, _, h => by cases v <;> simp_all [unsigned]
  | v, .bool b, _, h => by cases v <;> simp_all [unsigned]
  | v, .int n, _, h => by cases v <;> simp_all [unsigned]
  | v, .str s, _, h => by cases v <;> simp_all [unsigned]
  | v, .float x, hw, h => by
    cases v <;> simp only [unsigned, reduceCtorEq, float.injEq] at h ⊢
    exact float_eq_of_unsigned_eq (hw x (by simp [doubles])) h
  | v, .arr items, hw, h => by
    cases v <;> simp only [unsigned, reduceCtorEq, arr.injEq] at h ⊢
    exact items_eq_of_unsigned_eq _ items (by simpa only [doubles] using hw) h
  | v, .obj fs, hw, h => by
    cases v <;> simp only [unsigned, reduceCtorEq, obj.injEq] at h ⊢
    exact fields_eq_of_unsigned_eq _ fs (by simpa only [doubles] using hw) h

theorem items_eq_of_unsigned_eq : ∀ vs ws : List Json, (∀ x ∈ doublesItems ws, (x == 0) = false) →
    unsignedItems vs = unsignedItems ws → vs = ws
  | vs, [], _, h => by cases vs <;> simp_all [unsignedItems]
  | vs, w :: ws, hw, h => by
    simp only [doublesItems, List.forall_mem_append] at hw
    cases vs with
    | nil => cases h
    | cons v vs =>
      simp only [unsignedItems, List.cons.injEq] at h
      rw [eq_of_unsigned_eq v w hw.1 h.1, items_eq_of_unsigned_eq vs ws hw.2 h.2]

theorem fields_eq_of_unsigned_eq : ∀ fs gs : List (String × Json),
    (∀ x ∈ doublesFields gs, (x == 0) = false) → unsignedFields fs = unsignedFields gs → fs = gs
  | fs, [], _, h => by cases fs <;> simp_all [unsignedFields]
  | fs, (l, w) :: gs, hw, h => by
    simp only [doublesFields, List.forall_mem_append] at hw
    cases fs with
    | nil => cases h
    | cons f fs =>
      obtain ⟨k, v⟩ := f
      simp only [unsignedFields, List.cons.injEq, Prod.mk.injEq] at h
      rw [h.1.1, eq_of_unsigned_eq v w hw.1 h.1.2, fields_eq_of_unsigned_eq fs gs hw.2 h.2]

end

theorem isSame_iff_unsigned {v : Json} {o : Option Json} (h : ∀ x ∈ v.doubles, x.isNaN = false) :
    v.isSame o = true ↔ o.map unsigned = some v.unsigned := by
  cases o with
  | none => simp [isSame]
  | some w => simp [isSame, same_iff v w h, eq_comm]

theorem unsignedFields_eq_map (fs : Fields) :
    unsignedFields fs = fs.map fun f => (f.1, f.2.unsigned) := by
  induction fs with
  | nil => rfl
  | cons f rest ih => rw [unsignedFields, ih, List.map_cons]

/-- A look-up finds the value without the signs of its zeros. -/
theorem get?_unsignedFields (fs : Fields) (name : String) :
    Fields.get? (unsignedFields fs) name = (fs.get? name).map unsigned := by
  induction fs with
  | nil => rfl
  | cons f rest ih =>
    rw [unsignedFields, Fields.get?_cons, Fields.get?_cons, ih]
    split <;> rfl

theorem sorted_unsignedFields {fs : Fields} (h : fs.Sorted) :
    Fields.Sorted (unsignedFields fs) := by
  rw [unsignedFields_eq_map]
  exact List.pairwise_map.mpr h

end Json

end Dialogue
