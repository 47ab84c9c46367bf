import Dialogue.Proofs.Json.Numeral
import Dialogue.Store.Query
import Mathlib.Logic.Basic
import Mathlib.Tactic.SplitIfs

/-! # The order of columns

Columns are compared in several ways: numbers by size, texts by their characters, and values of
different sorts by their JSON text. All this is one order. The sort of a value can be told by the
first character of its text, so values of different sorts are ordered by their sorts, and within one
sort there is one way to compare. Numbers that are none would be equal to all others; a JSON value
has only finite ones.

* `UnpackedFloat.compare_eq`, `compareFloats_eq`: binary64 numbers by sign, exponent and mantissa.
* `exists_head`: the sort of a value and the first character of its text.
* `compareColumns_eq`: the comparison of columns is the order of their sorts, and then of what is
  compared within the sort.
* `compareColumns_swap`, `compareColumns_trans`: so it is total and transitive. -/

open Std

namespace Dialogue.Query

/-- Things are ordered by what they are taken to. -/
theorem transCmp_comap {α β : Type} {cmp : β → β → Ordering} (h : TransCmp cmp) (f : α → β) :
    TransCmp fun a b => cmp (f a) (f b) where
  eq_swap := h.eq_swap
  isLE_trans := h.isLE_trans

/-! ### Binary64 numbers -/

section
open Float Float.Model Float.Model.UnpackedFloat

/-- Below zero, zero or above, and beyond all finite numbers. -/
def side : UnpackedFloat → Int
  | .infinity .negative => -2
  | .finite .negative .. => -1
  | .finite .positive .. => 1
  | .infinity .positive => 2
  | _ => 0

/-- The exponent; below zero, more of it is less. -/
def reach : UnpackedFloat → Int
  | .finite .negative _ e _ => -e
  | .finite .positive _ e _ => e
  | _ => 0

/-- The mantissa; below zero, more of it is less. -/
def digits : UnpackedFloat → Int
  | .finite .negative m _ _ => -m
  | .finite .positive m _ _ => m
  | _ => 0

/-- The order of numbers by these three. -/
def sizeOrder : UnpackedFloat → UnpackedFloat → Ordering :=
  compareLex (compareOn side) (compareLex (compareOn reach) (compareOn digits))

instance : TransCmp sizeOrder :=
  inferInstanceAs (TransCmp (compareLex (compareOn side) (compareLex (compareOn reach)
    (compareOn digits))))

theorem compare_neg (a b : Int) : compare (-a) (-b) = (compare a b).swap := by
  rw [Int.compare_swap]
  simp only [compare, compareOfLessAndEq, Int.neg_lt_neg_iff, Int.neg_inj, eq_comm]

theorem compare_natCast (m n : Nat) : compare (m : Int) n = compare m n := by
  rw [Nat.compare_eq_ite_lt]
  simp only [compare, compareOfLessAndEq, Int.ofNat_lt, Int.ofNat_inj]
  split_ifs <;> first | rfl | omega

/-- The order of binary64 numbers. -/
theorem UnpackedFloat.compare_eq {x y : UnpackedFloat} (hx : x ≠ .notANumber)
    (hy : y ≠ .notANumber) : x.compare y = some (sizeOrder x y) := by
  cases x with
  | notANumber => exact absurd rfl hx
  | infinity s => cases s <;> cases y with
    | notANumber => exact absurd rfl hy
    | infinity s | finite s => cases s <;> rfl
    | zero => rfl
  | zero => cases y with
    | notANumber => exact absurd rfl hy
    | infinity s | finite s => cases s <;> rfl
    | zero => rfl
  | finite s m e => cases s <;> cases y with
    | notANumber => exact absurd rfl hy
    | infinity s => cases s <;> rfl
    | zero => rfl
    | finite s m' e' =>
      dsimp only [UnpackedFloat.compare, sizeOrder, compareLex, compareOn, side, reach, digits]
      cases s with
      | negative | positive => simp only [compare_natCast, compare_neg, Ordering.swap_then]; rfl

theorem isNaN_eq_false_iff {x : Float} : x.isNaN = false ↔ x.toModel.unpack ≠ .notANumber := by
  rw [Float.isNaN, Model.isNaN]
  cases x.toModel.unpack with
  | notANumber => exact ⟨(by cases ·), fun h => absurd rfl h⟩
  | infinity | zero | finite => exact ⟨fun _ => (by cases ·), fun _ => rfl⟩

theorem lt_iff_sizeOrder {x y : Float} (hx : x.isNaN = false) (hy : y.isNaN = false) :
    x < y ↔ sizeOrder x.toModel.unpack y.toModel.unpack = .lt := by
  show decide (x.toModel.unpack.compare y.toModel.unpack == some .lt) = true ↔ _
  rw [UnpackedFloat.compare_eq (isNaN_eq_false_iff.mp hx) (isNaN_eq_false_iff.mp hy)]
  simp

/-- Numbers are compared by sign, exponent and mantissa. -/
theorem compareFloats_eq {x y : Float} (hx : x.isNaN = false) (hy : y.isNaN = false) :
    compareFloats x y = sizeOrder x.toModel.unpack y.toModel.unpack := by
  unfold compareFloats
  simp only [lt_iff_sizeOrder hx hy, lt_iff_sizeOrder hy hx]
  have hswap : sizeOrder y.toModel.unpack x.toModel.unpack =
      (sizeOrder x.toModel.unpack y.toModel.unpack).swap := OrientedCmp.eq_swap
  rw [hswap]
  cases sizeOrder x.toModel.unpack y.toModel.unpack <;> rfl

/-! ### Whole numbers as binary64 numbers -/

theorem roundWithAccuracy_ne_notANumber {f : Model.Format} {s : Sign} {m : Nat} {e : Int}
    {a : Accuracy} : roundWithAccuracy f s m e a ≠ .notANumber := by
  unfold roundWithAccuracy
  dsimp only
  rw [Ne, dite_eq_iff]
  rintro (⟨-, ⟨⟩⟩ | ⟨-, ⟨⟩⟩)

theorem mul_finite_ne_notANumber {f : Model.Format} {x : UnpackedFloat} {s : Sign} {m : Nat}
    {e : Int} {hm : 0 < m} (h : x ≠ .notANumber) : x.mul f (.finite s m e hm) ≠ .notANumber := by
  cases x with
  | notANumber => exact absurd rfl h
  | infinity | zero => rintro ⟨⟩
  | finite s' m' e' => exact roundWithAccuracy_ne_notANumber (e := e' + e)

theorem unpack_packComponents_ne_notANumber {f : Model.Format} {s : Sign}
    {e : BitVec f.exponentBits} {m : BitVec f.mantissaBitsWithoutImplicit}
    (h : e = -1#_ → m = 0#_) :
    UnpackedFloat.unpack f (packComponents f s e m) ≠ .notANumber := by
  unfold UnpackedFloat.unpack
  dsimp only
  rw [Ne, ite_eq_iff, ite_eq_iff, ite_eq_iff, dite_eq_iff]
  rintro (⟨he, ⟨-, ⟨⟩⟩ | ⟨hm, -⟩⟩ | ⟨-, ⟨-, ⟨-, ⟨⟩⟩ | ⟨-, ⟨⟩⟩⟩ | ⟨-, ⟨⟩⟩⟩)
  rw [unpackExponent_packComponents] at he
  rw [unpackMantissa_packComponents] at hm
  exact hm (h he)

/-- A number that is one is one when it is read back from its bits. -/
theorem unpack_pack_ne_notANumber {x : UnpackedFloat} (h : x ≠ .notANumber) :
    (Model.pack x).unpack ≠ .notANumber := by
  show UnpackedFloat.unpack Format.binary64 (UnpackedFloat.pack Format.binary64 x) ≠ _
  fun_cases UnpackedFloat.pack with
  | case1 => exact absurd rfl h
  | case2 | case3 | case4 => exact unpack_packComponents_ne_notANumber fun _ => rfl
  | case5 s m e hm bits biased hlarge hbits =>
    refine unpack_packComponents_ne_notANumber fun he => ?_
    have hbiased := congrArg BitVec.toNat he
    simp at hbiased hlarge
    omega
  | case6 s m e hm bits biased hlarge hbits =>
    refine unpack_packComponents_ne_notANumber fun he => ?_
    cases he

theorem normalize_ne_notANumber {f : Model.Format} {m e : Int} {s : Sign} :
    UnpackedFloat.normalize f m e s ≠ .notANumber := by
  unfold UnpackedFloat.normalize
  split
  · exact roundWithAccuracy_ne_notANumber
  · rintro ⟨⟩
  · exact roundWithAccuracy_ne_notANumber

theorem isNaN_ofNat (n : Nat) : (Float.ofNat n).isNaN = false := by
  show (Float.ofScientific n false 0).isNaN = false
  rw [isNaN_eq_false_iff, Float.ofScientific]
  split
  · -- a small number is multiplied by the binary64 number one
    have hone : (Float.ofBits 0x3FF0000000000000).toModel.unpack =
        .finite .positive 4503599627370496 (-52) (by decide) := rfl
    show (Model.pack (UnpackedFloat.mul _ (Model.pack _).unpack
      (Float.ofBits 0x3FF0000000000000).toModel.unpack)).unpack ≠ _
    rw [hone]
    exact unpack_pack_ne_notANumber <|
      mul_finite_ne_notANumber (unpack_pack_ne_notANumber normalize_ne_notANumber)
  · show (Model.pack (UnpackedFloat.ofScientific _ n 0)).unpack ≠ _
    refine unpack_pack_ne_notANumber ?_
    unfold UnpackedFloat.ofScientific
    intro h
    rcases dite_eq_iff.mp h with ⟨-, ⟨⟩⟩ | ⟨_, h⟩
    rw [ite_eq_iff, ite_eq_iff, ite_eq_iff] at h
    rcases h with ⟨-, ⟨⟩⟩ | ⟨-, ⟨-, ⟨⟩⟩ | ⟨-, ⟨-, h⟩ | ⟨hneg, -⟩⟩⟩
    · exact mul_finite_ne_notANumber (by rintro ⟨⟩) h
    · exact hneg (Int.le_refl 0)

theorem isNaN_ofInt (n : Int) : (Float.ofInt n).isNaN = false := by
  cases n with
  | ofNat n => exact isNaN_ofNat n
  | negSucc n =>
    have h := isNaN_eq_false_iff.mp (isNaN_ofNat n.succ)
    show (Float.neg (Float.ofNat n.succ)).isNaN = false
    rw [isNaN_eq_false_iff]
    refine unpack_pack_ne_notANumber ?_
    revert h
    cases (Float.ofNat n.succ).toModel.unpack with
    | notANumber => exact fun h => absurd rfl h
    | infinity | zero | finite => exact fun _ => (by cases ·)

end

/-! ### Sorts of values -/

/-- The sorts of values in their order: null, texts, numbers, arrays, truth values and objects. -/
def sort : Json → Nat
  | .null => 0
  | .str _ => 1
  | .int _ | .float _ => 2
  | .arr _ => 3
  | .bool _ => 4
  | .obj _ => 5

/-- The sort of the values whose text begins with the character: a quote, a sign or digit, a
bracket, one of two letters, or a brace. -/
def sortOf (c : Char) : Nat :=
  if c.toNat ≤ 0x22 then 1
  else if c.toNat ≤ 0x39 then 2
  else if c.toNat ≤ 0x5b then 3
  else if c.toNat ≤ 0x74 then 4
  else 5

/-- The value is a binary64 number only if that is finite. -/
def Sound : Json → Prop
  | .float x => x.isFinite = true
  | _ => True

theorem isNaN_isInf_of_isFinite {x : Float} (h : x.isFinite = true) :
    x.isNaN = false ∧ x.isInf = false := by
  rw [Float.isFinite, Float.Model.isFinite] at h
  rw [Float.isNaN, Float.Model.isNaN, Float.isInf, Float.Model.isInf]
  revert h
  cases x.toModel.unpack with
  | notANumber | infinity => exact (by cases ·)
  | zero | finite => exact fun _ => ⟨rfl, rfl⟩

theorem sortOf_digit {c : Char} (h : c.isDigit = true) : sortOf c = 2 := by
  obtain ⟨hlow, hhigh⟩ : 0x30 ≤ c.toNat ∧ c.toNat ≤ 0x39 := Char.isDigit_iff_toNat.mp h
  rw [sortOf, if_neg (by omega), if_pos hhigh]

/-- The first character of the text of a value tells its sort. -/
theorem exists_head {v : Json} (hv : v ≠ .null) (hsound : Sound v) :
    ∃ c cs, v.chars = c :: cs ∧ sortOf c = sort v := by
  have hwritten {cs : List Char} (h : Decimal.Written cs) :
      ∃ c rest, cs = c :: rest ∧ sortOf c = 2 := by
    obtain ⟨⟨c, hc, hd⟩, -⟩ := h
    cases cs with
    | nil => cases hc
    | cons c' rest => cases hc; exact ⟨c, rest, rfl, sortOf_digit hd⟩
  cases v with
  | null => exact absurd rfl hv
  | str s => exact ⟨'"', _, rfl, rfl⟩
  | int n =>
    rw [Json.chars, Json.intChars]
    split
    · exact ⟨'-', _, rfl, rfl⟩
    · exact hwritten (Decimal.written_toDigits _)
  | float x =>
    obtain ⟨hnan, hinf⟩ := isNaN_isInf_of_isFinite hsound
    rw [Json.chars, Decimal.Layout.chars, hnan, hinf]
    dsimp only
    split
    · cases ‹_›
    · split
      · exact ⟨'-', _, rfl, rfl⟩
      · exact hwritten (Decimal.written_magnitude x)
  | arr items => cases items <;> exact ⟨'[', _, rfl, rfl⟩
  | bool b => cases b with
    | false => exact ⟨'f', _, rfl, rfl⟩
    | true => exact ⟨'t', _, rfl, rfl⟩
  | obj fs => cases fs <;> exact ⟨'\x7b', _, rfl, rfl⟩

theorem lt_of_sortOf_lt {c d : Char} (h : sortOf c < sortOf d) : c < d := by
  suffices c.toNat < d.toNat from UInt32.lt_iff_toNat_lt.mpr this
  unfold sortOf at h
  split_ifs at h <;> omega

/-- Texts of values of different sorts are in the order of the sorts. -/
theorem compare_text_of_sort_lt {a b : Json} (ha : a ≠ .null) (hb : b ≠ .null) (hsa : Sound a)
    (hsb : Sound b) (h : sort a < sort b) : compare a.text b.text = .lt := by
  obtain ⟨c, cs, hcs, hc⟩ := exists_head ha hsa
  obtain ⟨d, ds, hds, hd⟩ := exists_head hb hsb
  rw [← hc, ← hd] at h
  have hlt : a.text < b.text := by
    rw [String.lt_iff, Json.text, Json.text, hcs, hds, String.toList_ofList, String.toList_ofList]
    exact List.Lex.rel (lt_of_sortOf_lt h)
  show compareOfLessAndEq a.text b.text = .lt
  exact if_pos hlt

/-! ### Columns -/

/-- The number that a value is, zero if it is none. -/
def numeral (v : Json) : Float.Model.UnpackedFloat :=
  v.toFloat?.elim (.zero .positive) fun x => x.toModel.unpack

/-- The characters that a value is compared by; numbers are not. -/
def wording : Json → String
  | .str s => s
  | .int _ | .float _ => ""
  | v => v.text

/-- The order of values: by their sorts first, and then by the number or the characters. -/
def valueOrder : Json → Json → Ordering :=
  compareLex (compareOn sort)
    (compareLex (fun a b => sizeOrder (numeral a) (numeral b)) (compareOn wording))

/-- The order of columns; an absent one is as null. -/
def columnOrder (a b : Option Json) : Ordering := valueOrder (a.getD .null) (b.getD .null)

instance : TransCmp fun a b : Json => sizeOrder (numeral a) (numeral b) :=
  transCmp_comap inferInstance numeral

instance : TransCmp valueOrder :=
  inferInstanceAs (TransCmp (compareLex (compareOn sort)
    (compareLex (fun a b => sizeOrder (numeral a) (numeral b)) (compareOn wording))))

instance : TransCmp columnOrder :=
  transCmp_comap (inferInstanceAs (TransCmp valueOrder)) fun v : Option Json => v.getD .null

/-- Numbers are compared by their sizes only. -/
theorem exists_number {v : Json} (h : sort v = 2) (hsound : Sound v) :
    ∃ x, v.toFloat? = some x ∧ x.isNaN = false ∧ numeral v = x.toModel.unpack ∧
      wording v = "" := by
  cases v with
  | int n => exact ⟨_, rfl, isNaN_ofInt n, rfl, rfl⟩
  | float x => exact ⟨_, rfl, (isNaN_isInf_of_isFinite hsound).1, rfl, rfl⟩
  | _ => cases h

variable {a b : Json}

theorem compareColumns_of_sort_ne (ha : a ≠ .null) (hb : b ≠ .null) (h : sort a ≠ sort b) :
    compareColumns (some a) (some b) = compare a.text b.text := by
  cases a <;> cases b <;>
    first | exact absurd rfl h | exact absurd rfl ha | exact absurd rfl hb | rfl

theorem compareColumns_numbers {x y : Float} (ha : a.toFloat? = some x) (hb : b.toFloat? = some y) :
    compareColumns (some a) (some b) = compareFloats x y := by
  cases a <;> cases ha <;> cases b <;> cases hb <;> rfl

theorem compareColumns_some (ha : Sound a) (hb : Sound b) :
    compareColumns (some a) (some b) = valueOrder a b := by
  by_cases hna : a = .null
  · subst hna
    cases b <;> rfl
  by_cases hnb : b = .null
  · subst hnb
    cases a <;> rfl
  unfold valueOrder compareLex compareOn
  rcases Nat.lt_trichotomy (sort a) (sort b) with h | h | h
  · rw [compareColumns_of_sort_ne hna hnb (Nat.ne_of_lt h), compare_text_of_sort_lt hna hnb ha hb h,
      Nat.compare_eq_lt.mpr h]
    rfl
  · rw [Nat.compare_eq_eq.mpr h]
    by_cases hnumber : sort a = 2
    · obtain ⟨x, hx, hnx, hxn, hxw⟩ := exists_number hnumber ha
      obtain ⟨y, hy, hny, hyn, hyw⟩ := exists_number (h.symm.trans hnumber) hb
      simp only [compareColumns_numbers hx hy, compareFloats_eq hnx hny, hxn, hxw, hyn, hyw]
      exact Ordering.then_eq.symm
    · cases a with
      | null => exact absurd rfl hna
      | int | float => exact absurd rfl hnumber
      | str | arr | bool | obj => cases b <;> cases h; rfl
  · have hswap : compare a.text b.text = (compare b.text a.text).swap := OrientedCmp.eq_swap
    rw [compareColumns_of_sort_ne hna hnb (Nat.ne_of_gt h), Nat.compare_eq_gt.mpr h, hswap,
      compare_text_of_sort_lt hnb hna hb ha h]
    rfl

/-- **The comparison of columns** is by their sorts first, and then by the number or the
characters. -/
theorem compareColumns_eq {a b : Option Json} (ha : Sound (a.getD .null))
    (hb : Sound (b.getD .null)) : compareColumns a b = columnOrder a b := by
  cases a <;> cases b <;> exact compareColumns_some ha hb

section
variable {a b c : Option Json} (ha : Sound (a.getD .null)) (hb : Sound (b.getD .null))
include ha hb

theorem compareColumns_swap : compareColumns b a = (compareColumns a b).swap := by
  rw [compareColumns_eq hb ha, compareColumns_eq ha hb]
  exact OrientedCmp.eq_swap

theorem compareColumns_trans (hc : Sound (c.getD .null)) (hab : (compareColumns a b).isLE = true)
    (hbc : (compareColumns b c).isLE = true) : (compareColumns a c).isLE = true := by
  rw [compareColumns_eq ha hb] at hab
  rw [compareColumns_eq hb hc] at hbc
  rw [compareColumns_eq ha hc]
  exact TransCmp.isLE_trans hab hbc

end

/-! ### Rows -/

/-- The order of rows by some columns. -/
def rowOrder : List (String × Bool) → Fields → Fields → Ordering
  | [] => fun _ _ => .eq
  | (name, false) :: rest =>
    compareLex (fun a b => columnOrder (a.get? name) (b.get? name)) (rowOrder rest)
  | (name, true) :: rest =>
    compareLex (fun a b => columnOrder (b.get? name) (a.get? name)) (rowOrder rest)

instance transCmp_rowOrder (order : List (String × Bool)) : TransCmp (rowOrder order) := by
  induction order with
  | nil => exact { eq_swap := rfl, isLE_trans := fun _ _ => rfl }
  | cons o rest ih =>
    obtain ⟨name, descending⟩ := o
    have hcolumn : TransCmp fun a b : Fields => columnOrder (a.get? name) (b.get? name) :=
      transCmp_comap inferInstance fun columns : Fields => columns.get? name
    cases descending with
    | false => exact inferInstanceAs (TransCmp (compareLex _ _))
    | true =>
      have hback : TransCmp fun a b : Fields => columnOrder (b.get? name) (a.get? name) :=
        TransCmp.opposite
      exact inferInstanceAs (TransCmp (compareLex _ _))

theorem rowOrder_swap (order : List (String × Bool)) (r s : Fields) :
    rowOrder order s r = (rowOrder order r s).swap := OrientedCmp.eq_swap

/-- In the columns that are ordered by, a row has numbers only that are finite. -/
def SoundRow (order : List (String × Bool)) (columns : Fields) : Prop :=
  ∀ o ∈ order, Sound ((columns.get? o.1).getD .null)

theorem compareRows_eq {order : List (String × Bool)} {r s : Fields} (hr : SoundRow order r)
    (hs : SoundRow order s) : compareRows order r s = rowOrder order r s := by
  induction order with
  | nil => rfl
  | cons o rest ih =>
    obtain ⟨name, descending⟩ := o
    have hr' := List.forall_mem_cons.mp hr
    have hs' := List.forall_mem_cons.mp hs
    rw [compareRows, compareColumns_eq hr'.1 hs'.1, ih hr'.2 hs'.2]
    cases descending with
    | false => rfl
    | true =>
      show (columnOrder _ _).swap.then _ = (columnOrder _ _).then _
      rw [← OrientedCmp.eq_swap]

end Dialogue.Query
