import Dialogue.Proofs.Store.Order
import Dialogue.Store.Collection

/-! # Pages of a query

The pages of a query are cut from one list, the rows that are wanted in their order. Put together
again they are this list, so no row is lost and none is repeated.

* `compareRows_eq_lt_iff`, `compareRows_eq_eq_iff`: the order of rows by one column after the other.
* `filter_mergeSort`: rows that are equal keep their order.
* `flatMap_pages`: pages put together again.
* `pages_query`: all pages of a query.
* `soundRow_stored`: the columns of the collections of a store can be compared. -/

open Std

namespace Dialogue.Query

/-- The rows are equal in all columns that are ordered by. -/
def Ties (order : List (String × Bool)) (r s : Fields) : Prop :=
  ∀ o ∈ order, compareColumns (r.get? o.1) (s.get? o.1) = .eq

instance (order : List (String × Bool)) (r s : Fields) : Decidable (Ties order r s) :=
  inferInstanceAs (Decidable (∀ o ∈ order, _))

/-- The one row comes first: in the first column in which they differ it has the lower value, or the
higher one if that column is descending. -/
def Before (order : List (String × Bool)) (r s : Fields) : Prop :=
  ∃ front name descending back, order = front ++ (name, descending) :: back ∧ Ties front r s ∧
    compareColumns (r.get? name) (s.get? name) = if descending then .gt else .lt

/-! ### The order of rows -/

section
variable {order : List (String × Bool)} {o : String × Bool} {r s : Fields}

theorem ties_cons_iff : Ties (o :: order) r s ↔
    compareColumns (r.get? o.1) (s.get? o.1) = .eq ∧ Ties order r s := List.forall_mem_cons

theorem before_cons_iff : Before (o :: order) r s ↔
    compareColumns (r.get? o.1) (s.get? o.1) = (if o.2 then .gt else .lt) ∨
      compareColumns (r.get? o.1) (s.get? o.1) = .eq ∧ Before order r s := by
  constructor
  · rintro ⟨_ | ⟨f, front⟩, name, descending, back, horder, hties, hcolumn⟩
    · cases horder
      exact .inl hcolumn
    · cases horder
      rw [ties_cons_iff] at hties
      exact .inr ⟨hties.1, front, name, descending, back, rfl, hties.2, hcolumn⟩
  · rintro (hcolumn | ⟨heq, front, name, descending, back, rfl, hties, hcolumn⟩)
    · exact ⟨[], o.1, o.2, order, rfl, nofun, hcolumn⟩
    · exact ⟨o :: front, name, descending, back, rfl, ties_cons_iff.mpr ⟨heq, hties⟩, hcolumn⟩

theorem compareRows_eq_eq_iff : compareRows order r s = .eq ↔ Ties order r s := by
  induction order with
  | nil => exact iff_of_true rfl nofun
  | cons o rest ih =>
    rw [compareRows, Ordering.then_eq_eq, ih, ties_cons_iff]
    cases o.2 <;> simp

theorem compareRows_eq_lt_iff : compareRows order r s = .lt ↔ Before order r s := by
  induction order with
  | nil => simp [compareRows, Before]
  | cons o rest ih =>
    rw [compareRows, Ordering.then_eq_lt, ih, before_cons_iff]
    cases o.2 <;> simp

end

/-! ### Sorting -/

section
variable {α : Type} {le : α → α → Bool}

/-- Sorting keeps the order of things that are equal. -/
theorem filter_mergeSort (trans : ∀ a b c, le a b → le b c → le a c)
    (total : ∀ a b, le a b || le b a) {p : α → Bool} {l : List α}
    (hp : ∀ a ∈ l, ∀ b ∈ l, p a → p b → le a b) :
    (l.mergeSort le).filter p = l.filter p := by
  have hsorted : (l.filter p).Pairwise fun a b => le a b := by
    refine List.pairwise_of_forall_mem_list fun a ha b hb => ?_
    rw [List.mem_filter] at ha hb
    exact hp a ha.1 b hb.1 ha.2 hb.2
  have hsub := (List.sublist_mergeSort trans total hsorted List.filter_sublist).filter p
  rw [List.filter_filter] at hsub
  simp only [Bool.and_self] at hsub
  exact (hsub.eq_of_length ((List.mergeSort_perm l le).filter p).length_eq.symm).symm

end

/-! ### Pages -/

section
variable {α : Type}

/-- The first pages of a list. -/
theorem flatMap_take_drop (l : List α) (limit n : Nat) :
    ((List.range n).flatMap fun k => (l.drop (k * limit)).take limit) = l.take (n * limit) := by
  induction n with
  | zero => simp
  | succ n ih =>
    rw [List.range_succ, List.flatMap_append, ih, List.flatMap_singleton, Nat.succ_mul,
      List.take_add]

/-- Whether there is a page. -/
theorem lt_pages_iff {limit : Nat} (h : 1 ≤ limit) (k n : Nat) :
    k < (n + limit - 1) / limit ↔ k * limit < n := by
  rw [Nat.lt_iff_add_one_le, Nat.le_div_iff_mul_le h, Nat.succ_mul]
  omega

end

section
variable {α : Type} [Row α]

/-- The rows of a collection that pass the filters. -/
def wanted (c : Collection α) (q : Query) : List α :=
  c.rows.filter fun r => keeps q.filters (Row.columns r)

/-- The pages of a query one after the other, from zero on. -/
def pageAt (c : Collection α) (q : Query) (k : Nat) : Page α :=
  c.query { q with offset := k * q.limit }

/-- The rows of all pages. -/
def allPages (c : Collection α) (q : Query) : List α :=
  (List.range (pageAt c q 0).pages).flatMap fun k => (pageAt c q k).rows

variable {c : Collection α} {q : Query}

/-- Put together, the pages are the rows that are selected. -/
theorem allPages_eq (h : 1 ≤ q.limit) : allPages c q = q.select c.rows := by
  show ((List.range _).flatMap fun k => ((q.select c.rows).drop (k * q.limit)).take q.limit) = _
  rw [flatMap_take_drop, List.take_of_length_le]
  exact Nat.le_of_not_lt (mt (lt_pages_iff h _ _).mpr (Nat.lt_irrefl _))

theorem bne_gt_eq_isLE (o : Ordering) : (o != .gt) = o.isLE := by
  cases o <;> rfl

/-- The one row comes first, or the two are equal. -/
def precedes (order : List (String × Bool)) (r s : α) : Bool :=
  (rowOrder order (Row.columns r) (Row.columns s)).isLE

theorem precedes_trans (order : List (String × Bool)) (r s t : α) (h : precedes order r s)
    (h' : precedes order s t) : precedes order r t :=
  TransCmp.isLE_trans h h'

theorem precedes_total (order : List (String × Bool)) (r s : α) :
    precedes order r s || precedes order s r := by
  rw [precedes, precedes, rowOrder_swap order (Row.columns r)]
  cases rowOrder order (Row.columns r) (Row.columns s) <;> rfl

section
variable {order : List (String × Bool)} {r s t : α} (hr : SoundRow order (Row.columns r))
  (hs : SoundRow order (Row.columns s))
include hr hs

theorem not_before_of_precedes (h : precedes order r s) :
    ¬ Before order (Row.columns s) (Row.columns r) := by
  rw [← compareRows_eq_lt_iff, compareRows_eq hs hr, rowOrder_swap]
  rw [precedes] at h
  intro hlt
  cases ho : rowOrder order (Row.columns r) (Row.columns s) <;> rw [ho] at h hlt <;> contradiction

theorem precedes_of_ties (ht : SoundRow order (Row.columns t))
    (hrs : Ties order (Row.columns r) (Row.columns s))
    (hrt : Ties order (Row.columns r) (Row.columns t)) : precedes order s t := by
  rw [← compareRows_eq_eq_iff, compareRows_eq hr hs] at hrs
  rw [← compareRows_eq_eq_iff, compareRows_eq hr ht] at hrt
  have hsr : (rowOrder order (Row.columns s) (Row.columns r)).isLE := by
    rw [OrientedCmp.eq_comm.mp hrs]
    rfl
  exact TransCmp.isLE_trans hsr (by rw [hrt]; rfl)

end

variable (hsound : ∀ r ∈ c.rows, SoundRow q.order (Row.columns r))
include hsound

theorem sound_of_mem_wanted {r : α} (h : r ∈ wanted c q) : SoundRow q.order (Row.columns r) :=
  hsound r (List.mem_filter.mp h).1

theorem select_eq : q.select c.rows = (wanted c q).mergeSort (precedes q.order) := by
  have h := List.map_mergeSort (f := id) (l := wanted c q)
    (r := fun r s => compareRows q.order (Row.columns r) (Row.columns s) != .gt)
    (s := precedes q.order) fun r hr s hs => by
      rw [compareRows_eq (sound_of_mem_wanted hsound hr) (sound_of_mem_wanted hsound hs),
        bne_gt_eq_isLE]
      rfl
  rwa [List.map_id, List.map_id] at h

theorem select_sorted : (q.select c.rows).Pairwise fun r s =>
    ¬ Before q.order (Row.columns s) (Row.columns r) := by
  rw [select_eq hsound]
  refine (List.pairwise_mergeSort (precedes_trans _) (precedes_total _) _).imp_of_mem ?_
  intro r s hr hs h
  rw [List.mem_mergeSort] at hr hs
  exact not_before_of_precedes (sound_of_mem_wanted hsound hr) (sound_of_mem_wanted hsound hs) h

theorem select_stable {r : α} (hr : r ∈ c.rows) :
    ((q.select c.rows).filter fun s => Ties q.order (Row.columns r) (Row.columns s)) =
      (wanted c q).filter fun s => Ties q.order (Row.columns r) (Row.columns s) := by
  rw [select_eq hsound]
  refine filter_mergeSort (precedes_trans _) (precedes_total _) fun s hs t ht hrs hrt => ?_
  exact precedes_of_ties (hsound r hr) (sound_of_mem_wanted hsound hs)
    (sound_of_mem_wanted hsound ht) (of_decide_eq_true hrs) (of_decide_eq_true hrt)

/-- **The pages of a query**, each with at least one row, are cut from one list. It has exactly the
rows that pass the filters, each once, sorted by one column after the other; rows that are equal in
all of them stand as they were added. Each page tells the number of these rows and of the pages that
are not empty. The comparison of columns is total and transitive, whatever their sorts, and has null
and absent values at the beginning. -/
theorem pages_query (hlimit : 1 ≤ q.limit) :
    (allPages c q).Perm (wanted c q) ∧
      ((allPages c q).Pairwise fun r s => ¬ Before q.order (Row.columns s) (Row.columns r)) ∧
      (∀ r ∈ c.rows,
        ((allPages c q).filter fun s => Ties q.order (Row.columns r) (Row.columns s)) =
          (wanted c q).filter fun s => Ties q.order (Row.columns r) (Row.columns s)) ∧
      (∀ k, (pageAt c q k).rows = ((allPages c q).drop (k * q.limit)).take q.limit ∧
        (pageAt c q k).count = (wanted c q).length ∧ (pageAt c q k).number = k + 1 ∧
        (pageAt c q k).pages = (pageAt c q 0).pages ∧
        ((pageAt c q k).rows ≠ [] ↔ k < (pageAt c q k).pages)) ∧
      (∀ a b, Sound (a.getD .null) → Sound (b.getD .null) →
        compareColumns b a = (compareColumns a b).swap) ∧
      (∀ a b c, Sound (a.getD .null) → Sound (b.getD .null) → Sound (c.getD .null) →
        (compareColumns a b).isLE → (compareColumns b c).isLE → (compareColumns a c).isLE) ∧
      ∀ a b, isMissing a = true →
        compareColumns a b = if isMissing b = true then .eq else .lt := by
  have hperm : (q.select c.rows).Perm (wanted c q) := List.mergeSort_perm ..
  rw [allPages_eq hlimit]
  refine ⟨hperm, select_sorted hsound, fun r hr => select_stable hsound hr, fun k => ?_,
    fun a b => compareColumns_swap, fun a b c => compareColumns_trans, fun a b ha => ?_⟩
  · refine ⟨rfl, hperm.length_eq, ?_, rfl, ?_⟩
    · show k * q.limit / q.limit + 1 = k + 1
      rw [Nat.mul_div_cancel k hlimit]
    · show ((q.select c.rows).drop (k * q.limit)).take q.limit ≠ [] ↔
        k < ((q.select c.rows).length + q.limit - 1) / q.limit
      rw [lt_pages_iff hlimit, ← List.length_pos_iff, List.length_take, List.length_drop]
      omega
  · unfold compareColumns
    rw [ha]
    cases isMissing b <;> rfl

end

/-! ### The collections of a store -/

theorem soundRow_of_columns {order : List (String × Bool)} {columns : Fields}
    (h : ∀ p ∈ columns, Sound p.2) : SoundRow order columns := by
  intro o _
  rw [Fields.get?]
  cases hfind : columns.find? fun p => p.1 = o.1 with
  | none => exact trivial
  | some p => exact h p (List.mem_of_find?_eq_some hfind)

@[simp] theorem sound_str (s : String) : Sound (.str s) := trivial

@[simp] theorem sound_int (n : Int) : Sound (.int n) := trivial

@[simp] theorem sound_ofText? (s : Option String) : Sound (.ofText? s) := by
  cases s <;> exact trivial

/-- The columns of what a store keeps are texts, whole numbers and null. -/
theorem soundRow_stored (order : List (String × Bool)) :
    (∀ r : FlowRow, SoundRow order (Row.columns r)) ∧
      (∀ r : VersionRow, SoundRow order (Row.columns r)) ∧
      (∀ r : SessionRow, SoundRow order (Row.columns r)) ∧
      (∀ r : ScheduleRow, SoundRow order (Row.columns r)) ∧
      (∀ r : EventRow, SoundRow order (Row.columns r)) ∧
      ∀ r : LogRow, SoundRow order (Row.columns r) := by
  refine ⟨?_, ?_, ?_, ?_, ?_, ?_⟩
  all_goals
    intro r
    exact soundRow_of_columns (by simp [Row.columns])

/-- Lines of two sessions, of one moment but for the last. -/
def logged : Collection LogRow :=
  ⟨"logs", [⟨"l1", "s1", "n", "one", 1⟩, ⟨"l2", "s2", "n", "two", 1⟩, ⟨"l3", "s1", "m", "three", 1⟩,
    ⟨"l4", "s1", "n", "four", 2⟩]⟩

/-- The lines of one of them, the latest first, two on a page. -/
def latest : Query := ⟨[("sid", .str "s1")], [("timestamp", true), ("nid", false)], 2, 0⟩

/-- The three lines of the session are on two pages. -/
theorem pages_query_logged :
    1 ≤ latest.limit ∧ (∀ r ∈ logged.rows, SoundRow latest.order (Row.columns r)) ∧
      (allPages logged latest).Perm (wanted logged latest) ∧ (wanted logged latest).length = 3 ∧
      (pageAt logged latest 1).rows ≠ [] ∧ (pageAt logged latest 2).rows = [] := by
  have hsound : ∀ r ∈ logged.rows, SoundRow latest.order (Row.columns r) :=
    fun r _ => (soundRow_stored _).2.2.2.2.2 r
  have hlimit : 1 ≤ latest.limit := by decide
  obtain ⟨hperm, -, -, hpages, -⟩ := pages_query hsound hlimit
  have hlength : (wanted logged latest).length = 3 := by decide +kernel
  have hcount (k : Nat) : (pageAt logged latest k).pages = 2 := by
    show ((pageAt logged latest k).count + 2 - 1) / 2 = 2
    rw [(hpages k).2.1, hlength]
  refine ⟨hlimit, hsound, hperm, hlength, (hpages 1).2.2.2.2.mpr (by rw [hcount]; decide), ?_⟩
  have hbeyond := mt (hpages 2).2.2.2.2.mp (by rw [hcount]; decide)
  exact Classical.not_not.mp hbeyond

end Dialogue.Query
