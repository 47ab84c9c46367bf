import Dialogue.Proofs.Store.Rows
import Mathlib.Data.List.Nodup

/-! # Changes of a collection

A collection begins without rows, and rows are created, put in place of others and removed. It is an
ordered map: under each identity it has the row that was put there last, and its rows stand in the
order in which they were created.

* `apply_takes`: all that a change can do.
* `History.Sound`: what the changes that were made say about the rows.
* `sound_change`, `sound_run`: what one change keeps, and what a history keeps.
* `maps_in_order`: every collection with a history. -/

namespace Dialogue

/-- A change of a collection. -/
inductive Change (α : Type) where
  | create (r : α)
  | update (r : α)
  | delete (id : String)
deriving DecidableEq

namespace Change

variable {α : Type} [Row α]

/-- The identity that the change is about. -/
def id : Change α → String
  | .create r | .update r => Row.id r
  | .delete id => id

/-- The row that the change puts under its identity. -/
def row? : Change α → Option α
  | .create r | .update r => some r
  | .delete _ => none

/-- The change creates the row of that identity. -/
def creates (id : String) : Change α → Bool
  | .create r => Row.id r = id
  | _ => false

end Change

namespace Collection

variable {α : Type} [Row α]

/-- The collection after a change, and the answer to it. -/
def apply (c : Collection α) : Change α → Collection α × Outcome Bool
  | .create r =>
    match c.create r with
    | .ok c' => (c', .ok true)
    | .error f => (c, .error f)
  | .update r =>
    match c.update r with
    | some c' => (c', .ok true)
    | none => (c, .ok false)
  | .delete id =>
    match c.delete id with
    | some c' => (c', .ok true)
    | none => (c, .ok false)

/-- What a change does: it adds a row at the end, puts one in place of the only one of its identity,
removes the only one, or leaves all rows as they are. -/
inductive Takes (c : Collection α) : Change α → Collection α → Outcome Bool → Prop
  | created {r : α} (h : c.exists? (Row.id r) = false) :
      Takes c (.create r) { c with rows := c.rows ++ [r] } (.ok true)
  | refused {r : α} (h : c.exists? (Row.id r) = true) : Takes c (.create r) c
      (.error (.plain .store (c.name ++ ": '" ++ Row.id r ++ "' already exists")))
  | updated {r old : α} {front back : List α} (hrows : c.rows = front ++ old :: back)
      (hold : Row.id old = Row.id r) (hothers : ∀ s ∈ front ++ back, Row.id s ≠ Row.id r) :
      Takes c (.update r) { c with rows := front ++ r :: back } (.ok true)
  | unknown {r : α} (h : c.exists? (Row.id r) = false) : Takes c (.update r) c (.ok false)
  | deleted {id : String} {old : α} {front back : List α} (hrows : c.rows = front ++ old :: back)
      (hold : Row.id old = id) (hothers : ∀ s ∈ front ++ back, Row.id s ≠ id) :
      Takes c (.delete id) { c with rows := front ++ back } (.ok true)
  | absent {id : String} (h : c.exists? id = false) : Takes c (.delete id) c (.ok false)

/-! ### One change -/

section
variable {c : Collection α} {r old : α} {id : String} {front back : List α}

/-- The only row of an identity, with the rows before it and behind it. -/
theorem exists_split (hc : (c.rows.map Row.id).Nodup) (h : c.exists? id = true) :
    ∃ front old back, c.rows = front ++ old :: back ∧ Row.id old = id ∧
      ∀ s ∈ front ++ back, Row.id s ≠ id := by
  obtain ⟨old, hold, hid⟩ := List.any_eq_true.mp h
  obtain ⟨front, back, hrows⟩ := List.append_of_mem hold
  have hid : Row.id old = id := of_decide_eq_true hid
  rw [hrows, List.map_append, List.map_cons, List.nodup_middle, ← List.map_append] at hc
  refine ⟨front, old, back, hrows, hid, fun s hs he => ?_⟩
  exact (List.nodup_cons.mp hc).1 (List.mem_map.mpr ⟨s, hs, he.trans hid.symm⟩)

theorem exists?_of_split (hrows : c.rows = front ++ old :: back) (hold : Row.id old = id) :
    c.exists? id = true :=
  List.any_eq_true.mpr ⟨old, by rw [hrows]; exact List.mem_append_cons_self, decide_eq_true hold⟩

theorem replace_split (hold : Row.id old = Row.id r) (hfront : ∀ s ∈ front, Row.id s ≠ Row.id r) :
    replace r (front ++ old :: back) = front ++ r :: back := by
  induction front with
  | nil => exact if_pos hold
  | cons s front ih =>
    rw [List.forall_mem_cons] at hfront
    exact (if_neg hfront.1).trans (congrArg (s :: ·) (ih hfront.2))

theorem filter_split (hold : Row.id old = id) (hothers : ∀ s ∈ front ++ back, Row.id s ≠ id) :
    ((front ++ old :: back).filter fun s => Row.id s ≠ id) = front ++ back := by
  rw [List.forall_mem_append] at hothers
  rw [List.filter_append, List.filter_cons_of_neg (by simp [hold]),
    List.filter_eq_self.mpr fun s hs => decide_eq_true (hothers.1 s hs),
    List.filter_eq_self.mpr fun s hs => decide_eq_true (hothers.2 s hs)]

/-- Removing the rows of an identity changes what is found under it, and nothing else. -/
theorem row?_filter (c : Collection α) (id other : String) :
    row? { c with rows := c.rows.filter fun r => Row.id r ≠ id } other =
      if id = other then none else c.row? other := by
  unfold row?
  rw [List.find?_filter]
  by_cases h : id = other
  · subst h
    simp
  · rw [if_neg h]
    refine congrArg (List.find? · c.rows) (funext fun r => ?_)
    by_cases hr : Row.id r = other
    · simp [hr, Ne.symm h]
    · simp [hr]

/-- **One change** of a collection whose rows have distinct identities. -/
theorem apply_takes (hc : (c.rows.map Row.id).Nodup) (e : Change α) :
    c.Takes e (c.apply e).1 (c.apply e).2 := by
  cases e with
  | create r =>
    cases h : c.exists? (Row.id r) with
    | true =>
      simp only [apply, create, h, if_true]
      exact .refused h
    | false =>
      simp only [apply, create, h, Bool.false_eq_true, if_false]
      exact .created h
  | update r =>
    cases h : c.exists? (Row.id r) with
    | false =>
      simp only [apply, update, h, Bool.false_eq_true, if_false]
      exact .unknown h
    | true =>
      obtain ⟨front, old, back, hrows, hold, hothers⟩ := exists_split hc h
      have hfront : ∀ s ∈ front, Row.id s ≠ Row.id r :=
        fun s hs => hothers s (List.mem_append_left _ hs)
      simp only [apply, update, h, if_true]
      rw [hrows, replace_split hold hfront]
      exact .updated hrows hold hothers
  | delete id =>
    cases h : c.exists? id with
    | false =>
      simp only [apply, delete, h, Bool.false_eq_true, if_false]
      exact .absent h
    | true =>
      obtain ⟨front, old, back, hrows, hold, hothers⟩ := exists_split hc h
      simp only [apply, delete, h, if_true]
      rw [hrows, filter_split hold hothers]
      exact .deleted hrows hold hothers

end

end Collection

/-! ### Histories -/

/-- A collection, and the changes that were made of it. -/
structure History (α : Type) where
  collection : Collection α
  made : List (Change α)

namespace History

variable {α : Type} [Row α]

/-- A collection without rows. -/
def fresh (name : String) : History α := ⟨.empty name, []⟩

/-- A change, which counts as made if the answer says so. -/
def change (h : History α) (e : Change α) : History α :=
  match h.collection.apply e with
  | (c, .ok true) => ⟨c, h.made ++ [e]⟩
  | (c, _) => ⟨c, h.made⟩

/-- One change after the other. -/
def run (name : String) (changes : List (Change α)) : History α := changes.foldl change (fresh name)

/-- The row that was created or updated last under an identity, unless it was deleted since. -/
def latest (made : List (Change α)) (id : String) : Option α :=
  (made.reverse.find? fun e => e.id = id).bind Change.row?

/-- How many changes were made since the row of that identity was created. -/
def age (made : List (Change α)) (id : String) : Nat := made.reverse.findIdx (Change.creates id)

/-- The collection has that name, the changes that were made tell which rows there are, and the
oldest row comes first. -/
structure Sound (name : String) (h : History α) : Prop where
  named : h.collection.name = name
  found : ∀ id, h.collection.row? id = latest h.made id
  aged : (h.collection.rows.map Row.id).Pairwise fun a b => age h.made b < age h.made a

section
variable {name : String} {h : History α} {made : List (Change α)} {e : Change α} {id : String}
  {r : α}

theorem latest_append (made : List (Change α)) (e : Change α) (id : String) :
    latest (made ++ [e]) id = if e.id = id then e.row? else latest made id := by
  unfold latest
  rw [List.reverse_append, List.reverse_singleton, List.singleton_append, List.find?_cons]
  by_cases h : e.id = id <;> simp [h]

theorem age_append (made : List (Change α)) (e : Change α) (id : String) :
    age (made ++ [e]) id = if e.creates id then 0 else age made id + 1 := by
  unfold age
  rw [List.reverse_append, List.reverse_singleton, List.singleton_append, List.findIdx_cons]
  cases e.creates id <;> rfl

/-- The rows keep their order by age if none of them was created by the last change. -/
theorem aged_append {ids : List String} (h : ids.Pairwise fun a b => age made b < age made a)
    (he : ∀ id ∈ ids, e.creates id = false) :
    ids.Pairwise fun a b => age (made ++ [e]) b < age (made ++ [e]) a := by
  refine h.imp_of_mem fun {a b} ha hb hab => ?_
  rw [age_append, age_append, he a ha, he b hb]
  exact Nat.succ_lt_succ hab

theorem Sound.distinct (hs : h.Sound name) : (h.collection.rows.map Row.id).Nodup := by
  refine hs.aged.imp fun {a b} hab he => ?_
  subst he
  exact Nat.lt_irrefl _ hab

theorem not_creates_of_not_exists {c : Collection α} (hr : c.exists? (Row.id r) = false) :
    ∀ id ∈ c.rows.map Row.id, (Change.create r).creates id = false := by
  intro id hid
  obtain ⟨s, hs, rfl⟩ := List.mem_map.mp hid
  refine decide_eq_false fun he => ?_
  have : c.exists? (Row.id r) = true := List.any_eq_true.mpr ⟨s, hs, decide_eq_true he.symm⟩
  rw [hr] at this
  cases this

end

theorem ids_split {front back : List α} (old : α) :
    (front ++ old :: back).map Row.id = front.map Row.id ++ Row.id old :: back.map Row.id := by
  rw [List.map_append, List.map_cons]

/-- **One change** keeps a history sound. -/
theorem sound_change {name : String} {h : History α} (hs : h.Sound name) (e : Change α) :
    (h.change e).Sound name := by
  obtain ⟨c, made⟩ := h
  have hfound : ∀ id, c.row? id = latest made id := hs.found
  have haged : (c.rows.map Row.id).Pairwise fun a b => age made b < age made a := hs.aged
  have htakes := c.apply_takes hs.distinct e
  unfold change
  dsimp only
  generalize c.apply e = after at htakes ⊢
  obtain ⟨c', o⟩ := after
  dsimp only at htakes ⊢
  cases htakes with
  | refused | unknown | absent => exact hs
  | @created r hnew =>
    refine ⟨hs.named, fun id => ?_, ?_⟩
    · have hnone : c.row? (Row.id r) = none := by
        rw [Collection.exists?_eq] at hnew
        exact Option.isNone_iff_eq_none.mp (by rw [← Option.not_isSome, hnew]; rfl)
      rw [latest_append, Collection.row?_create (Collection.create_eq_ok_iff.mpr ⟨hnone, rfl⟩),
        hfound]
      exact if_congr eq_comm rfl rfl
    · have hothers := not_creates_of_not_exists hnew
      show ((c.rows ++ [r]).map Row.id).Pairwise _
      rw [List.map_append, List.pairwise_append]
      refine ⟨aged_append haged hothers, List.pairwise_singleton _ _, fun a ha b hb => ?_⟩
      obtain rfl : b = Row.id r := List.mem_singleton.mp hb
      have hown : (Change.create r).creates (Row.id r) = true := decide_eq_true rfl
      rw [age_append, age_append, hothers a ha, hown]
      exact Nat.succ_pos _
  | @updated r old front back hrows hold hothers =>
    refine ⟨hs.named, fun id => ?_, ?_⟩
    · have hsome : (c.row? (Row.id r)).isSome := by
        rw [← Collection.exists?_eq]
        exact Collection.exists?_of_split hrows hold
      have hupdate := Collection.update_eq_some_iff.mpr ⟨hsome, rfl⟩
      rw [hrows, Collection.replace_split hold fun s hs => hothers s (List.mem_append_left _ hs)]
        at hupdate
      rw [latest_append, Collection.row?_update hupdate, hfound]
      exact if_congr eq_comm rfl rfl
    · show ((front ++ r :: back).map Row.id).Pairwise _
      rw [ids_split, ← hold, ← ids_split, ← hrows]
      exact aged_append haged fun _ _ => rfl
  | @deleted id old front back hrows hold hothers =>
    refine ⟨hs.named, fun other => ?_, ?_⟩
    · have hrow := c.row?_filter id other
      rw [hrows, Collection.filter_split hold hothers] at hrow
      rw [latest_append, ← hfound]
      exact hrow
    · show ((front ++ back).map Row.id).Pairwise _
      refine (aged_append haged fun _ _ => rfl).sublist (List.Sublist.map _ ?_)
      rw [hrows]
      exact List.Sublist.append_left (List.sublist_cons_self _ _) _

theorem sound_fresh (name : String) : (fresh name : History α).Sound name :=
  ⟨rfl, fun _ => rfl, .nil⟩

/-- **Any changes** keep a history sound. -/
theorem sound_run (name : String) (changes : List (Change α)) :
    (run name changes).Sound name := by
  unfold run
  generalize fresh name = h, sound_fresh (α := α) name = hs
  induction changes generalizing h with
  | nil => exact hs
  | cons e rest ih => exact ih _ (sound_change hs e)

end History

/-! ### Queries for all rows -/

/-- A query for all rows gives them in their order. -/
theorem Collection.query_all {α : Type} [Row α] (c : Collection α) {q : Query}
    (hfilters : q.filters = []) (horder : q.order = []) (hoffset : q.offset = 0)
    (hlimit : c.rows.length ≤ q.limit) : (c.query q).rows = c.rows := by
  have hselect : q.select c.rows = c.rows := by
    unfold Query.select
    rw [hfilters, horder]
    have hkeeps : (c.rows.filter fun r => Query.keeps [] (Row.columns r)) = c.rows :=
      List.filter_eq_self.mpr fun _ _ => rfl
    rw [hkeeps]
    exact List.mergeSort_of_pairwise (List.pairwise_of_forall fun _ _ => rfl)
  show ((q.select c.rows).drop q.offset).take q.limit = c.rows
  rw [hselect, hoffset, List.drop_zero, List.take_of_length_le hlimit]

namespace History

variable {α : Type} [Row α]

/-- **A collection is an ordered map.** After any changes of one that had no rows: the identities
are distinct; the next change does what it says and no more; a row is found if and only if one was
created or updated under its identity and not deleted since, and it is the last such row; and a
query for all rows lists them, the oldest first. -/
theorem maps_in_order (name : String) (changes : List (Change α)) :
    let h := run name changes
    let c := h.collection
    (c.rows.map Row.id).Nodup ∧
      (∀ e, c.Takes e (c.apply e).1 (c.apply e).2) ∧
      (∀ id, c.find id = match latest h.made id with
        | some r => .ok r
        | none => .error (.plain .store (name ++ ": '" ++ id ++ "' not found"))) ∧
      (∀ id, c.exists? id = true ↔ ∃ r, c.find id = .ok r) ∧
      ∀ q : Query, q.filters = [] → q.order = [] → q.offset = 0 → c.rows.length ≤ q.limit →
        (c.query q).rows = c.rows ∧
        ((c.query q).rows.map Row.id).Pairwise fun a b => age h.made b < age h.made a := by
  intro h c
  have hs : h.Sound name := sound_run name changes
  refine ⟨hs.distinct, c.apply_takes hs.distinct, fun id => ?_, fun id => ?_,
    fun q hfilters horder hoffset hlimit => ?_⟩
  · have hfind := c.find_eq id
    rw [hs.found, hs.named] at hfind
    exact hfind
  · rw [Collection.exists?_eq, Collection.find_eq]
    cases c.row? id <;> simp
  · have hall := c.query_all hfilters horder hoffset hlimit
    refine ⟨hall, ?_⟩
    rw [hall]
    exact hs.aged

end History

end Dialogue
