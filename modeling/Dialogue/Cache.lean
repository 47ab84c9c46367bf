/-! # Caches

Values kept by key to be found again; a new value takes the place of the old one.

* `get?_set_self`, `get?_set_of_ne`, `get?_remove_self`: what the operations do to look-ups.
* `get?_newest`: what is kept is what it was.
* `Beyond.set`: a value that was set before some others is beyond the newest ones. -/

namespace Dialogue

/-- Values by key. -/
structure Cache (α : Type) where
  entries : List (String × α)

namespace Cache

variable {α : Type}

/-- A cache without values. -/
def empty : Cache α := ⟨[]⟩

/-- The value under a key. -/
def get? (c : Cache α) (key : String) : Option α := c.entries.lookup key

/-- The cache without the value under a key. -/
def remove (c : Cache α) (key : String) : Cache α := ⟨c.entries.filter fun e => e.1 ≠ key⟩

/-- The cache with a value under a key. -/
def set (c : Cache α) (key : String) (value : α) : Cache α :=
  ⟨(key, value) :: (c.remove key).entries⟩

theorem get?_set_self (c : Cache α) (key : String) (value : α) :
    (c.set key value).get? key = some value := by
  simp [get?, set]

theorem get?_remove_self (c : Cache α) (key : String) : (c.remove key).get? key = none := by
  simp only [get?, remove, List.lookup_eq_none_iff, List.mem_filter]
  rintro e ⟨-, he⟩
  have he : e.1 ≠ key := by simpa using he
  simpa using fun h : key = e.1 => he h.symm

theorem get?_remove_of_ne {key other : String} (h : other ≠ key) (c : Cache α) :
    (c.remove key).get? other = c.get? other := by
  have keeps (entries : List (String × α)) :
      (entries.filter fun e => e.1 ≠ key).lookup other = entries.lookup other := by
    induction entries with
    | nil => rfl
    | cons e rest ih => grind
  exact keeps c.entries

theorem get?_set_of_ne {key other : String} (h : other ≠ key) (c : Cache α) (value : α) :
    (c.set key value).get? other = c.get? other := by
  rw [← get?_remove_of_ne h c]
  have ho : (other == key) = false := by simpa using h
  simp [get?, set, List.lookup_cons, ho]

/-! ### Caches of a limited size -/

/-- The cache with no more values than that, the ones set last. -/
def newest (c : Cache α) (n : Nat) : Cache α := ⟨c.entries.take n⟩

/-- What is kept is what it was. -/
theorem get?_newest {c : Cache α} {n : Nat} {key : String} {value : α}
    (h : (c.newest n).get? key = some value) : c.get? key = some value := by
  have hprefix : c.entries.lookup key = ((c.entries.take n) ++ c.entries.drop n).lookup key := by
    rw [List.take_append_drop]
  rw [newest, get?] at h
  rw [get?, hprefix, List.lookup_append, h]
  rfl

/-- The key is none of the newest ones. -/
def Beyond (c : Cache α) (n : Nat) (key : String) : Prop := ∀ e ∈ c.entries.take n, e.1 ≠ key

theorem beyond_zero (c : Cache α) (key : String) : c.Beyond 0 key := nofun

theorem Beyond.get?_newest {c : Cache α} {n : Nat} {key : String} (h : c.Beyond n key) :
    (c.newest n).get? key = none := by
  rw [get?, List.lookup_eq_none_iff]
  intro e he
  simpa using (h e he).symm

/-- A value that is new under its key moves the others on. -/
theorem Beyond.set {c : Cache α} {n : Nat} {key other : String} (h : c.Beyond n key)
    (hnew : c.get? other = none) (hne : other ≠ key) (value : α) :
    (c.set other value).Beyond (n + 1) key := by
  have hremove : (c.remove other).entries = c.entries := by
    refine List.filter_eq_self.mpr fun e he => ?_
    have hmem := (List.lookup_eq_none_iff.mp hnew) e he
    simpa using fun h : e.1 = other => by simp [h] at hmem
  intro e he
  rw [Cache.set, hremove, List.take_succ_cons, List.mem_cons] at he
  rcases he with rfl | he
  · exact hne
  · exact h e he

end Cache

end Dialogue
