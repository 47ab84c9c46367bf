import Dialogue.Proofs.Json.Delta
import Dialogue.Proofs.Json.RoundTrip
import Dialogue.Template
import Mathlib.Tactic.SplitIfs

/-! # Values as they are read

Whatever a text says, the value that is read off it has its objects in order and its whole numbers
within 64 bits, and no more containers are open in it at once than the reader goes into. Each of
these stays so where values are taken apart or texts in them are filled.

* `Document.bounded_of_read?`, `Json.bounded_of_read?`: what is read off a text.
* `Json.Bounded.legible`: such a value can be read back if its binary64 numbers can. -/

namespace Dialogue

open Document

/-- No more than so many containers are open at once in the document, and its whole numbers fit
64 bits. -/
inductive Document.Bounded : Nat → Document → Prop
  | null (n : Nat) : Bounded n .null
  | bool (n : Nat) (b : Bool) : Bounded n (.bool b)
  | int (n : Nat) {k : Int} (h : Fits64 k) : Bounded n (.int k)
  | float (n : Nat) (x : Float) : Bounded n (.float x)
  | str (n : Nat) (s : String) : Bounded n (.str s)
  | unreadable (n : Nat) : Bounded n .unreadable
  | arr {n : Nat} {items : List Document} (h : ∀ d ∈ items, Bounded n d) :
      Bounded (n + 1) (.arr items)
  | obj {n : Nat} {members : List (String × Document)} (h : ∀ m ∈ members, Bounded n m.2) :
      Bounded (n + 1) (.obj members)

/-- No more than so many containers are open at once in the value, its objects are in order and its
whole numbers fit 64 bits. -/
inductive Json.Bounded : Nat → Json → Prop
  | null (n : Nat) : Bounded n .null
  | bool (n : Nat) (b : Bool) : Bounded n (.bool b)
  | int (n : Nat) {k : Int} (h : Fits64 k) : Bounded n (.int k)
  | float (n : Nat) (x : Float) : Bounded n (.float x)
  | str (n : Nat) (s : String) : Bounded n (.str s)
  | arr {n : Nat} {items : List Json} (h : ∀ v ∈ items, Bounded n v) : Bounded (n + 1) (.arr items)
  | obj {n : Nat} {fs : Fields} (hs : fs.Sorted) (h : ∀ f ∈ fs, Bounded n f.2) :
      Bounded (n + 1) (.obj fs)

namespace Json

mutual

/-- The binary64 numbers in the value. -/
def doubles : Json → List Float
  | .float x => [x]
  | .arr items => doublesItems items
  | .obj fs => doublesFields fs
  | _ => []
termination_by structural v => v

/-- The binary64 numbers in the items. -/
def doublesItems : List Json → List Float
  | [] => []
  | v :: rest => doubles v ++ doublesItems rest
termination_by structural v => v

/-- The binary64 numbers in the values of the members. -/
def doublesFields : List (String × Json) → List Float
  | [] => []
  | (_, v) :: rest => doubles v ++ doublesFields rest
termination_by structural v => v

end

variable {m n : Nat} {v x : Json} {items : List Json} {fs : Fields}

/-! ### Lists of values -/

theorem depthItems_le_iff : depthItems items ≤ n ↔ ∀ v ∈ items, v.depth ≤ n := by
  induction items with
  | nil => simp [depthItems]
  | cons v rest ih => simp only [depthItems, Nat.max_le, ih, List.forall_mem_cons]

theorem depthFields_le_iff : depthFields fs ≤ n ↔ ∀ f ∈ fs, f.2.depth ≤ n := by
  induction fs with
  | nil => simp [depthFields]
  | cons f rest ih =>
    obtain ⟨name, v⟩ := f
    simp only [depthFields, Nat.max_le, ih, List.forall_mem_cons]

theorem orderedItems_iff : OrderedItems items ↔ ∀ v ∈ items, v.Ordered := by
  induction items with
  | nil => simp [OrderedItems]
  | cons v rest ih => simp only [OrderedItems, ih, List.forall_mem_cons]

theorem orderedFields_iff : OrderedFields fs ↔ ∀ f ∈ fs, f.2.Ordered := by
  induction fs with
  | nil => simp [OrderedFields]
  | cons f rest ih =>
    obtain ⟨name, v⟩ := f
    simp only [OrderedFields, ih, List.forall_mem_cons]

theorem legibleItems_iff : LegibleItems items ↔ ∀ v ∈ items, v.Legible := by
  induction items with
  | nil => simp [LegibleItems]
  | cons v rest ih => simp only [LegibleItems, ih, List.forall_mem_cons]

theorem legibleFields_iff : LegibleFields fs ↔ ∀ f ∈ fs, f.2.Legible := by
  induction fs with
  | nil => simp [LegibleFields]
  | cons f rest ih =>
    obtain ⟨name, v⟩ := f
    simp only [LegibleFields, ih, List.forall_mem_cons]

theorem mem_doublesItems {x : Float} (hv : v ∈ items) (hx : x ∈ v.doubles) :
    x ∈ doublesItems items := by
  induction items with
  | nil => cases hv
  | cons w rest ih =>
    rw [doublesItems, List.mem_append]
    rcases List.mem_cons.mp hv with rfl | hv
    · exact .inl hx
    · exact .inr (ih hv)

theorem mem_doublesFields {x : Float} {f : String × Json} (hf : f ∈ fs) (hx : x ∈ f.2.doubles) :
    x ∈ doublesFields fs := by
  induction fs with
  | nil => cases hf
  | cons g rest ih =>
    obtain ⟨name, v⟩ := g
    rw [doublesFields, List.mem_append]
    rcases List.mem_cons.mp hf with rfl | hf
    · exact .inl hx
    · exact .inr (ih hf)

/-! ### Bounded values -/

namespace Bounded

theorem mono (h : v.Bounded n) (hm : n ≤ m) : v.Bounded m := by
  induction h generalizing m with
  | null => exact .null m
  | bool _ b => exact .bool m b
  | int _ hk => exact .int m hk
  | float _ x => exact .float m x
  | str _ s => exact .str m s
  | arr _ ih =>
    obtain ⟨k, rfl⟩ := Nat.exists_eq_add_of_lt hm
    exact .arr fun v hv => ih v hv (by omega)
  | obj hs _ ih =>
    obtain ⟨k, rfl⟩ := Nat.exists_eq_add_of_lt hm
    exact .obj hs fun f hf => ih f hf (by omega)

theorem depth_le (h : v.Bounded n) : v.depth ≤ n := by
  induction h with
  | null | bool | int | float | str => simp [depth]
  | arr _ ih =>
    rw [depth]
    exact Nat.succ_le_succ (depthItems_le_iff.mpr ih)
  | obj _ _ ih =>
    rw [depth]
    exact Nat.succ_le_succ (depthFields_le_iff.mpr ih)

/-- The depth itself is a bound. -/
theorem of_depth (h : v.Bounded m) (hn : v.depth ≤ n) : v.Bounded n := by
  induction h generalizing n with
  | null => exact .null n
  | bool _ b => exact .bool n b
  | int _ hk => exact .int n hk
  | float _ x => exact .float n x
  | str _ s => exact .str n s
  | arr _ ih =>
    rw [depth] at hn
    obtain ⟨k, rfl⟩ := Nat.exists_eq_add_of_lt hn
    exact .arr fun v hv => ih v hv (depthItems_le_iff.mp (by omega) v hv)
  | obj hs _ ih =>
    rw [depth] at hn
    obtain ⟨k, rfl⟩ := Nat.exists_eq_add_of_lt hn
    exact .obj hs fun f hf => ih f hf (depthFields_le_iff.mp (by omega) f hf)

theorem ordered (h : v.Bounded n) : v.Ordered := by
  induction h with
  | null | bool | int | float | str => simp [Ordered]
  | arr _ ih =>
    rw [Ordered]
    exact orderedItems_iff.mpr ih
  | obj hs _ ih =>
    rw [Ordered]
    exact ⟨hs, orderedFields_iff.mpr ih⟩

/-- The value can be read back if its binary64 numbers can. -/
theorem legible (h : v.Bounded n) (hx : ∀ x ∈ v.doubles, ReadsBack x) : v.Legible := by
  induction h with
  | null | bool | str => simp [Legible]
  | int _ hk => rwa [Legible]
  | float _ x =>
    rw [Legible]
    exact hx x (by simp [doubles])
  | arr _ ih =>
    rw [doubles] at hx
    rw [Legible, legibleItems_iff]
    exact fun v hv => ih v hv fun x hd => hx x (mem_doublesItems hv hd)
  | obj _ _ ih =>
    rw [doubles] at hx
    rw [Legible, legibleFields_iff]
    exact fun f hf => ih f hf fun x hd => hx x (mem_doublesFields hf hd)

/-- A step of a path leads out of a container. -/
theorem follow (h : v.Bounded n) {s : Step} (hx : s.follow v = some x) :
    ∃ m, n = m + 1 ∧ x.Bounded m := by
  have hmember {m : Nat} {fs : Fields} (h : ∀ f ∈ fs, f.2.Bounded m) {name : String}
      (hx : Fields.get? fs name = some x) : x.Bounded m := by
    obtain ⟨f, hf, rfl⟩ := Option.map_eq_some_iff.mp hx
    exact h f (List.mem_of_find?_eq_some hf)
  have hitem {m : Nat} {items : List Json} (h : ∀ v ∈ items, v.Bounded m) {i : Nat}
      (hx : items[i]? = some x) : x.Bounded m := h x (List.mem_of_getElem? hx)
  cases h with
  | null | bool | int | float | str => cases s <;> cases hx
  | arr h =>
    refine ⟨_, rfl, ?_⟩
    cases s with
    | key name =>
      obtain ⟨i, -, hx⟩ := Option.bind_eq_some_iff.mp hx
      exact hitem h hx
    | index i => exact hitem h hx
  | obj _ h =>
    refine ⟨_, rfl, ?_⟩
    cases s with
    | key name => exact hmember h hx
    | index i => exact hmember h hx

theorem walk {steps : List Step} (h : v.Bounded n) (hx : v.walk steps = some x) :
    x.Bounded n := by
  induction steps generalizing v n with
  | nil =>
    obtain rfl := Option.some.inj hx
    exact h
  | cons s rest ih =>
    obtain ⟨y, hy, hx⟩ := Option.bind_eq_some_iff.mp hx
    obtain ⟨m, rfl, hm⟩ := h.follow hy
    exact (ih hm hx).mono (Nat.le_succ m)

/-- Every path leads out of a container, since it begins with a name. -/
theorem lookup? {path : String} (h : v.Bounded n) (hx : v.lookup? path = some x) :
    ∃ m, n = m + 1 ∧ x.Bounded m := by
  obtain ⟨steps, hsteps, hx⟩ := Option.bind_eq_some_iff.mp hx
  unfold Path.steps? at hsteps
  split at hsteps
  · obtain rfl := Option.some.inj hsteps
    obtain ⟨y, hy, hx⟩ := Option.bind_eq_some_iff.mp hx
    obtain ⟨m, rfl, hm⟩ := h.follow hy
    exact ⟨m, rfl, hm.walk hx⟩
  · cases hsteps

/-- Filled texts are no containers. -/
theorem interpolateJson (h : v.Bounded n) (root : Json) :
    (Template.interpolateJson root v).Bounded n := by
  have hitems (items : List Json) : Template.interpolateItems root items =
      items.map (Template.interpolateJson root) := by
    induction items with
    | nil => rfl
    | cons v rest ih => rw [Template.interpolateItems, ih, List.map_cons]
  have hfields (fs : Fields) : Template.interpolateFields root fs =
      fs.map fun f => (f.1, Template.interpolateJson root f.2) := by
    induction fs with
    | nil => rfl
    | cons f rest ih => rw [Template.interpolateFields, ih, List.map_cons]
  induction h with
  | null n => exact .null n
  | bool n b => exact .bool n b
  | int n hk => exact .int n hk
  | float n x => exact .float n x
  | str n s => exact .str n _
  | arr _ ih =>
    rw [Template.interpolateJson, hitems]
    exact .arr (List.forall_mem_map.mpr ih)
  | obj hs _ ih =>
    rw [Template.interpolateJson, hfields]
    exact .obj (List.pairwise_map.mpr hs) (List.forall_mem_map.mpr ih)

end Bounded

end Json

/-! ### Documents -/

namespace Document

variable {n : Nat} {v : Json}

theorem bounded_ofJson (h : v.Bounded n) : (ofJson v).Bounded n := by
  have hitems (items : List Json) : ofItems items = items.map ofJson := by
    induction items with
    | nil => rfl
    | cons v rest ih => rw [ofItems, ih, List.map_cons]
  have hfields (fs : Fields) : ofFields fs = fs.map fun f => (f.1, ofJson f.2) := by
    induction fs with
    | nil => rfl
    | cons f rest ih => rw [ofFields, ih, List.map_cons]
  induction h with
  | null n => exact .null n
  | bool n b => exact .bool n b
  | int n hk => exact .int n hk
  | float n x => exact .float n x
  | str n s => exact .str n s
  | arr _ ih =>
    rw [ofJson, hitems]
    exact .arr (List.forall_mem_map.mpr ih)
  | obj _ _ ih =>
    rw [ofJson, hfields]
    exact .obj (List.forall_mem_map.mpr ih)

namespace Bounded

variable {d : Document} {items : List Document} {members : List (String × Document)}

theorem itemsToJson? (hd : ∀ d ∈ items, ∀ v, d.toJson? = some v → v.Bounded n) {vs : List Json}
    (h : Document.itemsToJson? items = some vs) : ∀ v ∈ vs, v.Bounded n := by
  induction items generalizing vs with
  | nil =>
    obtain rfl := Option.some.inj h
    nofun
  | cons d rest ih =>
    rw [List.forall_mem_cons] at hd
    rw [Document.itemsToJson?] at h
    split at h
    · rename_i v vs hv hvs
      obtain rfl := Option.some.inj h
      exact List.forall_mem_cons.mpr ⟨hd.1 v hv, ih hd.2 hvs⟩
    · cases h

theorem membersToJson? (hd : ∀ m ∈ members, ∀ v, m.2.toJson? = some v → v.Bounded n) {fs : Fields}
    (h : Document.membersToJson? members = some fs) : ∀ f ∈ fs, f.2.Bounded n := by
  induction members generalizing fs with
  | nil =>
    obtain rfl := Option.some.inj h
    nofun
  | cons m rest ih =>
    obtain ⟨name, d⟩ := m
    rw [List.forall_mem_cons] at hd
    rw [Document.membersToJson?] at h
    split at h
    · rename_i v fs hv hfs
      obtain rfl := Option.some.inj h
      exact List.forall_mem_cons.mpr ⟨hd.1 v hv, ih hd.2 hfs⟩
    · cases h

/-- The value that a document stands for nests no deeper. -/
theorem toJson? (h : d.Bounded n) (hv : d.toJson? = some v) : v.Bounded n := by
  induction h generalizing v with
  | null n => obtain rfl := Option.some.inj hv; exact .null n
  | bool n b => obtain rfl := Option.some.inj hv; exact .bool n b
  | int n hk => obtain rfl := Option.some.inj hv; exact .int n hk
  | float n x => obtain rfl := Option.some.inj hv; exact .float n x
  | str n s => obtain rfl := Option.some.inj hv; exact .str n s
  | unreadable => cases hv
  | arr _ ih =>
    rw [Document.toJson?] at hv
    obtain ⟨vs, hvs, rfl⟩ := Option.map_eq_some_iff.mp hv
    exact .arr (itemsToJson? (fun d hd v hv => ih d hd hv) hvs)
  | obj _ ih =>
    rw [Document.toJson?] at hv
    obtain ⟨fs, hfs, rfl⟩ := Option.map_eq_some_iff.mp hv
    have hbounded := membersToJson? (fun m hm v hv => ih m hm hv) hfs
    exact .obj (Fields.sorted_ofList fs) fun f hf => hbounded f (Fields.mem_ofList hf)

end Bounded

/-! ### The reader -/

theorem bounded_number? {neg : Bool} {cs rest : List Char} {d : Document}
    (h : number? neg cs = some (d, rest)) (n : Nat) : d.Bounded n := by
  unfold number? at h
  obtain ⟨⟨whole, cs⟩, -, h⟩ := Option.bind_eq_some_iff.mp h
  obtain ⟨⟨fraction, cs⟩, -, h⟩ := Option.bind_eq_some_iff.mp h
  obtain ⟨⟨exponent, e, cs⟩, -, h⟩ := Option.bind_eq_some_iff.mp h
  cases h
  unfold ofNumber
  dsimp only
  split_ifs with hpos hneg
  · simp only [Bool.and_eq_true, decide_eq_true_eq] at hpos
    exact .int n ⟨by omega, by omega⟩
  · simp only [Bool.and_eq_true, decide_eq_true_eq] at hneg
    exact .int n ⟨by omega, by omega⟩
  · split
    · exact .float n _
    · exact .unreadable n

theorem bounded_ofMembers {members : List (Option String × Document)} {n : Nat}
    (h : ∀ m ∈ members, m.2.Bounded n) : (ofMembers members).Bounded (n + 1) := by
  have hnamed (members : List (Option String × Document)) (h : ∀ m ∈ members, m.2.Bounded n)
      (ms : List (String × Document))
      (hms : (members.mapM fun m => m.1.map (·, m.2)) = some ms) :
      ∀ m ∈ ms, m.2.Bounded n := by
    induction members generalizing ms with
    | nil =>
      obtain rfl := Option.some.inj hms
      rintro _ ⟨⟩
    | cons m rest ih =>
      rw [List.forall_mem_cons] at h
      rw [List.mapM_cons] at hms
      obtain ⟨x, hx, hms⟩ := Option.bind_eq_some_iff.mp hms
      obtain ⟨xs, hxs, hms⟩ := Option.bind_eq_some_iff.mp hms
      obtain ⟨name, -, rfl⟩ := Option.map_eq_some_iff.mp hx
      obtain rfl := Option.some.inj hms
      exact List.forall_mem_cons.mpr ⟨h.1, ih h.2 xs hxs⟩
  unfold ofMembers
  split
  · rename_i ms hms
    exact .obj (hnamed members h ms hms)
  · exact .unreadable _

/-- **What is read** of a text never nests deeper than there is room. -/
theorem bounded_value? (fuel : Nat) :
    (∀ room cs d rest, value? fuel room cs = some (d, rest) → d.Bounded room) ∧
    (∀ room cs ds rest, items? fuel room cs = some (ds, rest) → ∀ d ∈ ds, d.Bounded room) ∧
    ∀ room cs ms rest, members? fuel room cs = some (ms, rest) → ∀ m ∈ ms, m.2.Bounded room := by
  induction fuel with
  | zero => exact ⟨nofun, nofun, nofun⟩
  | succ fuel ih =>
    obtain ⟨hvalue, hitems, hmembers⟩ := ih
    refine ⟨fun room cs d rest h => ?_, fun room cs ds rest h => ?_, fun room cs ms rest h => ?_⟩
    · unfold value? at h
      split at h
      · cases h; exact .null room
      · cases h; exact .bool room _
      · cases h; exact .bool room _
      · obtain ⟨⟨s, cs⟩, -, h⟩ := Option.map_eq_some_iff.mp h
        cases h
        cases s with
        | none => exact .unreadable room
        | some s => exact .str room s
      · exact bounded_number? h room
      · obtain ⟨⟨items, cs⟩, hfound, h⟩ := Option.map_eq_some_iff.mp h
        cases h
        cases room with
        | zero => exact .unreadable 0
        | succ room =>
          rw [if_neg (Nat.succ_ne_zero room)]
          refine .arr ?_
          split at hfound
          · cases hfound
            rintro _ ⟨⟩
          · exact hitems _ _ _ _ hfound
      · obtain ⟨⟨members, cs⟩, hfound, h⟩ := Option.map_eq_some_iff.mp h
        cases h
        cases room with
        | zero => exact .unreadable 0
        | succ room =>
          rw [if_neg (Nat.succ_ne_zero room)]
          refine bounded_ofMembers ?_
          split at hfound
          · cases hfound
            rintro _ ⟨⟩
          · exact hmembers _ _ _ _ hfound
      · exact bounded_number? h room
    · unfold items? at h
      obtain ⟨⟨v, cs⟩, hv, h⟩ := Option.bind_eq_some_iff.mp h
      have hv := hvalue _ _ _ _ hv
      dsimp only at h
      split at h
      · cases h
        exact List.forall_mem_singleton.mpr hv
      · obtain ⟨⟨vs, cs⟩, hvs, h⟩ := Option.bind_eq_some_iff.mp h
        cases h
        exact List.forall_mem_cons.mpr ⟨hv, hitems _ _ _ _ hvs⟩
      · cases h
    · unfold members? at h
      split at h
      · obtain ⟨⟨name, cs⟩, -, h⟩ := Option.bind_eq_some_iff.mp h
        dsimp only at h
        split at h
        · obtain ⟨⟨v, cs⟩, hv, h⟩ := Option.bind_eq_some_iff.mp h
          have hv := hvalue _ _ _ _ hv
          dsimp only at h
          split at h
          · cases h
            exact List.forall_mem_singleton.mpr hv
          · obtain ⟨⟨ms, cs⟩, hms, h⟩ := Option.bind_eq_some_iff.mp h
            cases h
            exact List.forall_mem_cons.mpr ⟨hv, hmembers _ _ _ _ hms⟩
          · cases h
        · cases h
      · cases h

theorem bounded_of_read? {s : String} {d : Document} (h : read? s = some d) :
    d.Bounded maxDepth := by
  unfold read? at h
  dsimp only at h
  split at h
  · rename_i hv
    split_ifs at h
    obtain rfl := Option.some.inj h
    exact (bounded_value? _).1 _ _ _ _ hv
  · cases h

end Document

/-- **The value of a text** nests no deeper than the reader goes. -/
theorem Json.bounded_of_read? {s : String} {v : Json} (h : read? s = some v) :
    v.Bounded maxDepth := by
  obtain ⟨d, hd, hv⟩ := Option.bind_eq_some_iff.mp h
  exact (Document.bounded_of_read? hd).toJson? hv

end Dialogue
