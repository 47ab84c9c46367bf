import Dialogue.Proofs.Json.Numeral
import Dialogue.Proofs.Session.Transcript
import Dialogue.Proofs.Store.Flows

/-! # Rows that lose nothing

What is kept is read as it was. A count must fit its column; the numbers of a value must be ones
that a text can hold; and a text must not nest deeper than a reader goes. The days of a schedule
are a map, so they are read in the order of their names, however they were listed.

* `Graph.decode_toJson`, `Schedule.decode_toJson`: graphs and schedules are read off their values.
* `SessionRow.toSession_ofSession`, `FlowRow.toDefinition_storable`,
  `ScheduleRow.toSchedule_ofSchedule`: what is read off the row of a session, a flow, a schedule.
* `Row.lossless`: the three together. -/

namespace Dialogue

open Decode

/-! ### Values -/

theorem Decode.json_ofJson {v : Json} (h : v.Ordered) : json (.ofJson v) = .ok v := by
  unfold json
  rw [Document.toJson?_ofJson v h]

theorem Decode.fields_ofJson {fs : Fields} (h : (Json.obj fs).Ordered) :
    fields (.ofJson (.obj fs)) = .ok fs := by
  have hread := json_ofJson h
  rw [Document.ofJson] at hread ⊢
  rw [fields, hread]
  rfl

/-- A value other than null is read as itself where null stands for none. -/
theorem Decode.nullable_ofJson {v : Json} (hv : v ≠ .null) (h : v.Ordered) :
    nullable json (.ofJson v) = .ok (some v) := by
  have hread := congrArg (Except.map some) (json_ofJson h)
  unfold nullable
  split
  · cases v <;> first | exact absurd rfl hv | (rw [Document.ofJson] at *; contradiction)
  · exact hread

/-! ### Values by name -/

namespace Decode

variable {α : Type} {toJson : α → Json} {dec : Decoder α} {xs acc : List (String × α)}

theorem byName_put_perm {m : String × α} (h : ∀ a ∈ acc, a.1 ≠ m.1) :
    (byName.put acc m).Perm (m :: acc) := by
  induction acc with
  | nil => exact List.Perm.refl _
  | cons a rest ih =>
    have hne : m.1 ≠ a.1 := fun e => h a List.mem_cons_self e.symm
    rw [byName.put]
    by_cases hlt : m.1 < a.1
    · rw [if_pos hlt]
    · rw [if_neg hlt, if_neg hne]
      have hrest := ih fun b hb => h b (List.mem_cons_of_mem _ hb)
      exact (hrest.cons a).trans (.swap m a rest)

/-- Values under different names are all kept. -/
theorem byName_foldl_perm (h : ((acc ++ xs).map (·.1)).Nodup) :
    (xs.foldl byName.put acc).Perm (acc ++ xs) := by
  induction xs generalizing acc with
  | nil => simp
  | cons x rest ih =>
    rw [List.map_append, List.map_cons, List.nodup_append] at h
    obtain ⟨hacc, hrest, hne⟩ := h
    have hput : (byName.put acc x).Perm (x :: acc) := byName_put_perm fun a ha =>
      hne a.1 (List.mem_map_of_mem ha) x.1 List.mem_cons_self
    have hperm : (byName.put acc x ++ rest).Perm (acc ++ x :: rest) :=
      (hput.append_right rest).trans List.perm_middle.symm
    have hnodup : ((byName.put acc x ++ rest).map (·.1)).Nodup := by
      rw [(hperm.map (·.1)).nodup_iff, List.map_append, List.map_cons, List.nodup_append]
      exact ⟨hacc, hrest, hne⟩
    exact (ih hnodup).trans hperm

/-- Values under different names are read as they were, in an order of the reader's. -/
theorem exists_byName (h : ∀ x ∈ xs, dec (.ofJson (toJson x.2)) = .ok x.2)
    (hnames : (xs.map (·.1)).Nodup) :
    ∃ ys, byName dec (.ofJson (.obj (xs.map fun x => (x.1, toJson x.2)))) = .ok ys ∧
      ys.Perm xs := by
  have hread : (Document.ofFields (xs.map fun x => (x.1, toJson x.2))).mapM
      (fun m => do return (m.1, ← dec m.2)) = (.ok xs : Except Error _) := by
    clear hnames
    induction xs with
    | nil => rfl
    | cons x rest ih =>
      rw [List.map_cons, Document.ofFields, List.mapM_cons, h x List.mem_cons_self,
        ih fun y hy => h y (List.mem_cons_of_mem _ hy)]
      rfl
  refine ⟨xs.foldl byName.put [], ?_, byName_foldl_perm hnames⟩
  rw [Document.ofJson, byName]
  exact (congrArg (· >>= _) hread).trans rfl

end Decode

/-! ### Graphs -/

namespace Graph

/-- What a graph must be to be read back: the authored data are values whose numbers a text can
hold, no place is given as null, and not too many containers are open at once. -/
structure Storable (g : Graph) : Prop where
  ordered : ∀ n ∈ g.nodes, n.data.Ordered ∧ ∀ p ∈ n.position, p.Ordered
  present : ∀ n ∈ g.nodes, n.position ≠ some .null
  legible : g.toJson.Legible
  shallow : g.toJson.depth ≤ 127

theorem Node.decode_toJson {n : Node} (hdata : n.data.Ordered) (hpos : ∀ p ∈ n.position, p.Ordered)
    (hnull : n.position ≠ some .null) : decode (.ofJson n.toJson) = .ok n := by
  obtain ⟨id, type, data, position⟩ := n
  have hread := json_ofJson hdata
  cases position with
  | none =>
    simp [toJson, Document.ofJson, Document.ofFields, decode, record, fromMembers, Functor.map,
      Seq.seq, Shape.map, Shape.apply, Shape.both, Shape.required, Shape.maybe, Shape.defaulted,
      Shape.field, Shape.inMembers, Shape.find, Decode.string, Except.map, Placed.both,
      Except.mapError, hread]
  | some p =>
    have hplace := nullable_ofJson (fun e => hnull (congrArg some e)) (hpos p rfl)
    simp [toJson, Document.ofJson, Document.ofFields, decode, record, fromMembers, Functor.map,
      Seq.seq, Shape.map, Shape.apply, Shape.both, Shape.required, Shape.maybe, Shape.defaulted,
      Shape.field, Shape.inMembers, Shape.find, Decode.string, Except.map, Placed.both,
      Except.mapError, hread, hplace]

theorem Edge.decode_toJson (e : Edge) : decode (.ofJson e.toJson) = .ok e := by
  obtain ⟨id, source, target, handle⟩ := e
  cases handle <;> rfl

/-- A graph is read off its value. -/
theorem decode_toJson {g : Graph}
    (hdata : ∀ n ∈ g.nodes, n.data.Ordered ∧ ∀ p ∈ n.position, p.Ordered)
    (hnull : ∀ n ∈ g.nodes, n.position ≠ some .null) : decode (.ofJson g.toJson) = .ok g := by
  obtain ⟨nodes, edges⟩ := g
  have hnodes : list Node.decode (.arr (Document.ofItems (nodes.map Node.toJson))) = .ok nodes :=
    list_ofItems fun n hn => Node.decode_toJson (hdata n hn).1 (hdata n hn).2 (hnull n hn)
  have hedges : list Edge.decode (.arr (Document.ofItems (edges.map Edge.toJson))) = .ok edges :=
    list_ofItems fun e _ => e.decode_toJson
  simp [toJson, Document.ofJson, Document.ofFields, decode, record, fromMembers, Functor.map,
    Seq.seq, Shape.map, Shape.apply, Shape.both, Shape.defaulted, Shape.field, Shape.inMembers,
    Shape.find, Except.map, Placed.both, Except.mapError, hnodes, hedges]

theorem Storable.readsBack {g : Graph} (h : g.Storable) : g.ReadsBack :=
  Graph.readsBack h.legible h.shallow (decode_toJson h.ordered h.present)

end Graph

/-! ### Schedules -/

namespace Schedule

/-- What a schedule is beside its texts: the offset is a number of 32 bits, and no day is named
twice. -/
structure Storable (s : Schedule) : Prop where
  offset : ∀ n ∈ s.offset, -0x80000000 ≤ n ∧ n ≤ 0x7fffffff
  days : (s.days.map (·.1)).Nodup

theorem DayWindow.decode_toJson (w : DayWindow) : DayWindow.decode (.ofJson w.toJson) = .ok w := rfl

theorem Storable.legible {s : Schedule} (h : s.Storable) : s.toJson.Legible := by
  obtain ⟨id, name, offset, days⟩ := s
  have hdays : Json.LegibleFields (days.map fun d => (d.1, d.2.toJson)) := by
    clear h
    induction days with
    | nil => rw [List.map_nil, Json.LegibleFields]; exact trivial
    | cons d rest ih =>
      rw [List.map_cons, Json.LegibleFields]
      exact ⟨by simp only [DayWindow.toJson, Json.Legible, Json.LegibleFields, and_self], ih⟩
  rw [toJson]
  cases offset with
  | none => simp [Json.Legible, Json.LegibleFields, hdays]
  | some n =>
    have hn := h.offset n rfl
    have hfits : Document.Fits64 n := ⟨by omega, by omega⟩
    simp [Json.Legible, Json.LegibleFields, hdays, hfits]

theorem depth_toJson_le (s : Schedule) : s.toJson.depth ≤ 3 := by
  have hdays : Json.depthFields (s.days.map fun d => (d.1, d.2.toJson)) ≤ 1 := by
    induction s.days with
    | nil => rw [List.map_nil, Json.depthFields]; omega
    | cons d rest ih =>
      rw [List.map_cons, Json.depthFields]
      have hd : d.2.toJson.depth = 1 := by simp [DayWindow.toJson, Json.depth, Json.depthFields]
      omega
  rw [toJson]
  cases s.offset <;> simp only [Json.depth, Json.depthFields, Option.elim] <;> omega

/-- A schedule is read off its value, its days in an order of the reader's. -/
theorem exists_decode_toJson {s : Schedule} (h : s.Storable) :
    ∃ days, decode (.ofJson s.toJson) = .ok { s with days } ∧ days.Perm s.days := by
  obtain ⟨id, name, offset, days⟩ := s
  have hwindow : ∀ d ∈ days, DayWindow.decode (.ofJson d.2.toJson) = .ok d.2 :=
    fun d _ => DayWindow.decode_toJson d.2
  obtain ⟨days', hread, hperm⟩ := exists_byName hwindow h.days
  refine ⟨days', ?_, hperm⟩
  rw [Document.ofJson] at hread
  have hdays : decodeDays (.obj (Document.ofFields (days.map fun d => (d.1, d.2.toJson)))) =
      .ok days' := hread
  cases offset with
  | none =>
    simp [toJson, Document.ofJson, Document.ofFields, decode, record, fromMembers, Functor.map,
      Seq.seq, Shape.map, Shape.apply, Shape.both, Shape.maybe, Shape.defaulted, Shape.field,
      Shape.inMembers, Shape.find, Decode.string, nullable, Except.map, Placed.both,
      Except.mapError, hdays]
  | some n =>
    have hn := h.offset n rfl
    have hoffset : nullable int32 (.int n) = .ok (some n) :=
      congrArg (Except.map some) (if_pos hn)
    simp [toJson, Document.ofJson, Document.ofFields, decode, record, fromMembers, Functor.map,
      Seq.seq, Shape.map, Shape.apply, Shape.both, Shape.maybe, Shape.defaulted, Shape.field,
      Shape.inMembers, Shape.find, Decode.string, Except.map, Placed.both,
      Except.mapError, hdays, hoffset]

end Schedule

/-- **The row of a schedule** is read as that schedule. -/
theorem ScheduleRow.toSchedule_ofSchedule {s : Schedule} (h : s.Storable) (now : Millis) :
    ∃ days, (ofSchedule s now).toSchedule = .ok { s with days } ∧ days.Perm s.days := by
  obtain ⟨days, hread, hperm⟩ := Schedule.exists_decode_toJson h
  refine ⟨days, ?_, hperm⟩
  have htext : ofText .convert Schedule.decode s.toJson.text = .ok { s with days } :=
    ofText_text h.legible (Nat.le_trans s.depth_toJson_le (by decide)) hread
  unfold toSchedule ofSchedule
  dsimp only
  rw [htext]
  rfl

/-! ### Flows -/

/-- What a flow must be to be read back: the version fits its column, and the graphs do. -/
structure Definition.Storable (d : Definition) : Prop where
  version : d.version ≤ 0x7fffffffffffffff
  draft : d.draft.Storable
  published : ∀ g ∈ d.published, g.Storable

/-- **The row of a flow** is read as that flow. -/
theorem FlowRow.toDefinition_storable {d : Definition} (h : d.Storable) :
    (ofDefinition d).toDefinition = .ok d := by
  have hback : d.ReadsBack := ⟨h.draft.readsBack, fun g hg => (h.published g hg).readsBack⟩
  have hversion := h.version
  rw [toDefinition_ofDefinition hback, toSigned64_eq (by omega), ofSigned64_natCast]

/-! ### Sessions -/

/-- What a session must be to be read back: the version and the times fit their columns, the
variables are values whose numbers a text can hold, and not too many containers are open at once,
the variables themselves being one. -/
structure Session.Storable (s : Session) : Prop where
  version : s.flowVersion ≤ 0x7fffffffffffffff
  times : ∀ m ∈ s.messages, FitsColumn m.timestamp
  ordered : (Json.obj s.vars).Ordered
  legible : (Json.obj s.vars).Legible
  shallow : (Json.obj s.vars).depth ≤ 127

/-- **The row of a session** is read as that session. -/
theorem SessionRow.toSession_ofSession {s : Session} (h : s.Storable) :
    (ofSession s).toSession = .ok s := by
  have hvars : ofText .convert fields (Json.obj s.vars).text = .ok s.vars :=
    ofText_text h.legible h.shallow (fields_ofJson h.ordered)
  have hmessages := Message.ofText_toJson h.times
  have hversion := h.version
  have hhalt : (s.halt.map fun x => x.toJson.text).mapM (ofText .convert Halt.decode) =
      .ok s.halt := by
    cases s.halt with
    | none => rfl
    | some x =>
      rw [Option.map_some, Option.mapM_some, x.ofText_toJson]
      rfl
  have hcount : ofSigned64 (toSigned64 s.flowVersion) = s.flowVersion := by
    rw [toSigned64_eq (by omega), ofSigned64_natCast]
  simp only [toSession, status?_ofSession]
  simp only [ofSession, hvars, hmessages, hhalt, hcount]
  rfl

/-- A session whose variables nest deeper is not read off its row. -/
theorem SessionRow.toSession_of_deep {s : Session} (hl : (Json.obj s.vars).Legible)
    (hd : 127 < (Json.obj s.vars).depth) :
    (ofSession s).toSession = .error (.illegible .convert) := by
  have hread := Document.read?_text_within hl
  have hnone : (Document.within Document.maxDepth (.obj s.vars)).toJson? = none :=
    Document.toJson?_within hd
  rw [Document.within, if_neg (by decide)] at hread hnone
  have hvars : ofText .convert fields (Json.obj s.vars).text = .error (.illegible .convert) := by
    unfold ofText
    rw [hread]
    simp only [fields, json, hnone]
    rfl
  simp only [toSession, status?_ofSession]
  simp only [ofSession, hvars]
  rfl

/-! ### All rows -/

/-- **Rows lose nothing.** A session, a flow and a schedule whose counts fit their columns, whose
numbers a text can hold and whose texts nest 127 containers at most are read off their rows as they
were, whatever else they say; of a schedule the days may be listed in another order. -/
theorem Row.lossless {s : Session} {d : Definition} {c : Schedule} (hs : s.Storable)
    (hd : d.Storable) (hc : c.Storable) (now : Millis) :
    (SessionRow.ofSession s).toSession = .ok s ∧
      (FlowRow.ofDefinition d).toDefinition = .ok d ∧
      ∃ days, (ScheduleRow.ofSchedule c now).toSchedule = .ok { c with days } ∧
        days.Perm c.days :=
  ⟨SessionRow.toSession_ofSession hs, FlowRow.toDefinition_storable hd,
    ScheduleRow.toSchedule_ofSchedule hc now⟩

/-- Null inside so many lists. -/
def Json.nested : Nat → Json
  | 0 => .null
  | n + 1 => .arr [nested n]

namespace Json

theorem depth_nested (n : Nat) : (nested n).depth = n := by
  induction n with
  | zero => simp [nested, depth]
  | succ n ih => simp [nested, depth, depthItems, ih]

theorem ordered_nested (n : Nat) : (nested n).Ordered := by
  induction n with
  | zero => simp [nested, Ordered]
  | succ n ih => simp [nested, Ordered, OrderedItems, ih]

theorem legible_nested (n : Nat) : (nested n).Legible := by
  induction n with
  | zero => simp [nested, Legible]
  | succ n ih => simp [nested, Legible, LegibleItems, ih]

theorem readsBack_half : ReadsBack 0.5 := readsBack_iff.mpr rfl

end Json

/-- A session with values at the edges of what a row can hold. -/
def Session.brimful : Session where
  id := "s\x00é\n"
  flowId := "f\"@1"
  flowVersion := 0x7fffffffffffffff
  status := .waiting
  vars := [("", .int (-0x8000000000000000)), ("deep", .nested 126), ("half", .float 0.5),
    ("most", .int 0xffffffffffffffff), ("ünïcode \\", .obj [("\t", .str "\x1f\x7f 😀")])]
  messages := [⟨"m1", .user, "", none, -0x8000000000000000⟩, ⟨"m2", .bot, "\x07", some [], 0⟩,
    ⟨"m3", .system, "ok", some [⟨"b", "\r\n"⟩], 0x7fffffffffffffff⟩]
  currentNode := none
  pendingNode := some ""
  queue := some "q"
  agentId := none
  halt := some ⟨"n", .stepBudget, "é\x0c", true⟩
  createTime := 0
  updateTime := -1

/-- A flow with values at the edges of what a row can hold. -/
def Definition.brimful : Definition where
  id := "f"
  name := "\u2028"
  draft := ⟨[⟨"start", "start", .nested 124, none⟩, ⟨"n", "message", .null, some (.int 0)⟩],
    [⟨"e", "start", "n", some ""⟩, ⟨"e", "n", "nowhere", none⟩]⟩
  published := some ⟨[], []⟩
  version := 0x7fffffffffffffff
  createTime := 0
  updateTime := 0

/-- A schedule with values at the edges of what a row can hold. -/
def Schedule.brimful : Schedule where
  id := "w"
  name := ""
  offset := some (-0x80000000)
  days := [("seg", ⟨true, "09:00", "18:00"⟩), ("Mon", ⟨false, "", "\x00"⟩)]

theorem Session.storable_brimful : brimful.Storable where
  version := by decide
  times := by simp [brimful, FitsColumn]
  ordered := by
    have hsorted : Fields.Sorted brimful.vars := by
      unfold Fields.Sorted
      decide +kernel
    refine ⟨hsorted, ?_⟩
    simp [brimful, Json.Ordered, Json.OrderedFields, Fields.Sorted, Json.ordered_nested]
  legible := by
    simp [brimful, Json.Legible, Json.LegibleFields, Json.legible_nested, Json.readsBack_half,
      Document.Fits64]
  shallow := by simp [brimful, Json.depth, Json.depthFields, Json.depth_nested]

theorem Definition.storable_brimful : brimful.Storable where
  version := by decide
  draft := {
    ordered := by simp [brimful, Json.Ordered, Json.ordered_nested]
    present := by simp [brimful]
    legible := by
      simp [brimful, Graph.toJson, Graph.Node.toJson, Graph.Edge.toJson, Json.Legible,
        Json.LegibleFields, Json.LegibleItems, Json.legible_nested, Document.Fits64]
    shallow := by
      simp [brimful, Graph.toJson, Graph.Node.toJson, Graph.Edge.toJson, Json.depth,
        Json.depthFields, Json.depthItems, Json.depth_nested] }
  published := by
    rintro g hg
    obtain rfl : Graph.mk [] [] = g := Option.some.inj hg
    exact ⟨by simp, by simp, by simp [Graph.toJson, Json.Legible, Json.LegibleFields,
      Json.LegibleItems], by decide⟩

theorem Schedule.storable_brimful : brimful.Storable where
  offset := by decide
  days := by decide

theorem Row.lossless_brimful :
    Session.brimful.Storable ∧ Definition.brimful.Storable ∧ Schedule.brimful.Storable ∧
      (SessionRow.ofSession .brimful).toSession = .ok .brimful ∧
      (FlowRow.ofDefinition .brimful).toDefinition = .ok .brimful ∧
      ∃ days, (ScheduleRow.ofSchedule .brimful 7).toSchedule = .ok { Schedule.brimful with days } ∧
        days.Perm Schedule.brimful.days :=
  ⟨Session.storable_brimful, Definition.storable_brimful, Schedule.storable_brimful,
    lossless Session.storable_brimful Definition.storable_brimful Schedule.storable_brimful 7⟩

end Dialogue
