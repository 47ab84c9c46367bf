import Dialogue.Proofs.Json.Delta
import Dialogue.Proofs.Store.Rows

/-! # Stored transcripts

A transcript whose times fit their column is read off a row as it was kept, whatever else is in the
row. The variables that are read off a row are in order.

* `Message.ofText_toJson`: the text of a transcript is read as that transcript.
* `SessionRow.messages_of_toSession`: so a session has the transcript with which it was kept. -/

namespace Dialogue

open Decode

/-- The number fits a column of whole numbers. -/
def FitsColumn (n : Int) : Prop := -0x8000000000000000 ≤ n ∧ n ≤ 0x7fffffffffffffff

theorem FitsColumn.fits64 {n : Int} (h : FitsColumn n) : Document.Fits64 n :=
  ⟨h.1, Int.lt_of_le_of_lt h.2 (by decide)⟩

theorem Decode.int64_int {n : Int} (h : FitsColumn n) : int64 (.int n) = .ok n := if_pos h

/-! ### Lists -/

section
variable {α : Type} {toJson : α → Json} {dec : Decoder α} {xs : List α}

theorem Decode.list_ofItems (h : ∀ x ∈ xs, dec (.ofJson (toJson x)) = .ok x) :
    list dec (.arr (Document.ofItems (xs.map toJson))) = .ok xs := by
  show (Document.ofItems (xs.map toJson)).mapM dec = .ok xs
  induction xs with
  | nil => rfl
  | cons x rest ih =>
    rw [List.map_cons, Document.ofItems, List.mapM_cons, h x List.mem_cons_self,
      ih fun y hy => h y (List.mem_cons_of_mem _ hy)]
    rfl

theorem Json.legibleItems_map (h : ∀ x ∈ xs, (toJson x).Legible) :
    LegibleItems (xs.map toJson) := by
  induction xs with
  | nil => rw [List.map_nil, LegibleItems]; exact trivial
  | cons x rest ih =>
    rw [List.map_cons, LegibleItems]
    exact ⟨h x List.mem_cons_self, ih fun y hy => h y (List.mem_cons_of_mem _ hy)⟩

theorem Json.depthItems_map_le {d : Nat} (h : ∀ x ∈ xs, (toJson x).depth ≤ d) :
    depthItems (xs.map toJson) ≤ d := by
  induction xs with
  | nil => rw [List.map_nil, depthItems]; exact Nat.zero_le d
  | cons x rest ih =>
    rw [List.map_cons, depthItems]
    exact Nat.max_le.mpr
      ⟨h x List.mem_cons_self, ih fun y hy => h y (List.mem_cons_of_mem _ hy)⟩

end

/-! ### Messages -/

theorem Button.legible_toJson (b : Button) : b.toJson.Legible := by
  simp only [toJson, Json.Legible, Json.LegibleFields, and_self]

theorem Button.depth_toJson (b : Button) : b.toJson.depth = 1 := by
  simp [toJson, Json.depth, Json.depthFields]

theorem Button.decode_toJson (b : Button) : decode (.ofJson b.toJson) = .ok b := rfl

theorem Sender.decode_name (s : Sender) : decode (.str s.name) = .ok s := by
  cases s <;> rfl

namespace Message

variable {m : Message} {ms : List Message}

theorem legible_toJson (h : FitsColumn m.timestamp) : m.toJson.Legible := by
  have htime := h.fits64
  have hbuttons (bs : List Button) : Json.LegibleItems (bs.map Button.toJson) :=
    Json.legibleItems_map fun b _ => b.legible_toJson
  rw [toJson]
  cases m.buttons <;>
    simp [Json.Legible, Json.LegibleFields, htime, hbuttons]

theorem depth_toJson_le (m : Message) : m.toJson.depth ≤ 3 := by
  have hbuttons (bs : List Button) : Json.depthItems (bs.map Button.toJson) ≤ 1 :=
    Json.depthItems_map_le fun b _ => Nat.le_of_eq b.depth_toJson
  rw [toJson]
  cases m.buttons with
  | none => simp [Json.depth, Json.depthFields]
  | some bs =>
    have hdepth := hbuttons bs
    simp only [Option.toList_some, List.map_cons, List.map_nil, List.cons_append, List.nil_append,
      Json.depth, Json.depthFields]
    omega

theorem decode_toJson (h : FitsColumn m.timestamp) : decode (.ofJson m.toJson) = .ok m := by
  obtain ⟨id, sender, text, buttons, timestamp⟩ := m
  have htime := int64_int h
  have hsender := sender.decode_name
  have hbuttons (bs : List Button) :
      nullable (list Button.decode) (.arr (Document.ofItems (bs.map Button.toJson))) =
        .ok (some bs) :=
    congrArg (Except.map some) (list_ofItems fun b _ => b.decode_toJson)
  cases buttons <;>
    simp [toJson, Document.ofJson, Document.ofFields, decode, record, fromMembers, Functor.map,
      Seq.seq, Shape.map, Shape.apply, Shape.both, Shape.required, Shape.maybe, Shape.defaulted,
      Shape.field, Shape.inMembers, Shape.find, Decode.string, Except.map, Placed.both,
      Except.mapError, htime, hsender, hbuttons]

/-- **Transcripts read back.** -/
theorem ofText_toJson (h : ∀ m ∈ ms, FitsColumn m.timestamp) :
    ofText .convert (list decode) (Json.arr (ms.map toJson)).text = .ok ms := by
  have hlegible : (Json.arr (ms.map toJson)).Legible := by
    rw [Json.Legible]
    exact Json.legibleItems_map fun m hm => legible_toJson (h m hm)
  have hdepth : (Json.arr (ms.map toJson)).depth ≤ Document.maxDepth := by
    rw [Json.depth]
    have hitems : Json.depthItems (ms.map toJson) ≤ _ :=
      Json.depthItems_map_le fun m _ => m.depth_toJson_le
    exact Nat.le_trans (Nat.succ_le_succ hitems) (by decide)
  refine ofText_text hlegible hdepth ?_
  rw [Document.ofJson, list_ofItems fun m hm => decode_toJson (h m hm)]

end Message

/-! ### Rows -/

namespace SessionRow

/-- The transcript in a row. -/
def transcript (r : SessionRow) : Outcome (List Message) :=
  ofText .convert (list Message.decode) r.messages

variable {r : SessionRow} {s y : Session}

theorem texts_of_toSession (h : r.toSession = .ok s) :
    ofText .convert fields r.vars = .ok s.vars ∧
      ofText .convert (list Message.decode) r.messages = .ok s.messages := by
  unfold toSession at h
  cases h1 : r.status? with
  | error e => rw [h1] at h; cases h
  | ok status =>
  cases h2 : ofText .convert fields r.vars with
  | error e => rw [h1, h2] at h; cases h
  | ok vars =>
  cases h3 : ofText .convert (list Message.decode) r.messages with
  | error e => rw [h1, h2, h3] at h; cases h
  | ok messages =>
  cases h4 : r.halt.mapM (ofText .convert Halt.decode) with
  | error e => rw [h1, h2, h3, h4] at h; cases h
  | ok halt =>
  rw [h1, h2, h3, h4] at h
  cases h
  exact ⟨rfl, rfl⟩

/-- The transcript is read as it was kept. -/
theorem messages_of_toSession (h : (ofSession y).toSession = .ok s)
    (hy : ∀ m ∈ y.messages, FitsColumn m.timestamp) : s.messages = y.messages :=
  Except.ok.inj ((texts_of_toSession h).2.symm.trans (Message.ofText_toJson hy))

theorem sorted_of_toSession (h : r.toSession = .ok s) : s.vars.Sorted := by
  have hread := (texts_of_toSession h).1
  unfold ofText at hread
  cases hd : Document.read? r.vars with
  | none => rw [hd] at hread; cases hread
  | some d =>
    rw [hd] at hread
    cases hf : fields d with
    | error e => simp only [hf] at hread; cases hread
    | ok fs =>
      simp only [hf] at hread
      cases hread
      exact sorted_fields hf

end SessionRow

end Dialogue
