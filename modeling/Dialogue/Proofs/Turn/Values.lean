import Dialogue.Proofs.Flow.Values
import Dialogue.Proofs.Session.Transcript
import Dialogue.Proofs.Store.Lossless
import Dialogue.Proofs.Turn.Revises

/-! # Values that a turn gives to variables

The text of the variables is one object, so a value in it has one container less to itself than the
reader goes into. What is set, entered or clicked, what a script leaves, and what a path finds in an
answer stood inside of another container already. Only the whole answer of a peer may nest as deep
as the reader goes.

* `Script.bounded_of_run`: what a script leaves.
* `Http.Call.within_store`: what is kept of an answer.
* `Action.Revises.within`: what a node makes of the variables.
* `SessionRow.kempt_of_toSession`: the sessions that are read off rows. -/

namespace Dialogue

open Decode

/-! ### Variables -/

/-- The names are in order, and each value nests less deep than the reader goes, but for those that
may be whole answers. -/
structure Variables.Within (whole : String → Prop) (vars : Variables) : Prop where
  sorted : Fields.Sorted vars
  values : ∀ m ∈ vars, m.2.Bounded 126 ∨ (m.2.Bounded 127 ∧ whole m.1)

namespace Variables.Within

variable {whole whole' : String → Prop} {vars delta : Variables}

theorem mono (h : vars.Within whole) (hw : ∀ name, whole name → whole' name) :
    vars.Within whole' where
  sorted := h.sorted
  values m hm := (h.values m hm).imp_right fun h => ⟨h.1, hw _ h.2⟩

theorem set (h : vars.Within whole) {name : String} {v : Json}
    (hv : v.Bounded 126 ∨ (v.Bounded 127 ∧ whole name)) : (vars.set name v).Within whole where
  sorted := Fields.sorted_insert h.sorted name v
  values m hm := by
    rcases Fields.mem_insert hm with rfl | hm
    · exact hv
    · exact h.values m hm

theorem merge (h : vars.Within whole) (hd : ∀ m ∈ delta, m.2.Bounded 126) :
    Variables.Within whole (Fields.merge vars delta) where
  sorted := Fields.sorted_merge h.sorted delta
  values m hm := by
    rcases Fields.mem_merge hm with hm | hm
    · exact h.values m hm
    · exact .inl (hd m hm)

/-- The variables as one value. -/
theorem bounded (h : vars.Within whole) : (Json.obj vars).Bounded 128 := by
  refine .obj h.sorted fun m hm => ?_
  rcases h.values m hm with hv | hv
  · exact hv.mono (by decide)
  · exact hv.1

end Variables.Within

/-! ### Scripts -/

namespace Script

variable {objects : Objects} {v : Json}

theorem bounded_numberJson (x : Float) : (numberJson x).Bounded 127 := by
  unfold numberJson
  split
  · exact .null 127
  · cases h : Json.read? (numberText x) with
    | none => exact .null 127
    | some v => exact Json.bounded_of_read? h

theorem bounded_getD {n : Nat} {o : Option Json} (h : ∀ v, o = some v → v.Bounded n) :
    (o.getD .null).Bounded n := by
  cases o with
  | none => exact .null n
  | some v => exact h v rfl

section
variable {fuel n : Nat} {around : List Nat}
  (ih : ∀ around a o, store objects fuel around a = .ok o → ∀ v, o = some v → v.Bounded n)
include ih

theorem bounded_storeItems {vs : List Value} {items : List Json}
    (h : storeItems objects fuel around vs = .ok items) : ∀ v ∈ items, v.Bounded n := by
  induction vs generalizing items with
  | nil =>
    rw [storeItems] at h
    cases h
    rintro _ ⟨⟩
  | cons a rest ihr =>
    rw [storeItems] at h
    obtain ⟨o, ho, h⟩ := bind_eq_ok.mp h
    obtain ⟨more, hmore, h⟩ := bind_eq_ok.mp h
    cases h
    exact List.forall_mem_cons.mpr ⟨bounded_getD (ih around a o ho), ihr hmore⟩

theorem bounded_storeMembers {ms : List (String × Value)} {fs : Fields}
    (h : storeMembers objects fuel around ms = .ok fs) : ∀ f ∈ fs, f.2.Bounded n := by
  induction ms generalizing fs with
  | nil =>
    rw [storeMembers] at h
    cases h
    rintro _ ⟨⟩
  | cons m rest ihr =>
    obtain ⟨name, a⟩ := m
    rw [storeMembers] at h
    obtain ⟨o, ho, h⟩ := bind_eq_ok.mp h
    obtain ⟨more, hmore, h⟩ := bind_eq_ok.mp h
    cases h
    refine List.forall_mem_append.mpr ⟨fun f hf => ?_, ihr hmore⟩
    obtain ⟨v, hv, rfl⟩ : ∃ v, o = some v ∧ (name, v) = f := by simpa using hf
    exact ih around a o ho v hv

end

/-- A value that is no object. -/
theorem bounded_store_plain {fuel : Nat} {around : List Nat} {a : Value} (ha : ∀ i, a ≠ .ref i)
    (h : store objects fuel around a = .ok (some v)) : v.Bounded 127 := by
  cases a with
  | undefined => rw [store] at h; cases h
  | null => rw [store] at h; cases h; exact .null 127
  | bool b => rw [store] at h; cases h; exact .bool 127 b
  | number x => rw [store] at h; cases h; exact bounded_numberJson x
  | text s => rw [store] at h; cases h; exact .str 127 s
  | ref i => exact absurd rfl (ha i)

/-- Every object is one more container, and there is fuel for each. -/
theorem bounded_store (fuel : Nat) (around : List Nat) (a : Value) (o : Option Json)
    (h : store objects fuel around a = .ok o) : ∀ v, o = some v → v.Bounded (fuel + 127) := by
  induction fuel generalizing around a o with
  | zero =>
    rintro v rfl
    refine (bounded_store_plain (fun i hi => ?_) h).mono (by omega)
    rw [hi, store] at h
    cases h
  | succ fuel ih =>
    rintro v rfl
    have hn : fuel + 1 + 127 = fuel + 127 + 1 := by omega
    cases a with
    | ref i =>
      have hrecord {ms : List (String × Value)}
          (h : (storeMembers objects fuel (i :: around) ms).map
            (fun fs => some (.obj (Fields.ofList fs))) = .ok (some v)) :
          v.Bounded (fuel + 1 + 127) := by
        cases hfs : storeMembers objects fuel (i :: around) ms with
        | error e => rw [hfs] at h; cases h
        | ok fs =>
          rw [hfs] at h
          cases h
          have hbounded := bounded_storeMembers ih hfs
          rw [hn]
          exact .obj (Fields.sorted_ofList fs) fun f hf => hbounded f (Fields.mem_ofList hf)
      rw [store] at h
      split at h
      · cases h
      · dsimp only at h
        split at h
        · cases hvs : storeItems objects fuel (i :: around) (objects.getD i default).items with
          | error e => rw [hvs] at h; cases h
          | ok vs =>
            rw [hvs] at h
            cases h
            rw [hn]
            exact .arr (bounded_storeItems ih hvs)
        · exact hrecord h
        · exact hrecord h
    | _ => exact (bounded_store_plain (fun i hi => by cases hi) h).mono (by omega)

theorem exists_bounded_output {body : String} {vars : Variables} (h : output body vars = .ok v) :
    ∃ n, v.Bounded n := by
  unfold output at h
  obtain ⟨statements, -, h⟩ := bind_eq_ok.mp h
  dsimp only at h
  obtain ⟨⟨returned, m⟩, -, h⟩ := bind_eq_ok.mp h
  obtain ⟨after, hafter, h⟩ := bind_eq_ok.mp h
  obtain ⟨result, hresult, h⟩ := bind_eq_ok.mp h
  cases h
  have ha := bounded_getD (bounded_store _ _ _ _ hafter)
  have hr := bounded_getD (bounded_store _ _ _ _ hresult)
  refine ⟨m.objects.size + 1 + 127 + 1, .obj (Fields.sorted_ofList _) fun f hf => ?_⟩
  have hmem := Fields.mem_ofList hf
  simp only [List.mem_cons, List.not_mem_nil, or_false] at hmem
  rcases hmem with rfl | rfl
  · exact ha
  · exact hr

theorem bounded_of_mem_fields {n : Nat} (h : v.Bounded (n + 1)) :
    ∀ m ∈ v.fields, m.2.Bounded n := by
  cases h with
  | obj _ h => exact h
  | _ => nofun

/-- **What a script leaves** was inside of two other containers of a text. -/
theorem bounded_of_run {body : String} {vars delta : Variables}
    (h : run body vars = .ok delta) : ∀ m ∈ delta, m.2.Bounded 125 := by
  unfold run at h
  cases ho : output body vars with
  | error e => rw [ho] at h; cases h
  | ok v =>
    rw [ho] at h
    dsimp only at h
    split at h
    · cases h
    · rename_i hdepth
      cases h
      obtain ⟨n, hn⟩ := exists_bounded_output ho
      have hv : v.Bounded 127 := hn.of_depth (Nat.not_lt.mp hdepth)
      have hmember (name : String) :
          ∀ m ∈ ((v.member? name).getD .null).fields, m.2.Bounded 125 := by
        refine bounded_of_mem_fields (bounded_getD fun x hx => ?_)
        obtain ⟨f, hf, rfl⟩ := Option.map_eq_some_iff.mp hx
        exact bounded_of_mem_fields hv f (List.mem_of_find?_eq_some hf)
      intro m hm
      rcases Fields.mem_merge hm with hm | hm
      · exact hmember "vars" m (List.mem_filter.mp hm).1
      · exact hmember "result" m hm

end Script

/-! ### Answers of peers -/

namespace Http.Call

/-- The call keeps the whole answer under the name. -/
def KeepsWhole (call : Call) (name : String) : Prop :=
  (∃ m ∈ call.mappings, m.relativePath = "" ∧ Text.trim m.name = name) ∨
    ∃ n, call.responseVariable = some n ∧ Text.trim n = name ∧ name ≠ ""

theorem bounded_bodyOf (text : String) : (bodyOf text).Bounded 127 := by
  unfold bodyOf
  dsimp only
  generalize (if text.toList.head? = some '\uFEFF' then _ else text) = text'
  cases h : Json.read? text' with
  | none => exact .str 127 _
  | some v => exact Json.bounded_of_read? h

/-- **What is kept of an answer** was inside of another container, or it is the whole answer. -/
theorem within_store {call : Call} {whole : String → Prop} {vars : Variables} {body : Json}
    (h : vars.Within whole) (hb : body.Bounded 127)
    (hwhole : ∀ name, call.KeepsWhole name → whole name) : (call.store vars body).Within whole := by
  have hkeep (m : Mapping) (hm : m ∈ call.mappings) {vars : Variables} (h : vars.Within whole) :
      (keep body vars m).Within whole := by
    unfold keep find?
    dsimp only
    split
    · rename_i v hv
      refine h.set ?_
      split at hv
      · rename_i hempty
        obtain rfl := Option.some.inj hv
        exact .inr ⟨hb, hwhole _ (.inl ⟨m, hm, String.isEmpty_iff.mp hempty, rfl⟩)⟩
      · obtain ⟨n, hn, hv⟩ := hb.lookup? hv
        exact .inl (hv.mono (by omega))
    · exact h
  have hmappings (ms : List Mapping) (hms : ∀ m ∈ ms, m ∈ call.mappings) (vars : Variables)
      (h : vars.Within whole) : Variables.Within whole (ms.foldl (keep body) vars) := by
    induction ms generalizing vars with
    | nil => exact h
    | cons m rest ih =>
      rw [List.forall_mem_cons] at hms
      exact ih hms.2 _ (hkeep m hms.1 h)
  have hmapped := hmappings call.mappings (fun _ => id) vars h
  unfold store
  dsimp only
  split
  · rename_i n hn
    split
    · exact hmapped
    · rename_i hempty
      refine hmapped.set (.inr ⟨hb, hwhole _ (.inr ⟨n, hn, rfl, fun he => ?_⟩)⟩)
      exact hempty (String.isEmpty_iff.mpr he)
  · exact hmapped

end Http.Call

/-- A node of the flow keeps whole answers under the name. -/
def Flow.KeepsWhole (f : Flow) (name : String) : Prop :=
  ∃ n ∈ f.nodes, ∃ call, n.action = .request call ∧ call.KeepsWhole name

/-- **What a node makes of the variables**: only whole answers may nest as deep as the reader
goes. -/
theorem Action.Revises.within {a : Action} {whole : String → Prop} {vars vars' : Variables}
    (h : a.Revises vars vars') (ha : a.Bounded 126) (hvars : vars.Within whole)
    (hwhole : ∀ call name, a = .request call → call.KeepsWhole name → whole name) :
    vars'.Within whole := by
  cases h with
  | same => exact hvars
  | value name value =>
    have hvalue : value.Bounded 126 := ha
    exact hvars.set (.inl (hvalue.interpolateJson _))
  | text _ name text => exact hvars.set (.inl (.str 126 text))
  | label _ _ h label => exact hvars.set (.inl (.str 126 label))
  | script h =>
    have hdelta := Script.bounded_of_run h
    exact hvars.merge fun m hm => (hdelta m hm).mono (by decide)
  | answer call text =>
    exact Http.Call.within_store hvars (Http.Call.bounded_bodyOf text) fun name =>
      hwhole call name rfl

/-! ### Sessions -/

/-- A session as it may be kept: its times fit their columns, and its variables nest no deeper than
they are read, but for those that may be whole answers. -/
structure Session.Kempt (whole : String → Prop) (s : Session) : Prop where
  times : ∀ m ∈ s.messages, FitsColumn m.timestamp
  vars : s.vars.Within whole

theorem Session.Kempt.mono {whole whole' : String → Prop} {s : Session} (h : s.Kempt whole)
    (hw : ∀ name, whole name → whole' name) : s.Kempt whole' :=
  ⟨h.times, h.vars.mono hw⟩

theorem Message.timely_of_ofText {text : String} {ms : List Message}
    (h : ofText .convert (list decode) text = .ok ms) : ∀ m ∈ ms, FitsColumn m.timestamp := by
  have hint : Accepts (Document.Bounded 125) FitsColumn int64 := by
    intro d n _ h
    unfold int64 intWithin at h
    split at h
    · split at h
      · rename_i hfits
        cases h
        exact hfits
      · cases h
    · cases h
  have hmessage : Accepts (Document.Bounded 126) (fun m : Message => FitsColumn m.timestamp)
      decode := by
    refine accepts_bounded_record ?_
    have htime : (Shape.required "timestamp" int64).Takes (Document.Bounded 125) FitsColumn :=
      Shape.takes_field hint trivial
    refine Shape.takes_seq htime ?_
    refine Shape.takes_seq (Shape.takes_any _) (Shape.takes_seq (Shape.takes_any _) ?_)
    refine Shape.takes_seq (Shape.takes_any _) (Shape.takes_map (Shape.takes_any _) ?_)
    exact fun _ _ _ _ _ _ _ _ _ ht => ht
  exact (accepts_bounded_list hmessage).ofText h

/-- **A session that is read off a row** has no value that could be a whole answer of a peer. -/
theorem SessionRow.kempt_of_toSession {r : SessionRow} {s : Session} (h : r.toSession = .ok s) :
    s.Kempt fun _ => False := by
  obtain ⟨hvars, hmessages⟩ := texts_of_toSession h
  have hfields : Accepts (Document.Bounded 127)
      (fun fs : Fields => ∀ f ∈ fs, f.2.Bounded 126) fields := by
    intro d fs hd hfs
    cases d with
    | obj ms =>
      obtain ⟨v, hv, hfs⟩ := bind_eq_ok.mp hfs
      have hbounded := accepts_json 127 _ _ hd hv
      cases v with
      | obj gs =>
        cases hfs
        exact Script.bounded_of_mem_fields hbounded
      | _ => cases hfs; nofun
    | _ => cases hfs
  have hvalues := hfields.ofText hvars
  exact ⟨Message.timely_of_ofText hmessages, sorted_of_toSession h, fun m hm => .inl (hvalues m hm)⟩

/-- **A kempt session is read back** if its variables do not nest too deep, as long as the numbers
in them can be read back; else its row is illegible. -/
theorem Session.Kempt.toSession {whole : String → Prop} {s : Session} (h : s.Kempt whole)
    (hv : s.flowVersion < 0x8000000000000000)
    (hx : ∀ x ∈ (Json.obj s.vars).doubles, Json.ReadsBack x) :
    ((Json.obj s.vars).depth ≤ 127 ∧ (SessionRow.ofSession s).toSession = .ok s) ∨
      (SessionRow.ofSession s).toSession = .error (.illegible .convert) ∧
        ∃ m ∈ s.vars, m.2.depth = 127 ∧ whole m.1 := by
  have hbounded := h.vars.bounded
  have hlegible : (Json.obj s.vars).Legible := hbounded.legible hx
  by_cases hdepth : (Json.obj s.vars).depth ≤ 127
  · refine .inl ⟨hdepth, SessionRow.toSession_ofSession ?_⟩
    exact ⟨by omega, h.times, hbounded.ordered, hlegible, hdepth⟩
  · refine .inr ⟨SessionRow.toSession_of_deep hlegible (by omega), ?_⟩
    -- A value that nests 127 containers is bounded by no less, so it may be a whole answer.
    have hdeep : ¬ ∀ m ∈ s.vars, m.2.depth ≤ 126 := by
      rw [Json.depth] at hdepth
      intro hall
      have hfields := Json.depthFields_le_iff.mpr hall
      omega
    obtain ⟨m, hdeep⟩ := Classical.not_forall.mp hdeep
    obtain ⟨hm, hlt⟩ := Classical.not_imp.mp hdeep
    rcases h.vars.values m hm with hv | ⟨hv, hwhole⟩
    · have hle := hv.depth_le
      omega
    · have hle := hv.depth_le
      exact ⟨m, hm, by omega, hwhole⟩

end Dialogue
