import Dialogue.Script.Basic
import Dialogue.Proofs.Json.Unsigned

/-! # Deltas that are replayed

A delta, put on the variables from which it was taken, should give the variables that it was taken
for. It is told by comparing values, so a variable that changes in the signs of zeros and in nothing
else goes unnoticed, and a replay leaves it as it was; all else comes out exactly. That holds for
what a node changes and for what a script leaves in `vars`; what a script returns is never compared
and always wins.

* `Variables.Unnoticed`: a change that no delta tells.
* `Variables.get?_merge_delta`: one variable after a replay.
* `Variables.Replays`, `Script.Settles`: what a replay gives, for a node and for a script.
* `Variables.replays`: deltas are replayed. -/

namespace Dialogue

namespace Variables

variable {before after : Variables} {name : String}

/-! ### A replay -/

/-- The variable has another value than before, but another one only in the signs of zeros. -/
def Unnoticed (before after : Variables) (name : String) : Prop :=
  ∃ v w, before.get? name = some v ∧ after.get? name = some w ∧ v ≠ w ∧ v.unsigned = w.unsigned

theorem sorted_of_proper {vars : Variables} (h : (Json.obj vars).Proper) : vars.Sorted :=
  h.ordered.1

theorem mem_doubles_of_get? {vars : Variables} {v : Json} (hv : vars.get? name = some v)
    {x : Float} (hx : x ∈ v.doubles) : x ∈ (Json.obj vars).doubles := by
  rw [Json.doubles]
  exact Json.mem_doublesFields (Fields.mem_of_get? hv) hx

theorem numbers_of_get? {vars : Variables} {v : Json} (h : (Json.obj vars).Proper)
    (hv : vars.get? name = some v) : ∀ x ∈ v.doubles, x.isNaN = false :=
  fun x hx => h.numbers x (mem_doubles_of_get? hv hx)

/-- No change goes unnoticed where no binary64 number is zero. -/
theorem not_unnoticed (h : ∀ x ∈ (Json.obj after).doubles, (x == 0) = false) (name : String) :
    ¬ Unnoticed before after name := by
  rintro ⟨v, w, -, hw, hne, hvw⟩
  exact hne (Json.eq_of_unsigned_eq v w (fun x hx => h x (mem_doubles_of_get? hw hx)) hvw)

/-- A delta has the variables that changed in more than signs of zeros. -/
theorem get?_delta_eq_some_iff (ha : (Json.obj after).Proper) {v : Json} :
    (delta before after).get? name = some v ↔
      after.get? name = some v ∧ (before.get? name).map Json.unsigned ≠ some v.unsigned := by
  rw [get?_delta (sorted_of_proper ha), Option.filter_eq_some_iff, Bool.not_eq_true', ne_eq]
  refine and_congr_right fun hv => ?_
  rw [← Json.isSame_iff_unsigned (numbers_of_get? ha hv), Bool.not_eq_true]

/-- **A variable after a replay** is what the delta was taken for. -/
theorem get?_merge_delta (ha : (Json.obj after).Proper) (hn : ¬ Unnoticed before after name) :
    (Fields.merge before (delta before after)).get? name =
      (after.get? name).or (before.get? name) := by
  have hs := sorted_of_proper ha
  rw [(sorted_delta hs).get?_merge, get?_delta hs]
  cases hw : after.get? name with
  | none => rfl
  | some w =>
    rw [Option.filter_some]
    split
    · rfl
    · rename_i hsame
      rw [Bool.not_eq_true', Bool.not_eq_false,
        Json.isSame_iff_unsigned (numbers_of_get? ha hw), Option.map_eq_some_iff] at hsame
      obtain ⟨v, hv, hvw⟩ := hsame
      -- it compares equal and is not unnoticed, so it did not change at all
      have heq : v = w := by_contra fun hne => hn ⟨v, w, hv, hw, hne, hvw⟩
      rw [Option.none_or, hv, heq, Option.some_or]

/-- A change that goes unnoticed is not replayed. -/
theorem Unnoticed.get?_merge_delta (ha : (Json.obj after).Proper)
    (hn : Unnoticed before after name) :
    (Fields.merge before (delta before after)).get? name = before.get? name := by
  obtain ⟨v, w, hv, hw, -, hvw⟩ := hn
  have hs := sorted_of_proper ha
  have hsame : w.isSame (some v) = true :=
    (Json.isSame_iff_unsigned (numbers_of_get? ha hw)).mpr (congrArg some hvw)
  rw [(sorted_delta hs).get?_merge, get?_delta hs, hw, hv, Option.filter_some, hsame]
  rfl

/-- Where no variable is lost a replay gives what is afterwards. -/
theorem get?_merge_delta_of_kept (ha : (Json.obj after).Proper)
    (hkept : before.has name = true → after.has name = true)
    (hn : ¬ Unnoticed before after name) :
    (Fields.merge before (delta before after)).get? name = after.get? name := by
  rw [get?_merge_delta ha hn]
  cases hw : after.get? name with
  | some w => rfl
  | none =>
    cases hv : before.get? name with
    | none => rfl
    | some v =>
      have hlost := hkept (by rw [Fields.has, hv]; rfl)
      rw [Fields.has, hw] at hlost
      cases hlost

/-- With the signs of zeros left out a replay always gives what is afterwards. -/
theorem unsigned_merge_delta (hb : (Json.obj before).Proper) (ha : (Json.obj after).Proper)
    (hkept : ∀ name, before.has name = true → after.has name = true) :
    Json.unsignedFields (Fields.merge before (delta before after)) = Json.unsignedFields after := by
  have hmerged := Fields.sorted_merge (sorted_of_proper hb) (delta before after)
  refine (Json.sorted_unsignedFields hmerged).ext
    (Json.sorted_unsignedFields (sorted_of_proper ha)) fun name => ?_
  rw [Json.get?_unsignedFields, Json.get?_unsignedFields]
  by_cases hn : Unnoticed before after name
  · rw [hn.get?_merge_delta ha]
    obtain ⟨v, w, hv, hw, -, hvw⟩ := hn
    rw [hv, hw]
    exact congrArg some hvw
  · rw [get?_merge_delta_of_kept ha (hkept name) hn]

/-- A replay is exact if and only if nothing goes unnoticed. -/
theorem merge_delta_eq_iff (hb : (Json.obj before).Proper) (ha : (Json.obj after).Proper)
    (hkept : ∀ name, before.has name = true → after.has name = true) :
    Fields.merge before (delta before after) = after ↔ ∀ name, ¬ Unnoticed before after name := by
  constructor
  · intro heq name hn
    have hname := hn.get?_merge_delta ha
    obtain ⟨v, w, hv, hw, hne, -⟩ := hn
    rw [heq, hv, hw] at hname
    exact hne (Option.some.inj hname).symm
  · intro hall
    have hmerged := Fields.sorted_merge (sorted_of_proper hb) (delta before after)
    exact hmerged.ext (sorted_of_proper ha) fun name =>
      get?_merge_delta_of_kept ha (hkept name) (hall name)

/-- The delta, put on what was before, gives what is afterwards. -/
structure Replays (before after : Variables) : Prop where
  /-- The delta has the variables that changed in more than signs of zeros, as they are now. -/
  changed : ∀ name v, (delta before after).get? name = some v ↔
    after.get? name = some v ∧ (before.get? name).map Json.unsigned ≠ some v.unsigned
  /-- The replay gives what is afterwards, with the signs of zeros left out. -/
  same : Json.unsignedFields (Fields.merge before (delta before after)) = Json.unsignedFields after
  /-- Each variable is what it is afterwards, unless its change went unnoticed. -/
  replayed : ∀ name, ¬ Unnoticed before after name →
    (Fields.merge before (delta before after)).get? name = after.get? name
  /-- A variable whose change went unnoticed is what it was before. -/
  unnoticed : ∀ name, Unnoticed before after name →
    (Fields.merge before (delta before after)).get? name = before.get? name
  /-- It is all that is afterwards exactly if nothing went unnoticed. -/
  exact_iff : Fields.merge before (delta before after) = after ↔
    ∀ name, ¬ Unnoticed before after name

end Variables

namespace Script

variable {before : Variables} {left returned : Json} {name : String}

/-! ### What a script changes -/

/-- The output of a script by what it left in `vars` and what it returned. -/
def outputOf (left returned : Json) : Json :=
  .obj (Fields.ofList [("vars", left), ("result", returned)])

theorem exists_outputOf {body : String} {vars : Variables} {v : Json}
    (h : output body vars = .ok v) : ∃ left returned, v = outputOf left returned := by
  unfold output at h
  simp only [bind, Except.bind] at h
  repeat' split at h
  all_goals cases h
  exact ⟨_, _, rfl⟩

/-- The variables after a script, by what it left in `vars` and what it returned. -/
def outcome (before : Variables) (left returned : Json) : Variables :=
  Fields.merge before (delta before (outputOf left returned))

/-- What a run changes leads to such an outcome. -/
theorem exists_outcome {body : String} {vars changes : Variables}
    (h : run body vars = .ok changes) : ∃ left returned,
      output body vars = .ok (outputOf left returned) ∧
        Fields.merge vars changes = outcome vars left returned := by
  unfold run at h
  cases hv : output body vars with
  | error text => rw [hv] at h; cases h
  | ok v =>
    obtain ⟨left, returned, rfl⟩ := exists_outputOf hv
    rw [hv] at h
    dsimp only at h
    split at h
    · cases h
    · cases h
      exact ⟨left, returned, rfl, rfl⟩

theorem delta_outputOf (before : Variables) (left returned : Json) :
    delta before (outputOf left returned) =
      Fields.merge (Variables.delta before left.fields) returned.fields := by
  have hleft : (outputOf left returned).member? "vars" = some left :=
    (Fields.get?_insert_of_ne (show "vars" ≠ "result" by decide) _ _).trans
      (Fields.get?_insert_self _ _ _)
  have hreturned : (outputOf left returned).member? "result" = some returned :=
    Fields.get?_insert_self _ _ _
  simp only [delta, hleft, hreturned, Option.getD_some]

/-- What a script asks of a variable: what it returned under that name, else what it left in
`vars`, else what was there before. -/
def asked? (before : Variables) (left returned : Json) (name : String) : Option Json :=
  (returned.member? name).or ((left.member? name).or (before.get? name))

theorem sorted_fields {v : Json} (h : v.Proper) : v.fields.Sorted := by
  cases v with
  | obj fs => exact Variables.sorted_of_proper h
  | _ => exact List.Pairwise.nil

theorem proper_fields {v : Json} (h : v.Proper) : (Json.obj v.fields).Proper := by
  cases v with
  | obj fs => exact h
  | _ => exact ⟨by simp [Json.fields, Json.Ordered, Json.OrderedFields, Fields.Sorted],
      by simp [Json.fields, Json.doubles, Json.doublesFields]⟩

/-- What is returned wins over what is left in `vars`. -/
theorem get?_outcome (hl : left.Proper) (hr : returned.Proper) (name : String) :
    (outcome before left returned).get? name =
      (returned.member? name).or
        ((Fields.merge before (Variables.delta before left.fields)).get? name) := by
  have hsorted : Fields.Sorted (Variables.delta before left.fields) :=
    Variables.sorted_delta (sorted_fields hl)
  rw [outcome, delta_outputOf, (Fields.sorted_merge hsorted _).get?_merge,
    (sorted_fields hr).get?_merge, hsorted.get?_merge, Option.or_assoc]
  rfl

/-- **A variable after a script** is what the script asks. -/
theorem get?_outcome_of_noticed (hl : left.Proper) (hr : returned.Proper)
    (hn : returned.member? name = none → ¬ Variables.Unnoticed before left.fields name) :
    (outcome before left returned).get? name = asked? before left returned name := by
  rw [get?_outcome hl hr, asked?]
  cases hret : returned.member? name with
  | some v => rfl
  | none => exact congrArg _ (Variables.get?_merge_delta (proper_fields hl) (hn hret))

theorem get?_outcome_of_unnoticed (hl : left.Proper) (hr : returned.Proper)
    (hret : returned.member? name = none) (hn : Variables.Unnoticed before left.fields name) :
    (outcome before left returned).get? name = before.get? name := by
  rw [get?_outcome hl hr, hret, Option.none_or, hn.get?_merge_delta (proper_fields hl)]

theorem asked?_of_left {w : Json} (hret : returned.member? name = none)
    (hw : left.fields.get? name = some w) : asked? before left returned name = some w := by
  rw [asked?, hret, Option.none_or, Json.member?, hw, Option.some_or]

/-- A variable that is neither returned nor left is what it was before. -/
theorem get?_outcome_of_dropped (hl : left.Proper) (hr : returned.Proper)
    (hret : returned.member? name = none) (hdropped : left.member? name = none) :
    (outcome before left returned).get? name = before.get? name := by
  have hn : ¬ Variables.Unnoticed before left.fields name := by
    rintro ⟨v, w, -, hw, -⟩
    rw [Json.member?, hw] at hdropped
    cases hdropped
  rw [get?_outcome_of_noticed hl hr fun _ => hn, asked?, hret, hdropped, Option.none_or,
    Option.none_or]

/-- With the signs of zeros left out each variable is what the script asks. -/
theorem unsigned_outcome (hl : left.Proper) (hr : returned.Proper) (name : String) :
    ((outcome before left returned).get? name).map Json.unsigned =
      (asked? before left returned name).map Json.unsigned := by
  by_cases hn : returned.member? name = none ∧ Variables.Unnoticed before left.fields name
  · obtain ⟨hret, hn⟩ := hn
    rw [get?_outcome_of_unnoticed hl hr hret hn]
    obtain ⟨v, w, hv, hw, -, hvw⟩ := hn
    rw [hv, asked?_of_left hret hw]
    exact congrArg some hvw
  · rw [get?_outcome_of_noticed hl hr fun hret hun => hn ⟨hret, hun⟩]

/-- The outcome is what the script asks if and only if nothing that it left goes unnoticed. -/
theorem outcome_eq_iff (hl : left.Proper) (hr : returned.Proper) :
    (∀ name, (outcome before left returned).get? name = asked? before left returned name) ↔
      ∀ name, returned.member? name = none → ¬ Variables.Unnoticed before left.fields name := by
  constructor
  · intro heq name hret hn
    have hname := (heq name).symm.trans (get?_outcome_of_unnoticed hl hr hret hn)
    obtain ⟨v, w, hv, hw, hne, -⟩ := hn
    rw [asked?_of_left hret hw, hv] at hname
    exact hne (Option.some.inj hname).symm
  · exact fun hall name => get?_outcome_of_noticed hl hr (hall name)

/-- What a script changes, put on the variables before, gives what the script asks of each. -/
structure Settles (before : Variables) (left returned : Json) : Prop where
  /-- The outcome is a map again. -/
  ordered : (outcome before left returned).Sorted
  /-- Each variable is what the script asks, unless it was left with an unnoticed change. -/
  settled : ∀ name, (returned.member? name = none → ¬ Variables.Unnoticed before left.fields name) →
    (outcome before left returned).get? name = asked? before left returned name
  /-- A variable that was left with an unnoticed change is what it was before. -/
  unnoticed : ∀ name, returned.member? name = none → Variables.Unnoticed before left.fields name →
    (outcome before left returned).get? name = before.get? name
  /-- A variable that is neither returned nor left is what it was before, also a deleted one. -/
  kept : ∀ name, returned.member? name = none → left.member? name = none →
    (outcome before left returned).get? name = before.get? name
  /-- Each variable is what the script asks, with the signs of zeros left out. -/
  same : ∀ name, ((outcome before left returned).get? name).map Json.unsigned =
    (asked? before left returned name).map Json.unsigned
  /-- It is all that the script asks exactly if nothing of it went unnoticed. -/
  exact_iff :
    (∀ name, (outcome before left returned).get? name = asked? before left returned name) ↔
    ∀ name, returned.member? name = none → ¬ Variables.Unnoticed before left.fields name

end Script

namespace Variables

variable {before after : Variables} {left returned : Json}

/-- **Deltas are replayed** exactly, but for changes in the signs of zeros: what a node changes if
no variable is lost, and what a script leaves and returns. -/
theorem replays (hb : (Json.obj before).Proper) (ha : (Json.obj after).Proper)
    (hl : left.Proper) (hr : returned.Proper) :
    ((∀ name, before.has name = true → after.has name = true) → Replays before after) ∧
      Script.Settles before left returned := by
  constructor
  · intro hkept
    exact ⟨fun name v => get?_delta_eq_some_iff ha, unsigned_merge_delta hb ha hkept,
      fun name hn => get?_merge_delta_of_kept ha (hkept name) hn,
      fun name hn => hn.get?_merge_delta ha, merge_delta_eq_iff hb ha hkept⟩
  · exact ⟨Fields.sorted_merge (sorted_of_proper hb) _,
      fun name hn => Script.get?_outcome_of_noticed hl hr hn,
      fun name hret hn => Script.get?_outcome_of_unnoticed hl hr hret hn,
      fun name hret hdropped => Script.get?_outcome_of_dropped hl hr hret hdropped,
      Script.unsigned_outcome hl hr, Script.outcome_eq_iff hl hr⟩

/-- Variables that are counted, kept and dropped. -/
def counting : Variables := [("count", .int 1), ("keep", .str "x"), ("note", .float 0.5)]

/-- The variables after a step that counts and gives a status. -/
def counted : Variables :=
  [("count", .int 2), ("keep", .str "x"), ("note", .float 0.5), ("status", .str "ok")]

/-- What a script left that counts and drops the other variables. -/
def recounted : Json := .obj [("count", .int 2)]

/-- What it returned. -/
def total : Json := .obj [("count", .int 3)]

/-- The delta of the node is replayed exactly; the script returns a member that it has also left,
and the variables that it dropped stay as they were. -/
theorem replays_counted :
    ((Json.obj counting).Proper ∧ (Json.obj counted).Proper ∧ recounted.Proper ∧ total.Proper ∧
      ∀ name, counting.has name = true → counted.has name = true) ∧
    Replays counting counted ∧ Fields.merge counting (delta counting counted) = counted ∧
      Script.Settles counting recounted total ∧
      (Script.outcome counting recounted total).get? "count" = some (.int 3) ∧
      (Script.outcome counting recounted total).get? "note" = some (.float 0.5) := by
  have hsorted : counting.Sorted ∧ counted.Sorted := by
    unfold Fields.Sorted
    decide +kernel
  have hb : (Json.obj counting).Proper :=
    ⟨⟨hsorted.1, by simp [counting, Json.OrderedFields, Json.Ordered]⟩, by decide⟩
  have ha : (Json.obj counted).Proper :=
    ⟨⟨hsorted.2, by simp [counted, Json.OrderedFields, Json.Ordered]⟩, by decide⟩
  have hcount (n : Int) : (Json.obj [("count", .int n)]).Proper :=
    ⟨by simp [Json.Ordered, Json.OrderedFields, Fields.Sorted],
      by simp [Json.doubles, Json.doublesFields]⟩
  have hkept : ∀ name, counting.has name = true → counted.has name = true := by
    intro name
    simp only [Fields.has, counting, counted, Fields.get?_cons]
    split_ifs <;> simp
  obtain ⟨hnode, hscript⟩ := replays hb ha (hcount 2) (hcount 3)
  refine ⟨⟨hb, ha, hcount 2, hcount 3, hkept⟩, hnode hkept,
    (hnode hkept).exact_iff.mpr (not_unnoticed (by decide)), hscript, ?_, ?_⟩
  · exact hscript.settled "count" fun h => absurd h (by decide)
  · exact hscript.kept "note" (by decide) (by decide)

/-! ### A zero with a sign -/

/-- A zero without a sign. -/
def zeroed : Variables := [("x", .float 0)]

/-- The same zero with a sign. -/
def signed : Variables := [("x", .float (-0))]

theorem proper_singleton {x : Float} (h : x.isNaN = false) :
    (Json.obj [("x", .float x)]).Proper where
  ordered := by simp [Json.Ordered, Json.OrderedFields, Fields.Sorted]
  numbers y hy := by
    simp only [Json.doubles, Json.doublesFields, List.append_nil, List.mem_singleton] at hy
    rw [hy, h]

/-- **A sign that a zero is given** is not replayed, although texts show it; neither is one that a
script leaves in `vars`. -/
theorem unreplayed_signed :
    (Json.obj zeroed).Proper ∧ (Json.obj signed).Proper ∧
      (∀ name, zeroed.has name = true → signed.has name = true) ∧
      Fields.merge zeroed (delta zeroed signed) ≠ signed ∧
      interpolate (Fields.merge zeroed (delta zeroed signed)) "\x7bx\x7d" = "0.0" ∧
      interpolate signed "\x7bx\x7d" = "-0.0" ∧
      (Json.obj signed).member? "x" = some (.float (-0)) ∧
      (Script.outcome zeroed (.obj signed) .null).get? "x" = some (.float 0) := by
  have hb : (Json.obj zeroed).Proper := proper_singleton (by decide)
  have ha : (Json.obj signed).Proper := proper_singleton (by decide)
  have hnull : Json.null.Proper := ⟨by simp [Json.Ordered], by simp [Json.doubles]⟩
  have hsilent : Unnoticed zeroed signed "x" :=
    ⟨.float 0, .float (-0), rfl, rfl, by decide, by decide⟩
  have hkept : ∀ name, zeroed.has name = true → signed.has name = true := by
    intro name
    simp only [Fields.has, zeroed, signed, Fields.get?_cons]
    split_ifs <;> simp
  have hdelta : delta zeroed signed = [] := by decide
  refine ⟨hb, ha, hkept, fun heq => (merge_delta_eq_iff hb ha hkept).mp heq "x" hsilent,
    ?_, by decide +kernel, rfl, ?_⟩
  · rw [hdelta]
    decide +kernel
  · exact Script.get?_outcome_of_unnoticed ha hnull rfl hsilent

end Variables

end Dialogue
