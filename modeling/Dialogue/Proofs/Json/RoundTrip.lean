import Dialogue.Json.Printer
import Dialogue.Json.Reader

/-! # Printed values read back

The text of a value is read as the document of that value, provided that its whole numbers fit 64
bits, its binary64 numbers read back, and no more containers are open at once than a reader allows.

* `number?_toDigits`, `string?_stringChars`: numbers and strings.
* `toJson?_within`: a value with too many containers open at once is not read.
* `value?_chars`: values, by structural recursion, with the further items and members of a
  container.
* `read?_text`: whole texts. -/

namespace Dialogue.Document

/-! ### Numbers -/

/-- What follows a number: nothing that could belong to it. -/
def EndsNumber (rest : List Char) : Prop :=
  ∀ c ∈ rest.head?, c.isDigit = false ∧ c ≠ '.' ∧ c ≠ 'e' ∧ c ≠ 'E'

theorem digits1?_append {ds rest : List Char} (hds : ∀ c ∈ ds, c.isDigit = true) (hne : ds ≠ [])
    (h : EndsNumber rest) : digits1? (ds ++ rest) = some (ds, rest) := by
  have hrest : rest.takeWhile Char.isDigit = [] ∧ rest.dropWhile Char.isDigit = rest := by
    cases rest with
    | nil => exact ⟨rfl, rfl⟩
    | cons c cs =>
      have hc := (h c rfl).1
      exact ⟨by rw [List.takeWhile_cons, hc]; rfl, by rw [List.dropWhile_cons, hc]; rfl⟩
  unfold digits1?
  rw [List.takeWhile_append_of_pos hds, List.dropWhile_append_of_pos hds, hrest.1, hrest.2,
    List.append_nil]
  simp [hne]

theorem fraction?_of_ends {rest : List Char} (h : EndsNumber rest) :
    fraction? rest = some (none, rest) := by
  unfold fraction?
  split
  · exact absurd rfl (h '.' rfl).2.1
  · rfl

theorem exponent?_of_ends {rest : List Char} (h : EndsNumber rest) :
    exponent? rest = some (none, 0, rest) := by
  cases rest with
  | nil => rfl
  | cons c cs =>
    obtain ⟨-, -, he, hE⟩ := h c rfl
    have hc : ¬ (c = 'e' ∨ c = 'E') := fun h => h.elim he hE
    exact if_neg hc

theorem head_toDigits {n : Nat} (hn : 0 < n) : (Nat.toDigits 10 n).head? ≠ some '0' := by
  induction n using Nat.strongRecOn with
  | ind n ih =>
    rw [Nat.toDigits_eq_if (by decide)]
    split
    · rename_i h
      intro h0
      have h0 : n.digitChar = '0' := Option.some.inj h0
      rw [Nat.digitChar_eq_zero] at h0
      omega
    · rename_i h
      have hdiv := ih (n / 10) (by omega) (by omega)
      cases htd : Nat.toDigits 10 (n / 10) with
      | nil => exact absurd htd Nat.toDigits_ne_nil
      | cons d ds =>
        rw [htd] at hdiv
        exact hdiv

theorem whole?_toDigits (n : Nat) {rest : List Char} (h : EndsNumber rest) :
    whole? (Nat.toDigits 10 n ++ rest) = some (Nat.toDigits 10 n, rest) := by
  have hds : ∀ c ∈ Nat.toDigits 10 n, c.isDigit = true := fun c hc =>
    Nat.isDigit_of_mem_toDigits (by decide) (by decide) hc
  have hread := digits1?_append hds Nat.toDigits_ne_nil h
  unfold whole?
  split
  · rename_i c cs heq
    rcases Nat.eq_zero_or_pos n with rfl | hn
    · rw [Nat.toDigits_zero] at heq ⊢
      obtain rfl : rest = c :: cs := (List.cons.inj heq).2
      rw [if_neg (by rw [(h c rfl).1]; exact Bool.false_ne_true)]
    · refine absurd ?_ (head_toDigits hn)
      cases htd : Nat.toDigits 10 n with
      | nil => exact absurd htd Nat.toDigits_ne_nil
      | cons d ds =>
        rw [htd] at heq
        rw [(List.cons.inj heq).1]
        rfl
  · exact hread

/-- The digits of a number are read as that number. -/
theorem number?_toDigits (neg : Bool) (n : Nat) {rest : List Char} (h : EndsNumber rest) :
    number? neg (Nat.toDigits 10 n ++ rest) =
      some (ofNumber neg (Nat.toDigits 10 n) none none 0, rest) := by
  unfold number?
  rw [whole?_toDigits n h]
  dsimp only [bind, Option.bind]
  rw [fraction?_of_ends h]
  dsimp only
  rw [exponent?_of_ends h]
  rfl

theorem digitsValue_toDigits (n : Nat) : Decimal.digitsValue (Nat.toDigits 10 n) = n :=
  Nat.ofDigitChars_ten_toDigits

/-- The whole number fits 64 bits, with or without sign. -/
def Fits64 (n : Int) : Prop := -0x8000000000000000 ≤ n ∧ n < 0x10000000000000000

theorem ofNumber_toDigits {n : Int} (h : Fits64 n) :
    ofNumber (decide (n < 0)) (Nat.toDigits 10 n.natAbs) none none 0 = .int n := by
  obtain ⟨hl, hu⟩ := h
  unfold ofNumber
  rw [digitsValue_toDigits]
  by_cases hn : n < 0
  · have h1 : 0 < n.natAbs := by omega
    have h2 : n.natAbs ≤ 0x8000000000000000 := by omega
    have h3 : -(n.natAbs : Int) = n := by omega
    dsimp only
    rw [decide_eq_true hn, decide_eq_true h1, decide_eq_true h2, h3]
    rfl
  · have h1 : n.natAbs < 0x10000000000000000 := by omega
    have h2 : (n.natAbs : Int) = n := by omega
    dsimp only
    rw [decide_eq_false hn, decide_eq_true h1, h2]
    rfl

/-! ### Strings -/

theorem hexValue?_hexDigit : ∀ d < 16, hexValue? (Json.hexDigit d) = some d := by decide

/-- A plain character is a unit of its own. -/
theorem units?_cons {c : Char} (h1 : c ≠ '"') (h2 : c ≠ '\\') (h3 : ¬ c.toNat < 0x20)
    (rest : List Char) :
    units? (c :: rest) = (units? rest).map fun r => (.char c :: r.1, r.2) := by
  rw [units?.eq_def]
  split
  · nomatch ‹c :: rest = []›
  · rename_i heq; exact absurd (List.cons.inj heq).1 h1
  · rename_i heq; exact absurd (List.cons.inj heq).1 h2
  · rename_i heq; exact absurd (List.cons.inj heq).1 h2
  · rename_i heq
    obtain ⟨rfl, rfl⟩ := List.cons.inj heq
    rw [if_neg (by simp [h2, h3])]
    cases units? rest <;> rfl

/-- A character below the blank is a unit by its code. -/
theorem units?_code {c : Char} (h : c.toNat < 0x20) (rest : List Char) :
    units? ('\\' :: 'u' :: '0' :: '0' :: Json.hexDigit (c.toNat / 16) ::
        Json.hexDigit (c.toNat % 16) :: rest) =
      (units? rest).map fun r => (.code c.toNat :: r.1, r.2) := by
  have h1 := hexValue?_hexDigit (c.toNat / 16) (by omega)
  have h2 := hexValue?_hexDigit (c.toNat % 16) (by omega)
  have h4 : hex4? '0' '0' (Json.hexDigit (c.toNat / 16)) (Json.hexDigit (c.toNat % 16)) =
      some c.toNat := by
    have h0 : hexValue? '0' = some 0 := by decide
    unfold hex4?
    rw [h0, h1, h2]
    show some ((0 * 16 + 0) * 256 + (c.toNat / 16 * 16 + c.toNat % 16)) = some c.toNat
    congr 1
    omega
  rw [units?, h4]
  cases units? rest <;> rfl

/-- An escape of one letter is the unit of its character. -/
theorem units?_letter {e c : Char} (hu : e ≠ 'u') (he : escaped? e = some c)
    (rest : List Char) :
    units? ('\\' :: e :: rest) = (units? rest).map fun r => (.char c :: r.1, r.2) := by
  rw [units?.eq_def]
  split
  · nomatch ‹ '\\' :: e :: rest = []›
  · rename_i heq; exact absurd (List.cons.inj heq).1 (by decide)
  · rename_i heq; exact absurd (List.cons.inj (List.cons.inj heq).2).1 hu
  · rename_i heq
    obtain ⟨rfl, rfl⟩ := List.cons.inj (List.cons.inj heq).2
    rw [he]
    cases units? rest <;> rfl
  · rename_i hne heq
    obtain ⟨rfl, rfl⟩ := List.cons.inj heq
    exact (hne e rest rfl rfl).elim

/-- A character as it is printed is one unit that stands for it. -/
theorem units?_escapeChar (c : Char) (rest : List Char) :
    ∃ u, units? (Json.escapeChar c ++ rest) =
        (units? rest).map (fun r => (u :: r.1, r.2)) ∧
      ∀ us, unitsChars? (u :: us) = (unitsChars? us).map (c :: ·) := by
  have hletter (e c : Char) (hu : e ≠ 'u') (he : escaped? e = some c) :=
    units?_letter hu he rest
  unfold Json.escapeChar
  split
  · exact ⟨_, hletter '"' '"' (by decide) rfl, fun us => rfl⟩
  · exact ⟨_, hletter '\\' '\\' (by decide) rfl, fun us => rfl⟩
  · exact ⟨_, hletter 'b' '\x08' (by decide) rfl, fun us => rfl⟩
  · exact ⟨_, hletter 'f' '\x0c' (by decide) rfl, fun us => rfl⟩
  · exact ⟨_, hletter 'n' '\n' (by decide) rfl, fun us => rfl⟩
  · exact ⟨_, hletter 'r' '\r' (by decide) rfl, fun us => rfl⟩
  · exact ⟨_, hletter 't' '\t' (by decide) rfl, fun us => rfl⟩
  · rename_i h1 h2 _ _ _ _ _
    split
    · rename_i hc
      refine ⟨_, units?_code hc rest, fun us => ?_⟩
      have hn : ¬ (0xD800 ≤ c.toNat ∧ c.toNat < 0xDC00) := by omega
      have hm : ¬ (0xDC00 ≤ c.toNat ∧ c.toNat < 0xE000) := by omega
      rw [unitsChars?.eq_def]
      dsimp only
      rw [if_neg hn, if_neg hm, Char.ofNat_toNat]
    · rename_i hc
      exact ⟨_, units?_cons h1 h2 hc rest, fun us => rfl⟩

theorem exists_units (cs rest : List Char) :
    ∃ us, units? (cs.flatMap Json.escapeChar ++ '"' :: rest) = some (us, rest) ∧
      unitsChars? us = some cs := by
  induction cs with
  | nil => exact ⟨[], by rw [List.flatMap_nil, List.nil_append, units?.eq_def]; rfl, rfl⟩
  | cons c cs ih =>
    obtain ⟨us, hus, hcs⟩ := ih
    obtain ⟨u, hu, hc⟩ := units?_escapeChar c (cs.flatMap Json.escapeChar ++ '"' :: rest)
    refine ⟨u :: us, ?_, ?_⟩
    · rw [List.flatMap_cons, List.append_assoc, hu, hus]
      rfl
    · rw [hc, hcs]
      rfl

/-- A string as it is printed, without its opening quote, is read as that string. -/
theorem string?_stringChars (s : String) (rest : List Char) :
    string? (s.toList.flatMap Json.escapeChar ++ '"' :: rest) = some (some s, rest) := by
  obtain ⟨us, hus, hcs⟩ := exists_units s.toList rest
  unfold string?
  rw [hus]
  simp only [Option.map_some, hcs, String.ofList_toList]

end Dialogue.Document

/-! ### Values -/

namespace Dialogue.Json

open Document

/-- The text of the binary64 number is read as that number, whatever text follows. -/
def ReadsBack (x : Float) : Prop :=
  (∃ c ∈ (Decimal.Layout.json.chars x).head?, c = '-' ∨ c.isDigit = true) ∧
    ∀ fuel room rest, EndsNumber rest →
      value? (fuel + 1) room (Decimal.Layout.json.chars x ++ rest) = some (.float x, rest)

mutual

/-- All numbers in the value can be read back. -/
def Legible : Json → Prop
  | .int n => Fits64 n
  | .float x => ReadsBack x
  | .arr items => LegibleItems items
  | .obj fs => LegibleFields fs
  | _ => True
termination_by structural v => v

/-- All numbers in the items can be read back. -/
def LegibleItems : List Json → Prop
  | [] => True
  | v :: rest => Legible v ∧ LegibleItems rest
termination_by structural v => v

/-- All numbers in the members can be read back. -/
def LegibleFields : List (String × Json) → Prop
  | [] => True
  | (_, v) :: rest => Legible v ∧ LegibleFields rest
termination_by structural v => v

end

/-- The character stands between values, or closes an array. -/
def IsSeam (c : Char) : Prop := isGap c = true ∨ c = ']'

theorem not_isSeam_of_isDigit {c : Char} (h : c.isDigit = true) : ¬ IsSeam c := by
  rintro (hc | rfl)
  · simp only [isGap, Bool.or_eq_true, decide_eq_true_eq] at hc
    rcases hc with ((rfl | rfl) | rfl) | rfl <;> exact absurd h (by decide)
  · exact absurd h (by decide)

theorem exists_head_toDigits (n : Nat) :
    ∃ c cs, Nat.toDigits 10 n = c :: cs ∧ c.isDigit = true := by
  cases h : Nat.toDigits 10 n with
  | nil => exact absurd h Nat.toDigits_ne_nil
  | cons c cs =>
    refine ⟨c, cs, rfl, Nat.isDigit_of_mem_toDigits (b := 10) (n := n) (by decide) (by decide) ?_⟩
    rw [h]
    exact List.mem_cons_self

/-- The text of a value begins with a character that is neither a gap nor closes an array. -/
theorem exists_head (v : Json) (hv : v.Legible) : ∃ c cs, v.chars = c :: cs ∧ ¬ IsSeam c := by
  cases v with
  | null => exact ⟨_, _, by rw [chars], by unfold IsSeam; decide⟩
  | bool b => cases b <;> exact ⟨_, _, by rw [chars], by unfold IsSeam; decide⟩
  | int n =>
    rw [chars, intChars]
    split
    · exact ⟨_, _, rfl, by unfold IsSeam; decide⟩
    · obtain ⟨c, cs, h, hc⟩ := exists_head_toDigits n.natAbs
      exact ⟨c, cs, h, not_isSeam_of_isDigit hc⟩
  | float x =>
    rw [Legible] at hv
    obtain ⟨c, hc, hd⟩ := hv.1
    rw [chars]
    cases h : Decimal.Layout.json.chars x with
    | nil => rw [h] at hc; cases hc
    | cons d ds =>
      rw [h] at hc
      obtain rfl : d = c := Option.some.inj hc
      refine ⟨d, ds, rfl, ?_⟩
      rcases hd with rfl | hd
      · unfold IsSeam; decide
      · exact not_isSeam_of_isDigit hd
  | str s => exact ⟨_, _, by rw [chars, stringChars], by unfold IsSeam; decide⟩
  | arr items => cases items <;> exact ⟨_, _, by rw [chars], by unfold IsSeam; decide⟩
  | obj fs =>
    cases fs with
    | nil => exact ⟨_, _, by rw [chars], by unfold IsSeam; decide⟩
    | cons f rest =>
      obtain ⟨k, v⟩ := f
      exact ⟨_, _, by rw [chars], by unfold IsSeam; decide⟩

end Dialogue.Json

namespace Dialogue.Document

open Json

/-! ### Containers that are too deep -/

mutual

/-- The document of a value of which a reader opens `room` containers at once. -/
def within : Nat → Json → Document
  | _, .null => .null
  | _, .bool b => .bool b
  | _, .int n => .int n
  | _, .float x => .float x
  | _, .str s => .str s
  | room, .arr items => if room = 0 then .unreadable else .arr (withinItems (room - 1) items)
  | room, .obj fs => if room = 0 then .unreadable else .obj (withinFields (room - 1) fs)
termination_by structural _ v => v

/-- The documents of the items. -/
def withinItems : Nat → List Json → List Document
  | _, [] => []
  | room, v :: rest => within room v :: withinItems room rest
termination_by structural _ v => v

/-- The documents of the members. -/
def withinFields : Nat → List (String × Json) → List (String × Document)
  | _, [] => []
  | room, (name, v) :: rest => (name, within room v) :: withinFields room rest
termination_by structural _ v => v

end

mutual

/-- Of a value that is not too deep nothing is left out. -/
theorem within_eq_ofJson : ∀ {v : Json} {room : Nat}, v.depth ≤ room → within room v = ofJson v
  | .null, _, _ | .bool _, _, _ | .int _, _, _ | .float _, _, _ | .str _, _, _ => by
    rw [within, ofJson]
  | .arr items, room, h => by
    rw [depth] at h
    rw [within, ofJson, if_neg (by omega), withinItems_eq_ofItems (by omega)]
  | .obj fs, room, h => by
    rw [depth] at h
    rw [within, ofJson, if_neg (by omega), withinFields_eq_ofFields (by omega)]

theorem withinItems_eq_ofItems : ∀ {items : List Json} {room : Nat}, depthItems items ≤ room →
    withinItems room items = ofItems items
  | [], _, _ => by rw [withinItems, ofItems]
  | v :: rest, room, h => by
    rw [depthItems] at h
    rw [withinItems, ofItems, within_eq_ofJson (by omega), withinItems_eq_ofItems (by omega)]

theorem withinFields_eq_ofFields : ∀ {fs : List (String × Json)} {room : Nat},
    depthFields fs ≤ room → withinFields room fs = ofFields fs
  | [], _, _ => by rw [withinFields, ofFields]
  | (name, v) :: rest, room, h => by
    rw [depthFields] at h
    rw [withinFields, ofFields, within_eq_ofJson (by omega), withinFields_eq_ofFields (by omega)]

end

mutual

/-- A value that is too deep is not read. -/
theorem toJson?_within : ∀ {v : Json} {room : Nat}, room < v.depth →
    (within room v).toJson? = none
  | .null, _, h | .bool _, _, h | .int _, _, h | .float _, _, h | .str _, _, h => by
    simp [depth] at h
  | .arr items, room, h => by
    rw [depth] at h
    rw [within]
    by_cases hroom : room = 0
    · rw [if_pos hroom, toJson?]
    · rw [if_neg hroom, toJson?, itemsToJson?_within (by omega)]
      rfl
  | .obj fs, room, h => by
    rw [depth] at h
    rw [within]
    by_cases hroom : room = 0
    · rw [if_pos hroom, toJson?]
    · rw [if_neg hroom, toJson?, membersToJson?_within (by omega)]
      rfl

theorem itemsToJson?_within : ∀ {items : List Json} {room : Nat}, room < depthItems items →
    itemsToJson? (withinItems room items) = none
  | [], _, h => by
    simp [depthItems] at h
  | v :: rest, room, h => by
    rw [depthItems] at h
    rw [withinItems, itemsToJson?]
    by_cases hv : room < v.depth
    · rw [toJson?_within hv]
    · rw [itemsToJson?_within (by omega)]
      cases (within room v).toJson? <;> rfl

theorem membersToJson?_within : ∀ {fs : List (String × Json)} {room : Nat},
    room < depthFields fs → membersToJson? (withinFields room fs) = none
  | [], _, h => by
    simp [depthFields] at h
  | (name, v) :: rest, room, h => by
    rw [depthFields] at h
    rw [withinFields, membersToJson?]
    by_cases hv : room < v.depth
    · rw [toJson?_within hv]
    · rw [membersToJson?_within (by omega)]
      cases (within room v).toJson? <;> rfl

end

/-! ### Reading -/

/-- What is read of an array behind an item, up to its closing bracket. -/
def furtherItems? (fuel room : Nat) (cs : List Char) : Option (List Document × List Char) :=
  match skipGap cs with
  | ']' :: rest => some ([], rest)
  | ',' :: rest => items? fuel room rest
  | _ => none

/-- What is read of an object behind a member, up to its closing brace. -/
def furtherMembers? (fuel room : Nat) (cs : List Char) :
    Option (List (Option String × Document) × List Char) :=
  match skipGap cs with
  | '\x7d' :: rest => some ([], rest)
  | ',' :: rest => members? fuel room rest
  | _ => none

theorem skipGap_cons {c : Char} (h : isGap c = false) (cs : List Char) :
    skipGap (c :: cs) = c :: cs := by
  unfold skipGap
  rw [List.dropWhile_cons, h]
  rfl

theorem items?_eq {fuel room : Nat} {cs rest rest' : List Char} {d : Document}
    {ds : List Document} (hv : value? fuel room cs = some (d, rest))
    (hr : furtherItems? fuel room rest = some (ds, rest')) :
    items? (fuel + 1) room cs = some (d :: ds, rest') := by
  unfold furtherItems? at hr
  rw [items?, hv]
  show (match skipGap rest with
    | ']' :: rest => _
    | ',' :: rest => _
    | _ => _) = _
  split at hr
  · cases hr
    rfl
  · rw [hr]
    rfl
  · cases hr

theorem members?_eq {fuel room : Nat} {cs rest rest' : List Char} {d : Document} (name : String)
    {ms : List (Option String × Document)} (hv : value? fuel room cs = some (d, rest))
    (hr : furtherMembers? fuel room rest = some (ms, rest')) :
    members? (fuel + 1) room (stringChars name ++ ':' :: cs) =
      some ((some name, d) :: ms, rest') := by
  unfold furtherMembers? at hr
  rw [members?, stringChars, List.cons_append, List.append_assoc, skipGap_cons (by decide)]
  show (string? (name.toList.flatMap escapeChar ++ '"' :: ':' :: cs)).bind _ = _
  rw [string?_stringChars]
  show (value? fuel room cs).bind _ = _
  rw [hv]
  show (match skipGap rest with
    | '\x7d' :: rest => _
    | ',' :: rest => _
    | _ => _) = _
  split at hr
  · cases hr
    rfl
  · rw [hr]
    rfl
  · cases hr

/-- The members of an object as they are read. -/
def named (fs : List (String × Document)) : List (Option String × Document) :=
  fs.map fun f => (some f.1, f.2)

theorem ofMembers_named (fs : List (String × Document)) : ofMembers (named fs) = .obj fs := by
  have h : (named fs).mapM (fun m => m.1.map (·, m.2)) = some fs := by
    induction fs with
    | nil => rfl
    | cons f rest ih =>
      rw [named, List.map_cons, List.mapM_cons]
      rw [named] at ih
      rw [ih]
      rfl
  unfold ofMembers
  rw [h]

theorem endsNumber_cons {c : Char} (h : c = ']' ∨ c = '\x7d' ∨ c = ',') (cs : List Char) :
    EndsNumber (c :: cs) := by
  intro d hd
  obtain rfl : c = d := Option.some.inj hd
  rcases h with rfl | rfl | rfl <;> decide

theorem endsNumber_itemsChars (vs : List Json) (rest : List Char) :
    EndsNumber (itemsChars vs ++ rest) := by
  cases vs with
  | nil => rw [itemsChars]; exact endsNumber_cons (.inl rfl) _
  | cons v vs => rw [itemsChars]; exact endsNumber_cons (.inr (.inr rfl)) _

theorem endsNumber_fieldsChars (fs : List (String × Json)) (rest : List Char) :
    EndsNumber (fieldsChars fs ++ rest) := by
  cases fs with
  | nil => rw [fieldsChars]; exact endsNumber_cons (.inr (.inl rfl)) _
  | cons f fs => rw [fieldsChars]; exact endsNumber_cons (.inr (.inr rfl)) _

/-- No digit begins a value of another kind than a number. -/
theorem value?_digit {c : Char} (hc : c.isDigit = true) (fuel room : Nat) (cs : List Char) :
    value? (fuel + 1) room (c :: cs) = number? false (c :: cs) := by
  have hgap : isGap c = false :=
    Bool.eq_false_iff.mpr fun hg => not_isSeam_of_isDigit hc (.inl hg)
  rw [value?, skipGap_cons hgap]
  have hne {d : Char} {ds : List Char} (heq : c :: cs = d :: ds) (hd : d.isDigit = false) :
      False := by
    rw [(List.cons.inj heq).1, hd] at hc
    cases hc
  split
  · exact (hne ‹_› (by decide)).elim
  · exact (hne ‹_› (by decide)).elim
  · exact (hne ‹_› (by decide)).elim
  · exact (hne ‹_› (by decide)).elim
  · exact (hne ‹_› (by decide)).elim
  · exact (hne ‹_› (by decide)).elim
  · exact (hne ‹_› (by decide)).elim
  · rfl

/-- A printed whole number is read as that number. -/
theorem value?_intChars {n : Int} (hn : Fits64 n) (fuel room : Nat) {rest : List Char}
    (h : EndsNumber rest) : value? (fuel + 1) room (intChars n ++ rest) = some (.int n, rest) := by
  have hof := ofNumber_toDigits hn
  unfold intChars
  by_cases hneg : n < 0
  · rw [if_pos hneg]
    rw [decide_eq_true hneg] at hof
    show number? true (Nat.toDigits 10 n.natAbs ++ rest) = _
    rw [number?_toDigits true _ h, hof]
  · rw [if_neg hneg]
    rw [decide_eq_false hneg] at hof
    obtain ⟨c, cs, hcs, hc⟩ := exists_head_toDigits n.natAbs
    have hread := number?_toDigits false n.natAbs h
    rw [hof] at hread
    rw [hcs, List.cons_append] at hread ⊢
    rw [value?_digit hc]
    exact hread

/-- An array with an item at least. -/
theorem value?_items {fuel room : Nat} {c : Char} {cs rest : List Char} {ds : List Document}
    (hc : ¬ IsSeam c) (h : items? fuel (room - 1) (c :: cs) = some (ds, rest)) :
    value? (fuel + 1) room ('[' :: c :: cs) =
      some (if room = 0 then .unreadable else .arr ds, rest) := by
  have hgap : isGap c = false := Bool.eq_false_iff.mpr fun hg => hc (.inl hg)
  refine (congrArg (Option.map _) (?_ : _ = some (ds, rest))).trans rfl
  rw [skipGap_cons hgap]
  split
  · rename_i heq
    exact absurd (.inr (List.cons.inj heq).1) hc
  · exact h

/-- An object with a member at least. -/
theorem value?_members {fuel room : Nat} {name : String} {cs rest : List Char}
    {fs : List (String × Document)}
    (h : members? fuel (room - 1) (stringChars name ++ ':' :: cs) = some (named fs, rest)) :
    value? (fuel + 1) room ('\x7b' :: (stringChars name ++ ':' :: cs)) =
      some (if room = 0 then .unreadable else .obj fs, rest) := by
  show Option.map _ (members? fuel (room - 1) (stringChars name ++ ':' :: cs)) = _
  rw [h, ← ofMembers_named fs]
  rfl

theorem exists_fuel {v : Json} (hv : v.Legible) {fuel : Nat} (hf : 2 * v.chars.length ≤ fuel) :
    ∃ f, fuel = f + 1 := by
  obtain ⟨c, cs, hcs, -⟩ := exists_head v hv
  rw [hcs, List.length_cons] at hf
  exact ⟨fuel - 1, by omega⟩

mutual

/-- A printed value is read as that value, except for the containers that are too deep. -/
theorem value?_chars : ∀ v : Json, v.Legible → ∀ (fuel room : Nat) (rest : List Char),
    2 * v.chars.length ≤ fuel → EndsNumber rest →
      value? fuel room (v.chars ++ rest) = some (within room v, rest)
  | .null, hv, fuel, room, rest, hf, _ => by
    obtain ⟨f, rfl⟩ := exists_fuel hv hf
    rw [chars, within]
    rfl
  | .bool b, hv, fuel, room, rest, hf, _ => by
    obtain ⟨f, rfl⟩ := exists_fuel hv hf
    cases b <;> rw [chars, within] <;> rfl
  | .int n, hv, fuel, room, rest, hf, hr => by
    obtain ⟨f, rfl⟩ := exists_fuel hv hf
    rw [Legible] at hv
    rw [chars, within]
    exact value?_intChars hv f room hr
  | .float x, hv, fuel, room, rest, hf, hr => by
    obtain ⟨f, rfl⟩ := exists_fuel hv hf
    rw [Legible] at hv
    rw [chars, within]
    exact hv.2 f room rest hr
  | .str s, hv, fuel, room, rest, hf, _ => by
    obtain ⟨f, rfl⟩ := exists_fuel hv hf
    rw [chars, within, stringChars, List.cons_append, List.append_assoc]
    show (string? (s.toList.flatMap escapeChar ++ '"' :: rest)).map _ = _
    rw [string?_stringChars]
    rfl
  | .arr [], hv, fuel, room, rest, hf, _ => by
    obtain ⟨f, rfl⟩ := exists_fuel hv hf
    rw [chars, within, withinItems]
    rfl
  | .arr (v :: vs), hv, fuel, room, rest, hf, _ => by
    obtain ⟨f, rfl⟩ := exists_fuel hv hf
    rw [Legible, LegibleItems] at hv
    rw [chars, List.length_cons, List.length_append] at hf
    obtain ⟨g, rfl⟩ : ∃ g, f = g + 1 := ⟨f - 1, by omega⟩
    have hitems := items?_eq (value?_chars v hv.1 g (room - 1) (itemsChars vs ++ rest) (by omega)
      (endsNumber_itemsChars vs rest)) (furtherItems?_chars vs hv.2 g (room - 1) rest (by omega))
    obtain ⟨c, cs, hcs, hc⟩ := exists_head v hv.1
    rw [chars, within, withinItems, List.cons_append, List.append_assoc]
    rw [hcs] at hitems ⊢
    exact value?_items hc hitems
  | .obj [], hv, fuel, room, rest, hf, _ => by
    obtain ⟨f, rfl⟩ := exists_fuel hv hf
    rw [chars, within, withinFields]
    rfl
  | .obj ((name, v) :: fs), hv, fuel, room, rest, hf, _ => by
    obtain ⟨f, rfl⟩ := exists_fuel hv hf
    rw [Legible, LegibleFields] at hv
    rw [chars, List.length_cons, List.length_append, List.length_cons, List.length_append] at hf
    obtain ⟨g, rfl⟩ : ∃ g, f = g + 1 := ⟨f - 1, by omega⟩
    have hmembers := members?_eq name
      (value?_chars v hv.1 g (room - 1) (fieldsChars fs ++ rest) (by omega)
        (endsNumber_fieldsChars fs rest))
      (furtherMembers?_chars fs hv.2 g (room - 1) rest (by omega))
    rw [chars, within, withinFields, List.cons_append, List.append_assoc, List.cons_append,
      List.append_assoc]
    exact value?_members hmembers

/-- The further items of a printed array are read as these items. -/
theorem furtherItems?_chars : ∀ vs : List Json, LegibleItems vs →
    ∀ (fuel room : Nat) (rest : List Char), 2 * (itemsChars vs).length ≤ fuel + 1 →
      furtherItems? fuel room (itemsChars vs ++ rest) = some (withinItems room vs, rest)
  | [], _, fuel, room, rest, _ => by
    rw [itemsChars, withinItems]
    rfl
  | v :: vs, hv, fuel, room, rest, hf => by
    rw [LegibleItems] at hv
    rw [itemsChars, List.length_cons, List.length_append] at hf
    obtain ⟨g, rfl⟩ : ∃ g, fuel = g + 1 := ⟨fuel - 1, by omega⟩
    rw [itemsChars, withinItems, List.cons_append, List.append_assoc]
    exact items?_eq
      (value?_chars v hv.1 g room (itemsChars vs ++ rest) (by omega)
        (endsNumber_itemsChars vs rest))
      (furtherItems?_chars vs hv.2 g room rest (by omega))

/-- The further members of a printed object are read as these members. -/
theorem furtherMembers?_chars : ∀ fs : List (String × Json), LegibleFields fs →
    ∀ (fuel room : Nat) (rest : List Char), 2 * (fieldsChars fs).length ≤ fuel + 1 →
      furtherMembers? fuel room (fieldsChars fs ++ rest) =
        some (named (withinFields room fs), rest)
  | [], _, fuel, room, rest, _ => by
    rw [fieldsChars, withinFields]
    rfl
  | (name, v) :: fs, hv, fuel, room, rest, hf => by
    rw [LegibleFields] at hv
    rw [fieldsChars, List.length_cons, List.length_append, List.length_cons,
      List.length_append] at hf
    obtain ⟨g, rfl⟩ : ∃ g, fuel = g + 1 := ⟨fuel - 1, by omega⟩
    rw [fieldsChars, withinFields, List.cons_append, List.append_assoc, List.cons_append,
      List.append_assoc]
    exact members?_eq name
      (value?_chars v hv.1 g room (fieldsChars fs ++ rest) (by omega)
        (endsNumber_fieldsChars fs rest))
      (furtherMembers?_chars fs hv.2 g room rest (by omega))

end

/-- A printed value is read as that value, except for the containers that are too deep. -/
theorem read?_text_within {v : Json} (hv : v.Legible) :
    read? v.text = some (within maxDepth v) := by
  have hread := value?_chars v hv (2 * v.chars.length + 2) maxDepth [] (by omega) nofun
  rw [List.append_nil] at hread
  unfold read? text
  rw [String.toList_ofList]
  dsimp only
  rw [hread]
  rfl

/-- **A printed value reads back**, if its numbers do and its containers are not too deep. -/
theorem read?_text {v : Json} (hv : v.Legible) (hd : v.depth ≤ maxDepth) :
    read? v.text = some (ofJson v) := by
  rw [read?_text_within hv, within_eq_ofJson hd]

end Dialogue.Document

/-! ### Numbers that do not read back -/

namespace Dialogue

/-- A number whose text is read as the next one. -/
def unsteady : Float := .ofBits 4499096027743125505

/-- A number whose text is read as another one, and so is the text of that. -/
def sliding : Float := .ofBits 4508054750025069342

end Dialogue
