import Dialogue.Path
import Dialogue.Proofs.Json.RoundTrip
import Mathlib.Data.List.Forall2

/-! # Spellings of paths

A step of a path can be written in several ways: a name in brackets and either kind of quotes or, if
it holds nothing that has a meaning there, behind a point; an index in brackets or behind a point,
where it is read as a name. However the steps to a position inside an object are written, the path
leads there, and it leads nowhere if one more step is written that leads nowhere.

* `scan_spelling`: what a spelling is read as, step by step.
* `At.walk`, `At.walk_concat`: where steps lead that are read like this.
* `At.lookup?`, `At.lookup?_append`: where a path leads that spells a position.
* `addresses`: every position can be addressed in each of its spellings. -/

namespace Dialogue

/-! ### Blanks at the ends -/

namespace Text

/-- Neither the first nor the last character is blank. -/
structure Tight (cs : List Char) : Prop where
  first : ∀ c ∈ cs.head?, isBlank c = false
  last : ∀ c ∈ cs.getLast?, isBlank c = false

variable {cs ds : List Char}

theorem Tight.append (hc : Tight cs) (hd : Tight ds) : Tight (cs ++ ds) := by
  constructor
  · intro c h
    rw [List.head?_append] at h
    cases hhead : cs.head? with
    | none => exact hd.first c (by simpa [hhead] using h)
    | some a => exact hc.first c (by simpa [hhead] using h)
  · intro c h
    rw [List.getLast?_append] at h
    cases hlast : ds.getLast? with
    | none => exact hc.last c (by simpa [hlast] using h)
    | some a => exact hd.last c (by simpa [hlast] using h)

theorem dropWhile_eq_self_iff_head? :
    cs.dropWhile isBlank = cs ↔ ∀ c ∈ cs.head?, isBlank c = false := by
  cases cs with
  | nil => simp
  | cons c cs =>
    by_cases hc : isBlank c = true
    · have hlt : (cs.dropWhile isBlank).length < (c :: cs).length := by
        have := (List.dropWhile_suffix (l := cs) isBlank).length_le
        simp only [List.length_cons]
        omega
      simp only [List.dropWhile_cons_of_pos hc, List.head?_cons, Option.mem_def, Option.some.injEq,
        forall_eq', hc, Bool.true_eq_false, iff_false]
      intro h
      rw [h] at hlt
      omega
    · simp [hc]

/-- Nothing is trimmed off such a text, and off no other one. -/
theorem trimChars_eq_self_iff : trimChars cs = cs ↔ Tight cs := by
  have hend : (cs.reverse.dropWhile isBlank).reverse = cs ↔
      ∀ c ∈ cs.getLast?, isBlank c = false := by
    rw [← List.head?_reverse, ← dropWhile_eq_self_iff_head?, List.reverse_eq_iff]
  constructor
  · intro h
    have hstart : cs.dropWhile isBlank = cs := by
      have hsuffix := List.dropWhile_suffix (l := cs) isBlank
      refine hsuffix.eq_of_length_le ?_
      have hle := (List.dropWhile_suffix (l := (cs.dropWhile isBlank).reverse) isBlank).length_le
      have hlength := congrArg List.length h
      simp only [trimChars, trimEndChars, trimStartChars, List.length_reverse] at hlength hle
      omega
    rw [trimChars, trimEndChars, trimStartChars, hstart] at h
    exact ⟨dropWhile_eq_self_iff_head?.mp hstart, hend.mp h⟩
  · intro h
    rw [trimChars, trimEndChars, trimStartChars, dropWhile_eq_self_iff_head?.mpr h.first]
    exact hend.mpr h.last

theorem tight_nil : Tight [] := ⟨nofun, nofun⟩

/-- What is left when the ends are trimmed has no more blanks there. -/
theorem tight_trimChars (cs : List Char) : Tight (trimChars cs) := by
  have hdropped (ds : List Char) : ∀ c ∈ (ds.dropWhile isBlank).head?, isBlank c = false := by
    intro c hc
    have hnot := List.head?_dropWhile_not isBlank ds
    rw [Option.mem_def.mp hc] at hnot
    exact hnot
  constructor
  · intro c hc
    rw [trimChars, trimEndChars, List.head?_reverse, Option.mem_def] at hc
    obtain ⟨dropped, hsuffix⟩ := List.dropWhile_suffix (l := (trimStartChars cs).reverse) isBlank
    have hlast : (trimStartChars cs).reverse.getLast? = some c := by
      rw [← hsuffix, List.getLast?_append, hc, Option.some_or]
    rw [List.getLast?_reverse] at hlast
    exact hdropped cs c hlast
  · intro c hc
    rw [trimChars, trimEndChars, List.getLast?_reverse] at hc
    exact hdropped _ c hc

theorem trim_trim (s : String) : trim (trim s) = trim s := by
  rw [trim, trim, String.toList_ofList, trimChars_eq_self_iff.mpr (tight_trimChars s.toList)]

theorem tight_singleton {c : Char} (hc : isBlank c = false) : Tight [c] := by
  constructor
  · simpa using hc
  · simpa using hc

theorem tight_between {c d : Char} (hc : isBlank c = false) (hd : isBlank d = false) :
    Tight (c :: (cs ++ [d])) := by
  constructor
  · simpa using hc
  · intro a ha
    rw [← List.cons_append, List.getLast?_concat, Option.mem_some_iff] at ha
    rwa [← ha]

end Text

/-! ### Positions -/

namespace Json

/-- At the position inside the one value stands the other. Names lead into objects, and indices into
arrays. -/
inductive At : Json → List Step → Json → Prop
  | here (v : Json) : At v [] v
  | member {fs : Fields} {name : String} {v w : Json} {p : List Step}
      (h : fs.get? name = some v) (hw : At v p w) : At (.obj fs) (.key name :: p) w
  | item {items : List Json} {n : Nat} {v w : Json} {p : List Step}
      (h : items[n]? = some v) (hw : At v p w) : At (.arr items) (.index n :: p) w

/-- The step leads nowhere from the value: the object has no such member, the array ends before, or
the value holds no others. -/
inductive Lacks : Json → Step → Prop
  | member {fs : Fields} {name : String} (h : fs.get? name = none) : Lacks (.obj fs) (.key name)
  | item {items : List Json} {n : Nat} (h : items.length ≤ n) : Lacks (.arr items) (.index n)
  | scalar {v : Json} {s : Step} (harr : ∀ items, v ≠ .arr items) (hobj : ∀ fs, v ≠ .obj fs) :
      Lacks v s

end Json

namespace Path

/-! ### Spellings -/

/-- The name can be written without brackets. -/
structure IsBare (name : String) : Prop where
  nonempty : name ≠ ""
  point : '.' ∉ name.toList
  bracket : '[' ∉ name.toList
  trimmed : Text.trim name = name

/-- The step can be written like this, as the first one of a path or behind another one. -/
inductive Spells : (first : Bool) → Step → String → Prop
  | double {first : Bool} {name : String} (h : ']' ∉ name.toList) :
      Spells first (.key name) ("[\"" ++ name ++ "\"]")
  | single {first : Bool} {name : String} (h : ']' ∉ name.toList) :
      Spells first (.key name) ("['" ++ name ++ "']")
  | bare {name : String} (h : IsBare name) : Spells true (.key name) name
  | point {name : String} (h : IsBare name) : Spells false (.key name) ("." ++ name)
  | bracket {first : Bool} (n : Nat) : Spells first (.index n) ("[" ++ toString n ++ "]")
  | number (n : Nat) : Spells false (.index n) ("." ++ toString n)

/-- The steps can be written like this, from the first one of a path on or behind another one. -/
inductive Spelling : (first : Bool) → List Step → String → Prop
  | nil (first : Bool) : Spelling first [] ""
  | cons {first : Bool} {s : Step} {p : List Step} {t rest : String} (h : Spells first s t)
      (hrest : Spelling false p rest) : Spelling first (s :: p) (t ++ rest)

/-- How a step that is written is read: a number behind a point is a name. -/
inductive ReadAs : Step → Step → Prop
  | same (s : Step) : ReadAs s s
  | number (n : Nat) : ReadAs (.index n) (.key (toString n))

variable {first : Bool} {s r : Step} {p steps : List Step} {name t path : String} {n : Nat}

/-- Another step can be written behind a spelling. -/
theorem Spelling.concat (h : Spelling first p path) (hp : p ≠ []) (hs : Spells false s t) :
    Spelling first (p ++ [s]) (path ++ t) := by
  induction h with
  | nil => exact absurd rfl hp
  | @cons first s' p t' rest h hrest ih =>
    rw [String.append_assoc]
    refine .cons h ?_
    by_cases hp' : p = []
    · subst hp'
      cases hrest
      simpa using Spelling.cons hs (.nil false)
    · exact ih hp'

/-! ### Indices -/

theorem toList_toString (n : Nat) : (toString n).toList = Nat.toDigits 10 n := by
  simp

theorem isDigit_of_mem {c : Char} (h : c ∈ (toString n).toList) : c.isDigit = true := by
  rw [toList_toString] at h
  exact Nat.isDigit_of_mem_toDigits (by decide) (by decide) h

theorem notMem_toString {c : Char} (h : c.isDigit = false) (n : Nat) : c ∉ (toString n).toList := by
  intro hmem
  rw [isDigit_of_mem hmem] at h
  cases h

theorem isBlank_of_isDigit {c : Char} (h : c.isDigit = true) : Text.isBlank c = false := by
  have hval : 48 ≤ c.toNat ∧ c.toNat ≤ 57 := by
    simpa [Char.isDigit, UInt32.le_iff_toNat_le] using h
  simp only [Text.isBlank, Bool.or_eq_false_iff, Bool.and_eq_false_iff, beq_eq_false_iff_ne,
    decide_eq_false_iff_not]
  omega

theorem tight_of_isDigit {cs : List Char} (h : ∀ c ∈ cs, c.isDigit = true) : Text.Tight cs :=
  ⟨fun c hc => isBlank_of_isDigit (h c (List.mem_of_mem_head? hc)),
    fun c hc => isBlank_of_isDigit (h c (List.mem_of_mem_getLast? hc))⟩

/-- A numeral can be written without brackets. -/
theorem isBare_toString (n : Nat) : IsBare (toString n) := by
  have htight : Text.Tight (toString n).toList := tight_of_isDigit fun c => isDigit_of_mem
  refine ⟨?_, notMem_toString (by decide) n, notMem_toString (by decide) n, ?_⟩
  · intro h
    have hne : Nat.toDigits 10 n ≠ [] := Nat.toDigits_ne_nil
    rw [← toList_toString, h] at hne
    exact hne rfl
  · rw [Text.trim, Text.trimChars_eq_self_iff.mpr htight, String.ofList_toList]

/-- A numeral is read as an index below `2 ^ 64`. -/
theorem index?_toString (n : Nat) :
    Decimal.index? (toString n) = if n < 0x10000000000000000 then some n else none := by
  have hall : (Nat.toDigits 10 n).all Char.isDigit = true := by
    rw [List.all_eq_true, ← toList_toString]
    exact fun c hc => isDigit_of_mem hc
  obtain ⟨c, cs, hcs, hc⟩ := Json.exists_head_toDigits n
  have hplus : c ≠ '+' := by
    rintro rfl
    exact absurd hc (by decide)
  have hvalue := Document.digitsValue_toDigits n
  unfold Decimal.index?
  rw [toList_toString]
  rw [hcs] at hall hvalue ⊢
  split
  · rename_i ds hds
    exact absurd (List.cons.inj hds).1 hplus
  · simp only [List.isEmpty_cons, hall, Bool.not_true, Bool.or_false, Bool.false_eq_true, if_false,
      hvalue]

/-! ### Brackets -/

theorem bracketed?_quoted {q : Char} (hq : q = '"' ∨ q = '\'') (cs : List Char) :
    bracketed? (q :: (cs ++ [q])) = some (.key (String.ofList cs)) := by
  have hblank : Text.isBlank q = false := by
    rcases hq with rfl | rfl <;> decide
  have htight : Text.Tight (q :: (cs ++ [q])) := Text.tight_between hblank hblank
  have hquoted : isQuoted (q :: (cs ++ [q])) = true := by
    rcases hq with rfl | rfl <;> simp [isQuoted]
  simp [bracketed?, Text.trimChars_eq_self_iff.mpr htight, hquoted]

theorem bracketed?_digits (n : Nat) : bracketed? (toString n).toList =
    if n < 0x10000000000000000 then some (.index n) else none := by
  have htight : Text.Tight (toString n).toList := tight_of_isDigit fun c hc => isDigit_of_mem hc
  have hquoted : isQuoted (toString n).toList = false := by
    obtain ⟨c, cs, hcs, hc⟩ := Json.exists_head_toDigits n
    rw [toList_toString, hcs]
    unfold isQuoted
    split
    · rename_i h
      rw [(List.cons.inj h).1] at hc
      exact absurd hc (by decide)
    · rename_i h
      rw [(List.cons.inj h).1] at hc
      exact absurd hc (by decide)
    · rfl
  unfold bracketed?
  simp only [Text.trimChars_eq_self_iff.mpr htight, hquoted, Bool.false_eq_true, if_false,
    String.ofList_toList, index?_toString]
  by_cases hn : n < 0x10000000000000000 <;> simp [hn]

/-! ### Reading -/

variable {start : Bool} {met : List Char}

theorem scan_bracket {inner : List Char} (h : ']' ∉ inner) (rest : List Char) :
    scan start (.bracket met) (inner ++ ']' :: rest) =
      (bracketed? (met.reverse ++ inner)).bind fun r =>
        (scan false (.name []) rest).map (r :: ·) := by
  induction inner generalizing met with
  | nil =>
    rw [List.nil_append, scan, List.append_nil]
    cases bracketed? met.reverse with
    | none => rfl
    | some r => cases scan false (.name []) rest <;> rfl
  | cons c inner ih =>
    rw [List.mem_cons, not_or] at h
    have hc : c ≠ ']' := Ne.symm h.1
    rw [List.cons_append, scan]
    · rw [ih h.2]
      simp
    · exact fun hc' => hc hc'

/-- What stands in brackets is a step. -/
theorem scan_brackets {inner : List Char} (h : ']' ∉ inner) (rest : List Char) :
    scan start (.name met) ('[' :: (inner ++ ']' :: rest)) =
      (bracketed? inner).bind fun r =>
        (scan false (.name []) rest).map fun steps => pending met ++ r :: steps := by
  rw [scan, scan_bracket h, List.reverse_nil, List.nil_append]
  cases bracketed? inner with
  | none => rfl
  | some r => cases scan false (.name []) rest <;> rfl

/-- A name without brackets is met character by character. -/
theorem scan_name {cs : List Char} (hpoint : '.' ∉ cs) (hbracket : '[' ∉ cs) (rest : List Char) :
    scan start (.name met) (cs ++ rest) = scan start (.name (cs.reverse ++ met)) rest := by
  induction cs generalizing met with
  | nil => rfl
  | cons c cs ih =>
    rw [List.mem_cons, not_or] at hpoint hbracket
    rw [List.cons_append, scan]
    · rw [ih hpoint.2 hbracket.2]
      simp
    · exact fun hc => hpoint.1 hc.symm
    · exact fun hc => hbracket.1 hc.symm

/-- A point ends a name, and there has to be a step before it. -/
theorem scan_point (h : start = false ∨ met ≠ []) (rest : List Char) :
    scan start (.name met) ('.' :: rest) =
      (scan false (.name []) rest).map (pending met ++ ·) := by
  have hcond : (met.isEmpty && start) = false := by
    rcases h with rfl | h
    · simp
    · simp [h]
  rw [scan, hcond]
  rfl

@[simp]
theorem pending_nil : pending [] = [] := rfl

theorem reverse_ne_nil (h : name ≠ "") : name.toList.reverse ≠ [] := by
  intro hnil
  rw [List.reverse_eq_nil_iff] at hnil
  exact h (String.toList_eq_nil_iff.mp hnil)

theorem pending_reverse (h : name ≠ "") : pending name.toList.reverse = [.key name] := by
  rw [pending]
  · rw [List.reverse_reverse, String.ofList_toList]
  · exact reverse_ne_nil h

/-- What a spelling of these steps may be read as: the steps, behind the ones before, or nothing if
one of them is an index that is out of range. -/
inductive Reads (before p : List Step) : Option (List Step) → Prop
  | beyond {n : Nat} (hn : 0x10000000000000000 ≤ n) (h : .index n ∈ p) : Reads before p none
  | steps {steps : List Step} (h : List.Forall₂ ReadAs p steps) :
      Reads before p (some (before ++ steps))

variable {before : List Step} {o : Option (List Step)}

/-- One more step is read. -/
theorem Reads.cons (hs : ReadAs s r) (h : Reads [] p o) :
    Reads before (s :: p) (o.map fun steps => before ++ r :: steps) := by
  cases h with
  | beyond hn h => exact .beyond hn (List.mem_cons_of_mem s h)
  | steps h => exact .steps (.cons hs h)

/-- The last step is not over yet where the rest begins. -/
theorem Reads.push (before : List Step) (hs : ReadAs s r) (h : Reads [r] p o) :
    Reads before (s :: p) (o.map (before ++ ·)) := by
  cases h with
  | beyond hn h => exact .beyond hn (List.mem_cons_of_mem s h)
  | steps h => exact .steps (.cons hs h)

/-- A name in quotes is read, whatever is before it. -/
theorem reads_quoted (start : Bool) (met : List Char) {q : Char} (hq : q = '"' ∨ q = '\'')
    (hname : ']' ∉ name.toList) {rest : List Char} (h : Reads [] p (scan false (.name []) rest)) :
    Reads (pending met) (.key name :: p)
      (scan start (.name met) ('[' :: (q :: (name.toList ++ [q]) ++ ']' :: rest))) := by
  have hinner : ']' ∉ q :: (name.toList ++ [q]) := by
    rcases hq with rfl | rfl <;> simp [hname]
  rw [scan_brackets hinner, bracketed?_quoted hq, String.ofList_toList]
  exact .cons (.same _) h

theorem reads_index (start : Bool) (met : List Char) {rest : List Char}
    (h : Reads [] p (scan false (.name []) rest)) :
    Reads (pending met) (.index n :: p)
      (scan start (.name met) ('[' :: ((toString n).toList ++ ']' :: rest))) := by
  rw [scan_brackets (notMem_toString (by decide) n), bracketed?_digits]
  by_cases hn : n < 0x10000000000000000
  · rw [if_pos hn]
    exact .cons (.same _) h
  · rw [if_neg hn]
    exact .beyond (Nat.le_of_not_lt hn) List.mem_cons_self

/-- A name without brackets is read behind a point. -/
theorem reads_point (hs : ReadAs s (.key name)) (hname : IsBare name)
    (hmet : start = false ∨ met ≠ []) {rest : List Char}
    (h : ∀ met, Reads (pending met) p (scan false (.name met) rest)) :
    Reads (pending met) (s :: p) (scan start (.name met) ('.' :: (name.toList ++ rest))) := by
  have hrest := h name.toList.reverse
  rw [pending_reverse hname.nonempty] at hrest
  rw [scan_point hmet, scan_name hname.point hname.bracket, List.append_nil]
  exact .push _ hs hrest

/-- Behind another step, a spelling is read as its steps. -/
theorem scan_behind (start : Bool) (met : List Char) (h : Spelling false p path)
    (hmet : start = false ∨ met ≠ []) :
    Reads (pending met) p (scan start (.name met) path.toList) := by
  generalize hfirst : false = first at h
  induction h generalizing start met with
  | nil =>
    rw [show "".toList = [] from rfl, scan]
    simpa using Reads.steps (List.Forall₂.nil (R := ReadAs))
  | @cons first s p t rest hs hrest ih =>
    have hlater (met : List Char) : Reads (pending met) p (scan false (.name met) rest.toList) :=
      ih false met (.inl rfl) rfl
    have hbegin := hlater []
    rw [pending_nil] at hbegin
    cases hs with
    | double hname => simpa using reads_quoted start met (.inl rfl) hname hbegin
    | single hname => simpa using reads_quoted start met (.inr rfl) hname hbegin
    | bare => cases hfirst
    | point hname =>
      rw [String.append_assoc, String.toList_append]
      simpa using reads_point (.same _) hname hmet hlater
    | bracket n => simpa using reads_index start met hbegin
    | number n => simpa using reads_point (.number n) (isBare_toString n) hmet hlater

/-- **Reading.** A path is read as the steps that it spells. -/
theorem scan_spelling (h : Spelling true p path) :
    Reads [] p (scan true (.name []) path.toList) := by
  cases h with
  | nil => exact .steps .nil
  | cons hs hrest =>
    have hbegin := scan_behind false [] hrest (.inl rfl)
    rw [pending_nil] at hbegin
    cases hs with
    | double hname => simpa using reads_quoted true [] (.inl rfl) hname hbegin
    | single hname => simpa using reads_quoted true [] (.inr rfl) hname hbegin
    | bare hname =>
      have hlater := scan_behind true _ hrest (.inr (reverse_ne_nil hname.nonempty))
      rw [pending_reverse hname.nonempty] at hlater
      rw [String.toList_append, scan_name hname.point hname.bracket, List.append_nil]
      simpa using Reads.push [] (.same _) hlater
    | bracket n => simpa using reads_index true [] hbegin

/-! ### Nothing is trimmed off -/

theorem IsBare.tight (h : IsBare name) : Text.Tight name.toList := by
  rw [← Text.trimChars_eq_self_iff]
  have htrim := congrArg String.toList h.trimmed
  rwa [Text.trim, String.toList_ofList] at htrim

theorem Spells.tight (h : Spells first s t) : Text.Tight t.toList := by
  have hpoint : Text.Tight ['.'] := Text.tight_singleton (by decide)
  have hbrackets (inner : List Char) : Text.Tight ('[' :: (inner ++ [']'])) :=
    Text.tight_between (by decide) (by decide)
  cases h with
  | @double _ name _ => simpa using hbrackets ('"' :: (name.toList ++ ['"']))
  | @single _ name _ => simpa using hbrackets ('\'' :: (name.toList ++ ['\'']))
  | bare h => exact h.tight
  | point h =>
    rw [String.toList_append]
    exact hpoint.append h.tight
  | bracket n => simpa using hbrackets (toString n).toList
  | number n =>
    rw [String.toList_append]
    exact hpoint.append (isBare_toString n).tight

theorem Spelling.tight (h : Spelling first p path) : Text.Tight path.toList := by
  induction h with
  | nil => exact Text.tight_nil
  | cons hs _ ih =>
    rw [String.toList_append]
    exact hs.tight.append ih

/-- A path that begins with a name is read as the steps that it spells. -/
theorem reads_steps? (h : Spelling true (.key name :: p) path) :
    Reads [] (.key name :: p) (steps? path) := by
  have hscan := scan_spelling h
  rw [steps?, Text.trimChars_eq_self_iff.mpr h.tight]
  generalize scan true (.name []) path.toList = o at hscan ⊢
  cases hscan with
  | beyond hn hmem => exact .beyond hn hmem
  | steps hsteps =>
    obtain _ | ⟨hname, hrest⟩ := hsteps
    cases hname
    exact .steps (.cons (.same _) hrest)

end Path

/-! ### Following -/

namespace Json

open Dialogue.Path

variable {v w : Json} {fs : Fields} {items : List Json} {name path t : String} {s r : Step}
  {p steps : List Step} {n : Nat}

/-- An index leads to the item there, also if it is read as a name, unless it is out of range
then. -/
theorem follow_item (h : ReadAs (.index n) r) :
    r.follow (.arr items) = items[n]? ∨
      r.follow (.arr items) = none ∧ 0x10000000000000000 ≤ n := by
  cases h with
  | same => exact .inl rfl
  | number =>
    rw [Step.follow, index?_toString]
    by_cases hn : n < 0x10000000000000000
    · rw [if_pos hn]
      exact .inl rfl
    · rw [if_neg hn]
      exact .inr ⟨rfl, Nat.le_of_not_lt hn⟩

theorem Lacks.follow (h : v.Lacks s) (hr : ReadAs s r) : r.follow v = none := by
  cases h with
  | member h =>
    cases hr
    exact h
  | @item items n h =>
    rcases follow_item hr with hfollow | ⟨hfollow, -⟩
    · rw [hfollow, List.getElem?_eq_none_iff]
      exact h
    · exact hfollow
  | scalar harr hobj =>
    cases v with
    | arr items => exact absurd rfl (harr items)
    | obj fs => exact absurd rfl (hobj fs)
    | null | bool | int | float | str => cases r <;> rfl

/-- The steps to a position lead there, however they are read. -/
theorem At.walk (h : v.At p w) (hr : List.Forall₂ ReadAs p steps)
    (hword : ∀ n, .index n ∈ p → n < 0x10000000000000000) : v.walk steps = some w := by
  induction h generalizing steps with
  | here =>
    cases hr
    rfl
  | member h _ ih =>
    obtain _ | ⟨hname, hrest⟩ := hr
    cases hname
    rw [Json.walk, Step.follow, h, Option.bind_some]
    exact ih hrest fun n hn => hword n (List.mem_cons_of_mem _ hn)
  | @item items n v w p h _ ih =>
    obtain _ | ⟨hindex, hrest⟩ := hr
    have hn : n < 0x10000000000000000 := hword n List.mem_cons_self
    rcases follow_item hindex with hfollow | ⟨-, hbeyond⟩
    · rw [Json.walk, hfollow, h, Option.bind_some]
      exact ih hrest fun n hn => hword n (List.mem_cons_of_mem _ hn)
    · omega

/-- The steps to a position and then nowhere lead nowhere, however they are read. -/
theorem At.walk_concat (h : v.At p w) (hs : w.Lacks s) (hr : List.Forall₂ ReadAs (p ++ [s]) steps) :
    v.walk steps = none := by
  induction h generalizing steps with
  | here =>
    obtain _ | ⟨hs', hrest⟩ := hr
    rw [Json.walk, hs.follow hs', Option.bind_none]
  | member h _ ih =>
    obtain _ | ⟨hname, hrest⟩ := hr
    cases hname
    rw [Json.walk, Step.follow, h, Option.bind_some]
    exact ih hs hrest
  | item h _ ih =>
    obtain _ | ⟨hindex, hrest⟩ := hr
    rcases follow_item hindex with hfollow | ⟨hfollow, -⟩
    · rw [Json.walk, hfollow, h, Option.bind_some]
      exact ih hs hrest
    · rw [Json.walk, hfollow, Option.bind_none]

/-- A path leads to the position that it spells, from an object. -/
theorem At.lookup? (hat : v.At (.key name :: p) w)
    (hword : ∀ n, .index n ∈ p → n < 0x10000000000000000)
    (hpath : Spelling true (.key name :: p) path) : v.lookup? path = some w := by
  have hreads := reads_steps? hpath
  have hword' (n : Nat) (hn : .index n ∈ Step.key name :: p) : n < 0x10000000000000000 := by
    rcases List.mem_cons.mp hn with hn | hn
    · cases hn
    · exact hword n hn
  rw [Json.lookup?]
  generalize steps? path = o at hreads ⊢
  cases hreads with
  | beyond hn hmem => exact absurd (hword' _ hmem) (Nat.not_lt.mpr hn)
  | steps hsteps => exact hat.walk hsteps hword'

/-- And nowhere if it spells one more step, which leads nowhere. -/
theorem At.lookup?_append (hat : v.At (.key name :: p) w)
    (hpath : Spelling true (.key name :: p) path) (hlacks : w.Lacks s) (hs : Spells false s t) :
    v.lookup? (path ++ t) = none := by
  have hreads := reads_steps? (hpath.concat nofun hs)
  rw [Json.lookup?]
  generalize steps? (path ++ t) = o at hreads ⊢
  cases hreads with
  | beyond => rfl
  | steps hsteps => exact hat.walk_concat hlacks hsteps

/-- **Every value is addressable.** A path that spells the steps to a position inside an object
leads to the value there, and to nothing if another step is written behind it that leads nowhere
from this value. Indices are machine words, as the positions of all arrays are. -/
theorem addresses (hat : (obj fs).At p v) (hp : p ≠ [])
    (hword : ∀ n, .index n ∈ p → n < 0x10000000000000000) (hpath : Spelling true p path) :
    (obj fs).lookup? path = some v ∧
      ∀ s t, v.Lacks s → Spells false s t → (obj fs).lookup? (path ++ t) = none := by
  cases hat with
  | here => exact absurd rfl hp
  | member h hat =>
    have hat' := At.member h hat
    refine ⟨hat'.lookup? (fun n hn => hword n (List.mem_cons_of_mem _ hn)) hpath, ?_⟩
    intro s t hlacks hs
    exact hat'.lookup?_append hpath hlacks hs

/-- In `{"a.b": [{"0": 7}]}`, the number is found behind quotes of both kinds and a point, and
nothing is found in it. -/
theorem addresses_number :
    let root := obj [("a.b", .arr [.obj [("0", .int 7)]])]
    root.lookup? "[\"a.b\"].0['0']" = some (.int 7) ∧
      root.lookup? "[\"a.b\"].0['0'].size" = none := by
  intro root
  have hat : root.At [.key "a.b", .index 0, .key "0"] (.int 7) :=
    .member rfl (.item rfl (.member rfl (.here _)))
  have hpath : Spelling true [.key "a.b", .index 0, .key "0"] "[\"a.b\"].0['0']" :=
    .cons (.double (by decide)) (.cons (.number 0) (.cons (.single (by decide)) (.nil _)))
  have hsize : Spells false (.key "size") ".size" :=
    .point ⟨by decide, by decide, by decide, by decide⟩
  have hword (n : Nat) (h : .index n ∈ [.key "a.b", .index 0, Step.key "0"]) :
      n < 0x10000000000000000 := by
    simp at h
    omega
  obtain ⟨hfound, hmissed⟩ := addresses hat (by simp) hword hpath
  exact ⟨hfound, hmissed _ _ (.scalar (by simp) (by simp)) hsize⟩

end Json

end Dialogue
