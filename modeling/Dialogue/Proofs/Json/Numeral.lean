import Dialogue.Proofs.Json.RoundTrip

/-! # Numbers in a text

A number that is read to the end of a text is read in the same way in front of any other text that
cannot belong to it. So it is enough that the text of a binary64 number alone is read as it.

* `number?_append`: a number does not depend on what stands behind it.
* `readsBack_iff`: a binary64 number reads back as soon as its own text does. -/

namespace Dialogue.Document

variable {cs rest r : List Char}

/-! ### What stands behind a number -/

theorem takeWhile_append_ends (cs : List Char) (h : EndsNumber rest) :
    (cs ++ rest).takeWhile Char.isDigit = cs.takeWhile Char.isDigit ∧
      (cs ++ rest).dropWhile Char.isDigit = cs.dropWhile Char.isDigit ++ rest := by
  induction cs with
  | nil =>
    cases rest with
    | nil => exact ⟨rfl, rfl⟩
    | cons c rest =>
      have hc := (h c rfl).1
      simp [hc]
  | cons c cs ih =>
    by_cases hc : c.isDigit = true
    · simp [hc, ih.1, ih.2]
    · simp [hc]

theorem digits1?_append_ends {ds : List Char} (h : digits1? cs = some (ds, r))
    (hr : EndsNumber rest) : digits1? (cs ++ rest) = some (ds, r ++ rest) := by
  obtain ⟨ht, hd⟩ := takeWhile_append_ends cs hr
  unfold digits1? at h ⊢
  rw [ht, hd]
  dsimp only at h ⊢
  split at h
  · cases h
  · rename_i hne
    cases h
    rw [if_neg hne]

theorem fraction?_append {f : Option (List Char)} (h : fraction? cs = some (f, r))
    (hr : EndsNumber rest) : fraction? (cs ++ rest) = some (f, r ++ rest) := by
  cases cs with
  | nil =>
    cases h
    exact fraction?_of_ends hr
  | cons c cs =>
    by_cases hc : c = '.'
    · subst hc
      rw [fraction?, Option.map_eq_some_iff] at h
      obtain ⟨⟨ds, r'⟩, hds, he⟩ := h
      cases he
      rw [List.cons_append, fraction?, digits1?_append_ends hds hr]
      rfl
    · have hplain (cs : List Char) : fraction? (c :: cs) = some (none, c :: cs) := by
        unfold fraction?
        split
        · rename_i heq
          exact absurd (List.cons.inj heq).1 hc
        · rfl
      rw [hplain] at h
      cases h
      exact hplain _

theorem exponentSign_append (hne : cs ≠ []) :
    exponentSign (cs ++ rest) = ((exponentSign cs).1, (exponentSign cs).2 ++ rest) := by
  obtain ⟨c, cs, rfl⟩ := List.exists_cons_of_ne_nil hne
  by_cases h1 : c = '-'
  · subst h1
    rfl
  by_cases h2 : c = '+'
  · subst h2
    rfl
  have hplain (cs : List Char) : exponentSign (c :: cs) = (false, c :: cs) := by
    unfold exponentSign
    split
    · rename_i heq
      exact absurd (List.cons.inj heq).1 h1
    · rename_i heq
      exact absurd (List.cons.inj heq).1 h2
    · rfl
  rw [List.cons_append, hplain, hplain]
  rfl

theorem exponent?_append {f : Option (List Char)} {e : Int} (h : exponent? cs = some (f, e, r))
    (hr : EndsNumber rest) : exponent? (cs ++ rest) = some (f, e, r ++ rest) := by
  cases cs with
  | nil =>
    cases h
    exact exponent?_of_ends hr
  | cons c cs =>
    rw [List.cons_append]
    unfold exponent? at h ⊢
    dsimp only at h ⊢
    by_cases hc : c = 'e' ∨ c = 'E'
    · rw [if_pos hc] at h ⊢
      have hne : cs ≠ [] := by
        rintro rfl
        cases h
      rw [exponentSign_append hne]
      dsimp only at h ⊢
      rw [Option.map_eq_some_iff] at h
      obtain ⟨⟨ds, r'⟩, hds, he⟩ := h
      cases he
      rw [digits1?_append_ends hds hr]
      rfl
    · rw [if_neg hc] at h ⊢
      cases h
      rfl

theorem whole?_append {w : List Char} (h : whole? cs = some (w, r)) (hr : EndsNumber rest) :
    whole? (cs ++ rest) = some (w, r ++ rest) := by
  have hplain {cs : List Char} (h : ∀ c ds, cs ≠ '0' :: c :: ds) : whole? cs = digits1? cs := by
    unfold whole?
    split
    · exact absurd rfl (h _ _)
    · rfl
  by_cases hzero : ∃ c ds, cs = '0' :: c :: ds
  · obtain ⟨c, ds, rfl⟩ := hzero
    rw [List.cons_append, List.cons_append, whole?]
    rw [whole?] at h
    split at h
    · cases h
    · rename_i hc
      cases h
      rw [if_neg hc]
      rfl
  have hcs : ∀ c ds, cs ≠ '0' :: c :: ds := fun c ds heq => hzero ⟨c, ds, heq⟩
  rw [hplain hcs] at h
  by_cases hone : cs = ['0']
  · subst hone
    cases rest with
    | nil =>
      cases h
      rfl
    | cons c rest =>
      have hc := (hr c rfl).1
      cases h
      rw [List.singleton_append, whole?, if_neg (by simp [hc])]
      rfl
  · have hne : cs ≠ [] := by
      rintro rfl
      cases h
    refine (hplain fun c ds heq => ?_).trans (digits1?_append_ends h hr)
    obtain ⟨d, cs, rfl⟩ := List.exists_cons_of_ne_nil hne
    obtain ⟨rfl, htail⟩ := List.cons.inj heq
    cases cs with
    | nil => exact hone rfl
    | cons c cs => exact hcs _ _ rfl

/-- **A number does not depend on what stands behind it.** -/
theorem number?_append {neg : Bool} {d : Document} (h : number? neg cs = some (d, r))
    (hr : EndsNumber rest) : number? neg (cs ++ rest) = some (d, r ++ rest) := by
  unfold number? at h ⊢
  cases hw : whole? cs with
  | none => rw [hw] at h; cases h
  | some w =>
  obtain ⟨w, cs1⟩ := w
  cases hf : fraction? cs1 with
  | none => simp [hw, hf] at h
  | some f =>
  obtain ⟨f, cs2⟩ := f
  cases he : exponent? cs2 with
  | none => simp [hw, hf, he] at h
  | some e =>
  obtain ⟨x, e, cs3⟩ := e
  simp only [hw, hf, he, bind, Option.bind] at h
  cases h
  simp only [whole?_append hw hr, fraction?_append hf hr, exponent?_append he hr, bind,
    Option.bind]
  rfl

/-! ### What a number leaves of a text -/

theorem digits1?_suffix {ds : List Char} (h : digits1? cs = some (ds, r)) : r <:+ cs := by
  unfold digits1? at h
  dsimp only at h
  split at h
  · cases h
  · cases h
    exact List.dropWhile_suffix _

theorem whole?_suffix {w : List Char} (h : whole? cs = some (w, r)) : r <:+ cs := by
  unfold whole? at h
  split at h
  · split at h
    · cases h
    · cases h
      exact List.suffix_cons _ _
  · exact digits1?_suffix h

theorem fraction?_suffix {f : Option (List Char)} (h : fraction? cs = some (f, r)) : r <:+ cs := by
  unfold fraction? at h
  split at h
  · rw [Option.map_eq_some_iff] at h
    obtain ⟨⟨ds, r'⟩, hds, he⟩ := h
    cases he
    exact (digits1?_suffix hds).trans (List.suffix_cons _ _)
  · cases h
    exact List.suffix_rfl

theorem exponentSign_suffix : (exponentSign cs).2 <:+ cs := by
  unfold exponentSign
  split
  · exact List.suffix_cons _ _
  · exact List.suffix_cons _ _
  · exact List.suffix_rfl

theorem exponent?_suffix {f : Option (List Char)} {e : Int} (h : exponent? cs = some (f, e, r)) :
    r <:+ cs := by
  unfold exponent? at h
  split at h
  · cases h
    exact List.suffix_rfl
  · split at h
    · dsimp only at h
      rw [Option.map_eq_some_iff] at h
      obtain ⟨⟨ds, r'⟩, hds, he⟩ := h
      cases he
      exact ((digits1?_suffix hds).trans exponentSign_suffix).trans (List.suffix_cons _ _)
    · cases h
      exact List.suffix_rfl

theorem number?_suffix {neg : Bool} {d : Document} (h : number? neg cs = some (d, r)) :
    r <:+ cs := by
  unfold number? at h
  cases hw : whole? cs with
  | none => rw [hw] at h; cases h
  | some w =>
  obtain ⟨w, cs1⟩ := w
  cases hf : fraction? cs1 with
  | none => simp [hw, hf] at h
  | some f =>
  obtain ⟨f, cs2⟩ := f
  cases he : exponent? cs2 with
  | none => simp [hw, hf, he] at h
  | some e =>
  obtain ⟨x, e, cs3⟩ := e
  simp only [hw, hf, he, bind, Option.bind] at h
  cases h
  exact ((exponent?_suffix he).trans (fraction?_suffix hf)).trans (whole?_suffix hw)

end Dialogue.Document

namespace Dialogue.Decimal

/-! ### The text of a binary64 number -/

/-- The character stands in decimals. -/
def IsNumeral (c : Char) : Prop := c.isDigit = true ∨ c = '.' ∨ c = 'e' ∨ c = '+' ∨ c = '-'

/-- The text begins with a digit and has characters of decimals only. -/
def Written (cs : List Char) : Prop :=
  (∃ c ∈ cs.head?, c.isDigit = true) ∧ ∀ c ∈ cs, IsNumeral c

theorem isNumeral_toDigits {n : Nat} {c : Char} (h : c ∈ Nat.toDigits 10 n) : IsNumeral c :=
  .inl (Nat.isDigit_of_mem_toDigits (by decide) (by decide) h)

theorem written_toDigits (n : Nat) : Written (Nat.toDigits 10 n) := by
  refine ⟨?_, fun c hc => isNumeral_toDigits hc⟩
  obtain ⟨c, cs, hcs, hc⟩ := Json.exists_head_toDigits n
  rw [hcs]
  exact ⟨c, rfl, hc⟩

theorem Written.append {cs rest : List Char} (h : Written cs) (hr : ∀ c ∈ rest, IsNumeral c) :
    Written (cs ++ rest) := by
  obtain ⟨⟨c, hc, hd⟩, hall⟩ := h
  refine ⟨⟨c, ?_, hd⟩, fun d hd => ?_⟩
  · cases cs with
    | nil => cases hc
    | cons _ _ => exact hc
  · rcases List.mem_append.mp hd with h | h
    · exact hall d h
    · exact hr d h

theorem written_zero {rest : List Char} (hr : ∀ c ∈ rest, IsNumeral c) : Written ('0' :: rest) :=
  (written_toDigits 0).append hr

theorem written_positional {ds : List Char} (h : Written ds) (p : Int) :
    Written (positionalChars .json ds p) := by
  unfold positionalChars
  split
  · refine written_zero fun c hc => ?_
    simp only [List.mem_cons, List.mem_append, List.mem_replicate] at hc
    rcases hc with rfl | ⟨-, rfl⟩ | hc
    · exact .inr (.inl rfl)
    · exact .inl (by decide)
    · exact h.2 c hc
  · rename_i hp
    split
    · rw [List.append_assoc]
      refine h.append fun c hc => ?_
      simp only [Layout.json, if_true, List.mem_append, List.mem_replicate, List.mem_cons,
        List.not_mem_nil, or_false] at hc
      rcases hc with ⟨-, rfl⟩ | rfl | rfl
      · exact .inl (by decide)
      · exact .inr (.inl rfl)
      · exact .inl (by decide)
    · refine Written.append ⟨?_, fun c hc => h.2 c (List.mem_of_mem_take hc)⟩ fun c hc => ?_
      · obtain ⟨c, hc, hd⟩ := h.1
        refine ⟨c, ?_, hd⟩
        rwa [List.head?_take, if_neg (by omega)]
      · rcases List.mem_cons.mp hc with rfl | hc
        · exact .inr (.inl rfl)
        · exact h.2 c (List.mem_of_mem_drop hc)

theorem written_exponent {ds : List Char} (h : Written ds) (e : Int) :
    Written (exponentChars ds e) := by
  have htail : ∀ c ∈ 'e' :: (if e < 0 then '-' else '+') :: Nat.toDigits 10 e.natAbs,
      IsNumeral c := by
    intro c hc
    simp only [List.mem_cons] at hc
    rcases hc with rfl | rfl | hc
    · exact .inr (.inr (.inl rfl))
    · split
      · exact .inr (.inr (.inr (.inr rfl)))
      · exact .inr (.inr (.inr (.inl rfl)))
    · exact isNumeral_toDigits hc
  unfold exponentChars
  refine Written.append ?_ htail
  obtain ⟨⟨c, hc, hd⟩, hall⟩ := h
  match ds, hc, hall with
  | [d], hc, hall => exact ⟨⟨c, hc, hd⟩, hall⟩
  | d :: d' :: rest, hc, hall =>
    refine ⟨⟨c, hc, hd⟩, fun x hx => ?_⟩
    simp only [List.mem_cons] at hx
    rcases hx with rfl | rfl | hx
    · exact hall x List.mem_cons_self
    · exact .inr (.inl rfl)
    · exact hall x (List.mem_cons_of_mem _ (List.mem_cons.mpr hx))

theorem written_magnitude (x : Float) : Written (magnitudeChars .json x) := by
  unfold magnitudeChars
  dsimp only
  split
  · exact written_zero (by simp [IsNumeral])
  · split
    · exact written_positional (written_toDigits _) _
    · exact written_exponent (written_toDigits _) _

end Dialogue.Decimal

namespace Dialogue.Json

open Document Decimal

theorem not_isGap_of_isNumeral {c : Char} (h : IsNumeral c) : isGap c = false := by
  rcases h with h | rfl | rfl | rfl | rfl
  · exact Bool.eq_false_iff.mpr fun hg => not_isSeam_of_isDigit h (.inl hg)
  all_goals decide

/-- A number that fills a text is read in front of any other text that cannot belong to it. -/
theorem number?_ofWritten {neg : Bool} {cs r rest : List Char} {d : Document} (hcs : Written cs)
    (h : number? neg cs = some (d, r)) (hr : (skipGap r).isEmpty = true) (hrest : EndsNumber rest) :
    number? neg (cs ++ rest) = some (d, rest) := by
  have hempty : r = [] := by
    cases r with
    | nil => rfl
    | cons c r =>
      have hc := hcs.2 c ((number?_suffix h).subset List.mem_cons_self)
      rw [skipGap_cons (not_isGap_of_isNumeral hc)] at hr
      cases hr
  rw [number?_append h hrest, hempty, List.nil_append]

theorem exists_value?_of_read? {v : Json} {d : Document} (h : Document.read? v.text = some d) :
    ∃ r, value? (2 * v.chars.length + 2) maxDepth v.chars = some (d, r) ∧
      (skipGap r).isEmpty = true := by
  unfold Document.read? text at h
  rw [String.toList_ofList] at h
  dsimp only at h
  split at h
  · split at h
    · cases h
      exact ⟨_, ‹_›, ‹_›⟩
    · cases h
  · cases h

/-- **A binary64 number reads back** as soon as its own text does. -/
theorem readsBack_iff {x : Float} :
    ReadsBack x ↔ Document.read? (float x).text = some (.float x) := by
  constructor
  · intro h
    exact read?_text (v := .float x) (by rwa [Legible]) (by simp [depth])
  intro h
  obtain ⟨r, hread, hr⟩ := exists_value?_of_read? h
  rw [chars] at hread
  have hwritten := written_magnitude x
  obtain ⟨⟨c, hc, hd⟩, -⟩ := id hwritten
  obtain ⟨cs, hcs⟩ : ∃ cs, magnitudeChars .json x = c :: cs := by
    cases hm : magnitudeChars .json x with
    | nil => rw [hm] at hc; cases hc
    | cons c' cs => rw [hm] at hc; cases hc; exact ⟨cs, rfl⟩
  unfold ReadsBack
  unfold Layout.chars at hread ⊢
  by_cases hnan : x.isNaN = true
  · rw [if_pos hnan] at hread
    cases hread
  rw [if_neg hnan] at hread ⊢
  by_cases hinf : x.isInf = true
  · rw [if_pos hinf] at hread
    dsimp only at hread
    split at hread <;> cases hread
  rw [if_neg hinf] at hread ⊢
  dsimp only at hread ⊢
  by_cases hneg : isNegative x = true
  · rw [if_pos hneg] at hread ⊢
    have hnumber : number? true (magnitudeChars .json x) = some (.float x, r) := hread
    exact ⟨⟨'-', rfl, .inl rfl⟩, fun fuel room rest hrest =>
      number?_ofWritten hwritten hnumber hr hrest⟩
  · rw [if_neg hneg] at hread ⊢
    refine ⟨⟨c, hc, .inr hd⟩, fun fuel room rest hrest => ?_⟩
    have hplain (fuel room : Nat) (rest : List Char) :
        value? (fuel + 1) room (magnitudeChars .json x ++ rest) =
          number? false (magnitudeChars .json x ++ rest) := by
      rw [hcs, List.cons_append, value?_digit hd]
    have hnumber : number? false (magnitudeChars .json x) = some (.float x, r) := by
      rw [← List.append_nil (magnitudeChars .json x), ← hplain _ maxDepth [], List.append_nil]
      exact hread
    rw [hplain]
    exact number?_ofWritten hwritten hnumber hr hrest

end Dialogue.Json
