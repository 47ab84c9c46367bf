import Dialogue.Text.Blank
import Dialogue.Text.Lower
import Mathlib.Data.List.Induction

/-! # Lower case in context

The lower-case form of a text depends on what stands around it in one respect only: whether a
capital sigma in it ends a word. Around the text, it is told by whether a cased letter is the first
that counts before it, and behind it. A text none of whose sigmas depends on that has one lower-case
form wherever it stands, and one that has such a sigma has a place where its form is another one.

* `lowerIn_congr`: what counts of the text around.
* `lowerIn_eq`, `lowerAfter_within`: a text without a loose sigma.
* `count_lt_of_opens`, `count_lt_of_closes`: a text with one.
* `trimChars_lowerAfter`: lower case and the blanks at the ends. -/

namespace Dialogue.Text

/-- The character does not count between letters. -/
def isIgnorable (c : Char) : Bool := inRanges caseIgnorableRanges c.toNat

/-- The character is a letter with case. -/
def isCased (c : Char) : Bool := inRanges casedRanges c.toNat

variable {c : Char} {cs ds before before' after after' : List Char}

/-! ### What starts with a cased letter -/

theorem startsCased_cons (c : Char) (cs : List Char) :
    startsCased (c :: cs) = if isIgnorable c then startsCased cs else isCased c := by
  unfold startsCased
  rw [List.dropWhile_cons]
  show _ = if inRanges caseIgnorableRanges c.toNat then _ else _
  cases inRanges caseIgnorableRanges c.toNat <;> rfl

theorem startsCased_append (cs ds : List Char) :
    startsCased (cs ++ ds) = if cs.all isIgnorable then startsCased ds else startsCased cs := by
  induction cs with
  | nil => rfl
  | cons c cs ih =>
    rw [List.cons_append, startsCased_cons, startsCased_cons, ih, List.all_cons]
    cases isIgnorable c <;> rfl

theorem startsCased_of_all (h : cs.all isIgnorable = true) : startsCased cs = false := by
  have happend := startsCased_append cs []
  rwa [List.append_nil, if_pos h] at happend

theorem isIgnorable_sigma : isIgnorable 'Σ' = false := by decide +kernel

theorem startsCased_sigma (cs : List Char) : startsCased ('Σ' :: cs) = true := by
  have hcased : isCased 'Σ' = true := by decide +kernel
  rw [startsCased_cons, isIgnorable_sigma, hcased]
  rfl

theorem lowerChar_alpha : lowerChar 'Α' = ['α'] := by decide +kernel

theorem startsCased_alpha : startsCased ['Α'] = true := by decide +kernel

/-! ### Lower case in context -/

/-- The lower-case form of a text between what stands before it, nearest first, and what follows. -/
def lowerIn (after before : List Char) : List Char → List Char
  | [] => []
  | c :: rest =>
    (if c = 'Σ' then [lowerSigma before (rest ++ after)] else lowerChar c) ++
      lowerIn after (c :: before) rest

theorem lowerIn_nil (before cs : List Char) : lowerIn [] before cs = lowerAfter before cs := by
  induction cs generalizing before with
  | nil => rfl
  | cons c rest ih => rw [lowerIn, lowerAfter, ih, List.append_nil]

theorem lowerIn_append (after before cs ds : List Char) :
    lowerIn after before (cs ++ ds) =
      lowerIn (ds ++ after) before cs ++ lowerIn after (cs.reverse ++ before) ds := by
  induction cs generalizing before with
  | nil => rfl
  | cons c rest ih =>
    rw [List.cons_append, lowerIn, lowerIn, ih, List.append_assoc, List.append_assoc,
      List.reverse_cons, List.append_assoc]
    rfl

theorem lowerAfter_append (before cs ds : List Char) :
    lowerAfter before (cs ++ ds) =
      lowerIn ds before cs ++ lowerAfter (cs.reverse ++ before) ds := by
  rw [← lowerIn_nil, lowerIn_append, List.append_nil, lowerIn_nil]

/-- **What counts of the text around** is whether it starts with a cased letter, on either side. -/
theorem lowerIn_congr (hbefore : startsCased before = startsCased before')
    (hafter : startsCased after = startsCased after') (cs : List Char) :
    lowerIn after before cs = lowerIn after' before' cs := by
  induction cs generalizing before before' with
  | nil => rfl
  | cons c rest ih =>
    have hnext : startsCased (c :: before) = startsCased (c :: before') := by
      rw [startsCased_cons, startsCased_cons, hbefore]
    rw [lowerIn, lowerIn, ih hnext]
    simp only [lowerSigma, startsCased_append, hbefore, hafter]

theorem lowerAfter_congr (h : startsCased before = startsCased before') (cs : List Char) :
    lowerAfter before cs = lowerAfter before' cs := by
  rw [← lowerIn_nil, ← lowerIn_nil, lowerIn_congr h rfl]

/-- Without a sigma, nothing counts. -/
theorem lowerIn_of_notMem (h : 'Σ' ∉ cs) (after before : List Char) :
    lowerIn after before cs = cs.flatMap lowerChar := by
  induction cs generalizing before with
  | nil => rfl
  | cons c rest ih =>
    rw [List.mem_cons, not_or] at h
    rw [lowerIn, if_neg (Ne.symm h.1), ih h.2, List.flatMap_cons]

/-! ### Loose sigmas -/

/-- The text opens with a sigma that a letter before the text would make the end of a word. -/
def Opens (cs : List Char) : Prop :=
  ∃ u v, cs = u ++ 'Σ' :: v ∧ u.all isIgnorable = true ∧ startsCased v = false

/-- The text closes with a sigma that is the end of a word unless a letter follows the text. -/
def Closes (cs : List Char) : Prop :=
  ∃ u v, cs = u ++ 'Σ' :: v ∧ v.all isIgnorable = true ∧ startsCased u.reverse = true

/-- There is a sigma whose form depends on what stands around the text. -/
def Loose (cs : List Char) : Prop := Opens cs ∨ Closes cs

/-- The form of a sigma that is not loose. -/
theorem lowerSigma_eq {u v : List Char}
    (hopens : Opens (u ++ 'Σ' :: v) → startsCased before = false)
    (hcloses : Closes (u ++ 'Σ' :: v) → startsCased after = false) :
    lowerSigma (u.reverse ++ before) (v ++ after) = lowerSigma u.reverse v := by
  unfold lowerSigma
  rw [startsCased_append, startsCased_append, List.all_reverse]
  cases hu : u.all isIgnorable with
  | true =>
    have hnone : startsCased u.reverse = false :=
      startsCased_of_all (by rw [List.all_reverse, hu])
    cases hv : startsCased v with
    | false =>
      rw [if_pos rfl, hopens ⟨u, v, rfl, hu, hv⟩, hnone]
      rfl
    | true =>
      have hall : v.all isIgnorable = false :=
        Bool.eq_false_iff.mpr fun h => by rw [startsCased_of_all h] at hv; cases hv
      simp [hall, hnone]
  | false =>
    cases hall : v.all isIgnorable with
    | true =>
      cases hcased : startsCased u.reverse with
      | false => simp
      | true =>
        rw [if_neg Bool.false_ne_true, if_pos rfl, hcloses ⟨u, v, rfl, hall, hcased⟩,
          startsCased_of_all hall]
    | false => simp

/-- **A text without a loose sigma** has one lower-case form wherever it stands. -/
theorem lowerIn_eq (hopens : Opens cs → startsCased before = false)
    (hcloses : Closes cs → startsCased after = false) :
    lowerIn after before cs = lowerAfter [] cs := by
  have hsplit (u v : List Char) (h : cs = u ++ v) :
      lowerIn after (u.reverse ++ before) v = lowerAfter u.reverse v := by
    -- the sigmas are met one by one, each with the text in front of it as `u`
    induction v generalizing u with
    | nil => rfl
    | cons c rest ih =>
      have hnext := ih (u ++ [c]) (by rw [h, List.append_assoc]; rfl)
      rw [List.reverse_append] at hnext
      rw [lowerIn, lowerAfter]
      refine congr (congrArg _ ?_) hnext
      split
      · next hc =>
        subst hc h
        rw [lowerSigma_eq hopens hcloses]
      · rfl
  exact hsplit [] cs rfl

theorem lowerAfter_within (hcs : ¬ Loose cs) (h : cs <:+: ds) :
    lowerAfter [] cs <:+: lowerAfter [] ds := by
  obtain ⟨front, back, rfl⟩ := h
  rw [Loose, not_or] at hcs
  have hmiddle : lowerIn back front.reverse cs = lowerAfter [] cs :=
    lowerIn_eq (absurd · hcs.1) (absurd · hcs.2)
  refine ⟨lowerIn (cs ++ back) [] front, lowerAfter ((front ++ cs).reverse ++ []) back, ?_⟩
  rw [lowerAfter_append, lowerIn_append, List.append_nil, List.append_nil, hmiddle]

/-- What is ignorable has no sigma. -/
theorem notMem_of_all (h : cs.all isIgnorable = true) : 'Σ' ∉ cs := by
  intro hmem
  have hsigma := List.all_eq_true.mp h _ hmem
  rw [isIgnorable_sigma] at hsigma
  cases hsigma

/-- Behind a letter, a text that opens with a loose sigma has one common sigma less. -/
theorem count_lt_of_opens (h : Opens cs) :
    (lowerAfter [] ('Α' :: cs)).count 'σ' < (lowerAfter [] cs).count 'σ' := by
  obtain ⟨u, v, rfl, hu, hv⟩ := h
  have hnone : startsCased u.reverse = false := startsCased_of_all (by rw [List.all_reverse, hu])
  have hletter : startsCased (u.reverse ++ ['Α']) = true := by
    rw [startsCased_append, List.all_reverse, if_pos hu, startsCased_alpha]
  have hplain : lowerSigma u.reverse v = 'σ' := by simp [lowerSigma, hnone]
  have hfinal : lowerSigma (u.reverse ++ ['Α']) v = 'ς' := by simp [lowerSigma, hletter, hv]
  have hbehind : lowerAfter ('Σ' :: (u.reverse ++ ['Α'])) v = lowerAfter ('Σ' :: u.reverse) v :=
    lowerAfter_congr (by rw [startsCased_sigma, startsCased_sigma]) v
  rw [lowerAfter, if_neg (by decide), lowerChar_alpha, lowerAfter_append, lowerAfter_append,
    lowerIn_of_notMem (notMem_of_all hu), lowerIn_of_notMem (notMem_of_all hu), lowerAfter,
    lowerAfter, if_pos rfl, if_pos rfl, List.append_nil, hplain, hfinal, hbehind]
  simp [List.count_append]

/-- Before a letter, a text that closes with a loose sigma has one final sigma less. -/
theorem count_lt_of_closes (h : Closes cs) :
    (lowerAfter [] (cs ++ ['Α'])).count 'ς' < (lowerAfter [] cs).count 'ς' := by
  obtain ⟨u, v, rfl, hv, hu⟩ := h
  have hletter : startsCased (v ++ ['Α']) = true := by
    rw [startsCased_append, if_pos hv, startsCased_alpha]
  have hplain : lowerSigma u.reverse (v ++ ['Α']) = 'σ' := by simp [lowerSigma, hletter]
  have hfinal : lowerSigma u.reverse v = 'ς' := by
    simp [lowerSigma, hu, startsCased_of_all hv]
  have hfront : lowerIn ('Σ' :: v ++ ['Α']) [] u = lowerIn ('Σ' :: v) [] u :=
    lowerIn_congr rfl (by rw [List.cons_append, startsCased_sigma, startsCased_sigma]) u
  have hlast (before : List Char) : lowerAfter before ['Α'] = ['α'] := by
    rw [lowerAfter, if_neg (by decide), lowerChar_alpha]
    rfl
  rw [lowerAfter_append, hlast, lowerIn_append, lowerAfter_append, hfront, List.append_nil, lowerIn,
    lowerAfter, if_pos rfl, if_pos rfl, hplain, hfinal, ← lowerIn_nil,
    lowerIn_of_notMem (notMem_of_all hv), lowerIn_of_notMem (notMem_of_all hv)]
  simp [List.count_append]

/-! ### Blanks -/

/-- The code points of blanks. -/
def blanks : List Nat :=
  [9, 10, 11, 12, 13, 0x20, 0x85, 0xA0, 0x1680, 0x2000, 0x2001, 0x2002, 0x2003, 0x2004, 0x2005,
    0x2006, 0x2007, 0x2008, 0x2009, 0x200A, 0x2028, 0x2029, 0x202F, 0x205F, 0x3000]

theorem isBlank_iff : isBlank c = true ↔ c.toNat ∈ blanks := by
  simp only [isBlank, blanks, Bool.or_eq_true, Bool.and_eq_true, decide_eq_true_eq, beq_iff_eq,
    List.mem_cons, List.not_mem_nil, or_false]
  omega

/-- A blank is a character that counts, is no letter, and has no other form. -/
theorem blank_facts (h : isBlank c = true) :
    isIgnorable c = false ∧ isCased c = false ∧ c ≠ 'Σ' ∧ lowerChar c = [c] := by
  have hall : ∀ n ∈ blanks, isIgnorable (Char.ofNat n) = false ∧ isCased (Char.ofNat n) = false ∧
      Char.ofNat n ≠ 'Σ' ∧ lowerChar (Char.ofNat n) = [Char.ofNat n] := by decide +kernel
  have hc := hall _ (isBlank_iff.mp h)
  rwa [Char.ofNat_toNat] at hc

theorem startsCased_blank (h : isBlank c = true) (cs : List Char) :
    startsCased (c :: cs) = false := by
  obtain ⟨hign, hcased, -, -⟩ := blank_facts h
  rw [startsCased_cons, hign, hcased]
  rfl

/-- No entry of the case map leads to a blank. -/
theorem target_notMem_blanks {r : CaseRange} (hr : r ∈ lowerRanges) {n : Nat}
    (hn : r.has n = true) : r.target + (n - r.first) ∉ blanks := by
  have hall : ∀ r ∈ lowerRanges, ∀ b ∈ blanks,
      b < r.target ∨ r.target + (r.last - r.first) < b := by decide +kernel
  intro hmem
  have hapart := hall r hr _ hmem
  simp only [CaseRange.has, Bool.and_eq_true, decide_eq_true_eq] at hn
  omega

/-- No form of a character that is not blank has a blank in it. -/
theorem isBlank_of_mem_lowerChar (h : isBlank c = false) {d : Char} (hd : d ∈ lowerChar c) :
    isBlank d = false := by
  unfold lowerChar at hd
  split at hd
  · next hascii =>
    have hall : ∀ n < 0x80, isBlank (Char.ofNat n) = false →
        isBlank (Char.ofNat n).toLower = false := by decide +kernel
    have hc := hall _ hascii
    rw [Char.ofNat_toNat] at hc
    rw [List.mem_singleton.mp hd]
    exact hc h
  · split at hd
    · obtain rfl | hd := List.mem_cons.mp hd
      · decide
      · rw [List.mem_singleton.mp hd]
        decide
    · split at hd
      · next r hr =>
        have hhas : r.has c.toNat = true := by simpa using List.find?_some hr
        have hnone := target_notMem_blanks (List.mem_of_find?_eq_some hr) hhas
        rw [List.mem_singleton.mp hd, Bool.eq_false_iff, ne_eq, isBlank_iff, Char.ofNat]
        -- a number that is no character stands for zero
        by_cases hvalid : (r.target + (c.toNat - r.first)).isValidChar
        · rw [dif_pos hvalid]
          exact hnone
        · rw [dif_neg hvalid]
          decide
      · rw [List.mem_singleton.mp hd, h]

theorem lowerChar_ne_nil (c : Char) : lowerChar c ≠ [] := by
  unfold lowerChar
  split
  · exact List.cons_ne_nil _ _
  · split
    · exact List.cons_ne_nil _ _
    · split <;> exact List.cons_ne_nil _ _

/-- The form of a character that is not blank has no blank in it, and is not empty. -/
theorem lowerIn_singleton (h : isBlank c = false) (after before : List Char) :
    lowerIn after before [c] ≠ [] ∧ ∀ d ∈ lowerIn after before [c], isBlank d = false := by
  rw [lowerIn, lowerIn, List.append_nil, List.nil_append]
  split
  · refine ⟨List.cons_ne_nil _ _, fun d hd => ?_⟩
    rw [List.mem_singleton.mp hd, lowerSigma]
    split <;> decide
  · exact ⟨lowerChar_ne_nil c, fun d hd => isBlank_of_mem_lowerChar h hd⟩

theorem trimStartChars_append (hne : cs ≠ []) (h : ∀ d ∈ cs, isBlank d = false) :
    trimStartChars (cs ++ ds) = cs ++ ds := by
  cases cs with
  | nil => exact absurd rfl hne
  | cons c cs => exact trimStartChars_cons (h c List.mem_cons_self)

theorem trimEndChars_append (hne : cs ≠ []) (h : ∀ d ∈ cs, isBlank d = false) :
    trimEndChars (ds ++ cs) = ds ++ cs := by
  rw [trimEndChars, List.reverse_append, ← trimStartChars,
    trimStartChars_append (by simpa using hne) (by simpa using h)]
  simp

theorem trimStartChars_lowerAfter (h : startsCased before = false) (cs : List Char) :
    trimStartChars (lowerAfter before cs) = lowerAfter [] (trimStartChars cs) := by
  induction cs generalizing before with
  | nil => rfl
  | cons c rest ih =>
    cases hc : isBlank c with
    | true =>
      obtain ⟨-, -, hne, hform⟩ := blank_facts hc
      have hdrop (cs : List Char) : trimStartChars (c :: cs) = trimStartChars cs :=
        List.dropWhile_cons_of_pos hc
      rw [lowerAfter, if_neg hne, hform, hdrop, ← ih (startsCased_blank hc before)]
      exact hdrop _
    | false =>
      obtain ⟨hne, hnone⟩ := lowerIn_singleton hc rest before
      have hcons := lowerAfter_append before [c] rest
      have hsame : lowerAfter before (c :: rest) = lowerAfter [] (c :: rest) :=
        lowerAfter_congr h _
      rw [trimStartChars_cons hc, ← hsame]
      rw [List.singleton_append] at hcons
      rw [hcons, trimStartChars_append hne hnone]

theorem trimEndChars_lowerAfter (before cs : List Char) :
    trimEndChars (lowerAfter before cs) = lowerAfter before (trimEndChars cs) := by
  induction cs using List.reverseRecOn with
  | nil => rfl
  | append_singleton cs c ih =>
    cases hc : isBlank c with
    | true =>
      obtain ⟨-, -, hne, hform⟩ := blank_facts hc
      have hdrop (cs : List Char) : trimEndChars (cs ++ [c]) = trimEndChars cs := by
        simp [trimEndChars, hc]
      have hfront : lowerIn [c] before cs = lowerAfter before cs :=
        (lowerIn_congr rfl (startsCased_blank hc []) cs).trans (lowerIn_nil before cs)
      rw [lowerAfter_append, hfront, lowerAfter, if_neg hne, hform, hdrop, ← ih]
      exact hdrop _
    | false =>
      obtain ⟨hne, hnone⟩ := lowerIn_singleton hc [] (cs.reverse ++ before)
      rw [trimEndChars_concat hc, lowerAfter_append, ← lowerIn_nil (cs.reverse ++ before),
        trimEndChars_append hne hnone]

/-- **Lower case and the blanks at the ends** can be dealt with in either order. -/
theorem trimChars_lowerAfter (cs : List Char) :
    trimChars (lowerAfter [] cs) = lowerAfter [] (trimChars cs) := by
  rw [trimChars, trimStartChars_lowerAfter rfl, trimEndChars_lowerAfter, ← trimChars]

/-! ### Parts of a text -/

theorem trimStartChars_front (h : cs <+: ds) : trimStartChars cs <+: trimStartChars ds := by
  obtain ⟨back, rfl⟩ := h
  rw [trimStartChars, trimStartChars, List.dropWhile_append]
  split
  · next hnone =>
    rw [List.isEmpty_iff.mp hnone]
    exact List.nil_prefix
  · exact List.prefix_append _ _

theorem trimStartChars_back (h : cs <:+ ds) : trimStartChars cs <:+ trimStartChars ds := by
  obtain ⟨front, rfl⟩ := h
  rw [trimStartChars, trimStartChars, List.dropWhile_append]
  split
  · exact List.suffix_rfl
  · exact (List.dropWhile_suffix _).trans (List.suffix_append _ _)

theorem trimEndChars_front (h : cs <+: ds) : trimEndChars cs <+: trimEndChars ds :=
  List.reverse_prefix.mpr (trimStartChars_back (List.reverse_suffix.mpr h))

theorem trimEndChars_back (h : cs <:+ ds) : trimEndChars cs <:+ trimEndChars ds :=
  List.reverse_suffix.mpr (trimStartChars_front (List.reverse_prefix.mpr h))

/-- A part of a text stays a part of it without the blanks at their ends. -/
theorem trimChars_within (h : cs <:+: ds) : trimChars cs <:+: trimChars ds := by
  obtain ⟨front, back, rfl⟩ := h
  have hfront : trimChars cs <+: trimChars (cs ++ back) :=
    trimEndChars_front (trimStartChars_front (List.prefix_append _ _))
  have hback : trimChars (cs ++ back) <:+ trimChars (front ++ (cs ++ back)) :=
    trimEndChars_back (trimStartChars_back (List.suffix_append _ _))
  rw [List.append_assoc]
  exact hfront.isInfix.trans hback.isInfix

end Dialogue.Text
