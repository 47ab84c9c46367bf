import Dialogue.Proofs.Template.Frame
import Dialogue.Proofs.Text.Sigma
import Mathlib.Data.List.TakeWhile

/-! # Texts in texts

A condition that asks whether a text stands in another one compares the two without case and without
the blanks at their ends. It does not depend on these blanks, and it finds a text that stands in the
other one letter for letter, with one exception: the form of a sigma depends on what stands around
it, and a text with a sigma that is loose has another form somewhere, so that it is not found there.

* `holds_iff`: what is compared.
* `holds_of_within`, `not_holds_of_loose`: texts without a loose sigma, and texts with one.
* `finds_unless_loose`: both, and the blanks. -/

namespace Dialogue.Condition

open Text

variable {c : Condition} {vars : Variables}

/-! ### What is compared -/

theorem occursIn_iff {part cs : List Char} : occursIn part cs = true ↔ part <:+: cs := by
  induction cs with
  | nil => rw [occursIn, List.isEmpty_iff, List.infix_nil]
  | cons c cs ih =>
    rw [occursIn, Bool.or_eq_true, List.isPrefixOf_iff_prefix, ih, List.infix_cons_iff]

theorem toList_normal (s : String) :
    (normal s).toList = lowerAfter [] (trimChars s.toList) := by
  rw [normal, lower, trim, String.toList_ofList, String.toList_ofList]

theorem holds_iff (hc : c.operator = .contains) :
    c.holds vars = true ↔
      (normal (c.expected vars)).toList <:+: (normal (c.actual vars)).toList := by
  rw [← occursIn_iff]
  simp only [holds, hc]

/-! ### Literal occurrences -/

theorem holds_of_within (hc : c.operator = .contains) (hloose : ¬ Loose (c.expected vars).toList)
    (h : (c.expected vars).toList <:+: (c.actual vars).toList) : c.holds vars = true := by
  rw [holds_iff hc, toList_normal, toList_normal, ← trimChars_lowerAfter, ← trimChars_lowerAfter]
  exact trimChars_within (lowerAfter_within hloose h)

/-- Whether a text stands in a variable, the text being that of another variable. -/
def comparison : Condition := ⟨"", "x", .contains, .str "\x7by\x7d"⟩

/-- Variables for the comparison. -/
def compared (actual expected : String) : Variables :=
  Variables.set [("x", .str actual)] "y" (.str expected)

theorem actual_comparison (a e : String) : comparison.actual (compared a e) = a := by
  have hname : variableName comparison.subject = "x" := by decide +kernel
  have hget : (compared a e).get? "x" = some (.str a) :=
    Fields.get?_insert_of_ne (by decide) _ _
  rw [actual, hname, Variables.find?, hget]
  rfl

theorem expected_comparison (a e : String) : comparison.expected (compared a e) = e :=
  Variables.interpolate_set_self (by decide +kernel) ⟨by decide, by decide, by decide⟩ rfl

/-- Of characters that are no blanks, a text has as many without the blanks at its ends. -/
theorem count_trimChars {d : Char} (hd : isBlank d = false) (cs : List Char) :
    (trimChars cs).count d = cs.count d := by
  have hstart (cs : List Char) : (trimStartChars cs).count d = cs.count d := by
    have hblank : d ∉ cs.takeWhile isBlank := fun h =>
      Bool.false_ne_true (hd.symm.trans (List.mem_takeWhile_imp h))
    have hsplit := congrArg (List.count d)
      (List.takeWhile_append_dropWhile (p := isBlank) (l := cs))
    rwa [List.count_append, List.count_eq_zero_of_not_mem hblank, Nat.zero_add] at hsplit
  rw [trimChars, trimEndChars, List.count_reverse, ← trimStartChars, hstart, List.count_reverse,
    hstart]

/-- A comparison fails if less of some character is in the other text. -/
theorem not_holds_of_count {a e : String} {d : Char} (hd : isBlank d = false)
    (h : (lowerAfter [] a.toList).count d < (lowerAfter [] e.toList).count d) :
    comparison.holds (compared a e) = false := by
  refine Bool.eq_false_iff.mpr fun hholds => ?_
  rw [holds_iff rfl, actual_comparison, expected_comparison, toList_normal, toList_normal] at hholds
  have hle := hholds.sublist.count_le d
  rw [← trimChars_lowerAfter, ← trimChars_lowerAfter, count_trimChars hd, count_trimChars hd] at hle
  exact absurd h (Nat.not_lt.mpr hle)

/-- A text with a loose sigma stands in a text where it is not found. -/
theorem not_holds_of_loose {e : String} (h : Loose e.toList) :
    ∃ a, e.toList <:+: a.toList ∧ comparison.holds (compared a e) = false := by
  rcases h with h | h
  · refine ⟨String.ofList ('Α' :: e.toList), ?_, not_holds_of_count (d := 'σ') (by decide) ?_⟩
    · rw [String.toList_ofList]
      exact (List.suffix_cons _ _).isInfix
    · rw [String.toList_ofList]
      exact count_lt_of_opens h
  · refine ⟨String.ofList (e.toList ++ ['Α']), ?_, not_holds_of_count (d := 'ς') (by decide) ?_⟩
    · rw [String.toList_ofList]
      exact (List.prefix_append _ _).isInfix
    · rw [String.toList_ofList]
      exact count_lt_of_closes h

/-- **Which texts are found.** Conditions that ask for a text find it wherever it stands letter for
letter if and only if no sigma in it is loose. And what they answer does not depend on the blanks at
the ends of either text. -/
theorem finds_unless_loose (e : String) :
    ((∀ (c : Condition) (vars : Variables), c.operator = .contains → c.expected vars = e →
      e.toList <:+: (c.actual vars).toList → c.holds vars = true) ↔ ¬ Loose e.toList) ∧
    ∀ (c c' : Condition) (vars vars' : Variables), c.operator = .contains →
      c'.operator = .contains → trim (c.expected vars) = trim e →
      trim (c'.expected vars') = trim e → trim (c.actual vars) = trim (c'.actual vars') →
      c.holds vars = c'.holds vars' := by
  refine ⟨⟨fun hfinds hloose => ?_, ?_⟩,
    fun c c' vars vars' hc hc' hexpected hexpected' hactual => ?_⟩
  · obtain ⟨a, hwithin, hnot⟩ := not_holds_of_loose hloose
    have hholds := hfinds comparison (compared a e) rfl (expected_comparison a e)
      (by rwa [actual_comparison])
    rw [hnot] at hholds
    cases hholds
  · rintro hloose c vars hc rfl hwithin
    exact holds_of_within hc hloose hwithin
  · rw [Bool.eq_iff_iff, holds_iff hc, holds_iff hc', normal, normal, normal, normal, hexpected,
      hexpected', hactual]

/-- The first letters of a word, ending in a sigma that the word goes on behind. -/
theorem unfound_sigma :
    let c : Condition := ⟨"c1", "x", .contains, .str "ΑΣ"⟩
    let vars : Variables := [("x", .str "ΑΣΑ")]
    (c.expected vars).toList <:+: (c.actual vars).toList ∧ c.holds vars = false := by
  decide +kernel

end Dialogue.Condition
