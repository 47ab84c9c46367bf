import Dialogue.Variables
import Mathlib.Tactic.Push

/-! # Placeholders

A text is filled from left to right in one pass. What stands between a pair of braces is a
placeholder exactly if it is not empty and holds no brace, whatever stands around it: a brace that
is left open before it comes to nothing, and what is put in for it is not read again. So a text can
be cut before and behind any of its placeholders, and the parts be filled on their own.

* `pieces_placeholder`: the pieces of a text are those of its parts.
* `fill_placeholder`, `fill_of_isPlain`: the two laws of filling.
* `exists_weave`: every text is plain stretches with placeholders in between.
* `interpolates_in_one_pass`: all of that for the variables of a conversation. -/

namespace Dialogue

namespace Template

/-- The text can stand between the braces of a placeholder. -/
structure IsName (p : String) : Prop where
  nonempty : p ≠ ""
  opening : '\x7b' ∉ p.toList
  closing : '\x7d' ∉ p.toList

/-- The placeholder of that name. -/
def braced (p : String) : String := "\x7b" ++ p ++ "\x7d"

/-- There is no placeholder in the text. -/
def IsPlain (text : String) : Prop :=
  ∀ a p b, IsName p → text ≠ a ++ braced p ++ b

/-- Stretches of text, each with a placeholder behind it, and a last stretch. -/
def weave (put : String → String) : List (String × String) → String → String
  | [], last => last
  | (a, p) :: rest, last => a ++ put p ++ weave put rest last

variable {resolve : String → Option String} {text p : String}

theorem IsName.toList_ne_nil (h : IsName p) : p.toList ≠ [] := by
  intro hp
  exact h.nonempty (String.toList_eq_nil_iff.mp hp)

/-! ### Pieces -/

/-- An opening brace ends whatever may have begun before it. -/
theorem piecesFrom_open (opened : Option (List Char)) (a rest : List Char) :
    piecesFrom opened (a ++ '\x7b' :: rest) = piecesFrom opened a ++ piecesFrom (some []) rest := by
  induction a generalizing opened with
  | nil => cases opened <;> simp [piecesFrom]
  | cons c a ih =>
    cases opened with
    | none =>
      by_cases hc : c = '\x7b'
      · simp [piecesFrom, hc, ih]
      · simp [piecesFrom, hc, ih]
    | some met =>
      by_cases hc : c = '\x7b'
      · simp [piecesFrom, hc, ih]
      · by_cases hc' : c = '\x7d'
        · simp [piecesFrom, hc', ih]
        · simp [piecesFrom, hc, hc', ih]

/-- Behind an opening brace a name is met up to the closing brace. -/
theorem piecesFrom_name {q : List Char} (hopen : '\x7b' ∉ q) (hclose : '\x7d' ∉ q)
    (met rest : List Char) (hne : met.reverse ++ q ≠ []) :
    piecesFrom (some met) (q ++ '\x7d' :: rest) =
      .placeholder (met.reverse ++ q) :: piecesFrom none rest := by
  induction q generalizing met with
  | nil =>
    have hmet : met ≠ [] := by simpa using hne
    simp [piecesFrom, hmet]
  | cons c q ih =>
    rw [List.mem_cons, not_or] at hopen hclose
    have hrest := ih hopen.2 hclose.2 (c :: met) (by simp)
    rw [List.cons_append, piecesFrom, if_neg (Ne.symm hopen.1), if_neg (Ne.symm hclose.1), hrest]
    simp

/-- **Pieces.** A placeholder is a piece of the text, whatever stands before and behind it. -/
theorem pieces_placeholder (h : IsName p) (a b : List Char) :
    pieces (a ++ (braced p).toList ++ b) =
      pieces a ++ .placeholder p.toList :: pieces b := by
  have hsource : a ++ (braced p).toList ++ b = a ++ '\x7b' :: (p.toList ++ '\x7d' :: b) := by
    simp [braced]
  rw [hsource, pieces, piecesFrom_open,
    piecesFrom_name h.opening h.closing [] b (by simpa using h.toList_ne_nil)]
  rfl

/-- What is met behind an opening brace holds no brace. -/
theorem isName_of_mem_piecesFrom {opened : Option (List Char)} {cs q : List Char}
    (hmet : ∀ met, opened = some met → '\x7b' ∉ met ∧ '\x7d' ∉ met)
    (h : .placeholder q ∈ piecesFrom opened cs) : IsName (String.ofList q) := by
  induction cs generalizing opened with
  | nil => cases opened <;> simp [piecesFrom] at h
  | cons c cs ih =>
    have hnone (h : Piece.placeholder q ∈ piecesFrom none cs) : IsName (String.ofList q) :=
      ih (by simp) h
    have hempty (h : Piece.placeholder q ∈ piecesFrom (some []) cs) : IsName (String.ofList q) :=
      ih (by simp) h
    cases opened with
    | none =>
      by_cases hc : c = '\x7b'
      · simp only [piecesFrom, hc, if_true] at h
        exact hempty h
      · simp only [piecesFrom, hc, if_false, List.mem_cons, reduceCtorEq, false_or] at h
        exact hnone h
    | some met =>
      obtain ⟨hopen, hclose⟩ := hmet met rfl
      by_cases hc : c = '\x7b'
      · simp only [piecesFrom, hc, if_true, List.mem_cons, reduceCtorEq, false_or] at h
        exact hempty h
      · by_cases hc' : c = '\x7d'
        · -- the name ends here, or there was nothing between the braces
          simp only [piecesFrom, hc', if_true] at h
          rw [if_neg (by decide)] at h
          rcases List.mem_cons.mp h with h | h
          · cases met with
            | nil => simp at h
            | cons d met =>
              have hq : q = (d :: met).reverse := by simpa using h
              subst hq
              refine ⟨by simp, ?_, ?_⟩
              · rwa [String.toList_ofList, List.mem_reverse]
              · rwa [String.toList_ofList, List.mem_reverse]
          · exact hnone h
        · simp only [piecesFrom, hc, hc', if_false] at h
          refine ih (fun met' hmet' => ?_) h
          cases hmet'
          simp only [List.mem_cons, not_or]
          exact ⟨⟨Ne.symm hc, hopen⟩, Ne.symm hc', hclose⟩

/-! ### Filling -/

theorem Piece.fill_placeholder (resolve : String → Option String) (p : String) :
    (Piece.placeholder p.toList).fill resolve =
      ((resolve (Text.trim p)).getD (braced p)).toList := by
  rw [Piece.fill, Text.trim]
  cases resolve (String.ofList (Text.trimChars p.toList)) with
  | none => simp [Piece.source, braced]
  | some s => rfl

/-- **Filling is compositional.** -/
theorem fill_placeholder (h : IsName p) (resolve : String → Option String) (a b : String) :
    fill resolve (a ++ braced p ++ b) =
      fill resolve a ++ (resolve (Text.trim p)).getD (braced p) ++ fill resolve b := by
  have hchars : (a ++ braced p ++ b).toList = a.toList ++ (braced p).toList ++ b.toList := by
    simp
  rw [fill, hchars, pieces_placeholder h, List.flatMap_append, List.flatMap_cons,
    Piece.fill_placeholder]
  simp [fill, String.append_assoc]

/-- A text without placeholders has none among its pieces. -/
theorem IsPlain.notMem_pieces (h : IsPlain text) (q : List Char) :
    .placeholder q ∉ pieces text.toList := by
  intro hq
  have hname : IsName (String.ofList q) := isName_of_mem_piecesFrom (by simp) hq
  obtain ⟨before, behind, hsplit⟩ := List.append_of_mem hq
  have hsource := source_piecesFrom none text.toList
  rw [show piecesFrom none text.toList = _ from hsplit] at hsource
  refine h (String.ofList (before.flatMap Piece.source)) (String.ofList q)
    (String.ofList (behind.flatMap Piece.source)) hname ?_
  apply String.toList_inj.mp
  simpa [Piece.source, braced] using hsource.symm

/-- **Plain texts** stay as they are. -/
theorem fill_of_isPlain (h : IsPlain text) (resolve : String → Option String) :
    fill resolve text = text := by
  have hpieces : (pieces text.toList).flatMap (Piece.fill resolve) =
      (pieces text.toList).flatMap Piece.source := by
    rw [List.flatMap_def, List.flatMap_def]
    refine congrArg List.flatten (List.map_congr_left fun piece hpiece => ?_)
    cases piece with
    | text cs => rfl
    | placeholder q => exact absurd hpiece (h.notMem_pieces q)
  rw [fill, hpieces, pieces, source_piecesFrom]
  simp

theorem isPlain_of_notMem (h : '\x7b' ∉ text.toList) : IsPlain text := by
  rintro a p b - rfl
  simp [braced] at h

/-! ### Whole texts -/

theorem weave_append (put : String → String) (parts parts' : List (String × String))
    (last last' p : String) :
    weave put (parts ++ (last, p) :: parts') last' =
      weave put parts last ++ put p ++ weave put parts' last' := by
  induction parts with
  | nil => rfl
  | cons part parts ih => simp [weave, ih, String.append_assoc]

/-- Every text is plain stretches with placeholders in between. -/
theorem exists_weave (text : String) : ∃ parts last, text = weave braced parts last ∧
    IsPlain last ∧ ∀ part ∈ parts, IsPlain part.1 ∧ IsName part.2 := by
  -- induction on the length: what stands before and behind a placeholder is shorter
  induction hn : text.length using Nat.strongRecOn generalizing text with
  | ind n ih =>
    by_cases hplain : IsPlain text
    · exact ⟨[], text, rfl, hplain, by simp⟩
    · unfold IsPlain at hplain
      push Not at hplain
      obtain ⟨a, p, b, hp, rfl⟩ := hplain
      have hbraced : 0 < (braced p).length := by
        have hopen : "\x7b".length = 1 := rfl
        simp only [braced, String.length_append, hopen]
        omega
      rw [String.length_append, String.length_append] at hn
      obtain ⟨partsA, lastA, hA, hlastA, hpartsA⟩ := ih a.length (by omega) a rfl
      obtain ⟨partsB, lastB, hB, hlastB, hpartsB⟩ := ih b.length (by omega) b rfl
      refine ⟨partsA ++ (lastA, p) :: partsB, lastB, ?_, hlastB, ?_⟩
      · rw [weave_append, ← hA, ← hB]
      · intro part hpart
        rcases List.mem_append.mp hpart with hpart | hpart
        · exact hpartsA part hpart
        · rcases List.mem_cons.mp hpart with rfl | hpart
          · exact ⟨hlastA, hp⟩
          · exact hpartsB part hpart

end Template

namespace Variables

open Template

/-- What is put in for a placeholder: the text of the value under its name, without outer blanks, or
else at the path that the name is; or the placeholder itself if there is no such value, or null. -/
def shown (vars : Variables) (p : String) : String :=
  ((vars.find? (Text.trim p)).bind Json.shown?).getD (braced p)

theorem resolve_obj (vars : Variables) (path : String) :
    resolve (.obj vars) path = (vars.find? path).bind Json.shown? := by
  have hmember : (Json.obj vars).member? path = vars.get? path := rfl
  rw [resolve, find?, hmember]
  cases vars.get? path with
  | none => rfl
  | some v => rfl

theorem interpolate_placeholder {p : String} (h : IsName p) (vars : Variables) (a b : String) :
    vars.interpolate (a ++ braced p ++ b) =
      vars.interpolate a ++ vars.shown p ++ vars.interpolate b := by
  rw [interpolate, Template.interpolate, fill_placeholder h, resolve_obj]
  rfl

theorem interpolate_of_isPlain {text : String} (h : IsPlain text) (vars : Variables) :
    vars.interpolate text = text :=
  fill_of_isPlain h _

/-- Plain stretches stay, and each placeholder is seen to on its own. -/
theorem interpolate_weave (vars : Variables) {parts : List (String × String)} {last : String}
    (hlast : IsPlain last) (hparts : ∀ part ∈ parts, IsPlain part.1 ∧ IsName part.2) :
    vars.interpolate (weave braced parts last) = weave vars.shown parts last := by
  induction parts with
  | nil => exact interpolate_of_isPlain hlast vars
  | cons part parts ih =>
    obtain ⟨a, p⟩ := part
    obtain ⟨ha, hp⟩ := hparts (a, p) List.mem_cons_self
    have hrest := ih fun part hpart => hparts part (List.mem_cons_of_mem _ hpart)
    rw [weave, weave, interpolate_placeholder hp, interpolate_of_isPlain ha, hrest]

/-- **Interpolation is compositional and made in one pass.** Around a placeholder the parts of a
text are filled on their own, a plain text stays as it is, and by these two laws every text is
filled: it is plain stretches with placeholders in between, and only these are replaced. -/
theorem interpolates_in_one_pass (vars : Variables) :
    (∀ a p b, IsName p → vars.interpolate (a ++ "\x7b" ++ p ++ "\x7d" ++ b) =
      vars.interpolate a ++ vars.shown p ++ vars.interpolate b) ∧
    (∀ text, IsPlain text → vars.interpolate text = text) ∧
    ∀ text, ∃ parts last, text = weave braced parts last ∧
      IsPlain last ∧ (∀ part ∈ parts, IsPlain part.1 ∧ IsName part.2) ∧
      vars.interpolate text = weave vars.shown parts last := by
  refine ⟨fun a p b hp => ?_, fun text htext => interpolate_of_isPlain htext vars, fun text => ?_⟩
  · rw [← interpolate_placeholder hp]
    simp [braced, String.append_assoc]
  · obtain ⟨parts, last, rfl, hlast, hparts⟩ := exists_weave text
    exact ⟨parts, last, rfl, hlast, hparts, interpolate_weave vars hlast hparts⟩

/-- Braces around a placeholder, and braces in the value that is put in, are left alone. -/
theorem interpolates_in_one_pass_nested : IsName " a " ∧
    interpolate [("a", .str "\x7bb\x7d"), ("b", .str "no")]
      ("\x7b" ++ "\x7b" ++ " a " ++ "\x7d" ++ "\x7d") = "\x7b\x7bb\x7d\x7d" := by
  have hname : IsName " a " := ⟨by decide, by decide, by decide⟩
  refine ⟨hname, ?_⟩
  rw [(interpolates_in_one_pass _).1 _ _ _ hname]
  decide +kernel

end Variables

end Dialogue
