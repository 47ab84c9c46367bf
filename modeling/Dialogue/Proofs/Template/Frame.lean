import Dialogue.Proofs.Template.Placeholders
import Dialogue.Proofs.Path.Spelling
import Dialogue.Turn.Visit

/-! # Variables that are read back

A value that was given to a variable is read back under its name and shown in its placeholder, and
nothing else is seen to change: a name or a path leads to the variable only if it is the name of the
variable, or begins with it as a path. A name may itself be spelled like a path, and then it hides
what the path leads to; other names and paths are still not concerned.

* `find?_set_self`, `find?_set_of_not`: the two laws of look-ups.
* `interpolate_congr`: a text is filled alike if its placeholders are.
* `reads_back`: look-ups, texts, and the replies of customers together. -/

namespace Dialogue.Variables

open Template

/-- The text leads to the variable: it is the name, or it is a path whose first key is the name. -/
def LeadsTo (name text : String) : Prop :=
  text = name ∨ ∃ rest, Path.steps? text = some (.key name :: rest)

variable {vars vars' : Variables} {name : String} {v : Json}

/-! ### Look-ups -/

theorem find?_set_self (vars : Variables) (name : String) (v : Json) :
    (vars.set name v).find? name = some v := by
  rw [find?, set, Fields.get?_insert_self]

/-- A path that begins with another name leads where it led. -/
theorem lookup?_set_of_not {path : String}
    (h : ∀ rest, Path.steps? path ≠ some (.key name :: rest)) :
    (Json.obj (vars.set name v)).lookup? path = (Json.obj vars).lookup? path := by
  unfold Json.lookup?
  cases hsteps : Path.steps? path with
  | none => rfl
  | some steps =>
    obtain ⟨key, rest, rfl⟩ : ∃ key rest, steps = .key key :: rest := by
      unfold Path.steps? at hsteps
      split at hsteps
      · exact ⟨_, _, (Option.some.inj hsteps).symm⟩
      · cases hsteps
    have hkey : key ≠ name := fun he => h rest (he ▸ hsteps)
    have hfollow : (Step.key key).follow (.obj (vars.set name v)) =
        (Step.key key).follow (.obj vars) := Fields.get?_insert_of_ne hkey vars v
    simp only [Option.bind_some, Json.walk, hfollow]

/-- **The frame.** What does not lead to the variable is looked up as before. -/
theorem find?_set_of_not {text : String} (h : ¬ LeadsTo name text) :
    (vars.set name v).find? text = vars.find? text := by
  rw [LeadsTo, not_or, not_exists] at h
  rw [find?, find?, lookup?_set_of_not h.2, set, Fields.get?_insert_of_ne h.1]

/-! ### Texts -/

/-- A text is filled alike with variables that are shown alike in each of its placeholders. -/
theorem interpolate_congr {text : String}
    (h : ∀ a p b, IsName p → text = a ++ braced p ++ b → vars.shown p = vars'.shown p) :
    vars.interpolate text = vars'.interpolate text := by
  obtain ⟨parts, last, rfl, hlast, hparts⟩ := exists_weave text
  rw [interpolate_weave vars hlast hparts, interpolate_weave vars' hlast hparts]
  have hshown : ∀ part ∈ parts, vars.shown part.2 = vars'.shown part.2 := by
    intro part hpart
    obtain ⟨before, behind, rfl⟩ := List.append_of_mem hpart
    exact h _ _ _ (hparts part hpart).2 (weave_append braced before behind part.1 last part.2)
  clear h hparts
  induction parts with
  | nil => rfl
  | cons part parts ih =>
    rw [weave, weave, hshown part List.mem_cons_self,
      ih fun part hpart => hshown part (List.mem_cons_of_mem _ hpart)]

/-- What the placeholder of a variable is replaced by. -/
theorem interpolate_set_self {shown : String} (htrim : Text.trim name = name) (hname : IsName name)
    (hv : v.shown? = some shown) :
    (vars.set name v).interpolate ("\x7b" ++ name ++ "\x7d") = shown := by
  have hplain : IsPlain "" := isPlain_of_notMem (by simp)
  have hfill := interpolate_placeholder hname (vars.set name v) "" ""
  rw [interpolate_of_isPlain hplain, Variables.shown, htrim, find?_set_self, Option.bind_some, hv,
    Option.getD_some] at hfill
  simpa [braced] using hfill

/-- There is no placeholder in another one. -/
theorem eq_of_braced {a p q b : String} (hq : IsName q) (hp : IsName p)
    (h : "\x7b" ++ q ++ "\x7d" = a ++ "\x7b" ++ p ++ "\x7d" ++ b) : p = q := by
  have hchars : '\x7b' :: (q.toList ++ ['\x7d']) =
      a.toList ++ '\x7b' :: (p.toList ++ '\x7d' :: b.toList) := by
    simpa [String.toList_append] using congrArg String.toList h
  rcases ha : a.toList with _ | ⟨c, cs⟩
  · rw [ha, List.nil_append, List.cons.injEq] at hchars
    have hword (r rest : List Char) (hr : '\x7d' ∉ r) :
        (r ++ '\x7d' :: rest).takeWhile (· != '\x7d') = r := by
      rw [List.takeWhile_append_of_pos fun c hc => by
        simpa using fun he : c = '\x7d' => hr (he ▸ hc)]
      simp
    have hwords := congrArg (List.takeWhile (· != '\x7d')) hchars.2
    rw [hword _ _ hq.closing, hword _ _ hp.closing] at hwords
    exact (String.toList_inj.mp hwords).symm
  · rw [ha, List.cons_append, List.cons.injEq] at hchars
    have hmem : '\x7b' ∈ q.toList ++ ['\x7d'] := by
      rw [hchars.2]
      simp
    have hend : '\x7b' ∈ ['\x7d'] := (List.mem_append.mp hmem).resolve_left hq.opening
    exact absurd hend (by decide)

theorem exists_shown? (h : v ≠ .null) : ∃ shown, v.shown? = some shown := by
  cases v with
  | null => exact absurd rfl h
  | _ => exact ⟨_, rfl⟩

/-- **Variables are read back as they were set, and do not interfere.** Under its name a variable
has the value that it was given, and its placeholder shows that value. What does not lead to the
variable is looked up as before, and a text none of whose placeholders leads to it is filled as
before. So the reply of a customer to an input node is shown word for word, with all braces in
it. -/
theorem reads_back (vars : Variables) (name : String) (v : Json) :
    (vars.set name v).find? name = some v ∧
    (Text.trim name = name → IsName name → v ≠ .null → ∃ shown, v.shown? = some shown ∧
      (vars.set name v).interpolate ("\x7b" ++ name ++ "\x7d") = shown) ∧
    (∀ text, ¬ LeadsTo name text → (vars.set name v).find? text = vars.find? text) ∧
    (∀ text, (∀ a p b, IsName p → text = a ++ "\x7b" ++ p ++ "\x7d" ++ b →
        ¬ LeadsTo name (Text.trim p)) →
      (vars.set name v).interpolate text = vars.interpolate text) ∧
    ∀ (sc : Turn.Scene) (node : String) (prompt : Option String) (reply : String),
      sc.resume node (.input prompt name) (.text reply) vars =
        .done (.via (vars.set (Text.trim name) (.str reply)) .only) ∧
      (IsName (Text.trim name) →
        (vars.set (Text.trim name) (.str reply)).interpolate
          ("\x7b" ++ Text.trim name ++ "\x7d") = reply) := by
  refine ⟨find?_set_self vars name v, fun htrim hname hv => ?_, fun text => find?_set_of_not,
    fun text htext => ?_, fun sc node prompt reply => ⟨rfl, fun hname => ?_⟩⟩
  · obtain ⟨shown, hshown⟩ := exists_shown? hv
    exact ⟨shown, hshown, interpolate_set_self htrim hname hshown⟩
  · refine interpolate_congr fun a p b hp he => ?_
    have hnot := htext a p b hp (by simpa [braced, String.append_assoc] using he)
    rw [Variables.shown, Variables.shown, find?_set_of_not hnot]
  · exact interpolate_set_self (Text.trim_trim name) hname rfl

/-- A variable that is spelled like a path hides what the path leads to. Its own value, the braces
in a reply included, is shown in its place, and the object that the path leads into is not
concerned. -/
theorem reads_back_spelled :
    let vars : Variables := [("client", .obj [("name", .str "Ana")])]
    let named := vars.set "client.name" (.str "\x7bclient\x7d")
    vars.find? "client.name" = some (.str "Ana") ∧
      named.find? "client.name" = some (.str "\x7bclient\x7d") ∧
      named.interpolate "\x7bclient.name\x7d" = "\x7bclient\x7d" ∧
      named.find? "client" = vars.find? "client" ∧
      named.interpolate "\x7bclient\x7d" = vars.interpolate "\x7bclient\x7d" := by
  intro vars named
  obtain ⟨hself, _, hframe, htexts, hreply⟩ :=
    reads_back vars "client.name" (.str "\x7bclient\x7d")
  have htrim : Text.trim "client.name" = "client.name" := by decide +kernel
  have hname : IsName "client.name" := ⟨by decide, by decide, by decide⟩
  have hother : ¬ LeadsTo "client.name" "client" := by
    rintro (he | ⟨rest, hsteps⟩)
    · exact absurd he (by decide)
    · have hclient : Path.steps? "client" = some [.key "client"] := by decide +kernel
      rw [hclient] at hsteps
      exact absurd hsteps (by simp)
  refine ⟨by decide +kernel, hself, ?_, hframe "client" hother, htexts _ fun a p b hp he => ?_⟩
  · have hshown := (hreply ⟨"s1", ⟨"f", 1, [], [], [], [], "start"⟩, .default⟩ "ask" none
      "\x7bclient\x7d").2 (htrim ▸ hname)
    rwa [htrim] at hshown
  · have hp' : p = "client" := eq_of_braced ⟨by decide, by decide, by decide⟩ hp he
    rw [hp', show Text.trim "client" = "client" by decide +kernel]
    exact hother

end Dialogue.Variables
