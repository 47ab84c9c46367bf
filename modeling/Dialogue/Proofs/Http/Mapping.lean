import Dialogue.Proofs.Path.Spelling
import Dialogue.Proofs.Turn.Outbound

/-! # What a mapping reaches

The path of a mapping begins with the sign of the root, and one selector in brackets follows for
each step. What it finds is looked up with the reader of the paths of variables, which begin with a
name. So a mapping reaches the whole answer, and every position in it as long as the answer is an
object; in a list it reaches nothing, and nothing is kept then.

* `relativePath_selectors`: what is left of such a path.
* `find?_selectors`: what such a mapping finds.
* `keeps_selected`: what becomes of the variable and of the others. -/

namespace Dialogue

/-! ### Selectors -/

/-- The step in brackets. -/
def Step.selector : Step → String
  | key name => "[\"" ++ name ++ "\"]"
  | index n => "[" ++ toString n ++ "]"

namespace Path

/-- The steps in brackets, one behind the other. -/
def selectors : List Step → String
  | [] => ""
  | s :: p => s.selector ++ selectors p

/-- The first step leads into a list. -/
def entersList : List Step → Bool
  | .index _ :: _ => true
  | _ => false

variable {p : List Step} {name : String} {n : Nat}

theorem spelling_selectors (first : Bool) (h : ∀ name, .key name ∈ p → ']' ∉ name.toList) :
    Spelling first p (selectors p) := by
  induction p generalizing first with
  | nil => exact .nil first
  | cons s p ih =>
    have hrest := ih false fun name hname => h name (List.mem_cons_of_mem s hname)
    cases s with
    | key name => exact .cons (.double (h name List.mem_cons_self)) hrest
    | index n => exact .cons (.bracket n) hrest

/-- Behind the sign of the root stands nothing or a bracket. -/
theorem head?_selectors (p : List Step) : (selectors p).toList.head? ≠ some '.' := by
  cases p with
  | nil => exact nofun
  | cons s p =>
    cases s with
    | key name => simp [selectors, Step.selector]
    | index n => simp [selectors, Step.selector]

theorem selectors_eq_empty_iff : selectors p = "" ↔ p = [] := by
  cases p with
  | nil => exact iff_of_true rfl rfl
  | cons s p => cases s <;> simp [selectors, Step.selector]

/-- No path begins with an index. -/
theorem steps?_selectors_index (h : ∀ name, .key name ∈ p → ']' ∉ name.toList) :
    steps? (selectors (.index n :: p)) = none := by
  have htight := (spelling_selectors true (p := .index n :: p) (by simpa using h)).tight
  have htext : (selectors (.index n :: p)).toList =
      '[' :: ((toString n).toList ++ ']' :: (selectors p).toList) := by
    simp [selectors, Step.selector]
  rw [steps?, Text.trimChars_eq_self_iff.mpr htight, htext,
    scan_brackets (notMem_toString (by decide) n), bracketed?_digits]
  by_cases hn : n < 0x10000000000000000
  · rw [if_pos hn]
    cases scan false (.name []) (selectors p).toList <;> rfl
  · rw [if_neg hn]
    rfl

end Path

namespace Http

open Dialogue.Path

variable {p : List Step} {name : String} {body v : Json}

/-- The sign of the root is taken off. -/
theorem Mapping.relativePath_selectors (h : ∀ name, .key name ∈ p → ']' ∉ name.toList) :
    relativePath ⟨"$" ++ selectors p, name⟩ = selectors p := by
  have htext : ("$" ++ selectors p).toList = '$' :: (selectors p).toList := by
    rw [String.toList_append]
    rfl
  have htight : Text.Tight ('$' :: (selectors p).toList) := by
    rw [← List.singleton_append]
    exact (Text.tight_singleton (by decide)).append (spelling_selectors true h).tight
  simp only [relativePath, htext, Text.trimChars_eq_self_iff.mpr htight, List.head?_cons, if_true,
    List.tail_cons, if_neg (head?_selectors p), String.ofList_toList]

namespace Call

/-- What such a mapping finds: the value at the position, but nothing in a list. -/
theorem find?_selectors (hat : body.At p v) (h : ∀ name, .key name ∈ p → ']' ∉ name.toList)
    (hword : ∀ n, .index n ∈ p → n < 0x10000000000000000) :
    find? ⟨"$" ++ selectors p, name⟩ body = if entersList p then none else some v := by
  rw [find?, Mapping.relativePath_selectors h]
  simp only [String.isEmpty_iff, selectors_eq_empty_iff]
  cases p with
  | nil =>
    cases hat
    rfl
  | cons s p =>
    rw [if_neg (List.cons_ne_nil s p)]
    cases s with
    | key key =>
      have hrest (n : Nat) (hn : .index n ∈ p) : n < 0x10000000000000000 :=
        hword n (List.mem_cons_of_mem _ hn)
      exact hat.lookup? hrest (spelling_selectors true h)
    | index n =>
      have hkeys (name : String) (hname : .key name ∈ p) : ']' ∉ name.toList :=
        h name (List.mem_cons_of_mem _ hname)
      rw [Json.lookup?, steps?_selectors_index hkeys]
      rfl

end Call

end Http

/-! ### Answers that are kept -/

namespace Turn.Scene

open Dialogue.Path

variable {sc : Scene} {g : Graph} {n : Flow.Node} {call : Http.Call} {s : Session} {r : SessionRow}
  {x : Status} {e : Nat → Moment} {w : World} {id node name : String} {ver : Nat}
  {p : List Dialogue.Step} {body v : Json}

/-- **Selected answers.** A call is answered whose only mapping selects a position, and which keeps
nothing else. The variable holds the value at that position then, unless the answer is a list and
the position is in it: in that case nothing is kept. All other variables are as they were. -/
theorem keeps_selected (h : Flow.compile id ver g = .ok sc.flow)
    (hnode : sc.flow.node? node = some n) (hcall : n.action = .request call)
    (hmapping : call.mappings = [⟨"$" ++ selectors p, name⟩])
    (hwhole : call.responseVariable = none)
    (steps : Nat) (hw : w.HasRow s.id r) (hr : r.status? = .ok x)
    (hanswers : ∀ i,
      call.Answers s.vars sc.settings.engine.httpTimeout (e i).circumstance.peer body)
    (hat : body.At p v) (hkeys : ∀ name, .key name ∈ p → ']' ∉ name.toList)
    (hword : ∀ n, .index n ∈ p → n < 0x10000000000000000) :
    sc.ComesTo e w s (.run node) steps fun q w' => q.IsCut ∧ Stops e x s ∨
      w'.Keeps q.session ∧ ∀ other, q.session.vars.get? other =
        if other = Text.trim name ∧ entersList p = false then some v else s.vars.get? other := by
  obtain ⟨way, hway⟩ := g.exists_way node FixedHandle.success.name
  obtain ⟨q, hq, hpasses⟩ := answered_passes hnode hcall steps hw hr h hanswers hway
  refine ⟨q, hq, hpasses.vars_eq.imp_right ?_⟩
  rintro ⟨hvars, hkeeps⟩
  refine ⟨hkeeps, fun other => ?_⟩
  have hkept : call.kept body =
      if entersList p then [] else [(Text.trim name, v)] := by
    rw [Http.Call.kept, hmapping, hwhole, List.filterMap_cons,
      Http.Call.find?_selectors hat hkeys hword]
    cases entersList p <;> rfl
  rw [hvars, hkept]
  cases entersList p with
  | true => simp [Fields.merge]
  | false =>
    by_cases hother : other = Text.trim name
    · simp [Fields.merge, hother, Fields.get?_insert_self]
    · simp [Fields.merge, hother, Fields.get?_insert_of_ne]

/-- **A list is not entered**: a mapping selects the first item of the answer, and nothing is
kept. -/
theorem unkept_item : Http.Call.bodyOf "[7]" = .arr [.int 7] ∧
    (Json.arr [.int 7]).At [.index 0] (.int 7) ∧ "$" ++ selectors [.index 0] = "$[0]" ∧
    ∃ y, (clickingWorld.live (answering "[7]") (callStep "$[0]")).2.2 = .ok (.on y "m") ∧
      y.vars.get? "x" = none := by
  have hbody : Http.Call.bodyOf "[7]" = .arr [.int 7] := by decide +kernel
  have hkept : (onlyCall "$[0]").kept (.arr [.int 7]) = [] := by decide +kernel
  obtain ⟨r, hw, hr⟩ := shows_clicking.exists_hasRow
  obtain ⟨way, hway⟩ := (calling "$[0]").exists_way "r" FixedHandle.success.name
  obtain rfl := way_calling hway rfl leads_success
  obtain ⟨q, hq, hpasses⟩ := answered_passes node?_calling rfl 1 hw hr compile_calling
    (answers_calling hbody) hway
  obtain ⟨y, rfl, hy, -⟩ := hpasses.exists_on not_stops_answering fun _ => id
  refine ⟨hbody, .item rfl (.here _), by decide, y, hq, ?_⟩
  rw [hy, hkept]
  rfl

/-- A member of an answer that is an object is kept. -/
theorem keeps_selected_member :
    ∃ q, (clickingWorld.live (answering "\x7b\"id\":7\x7d") (callStep "$[\"id\"]")).2.2 = .ok q ∧
      q.session.vars.get? "x" = some (.int 7) := by
  have hbody : Http.Call.bodyOf "\x7b\"id\":7\x7d" = .obj [("id", .int 7)] := by decide +kernel
  have hat : (Json.obj [("id", .int 7)]).At [.key "id"] (.int 7) := .member rfl (.here _)
  obtain ⟨r, hw, hr⟩ := shows_clicking.exists_hasRow
  obtain ⟨q, hq, ⟨-, hstops⟩ | ⟨-, hvars⟩⟩ := keeps_selected compile_calling node?_calling rfl
    (by decide : (onlyCall "$[\"id\"]").mappings = [⟨"$" ++ selectors [.key "id"], "x"⟩]) rfl 1
    hw hr
    (answers_calling hbody) hat (by simp) (by simp)
  · exact absurd hstops not_stops_answering
  · exact ⟨q, hq, hvars "x"⟩

end Turn.Scene

end Dialogue
