import Dialogue.Flow.Compile
import Dialogue.Proofs.Program.Live
import Dialogue.Proofs.Template.Placeholders
import Dialogue.Proofs.Turn.Visit
import Dialogue.Turn.Basic

/-! # Labels

A customer may write the label of a button instead of clicking it. The template finds the button by
the label that it has shown, and goes the way of the button. But it keeps the label as it was drawn,
with its placeholders, whereas a click brings the label that was shown.

* `buttonFor?_eq_some_iff`: the button that a text stands for.
* `kept_eq_iff`: when it makes no difference which label is kept.
* `answered_text`: a written label is a click that brings the label as drawn.
* `written_like_clicked`: it takes the way of a click and changes the same variable, and when it
  leaves the same value. -/

namespace Dialogue

namespace Turn

open Program World

/-! ### The button of a label -/

/-- The button is the first one whose label, as it is shown, is the text apart from case and outer
blanks. -/
structure FirstShown (buttons : List Button) (vars : Variables) (t : String) (b : Button) :
    Prop where
  shows : folded (vars.interpolate b.label) = folded t
  split : ∃ before after, buttons = before ++ b :: after ∧
    ∀ b' ∈ before, folded (vars.interpolate b'.label) ≠ folded t

variable {buttons : List Button} {vars : Variables} {t : String} {b : Button}
  {name : Option String}

theorem buttonFor?_eq_some_iff : buttonFor? t buttons vars = some b ↔
    FirstShown buttons vars t b := by
  rw [buttonFor?, List.find?_eq_some_iff_append]
  simp only [decide_eq_true_eq, Bool.not_eq_true', decide_eq_false_iff_not]
  exact ⟨fun ⟨h, hs⟩ => ⟨h, hs⟩, fun h => ⟨h.shows, h.split⟩⟩

/-- A text that is shown on a button stands for one. -/
theorem exists_firstShown
    (h : ∃ shown ∈ shownButtons buttons vars, folded shown.label = folded t) :
    ∃ b, FirstShown buttons vars t b := by
  obtain ⟨shown, hmem, hlabel⟩ := h
  obtain ⟨b', hb', rfl⟩ := List.mem_map.mp hmem
  have hsome : (buttonFor? t buttons vars).isSome := by
    rw [buttonFor?, List.find?_isSome]
    exact ⟨b', hb', decide_eq_true hlabel⟩
  obtain ⟨b, hb⟩ := Option.isSome_iff_exists.mp hsome
  exact ⟨b, buttonFor?_eq_some_iff.mp hb⟩

/-! ### What is kept -/

/-- The variables with a label kept. -/
def kept (name : Option String) (label : String) (vars : Variables) : Variables :=
  match keptIn name with
  | some name => vars.set name (.str label)
  | none => vars

theorem kept_eq_iff {label label' : String} :
    kept name label vars = kept name label' vars ↔ keptIn name = none ∨ label = label' := by
  unfold kept
  cases keptIn name with
  | none => simp
  | some k =>
    simp only [reduceCtorEq, false_or]
    refine ⟨fun h => ?_, fun h => by rw [h]⟩
    have hget := congrArg (fun vars => vars.get? k) h
    simp only [Variables.set, Fields.get?_insert_self, Option.some.injEq, Json.str.injEq] at hget
    exact hget

theorem get?_kept {label k : String} (h : keptIn name ≠ some k) :
    (kept name label vars).get? k = vars.get? k := by
  unfold kept
  cases hk : keptIn name with
  | none => rfl
  | some k' =>
    rw [hk] at h
    exact Fields.get?_insert_of_ne (fun e => h (by rw [e])) _ _

/-! ### Replies -/

/-- The visits come to the same, apart from the variable of that name. -/
inductive Visit.Alike (name : Option String) : Visit → Visit → Prop
  | cut : Alike name .cut .cut
  | finished {o o' : Output} (transition : o.transition = o'.transition)
      (utterances : o.utterances = o'.utterances)
      (others : ∀ k, name ≠ some k → o.vars.get? k = o'.vars.get? k) :
      Alike name (.finished o) (.finished o')

theorem Visit.via_eq_iff {vars' : Variables} {way : Transition} :
    Visit.via vars way = .via vars' way ↔ vars = vars' :=
  ⟨fun h => congrArg Output.vars (Visit.finished.inj h), fun h => by rw [h]⟩

namespace Scene

/-- What comes of a reply to a node. -/
def answered (sc : Scene) (n : Flow.Node) (node : String) (vars : Variables) (reply : Reply)
    (w : World) (e : Nat → Moment) : Visit :=
  (w.live e (sc.visit n (.resume node reply) vars)).2.2

variable {sc : Scene} {n : Flow.Node} {text node : String} {w : World} {e : Nat → Moment}

section
variable (hn : n.action = .template text buttons name)
include hn

/-- What comes of a click. -/
theorem answered_click (id label : String) :
    sc.answered n node vars (.click id label) w e =
      if (e 0).circumstance.aborted = true then .cut
      else .via (kept name label vars)
        (if sc.flow.hasRoute node (.branch id) then .branch (.branch id) else .only) := by
  unfold answered visit
  rw [hn]
  show (live _ (if (e 0).circumstance.aborted = true then _ else _) _).2.2 = _
  split <;> rfl

/-- Writing the label of a button is a click that brings the label as it was drawn. -/
theorem answered_text (h : FirstShown buttons vars t b) :
    sc.answered n node vars (.text t) w e =
      sc.answered n node vars (.click b.id b.label) w e := by
  simp only [answered, visit, hn, resume, buttonFor?_eq_some_iff.mpr h]

end

/-- **Written labels.** A text that is shown on a button, apart from case and outer blanks, stands
for the first such button. Unless the turn was told to stop, writing it comes to the same as
clicking that button, but for the variable that keeps the label. And it is the same altogether only
if nothing is kept or if the button is shown as it is drawn. -/
theorem written_like_clicked (hn : n.action = .template text buttons name)
    (h : ∃ shown ∈ shownButtons buttons vars, folded shown.label = folded t) :
    ∃ b, FirstShown buttons vars t b ∧ ∀ (w : World) (e : Nat → Moment),
      Visit.Alike (keptIn name) (sc.answered n node vars (.text t) w e)
        (sc.answered n node vars (.click b.id (vars.interpolate b.label)) w e) ∧
      (sc.answered n node vars (.text t) w e = .cut ↔ (e 0).circumstance.aborted = true) ∧
      (sc.answered n node vars (.text t) w e =
          sc.answered n node vars (.click b.id (vars.interpolate b.label)) w e ↔
        (e 0).circumstance.aborted = true ∨ keptIn name = none ∨
          b.label = vars.interpolate b.label) := by
  obtain ⟨b, hb⟩ := exists_firstShown h
  refine ⟨b, hb, fun w e => ?_⟩
  rw [answered_text hn hb, answered_click hn, answered_click hn]
  split
  · exact ⟨.cut, iff_of_true rfl ‹_›, iff_of_true rfl (.inl ‹_›)⟩
  · refine ⟨.finished rfl rfl fun k hk => (get?_kept hk).trans (get?_kept hk).symm,
      iff_of_false nofun ‹_›, ?_⟩
    exact Visit.via_eq_iff.trans (kept_eq_iff.trans (or_iff_right ‹_›).symm)

/-! ### A label with a placeholder -/

/-- A button is called by a variable, and the label that was chosen is kept. -/
def echoing : Graph :=
  ⟨[⟨"start", "start", .null, none⟩,
      ⟨"t", "template", .obj [("buttons",
        .arr [.obj [("id", .str "b1"), ("label", .str "\x7bx\x7d")]]), ("text", .str "?"),
        ("variableName", .str "choice")], none⟩,
      ⟨"m", "message", .obj [("text", .str "Hi")], none⟩],
    [⟨"e1", "start", "t", none⟩, ⟨"e2", "t", "m", some "b1"⟩]⟩

/-- Its template. -/
def echoNode : Flow.Node :=
  ⟨"t", .template, .obj [("buttons",
    .arr [.obj [("id", .str "b1"), ("label", .str "\x7bx\x7d")]]), ("text", .str "?"),
    ("variableName", .str "choice")], .template "?" [⟨"b1", "\x7bx\x7d"⟩] (some "choice")⟩

/-- The graph, compiled. -/
def echoFlow : Flow :=
  ⟨"f1", 1, [⟨"start", .start, .null, .start none⟩, echoNode,
    ⟨"m", .message, .obj [("text", .str "Hi")], .message "Hi"⟩],
    [⟨"e1", "start", "t", .plain⟩, ⟨"e2", "t", "m", .branch "b1"⟩], [], [], "start"⟩

/-- What comes of a reply to the template. -/
def echoed (vars : Variables) (reply : Reply) : Visit :=
  answered ⟨"s1", echoFlow, .default⟩ echoNode "t" vars reply (World.new .empty 0) calmly

/-- Without the variable the placeholder stays, and it can be written as well as clicked. -/
theorem written_like_clicked_unfilled :
    ∃ b, FirstShown [⟨"b1", "\x7bx\x7d"⟩] [] " \x7bX\x7d" b ∧
      echoed [] (.text " \x7bX\x7d") =
        echoed [] (.click b.id (Variables.interpolate [] b.label)) := by
  obtain ⟨b, hb, hvisits⟩ := @written_like_clicked [⟨"b1", "\x7bx\x7d"⟩] [] " \x7bX\x7d"
    (some "choice") ⟨"s1", echoFlow, .default⟩ echoNode "?" "t" rfl (by decide +kernel)
  refine ⟨b, hb, (hvisits _ calmly).2.2.mpr (.inr (.inr ?_))⟩
  obtain ⟨before, after, hsplit, -⟩ := hb.split
  have hmem : b ∈ [Button.mk "b1" "\x7bx\x7d"] := by rw [hsplit]; simp
  rw [List.mem_singleton.mp hmem]
  decide +kernel

/-- **A label that is kept as drawn**: the button says `Yes`, and the variable keeps the placeholder
if the customer writes that. -/
theorem echoed_differs : Flow.compile "f1" 1 echoing = .ok echoFlow ∧
    echoFlow.node? "t" = some echoNode ∧
    FirstShown [⟨"b1", "\x7bx\x7d"⟩] [("x", .str "Yes")] "yes" ⟨"b1", "\x7bx\x7d"⟩ ∧
    Variables.interpolate [("x", .str "Yes")] "\x7bx\x7d" = "Yes" ∧
    ∃ o o', echoed [("x", .str "Yes")] (.text "yes") = .finished o ∧
      echoed [("x", .str "Yes")] (.click "b1" "Yes") = .finished o' ∧
      o.transition = .branch (.branch "b1") ∧ o'.transition = .branch (.branch "b1") ∧
      o.vars.get? "choice" = some (.str "\x7bx\x7d") ∧
      o'.vars.get? "choice" = some (.str "Yes") := by
  refine ⟨rfl, rfl, ⟨by decide +kernel, [], [], rfl, nofun⟩, by decide +kernel, ?_⟩
  have hbutton : buttonFor? "yes" [⟨"b1", "\x7bx\x7d"⟩] [("x", .str "Yes")] =
      some ⟨"b1", "\x7bx\x7d"⟩ := by decide +kernel
  have hfirst := buttonFor?_eq_some_iff.mp hbutton
  exact ⟨_, _, (answered_text rfl hfirst).trans rfl, rfl, rfl, rfl, by decide +kernel,
    by decide +kernel⟩

end Scene

end Turn

end Dialogue
