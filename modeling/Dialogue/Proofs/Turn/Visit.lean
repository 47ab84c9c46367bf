import Dialogue.Proofs.Program.Always
import Dialogue.Turn.Visit
import Mathlib.Tactic.SplitIfs

/-! # What visits give

A visit of a node asks quiet questions only. A node that runs never refuses, it waits for the
customer only if it is an input or a template, and it jumps only to anchors. A node refuses a reply
exactly if it does not await it.

* `gives_run`, `gives_resume`: what comes of the visit of a node. -/

namespace Dialogue

namespace Turn

open Program

/-- The node waits for a reply like this one. -/
def Awaits : Action → Reply → Prop
  | .input _ _, .text _ => True
  | .template _ _ _, _ => True
  | _, _ => False

/-- What a node may give: it waits only if it is an input or a template, and jumps only to
anchors. -/
structure Output.Fits (f : Flow) (a : Action) (o : Output) : Prop where
  pause : o.transition = .pause → a.kind = .input ∨ a.kind = .template
  jump : ∀ target, o.transition = .jump target → ∃ name, f.anchor? name = some target

/-- What may come of a run: no refusal, and an output that fits the node. -/
def Visit.Ran (f : Flow) (a : Action) : Visit → Prop
  | .cut => True
  | .failed e => e.isSession = false
  | .finished o => o.Fits f a

/-- What may come of a reply: a refusal if the node does not await it, or an output that fits the
node. -/
def Visit.Resumed (f : Flow) (a : Action) (reply : Reply) : Visit → Prop
  | .cut => True
  | .failed e => e.isSession = true ∧ ¬ Awaits a reply
  | .finished o => Awaits a reply ∧ o.Fits f a

/-- A transition along edges fits every node. -/
def Transition.IsPlain : Transition → Prop
  | .pause | .jump _ => False
  | _ => True

theorem Output.fits_of_isPlain {f : Flow} {a : Action} {o : Output} (h : o.transition.IsPlain) :
    o.Fits f a where
  pause e := by rw [e] at h; exact h.elim
  jump target e := by rw [e] at h; exact h.elim

namespace Scene

variable {sc : Scene} {a : Action} {node : String} {vars : Variables}

theorem gives_log {α : Type} {P : α → Prop} {text : String} {f : Unit → Program α}
    (h : (f ()).Gives P) : (sc.log node text >>= f).Gives P :=
  ⟨trivial, fun _ _ => ⟨trivial, fun _ _ => h⟩⟩

theorem gives_condition (rules : List Condition) (hasElse : Bool) :
    (sc.visitCondition node rules hasElse vars).Gives (Visit.Ran sc.flow a) := by
  unfold visitCondition
  split
  · exact gives_log (Output.fits_of_isPlain trivial)
  · dsimp only
    split_ifs
    · exact gives_log (Output.fits_of_isPlain trivial)
    · exact Output.fits_of_isPlain trivial

theorem gives_schedule (id : Option String) (days : Days) (offset : Option Int) :
    (sc.visitSchedule node id days offset vars).Gives (Visit.Ran sc.flow a) := by
  have hdone (s : Schedule) : (do
      let isOpen := s.isOpen (← instant) sc.settings.engine.offset
      sc.log node ("schedule '" ++ s.id ++ "' is " ++ if isOpen then "open" else "closed")
      return Visit.via vars (.branch (.fixed (if isOpen then .inside else .outside)))).Gives
        (Visit.Ran sc.flow a) :=
    ⟨trivial, fun _ _ => gives_log (Output.fits_of_isPlain trivial)⟩
  unfold visitSchedule scheduleOf
  split
  · refine ⟨trivial, fun o ho => ?_⟩
    cases o with
    | error e => exact ho
    | ok s => exact hdone s
  · exact hdone _

theorem gives_delay (amount : Json) :
    (sc.visitDelay node amount vars).Gives (Visit.Ran sc.flow a) := by
  have hwait (t : Nat) : (do
      if ← wait (.delay t) then return Visit.via vars (.next .plain)
      else return Visit.cut).Gives (Visit.Ran sc.flow a) := by
    refine ⟨trivial, fun went _ => ?_⟩
    cases went with
    | true => exact Output.fits_of_isPlain trivial
    | false => exact trivial
  unfold visitDelay
  split
  · exact rfl
  · dsimp only
    split_ifs
    · exact gives_log (gives_log (hwait _))
    · exact gives_log (hwait _)

theorem Script.isSession_of_run {body : String} {f : Failure}
    (h : Script.run body vars = .error f) : f.isSession = false := by
  unfold Script.run at h
  split at h
  · cases h; rfl
  · split_ifs at h
    cases h; rfl

theorem gives_script (body : String) :
    (sc.visitScript node body vars).Gives (Visit.Ran sc.flow a) := by
  unfold visitScript
  refine ⟨trivial, fun went _ => ?_⟩
  cases went with
  | false => exact trivial
  | true =>
    cases h : Script.run body vars with
    | error f => exact Script.isSession_of_run h
    | ok delta => exact gives_log (Output.fits_of_isPlain trivial)

theorem gives_callFailed (fault : Http.Fault) :
    (sc.callFailed node fault vars).Gives (Visit.Ran sc.flow a) := by
  unfold callFailed
  refine gives_log ?_
  dsimp only
  split_ifs
  · exact Output.fits_of_isPlain trivial
  · exact rfl

theorem gives_callAnswered (call : Http.Call) (body : Json) :
    (sc.callAnswered node call body vars).Gives (Visit.Ran sc.flow a) := by
  have hlogs (l : List Http.Mapping) :
      (l.forM fun m => sc.log node ("mapping '" ++ m.path ++ "' found nothing")).Gives
        fun _ => True := by
    induction l with
    | nil => exact trivial
    | cons m rest ih => exact gives_log ih
  exact gives_log (gives_bind ((hlogs _).imp fun _ _ => Output.fits_of_isPlain trivial))

theorem gives_call (call : Http.Call) :
    (sc.visitCall node call vars).Gives (Visit.Ran sc.flow a) := by
  unfold visitCall
  split
  · exact gives_callFailed _
  · rename_i request _
    refine ⟨trivial, fun answered _ => ?_⟩
    cases answered with
    | none => exact trivial
    | some attempt =>
      simp only [Program.bind]
      split
      · exact gives_callFailed _
      · exact gives_callAnswered call _

/-- **Runs.** A node that runs refuses nothing and fits its output. -/
theorem gives_run : (sc.run node a vars).Gives (Visit.Ran sc.flow a) := by
  unfold run
  split
  · split
    · rename_i t
      generalize placeholders.contains (folded t) = silent
      cases silent <;> exact Output.fits_of_isPlain trivial
    · exact Output.fits_of_isPlain trivial
  · exact Output.fits_of_isPlain trivial
  · split
    · exact ⟨fun _ => .inl rfl, nofun⟩
    · exact ⟨fun _ => .inl rfl, nofun⟩
  · exact gives_log (Output.fits_of_isPlain trivial)
  · exact gives_condition _ _
  · exact gives_script _
  · exact gives_call _
  · exact gives_delay _
  · exact Output.fits_of_isPlain trivial
  · split
    · rename_i name _ target h
      exact ⟨nofun, fun t ht => by cases ht; exact ⟨name, h⟩⟩
    · exact rfl
  · exact Output.fits_of_isPlain trivial
  · exact gives_schedule _ _ _
  · exact ⟨fun _ => .inr rfl, nofun⟩
  · exact Output.fits_of_isPlain trivial

theorem gives_clicked {text : String} {buttons : List Button} {name : Option String}
    {id label : String} {reply : Reply} :
    (sc.clicked node name id label vars).Gives
      (Visit.Resumed sc.flow (.template text buttons name) reply) := by
  refine gives_log ⟨trivial, Output.fits_of_isPlain ?_⟩
  show Transition.IsPlain (if _ then _ else _)
  split_ifs <;> trivial

/-- **Replies.** A node refuses a reply exactly if it does not await it. -/
theorem gives_resume {reply : Reply} :
    (sc.resume node a reply vars).Gives (Visit.Resumed sc.flow a reply) := by
  unfold resume
  split
  · exact ⟨trivial, Output.fits_of_isPlain trivial⟩
  · exact ⟨rfl, id⟩
  · exact gives_clicked
  · split
    · exact gives_clicked
    · exact ⟨trivial, fun _ => .inr rfl, nofun⟩
  · rename_i hinput _ hclick htext
    refine ⟨rfl, fun ha => ?_⟩
    unfold Awaits at ha
    split at ha
    · exact hinput _ _ _ rfl rfl
    · cases reply with
      | text s => exact htext _ _ _ _ rfl rfl
      | click id label => exact hclick _ _ _ _ _ rfl rfl
    · exact ha

end Scene

end Turn

end Dialogue
