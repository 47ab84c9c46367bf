import Dialogue.Proofs.Json.Delta
import Dialogue.Proofs.Program.Trail
import Dialogue.Turn.Basic
import Mathlib.Tactic.SplitIfs

/-! # Nodes lose no variable

Whatever a node does, it keeps every variable that it was given, and nothing of it is seen of the
session before the node has finished.

* `passes_visit`: what comes of the visit of a node. -/

namespace Dialogue

open Program

/-- An answer only gives values to variables. -/
theorem Http.Call.grows_store (call : Http.Call) (vars : Variables) (body : Json) :
    vars.Grows (call.store vars body) := by
  have hkeep (vars : Variables) (m : Http.Mapping) : vars.Grows (keep body vars m) := by
    unfold keep
    split
    · exact .insert _ _ _
    · exact .refl _
  have hmappings (vars : Variables) : vars.Grows (call.mappings.foldl (keep body) vars) := by
    induction call.mappings generalizing vars with
    | nil => exact .refl _
    | cons m rest ih => exact (hkeep vars m).trans (ih _)
  unfold store
  dsimp only
  split
  · split_ifs
    · exact hmappings vars
    · exact (hmappings vars).trans (.insert _ _ _)
  · exact hmappings vars

namespace Turn

/-- A node that has finished leaves all variables that it was given. -/
def Visit.Grew (vars : Variables) : Visit → Prop
  | .finished o => vars.Grows o.vars
  | .cut | .failed _ => True

namespace Scene

variable {sc : Scene} {node : String} {vars : Variables}

theorem passes_log {α : Type} {P : α → Prop} {text : String} {f : Unit → Program α}
    (h : ∀ w, (f ()).Passes P w) (w : World) : (sc.log node text >>= f).Passes P w :=
  fun _ _ => ⟨trivial, fun _ _ _ => ⟨trivial, fun _ => h _⟩⟩

/-- A node that has nothing more to ask. -/
theorem passes_grew {vars' : Variables} (h : vars.Grows vars') (us : List Utterance)
    (t : Transition) (w : World) :
    (pure (.finished ⟨us, t, vars'⟩) : Program Visit).Passes (Visit.Grew vars) w := h

/-- A node that leaves the variables as they are. -/
theorem passes_via (t : Transition) (w : World) :
    (pure (.via vars t) : Program Visit).Passes (Visit.Grew vars) w :=
  passes_grew (.refl vars) _ _ w

theorem passes_condition (rules : List Condition) (hasElse : Bool) (w : World) :
    (sc.visitCondition node rules hasElse vars).Passes (Visit.Grew vars) w := by
  unfold visitCondition
  split
  · exact passes_log (passes_via _) w
  · dsimp only
    split_ifs
    · exact passes_log (passes_via _) w
    · exact passes_via _ w

theorem passes_schedule (id : Option String) (days : Days) (offset : Option Int) (w : World) :
    (sc.visitSchedule node id days offset vars).Passes (Visit.Grew vars) w := by
  have hdone (s : Schedule) (w : World) : (do
      let isOpen := s.isOpen (← instant) sc.settings.engine.offset
      sc.log node ("schedule '" ++ s.id ++ "' is " ++ if isOpen then "open" else "closed")
      return Visit.via vars (.branch (.fixed (if isOpen then .inside else .outside)))).Passes
        (Visit.Grew vars) w :=
    fun _ _ => ⟨trivial, fun _ => passes_log (passes_via _) _⟩
  unfold visitSchedule scheduleOf
  split
  · rename_i id _
    refine fun w₁ _ => ⟨trivial, fun c => ?_⟩
    simp only [World.answer]
    cases w₁.store.loadSchedule id with
    | error e => exact trivial
    | ok s => exact hdone s _
  · exact hdone _ _

theorem passes_delay (amount : Json) (w : World) :
    (sc.visitDelay node amount vars).Passes (Visit.Grew vars) w := by
  have hwait (t : Nat) (w : World) : (do
      if ← wait (.delay t) then return Visit.via vars (.next .plain)
      else return Visit.cut).Passes (Visit.Grew vars) w := by
    refine fun w₁ _ => ⟨trivial, fun c => ?_⟩
    show Always _ _ _ (if (w₁.answer c (.wait (.delay t))).2 then _ else _) _
    split_ifs
    · exact passes_via _ _
    · exact trivial
  unfold visitDelay
  split
  · exact trivial
  · dsimp only
    split_ifs
    · exact passes_log (passes_log (hwait _)) w
    · exact passes_log (hwait _) w

theorem passes_script (body : String) (w : World) :
    (sc.visitScript node body vars).Passes (Visit.Grew vars) w := by
  unfold visitScript
  refine fun w₁ _ => ⟨trivial, fun c => ?_⟩
  show Always _ _ _ (if (w₁.answer c (.wait .script)).2 then _ else _) _
  split_ifs
  · split
    · exact trivial
    · exact passes_log (passes_grew (.merge _ _) _ _) _
  · exact trivial

theorem passes_callFailed (fault : Http.Fault) (w : World) :
    (sc.callFailed node fault vars).Passes (Visit.Grew vars) w := by
  unfold callFailed
  refine passes_log (fun w => ?_) w
  dsimp only
  split_ifs
  · exact passes_via _ w
  · exact trivial

theorem passes_callAnswered (call : Http.Call) (body : Json) (w : World) :
    (sc.callAnswered node call body vars).Passes (Visit.Grew vars) w := by
  have hlogs (l : List Http.Mapping) (w : World) :
      (l.forM fun m => sc.log node ("mapping '" ++ m.path ++ "' found nothing")).Passes
        (fun _ => True) w := by
    induction l generalizing w with
    | nil => exact trivial
    | cons m rest ih => exact passes_log ih w
  refine passes_log (fun w => always_bind ((hlogs _ w).imp_post fun _ w _ => ?_)) w
  exact passes_grew (call.grows_store vars body) _ _ w

theorem passes_call (call : Http.Call) (w : World) :
    (sc.visitCall node call vars).Passes (Visit.Grew vars) w := by
  unfold visitCall
  split
  · exact passes_callFailed _ w
  · rename_i request _
    refine fun w₁ _ => ⟨trivial, fun c => ?_⟩
    cases (w₁.answer c (.exchange request)).2 with
    | none => exact trivial
    | some attempt =>
      simp only [Program.bind]
      split
      · exact passes_callFailed _ _
      · exact passes_callAnswered call _ _

theorem passes_clicked (name : Option String) (id label : String) (w : World) :
    (sc.clicked node name id label vars).Passes (Visit.Grew vars) w := by
  unfold clicked
  dsimp only
  split
  · exact passes_log (passes_grew (.insert _ _ _) _ _) w
  · exact passes_log (passes_via _) w

theorem passes_run (a : Action) (w : World) :
    (sc.run node a vars).Passes (Visit.Grew vars) w := by
  unfold run
  split
  · split
    · rename_i t
      generalize placeholders.contains (folded t) = silent
      cases silent
      · exact passes_grew (.refl _) _ _ w
      · exact passes_via _ w
    · exact passes_via _ w
  · exact passes_grew (.refl _) _ _ w
  · split
    · exact passes_grew (.refl _) _ _ w
    · exact passes_via _ w
  · exact passes_log (passes_grew (.insert _ _ _) _ _) w
  · exact passes_condition _ _ w
  · exact passes_script _ w
  · exact passes_call _ w
  · exact passes_delay _ w
  · exact passes_via _ w
  · split
    · exact passes_via _ w
    · exact trivial
  · exact passes_grew (.refl _) _ _ w
  · exact passes_schedule _ _ _ w
  · exact passes_grew (.refl _) _ _ w
  · exact passes_grew (.refl _) _ _ w

theorem passes_resume (a : Action) (reply : Reply) (w : World) :
    (sc.resume node a reply vars).Passes (Visit.Grew vars) w := by
  unfold resume
  split
  · exact passes_grew (.insert _ _ _) _ _ w
  · exact trivial
  · exact passes_clicked _ _ _ w
  · split
    · exact passes_clicked _ _ _ w
    · exact passes_grew (.refl _) _ _ w
  · exact trivial

/-- **The visit of a node** is not seen, and loses no variable. -/
theorem passes_visit (n : Flow.Node) (st : Step) (w : World) :
    (sc.visit n st vars).Passes (Visit.Grew vars) w := by
  refine fun w₁ _ => ⟨trivial, fun c => ?_⟩
  show Always _ _ _ (if (w₁.answer c .isAborted).2 = true then _ else _) _
  split_ifs
  · exact trivial
  · cases st with
    | run node => exact passes_run _ _
    | resume node reply => exact passes_resume _ _ _

end Scene

end Turn

end Dialogue
