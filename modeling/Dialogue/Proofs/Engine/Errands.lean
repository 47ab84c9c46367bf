import Dialogue.Engine.Machine
import Dialogue.Proofs.Command.Conserves
import Dialogue.Proofs.Engine.Performed
import Dialogue.Proofs.Registry.Calls
import Dialogue.Proofs.Session.Transcript

/-! # Errands side by side

An engine makes, drafts and publishes flows, looks versions up, opens sessions and gives them
commands. It does any number of these errands at a time: their questions come in any order, some are
cut and never go on, and meanwhile the clock goes on and compiled flows are forgotten.

* `Registry.always_published`: the live version of a flow is looked up like any other version.
* `Crew.Relies.lasts`: what goes on along a relation lasts. -/

namespace Dialogue

open Program Procedure World

/-- What an engine is asked to do. -/
inductive Errand where
  | call (c : Registry.Call)
  | opening (flow : String)
  | order (o : Order)

namespace Errand

/-- What comes of an errand that does not fail. -/
abbrev Value : Errand → Type
  | .call c => c.Value
  | .opening _ => String
  | .order _ => Turn.Report

/-- What an errand does. -/
def program (settings : Settings) : (e : Errand) → Program (Outcome e.Value)
  | .call c => c.program
  | .opening flow => (Command.openSession flow).run
  | .order o => (Command.handle settings o.session o.command).run

end Errand

/-- The errands of an engine. -/
abbrev Errands := Crew fun e : Errand => Outcome e.Value

/-- An engine with an empty store that was asked nothing yet. -/
def Errands.new (now : Millis) : Errands := ⟨.new .empty now, []⟩

/-- An errand is begun. -/
def Errand.Joins (settings : Settings) (may : Errand → Prop) (e : Errand)
    (p : Program (Outcome e.Value)) : Prop :=
  may e ∧ p = e.program settings

/-- What happens beside all errands: nobody else does anything, and the clock shows times that fit
their column. -/
structure World.Passing (w w' : World) : Prop extends w.Idle w' where
  clock : FitsColumn w.clock → FitsColumn w'.clock

/-- What an engine comes to in the course of time. -/
abbrev Errands.Run (settings : Settings) (may : Errand → Prop) : Errands → Errands → Prop :=
  Crew.Course World.Passing (Errand.Joins settings may) fun _ _ _ => True

/-- An errand is done, and nothing else happens. -/
theorem Errands.does {settings : Settings} {may : Errand → Prop} {e : Errand} (he : may e)
    (m : Errands) : ∃ m', Run settings may m m' ∧ m'.world = m.world.doing (e.program settings) :=
  Crew.Course.does (calm .unreachable) ⟨he, rfl⟩ (fun _ _ => trivial) m

/-! ### What goes on along a relation -/

/-- What goes on along a relation on which can be relied lasts. -/
theorem Crew.Relies.lasts {others rely : World → World → Prop} {guard : World → Ask → Prop}
    {kept I : World → Prop} (hr : Relies others rely guard kept)
    (hg : ∀ w a, a.Local → guard w a) (hI : ∀ {w w' : World}, rely w w' → I w → I w')
    (hk : ∀ {w : World}, I w → kept w) : Lasts rely I where
  others hb h := hI hb h
  answer c ha h := hI (hr.answer c (hk h) (hg _ _ ha)) h

namespace Registry

variable {beside : World → World → Prop} {guard : World → Ask → Prop}
  {post : Outcome Flow → World → Prop} {flow : String} {w : World}

/-- The live version of a flow is looked up like any other version. -/
theorem always_published (hload : ∀ w₁, beside w w₁ → guard w₁ (.loadFlow flow))
    (hfail : ∀ w₁ e, beside w w₁ → post (.error e) w₁)
    (hversion : ∀ w₁ d, beside w w₁ → w₁.store.loadFlow flow = .ok d → d.version ≠ 0 →
      (version flow d.version).run.Always beside guard post w₁) :
    (published flow).run.Always beside guard post w := by
  unfold published
  refine always_tried (p := loadFlow flow) fun w₁ hb => ⟨hload w₁ hb, fun c => ?_⟩
  show Either _ _ (w₁.store.loadFlow flow) w₁
  cases hd : w₁.store.loadFlow flow with
  | error e => exact hfail w₁ e hb
  | ok d =>
    show Always _ _ _ (ExceptT.run (if d.version = 0 then _ else _)) w₁
    split
    · exact hfail w₁ _ hb
    · rename_i hv
      exact hversion w₁ d hb hd hv

end Registry

end Dialogue
