import Dialogue.Proofs.Turn.Writes

/-! # The course of a turn

Every session that a turn keeps is one that `Writes` admits where the turn stands, whatever others
do beside it and wherever it is cut. So a turn that was not cut ends with the last of these sessions
in the store, and only a reply that the node does not await makes it fail, before anything is kept.

* `walk_always`: by induction on the budget, with one rule for each part of a step.
* `turn_always`: the course of a whole turn. -/

namespace Dialogue.Turn

open Program Procedure World

/-- The turn has come to a report: unless it was cut it is over, with the reported session. -/
def Scene.Reports (sc : Scene) (start : Stand) (r₀ : SessionRow) (B : World → Prop) (sid : String)
    (rep : Report) (w : World) : Prop :=
  ∃ stand r, sc.Comes start r₀ stand r ∧ Holds B sid r w ∧
    (rep.ending ≠ .aborted → stand = .over rep.session rep.ending)

/-- The turn goes on before a node, or has come to a report. -/
def Scene.Proceeds (sc : Scene) (start : Stand) (r₀ : SessionRow) (B : World → Prop)
    (sid : String) : Progress → World → Prop
  | .on s next, w => ∃ r, sc.Comes start r₀ (.before s (.run next)) r ∧ Holds B sid r w
  | .done rep, w => sc.Reports start r₀ B sid rep w

/-- The node of a step does not await its reply, and nothing has come of it. -/
def Scene.Refuses (sc : Scene) (I : World → Prop) (st : Step) (f : Failure) (w : World) : Prop :=
  f.isSession = true ∧ I w ∧ ∃ node reply n, st = .resume node reply ∧
    sc.flow.node? node = some n ∧ ¬ Awaits n.action reply

/-- What comes of the visit of a step. -/
def Visit.Came (f : Flow) (a : Action) : Step → Visit → Prop
  | .run _ => Ran f a
  | .resume _ reply => Resumed f a reply

namespace Scene

variable {sc : Scene}

theorem gives_visit (n : Flow.Node) (st : Step) (vars : Variables) :
    (sc.visit n st vars).Gives (Visit.Came sc.flow n.action st) := by
  refine ⟨trivial, fun aborted _ => ?_⟩
  cases aborted with
  | true => cases st <;> exact trivial
  | false =>
    cases st with
    | run node => exact gives_run
    | resume node reply => exact gives_resume

/-- What a node finishes with fits it. -/
theorem Finishes.fits {s : Session} {st : Step} {o : Output} (h : sc.Finishes s st o) :
    ∃ n, sc.flow.node? st.node = some n ∧ o.Fits sc.flow n.action := by
  obtain ⟨n, hn, ho⟩ := h
  have hcame := (gives_visit n st s.vars).of_mayEnd ho
  cases st with
  | run node => exact ⟨n, hn, hcame⟩
  | resume node reply => exact ⟨n, hn, hcame.2⟩

theorem gives_message (u : Utterance) : (botMessage u).Gives fun _ => True :=
  ⟨trivial, fun _ _ => ⟨trivial, fun _ _ => trivial⟩⟩

theorem gives_messages (us : List Utterance) : (us.mapM botMessage).Gives fun _ => True := by
  induction us with
  | nil => exact trivial
  | cons u rest ih =>
    rw [List.mapM_cons]
    refine gives_bind ((gives_message u).imp fun m _ => ?_)
    exact gives_bind (ih.imp fun _ _ => trivial)

section
variable {beside : World → World → Prop} {sid : String} {B : World → Prop}
  {remembers : String → Flow → Prop} {start : Stand} {r₀ r : SessionRow} {x : Status} {w : World}
  (hB : Ground beside remembers sid B) (hid : start.session.id = sid) (h₀ : r₀.status? = .ok x)
include hB hid h₀

theorem stop_always {s : Session} {h : Halt} (steps : Nat) (hc : sc.Comes start r₀ (.halting s h) r)
    (hw : Holds B sid r w) :
    (sc.stop s h steps).run.Always beside (Ask.Allowed sid (sc.Turns start r₀) remembers)
      (Either (sc.Reports start r₀ B sid) fun _ _ => False) w := by
  have hI := hB.stable_holds r
  obtain ⟨y, hy⟩ := hc.exists_status h₀
  unfold stop
  refine always_aside hI (gives_message _) hw fun diagnosis w _ hw => ?_
  have hwrites (now : Millis) : sc.Turns start r₀ r (stamped (haltedBy s h diagnosis) now) :=
    ⟨_, _, hc, .halt s h diagnosis now⟩
  have hs : (haltedBy s h diagnosis).id = sid := hc.id_eq.trans hid
  refine always_tried ((commit_always hB hs _ _ hy hwrites hw).imp_post ?_)
  rintro (e | kept) w hkept
  · exact hkept.elim
  cases kept with
  | none => exact ⟨_, r, hc, hkept, fun hne => absurd rfl hne⟩
  | some s' =>
    obtain ⟨now, rfl, hw⟩ := hkept
    refine always_aside (hB.stable_holds _) (gives_emit _ _ _) hw fun _ w _ hw => ?_
    exact ⟨_, _, hc.wrote (.halt s h diagnosis now), hw, fun _ => rfl⟩

theorem follow_always {s : Session} {node : String} {route : Route} (steps : Nat)
    (hc : sc.Comes start r₀ (.behind s node route) r) (hw : Holds B sid r w) :
    (sc.follow s node route steps).run.Always beside
      (Ask.Allowed sid (sc.Turns start r₀) remembers)
      (Either (sc.Proceeds start r₀ B sid) fun _ _ => False) w := by
  have hI := hB.stable_holds r
  have hemit := fun e => gives_emit sc.session node (.session e)
  cases route with
  | go next => exact ⟨r, hc, hw⟩
  | finish =>
    exact always_aside hI (hemit _) hw fun _ w _ hw => ⟨_, r, hc, hw, fun _ => rfl⟩
  | pause =>
    exact always_aside hI (hemit _) hw fun _ w _ hw => ⟨_, r, hc, hw, fun _ => rfl⟩
  | handoff queue reason =>
    refine always_lift ((always_deliver hB _ hw).imp_post fun _ w hw => ?_)
    exact always_aside hI (hemit _) hw fun _ w _ hw => ⟨_, r, hc, hw, fun _ => rfl⟩
  | close =>
    refine always_lift ((always_deliver hB _ hw).imp_post fun _ w hw => ?_)
    exact always_aside hI (hemit _) hw fun _ w _ hw => ⟨_, r, hc, hw, fun _ => rfl⟩
  | halt kind text retryable =>
    refine always_tried ((stop_always hB hid h₀ steps hc hw).imp_post ?_)
    rintro (e | rep) w hrep
    · exact hrep.elim
    · exact hrep

theorem conclude_always {s : Session} {st : Step} {o : Output} (steps : Nat)
    (hc : sc.Comes start r₀ (.before s st) r) (ho : sc.Finishes s st o) (hw : Holds B sid r w) :
    (sc.conclude s st.node o steps).run.Always beside
      (Ask.Allowed sid (sc.Turns start r₀) remembers)
      (Either (sc.Proceeds start r₀ B sid) fun _ _ => False) w := by
  have hI := hB.stable_holds r
  obtain ⟨y, hy⟩ := hc.exists_status h₀
  unfold conclude
  refine always_aside hI (gives_messages _) hw fun spoken w _ hw => ?_
  have hwrites (now : Millis) := hc.wrote (.node ho rfl spoken now)
  have hturns (now : Millis) :
      sc.Turns start r₀ r (stamped (after s st.node o.vars spoken _) now) :=
    ⟨_, _, hc, .node ho rfl spoken now⟩
  have hs : (after s st.node o.vars spoken (o.transition.route sc.flow st.node)).id = sid :=
    (id_after _ _ _ _ _).trans (hc.id_eq.trans hid)
  refine always_tried ((commit_always hB hs _ _ hy hturns hw).imp_post ?_)
  rintro (e | kept) w hkept
  · exact hkept.elim
  cases kept with
  | none =>
    refine always_aside hI (gives_emitNode _ _ _) hkept fun _ w _ hw => ?_
    exact ⟨_, r, hc, hw, fun hne => absurd rfl hne⟩
  | some s' =>
    obtain ⟨now, rfl, hw⟩ := hkept
    refine always_aside (hB.stable_holds _) (gives_emitNode _ _ _) hw fun _ w _ hw => ?_
    exact follow_always hB hid h₀ steps (hwrites now) hw

/-- **A step** goes on before a node or comes to a report, unless its reply is refused. -/
theorem advance_always {s : Session} {st : Step} (steps : Nat)
    (hc : sc.Comes start r₀ (.before s st) r) {I : World → Prop} (hI : Stable beside remembers I)
    (hw : Holds B sid r w) (hIw : I w) :
    (sc.advance s st steps).run.Always beside (Ask.Allowed sid (sc.Turns start r₀) remembers)
      (Either (sc.Proceeds start r₀ B sid) (sc.Refuses I st)) w := by
  unfold advance
  dsimp only
  cases hn : sc.flow.node? st.node with
  | none =>
    refine always_tried ((stop_always hB hid h₀ steps (hc.fault (.missing hn)) hw).imp_post ?_)
    rintro (e | rep) w hrep
    · exact hrep.elim
    · exact hrep
  | some n =>
    have hJ := (hB.stable_holds r).and hI
    refine always_aside hJ (gives_emitNode _ _ _) ⟨hw, hIw⟩ fun _ w _ hw => ?_
    refine always_aside hJ (gives_visit n st s.vars) hw fun v w hv hw => ?_
    cases v with
    | cut =>
      refine always_aside hJ (gives_emitNode _ _ _) hw fun _ w _ hw => ?_
      exact ⟨_, r, hc, hw.1, fun hne => absurd rfl hne⟩
    | finished o =>
      exact (conclude_always hB hid h₀ steps hc ⟨n, hn, hv⟩ hw.1).imp_post fun
        | .ok _, _, h => h
        | .error _, _, h => h.elim
    | failed f =>
      have hcame := (gives_visit n st s.vars).of_mayEnd hv
      dsimp only
      split
      · rename_i hf
        -- only a reply can be refused, and only by a node that does not await it
        cases st with
        | run node => exact absurd hf (by rw [show f.isSession = false from hcame]; nofun)
        | resume node reply => exact ⟨hf, hw.2, node, reply, n, rfl, hn, hcame.2⟩
      · rename_i hf
        have hfault := hc.fault (.failed hn hv (by simpa using hf))
        refine always_aside hJ (gives_emit _ _ _) hw fun _ w _ hw => ?_
        refine always_tried ((stop_always hB hid h₀ steps hfault hw.1).imp_post ?_)
        rintro (e | rep) w hrep
        · exact hrep.elim
        · exact hrep

/-- **The walk** of a turn, by induction on the budget. -/
theorem walk_always {s : Session} {st : Step} (budget steps : Nat)
    (hc : sc.Comes start r₀ (.before s st) r) {I : World → Prop} (hI : Stable beside remembers I)
    (hw : Holds B sid r w) (hIw : I w) :
    (sc.walk budget steps s st).run.Always beside
      (Ask.Allowed sid (sc.Turns start r₀) remembers)
      (Either (sc.Reports start r₀ B sid) (sc.Refuses I st)) w := by
  induction budget generalizing steps s st r w I with
  | zero =>
    exact (stop_always hB hid h₀ steps (hc.fault .budget) hw).imp_post fun
      | .ok _, _, h => h
      | .error _, _, h => h.elim
  | succ budget ih =>
    rw [walk_succ]
    refine always_tried ((advance_always hB hid h₀ _ hc hI hw hIw).imp_post ?_)
    rintro (f | ⟨s', next⟩ | rep) w h
    · exact h
    · obtain ⟨r', hc', hw'⟩ := h
      have htrue : Stable beside remembers fun _ => True :=
        ⟨fun _ _ => trivial, fun _ _ _ _ => trivial, fun _ _ => trivial⟩
      refine (ih (steps + 1) hc' htrue hw' trivial).imp_post ?_
      rintro (f | rep) w h
      · obtain ⟨-, -, _, _, _, hst, -⟩ := h
        nomatch hst
      · exact h
    · exact h

end

/-- **A turn** keeps only what it may write where it stands. Unless it is cut it ends with the
reported session in the store, and it fails only where a node refuses a reply. -/
theorem turn_always {beside : World → World → Prop} {sid : String} {B : World → Prop}
    {remembers : String → Flow → Prop} {r₀ : SessionRow} {x : Status} {w : World} {s : Session}
    {st : Step} (hB : Ground beside remembers sid B) (hid : s.id = sid) (h₀ : r₀.status? = .ok x)
    {I : World → Prop} (hI : Stable beside remembers I) (hw : Holds B sid r₀ w) (hIw : I w) :
    (sc.turn s st).run.Always beside
      (Ask.Allowed sid (sc.Turns (.before (begun s) st) r₀) remembers)
      (Either (sc.Reports (.before (begun s) st) r₀ B sid) (sc.Refuses I st)) w := by
  have hid : (Stand.before (begun s) st).session.id = sid := hid
  exact walk_always hB hid h₀ _ 0 .begun hI hw hIw

end Scene

end Dialogue.Turn
