import Dialogue.Proofs.Program.Live

/-! # Programs in step

Two programs in two worlds are in step if they go on alike whenever they are asked at moments of the
same kind: they put as many questions, and come to results that are related together with the worlds
in which they end.

* `InStep.live`: programs in step come to related results in time.
* `inStep_bind`, `inStep_tried`, `inStep_lift`: programs in step behind programs in step. -/

namespace Dialogue.Program

variable {α β γ δ : Type} {same : Moment → Moment → Prop}

/-- Both programs come to results that are related, if their questions are asked at moments of the
same kind. -/
def InStep (same : Moment → Moment → Prop) (post : α → β → World → World → Prop) :
    Program α → Program β → World → World → Prop
  | .done a, .done b, w, v => post a b w v
  | .ask a next, .ask b next', w, v => ∀ m m', same m m' →
      (next (w.reply m a).2).InStep same post (next' (v.reply m' b).2)
        (w.reply m a).1 (v.reply m' b).1
  | _, _, _, _ => False

variable {post post' : α → β → World → World → Prop} {p : Program α} {q : Program β}
  {w v : World} {e e' : Nat → Moment}

/-- Programs in step leave moments of the same kind. -/
theorem InStep.live (h : p.InStep same post q w v) (he : ∀ i, same (e i) (e' i)) :
    post (w.live e p).2.2 (v.live e' q).2.2 (w.live e p).2.1 (v.live e' q).2.1 ∧
      ∀ i, same ((w.live e p).1 i) ((v.live e' q).1 i) := by
  induction p generalizing q e e' w v with
  | done a =>
    cases q with
    | done b => exact ⟨h, he⟩
    | ask b next' => exact h.elim
  | ask a next ih =>
    cases q with
    | done b => exact h.elim
    | ask b next' =>
      have hrest := ih _ (h _ _ (he 0)) fun i => he (i + 1)
      exact hrest

theorem InStep.imp (h : p.InStep same post q w v)
    (hp : ∀ a b w v, post a b w v → post' a b w v) : p.InStep same post' q w v := by
  induction p generalizing q w v with
  | done a =>
    cases q with
    | done b => exact hp _ _ _ _ h
    | ask b next' => exact h
  | ask a next ih =>
    cases q with
    | done b => exact h
    | ask b next' => exact fun m m' hm => ih _ (h m m' hm)

theorem inStep_bind {p : Program γ} {q : Program δ} {f : γ → Program α} {g : δ → Program β}
    (h : p.InStep same (fun c d w v => (f c).InStep same post (g d) w v) q w v) :
    (p.bind f).InStep same post (q.bind g) w v := by
  induction p generalizing q w v with
  | done a =>
    cases q with
    | done b => exact h
    | ask b next' => exact h.elim
  | ask a next ih =>
    cases q with
    | done b => exact h.elim
    | ask b next' => exact fun m m' hm => ih _ (h m m' hm)

/-- Both results are related, or both are one failure. -/
def Agree (good : α → β → World → World → Prop) :
    Outcome α → Outcome β → World → World → Prop
  | .ok a, .ok b, w, v => good a b w v
  | .error x, .error y, _, _ => x = y
  | _, _, _, _ => False

variable {good : α → β → World → World → Prop}

theorem inStep_tried {p : Procedure γ} {q : Procedure δ} {f : γ → Procedure α}
    {g : δ → Procedure β}
    (h : p.run.InStep same
      (Agree fun c d w v => (f c).run.InStep same (Agree good) (g d).run w v) q.run w v) :
    (p >>= f).run.InStep same (Agree good) (q >>= g).run w v := by
  rw [ExceptT.run_bind, ExceptT.run_bind]
  refine inStep_bind (h.imp fun c d w v hcd => ?_)
  match c, d with
  | .ok c, .ok d => exact hcd
  | .error x, .error y => exact hcd
  | .ok _, .error _ => exact hcd.elim
  | .error _, .ok _ => exact hcd.elim

theorem inStep_lift {p : Program γ} {q : Program δ} {f : γ → Procedure α} {g : δ → Procedure β}
    (h : p.InStep same (fun c d w v => (f c).run.InStep same (Agree good) (g d).run w v) q w v) :
    ((p : Procedure γ) >>= f).run.InStep same (Agree good) ((q : Procedure δ) >>= g).run w v := by
  show (ExceptT.lift p >>= f).run.InStep same _ (ExceptT.lift q >>= g).run w v
  rw [ExceptT.run_bind_lift, ExceptT.run_bind_lift]
  exact inStep_bind h

end Dialogue.Program
