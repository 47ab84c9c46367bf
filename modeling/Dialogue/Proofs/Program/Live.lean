import Dialogue.Proofs.Program.Always

/-! # Programs in time

A program takes time, and each of its questions is asked at a moment of its own: at some time, and
in the circumstances of that time. `live` runs a program through a sequence of moments, and `Given`
says what comes of it if all of them are of some sort.

* `live_bind`, `live_tried`, `live_lift`: a program behind another one.
* `Given.live`, `Always.live`: what holds of a program holds of it in time. -/

namespace Dialogue

/-- When a question is asked. -/
structure Moment where
  circumstance : Circumstance
  time : Instant

namespace World

variable {α β : Type}

/-- The world at a time. -/
def timed (w : World) (time : Instant) : World := { w with instant := time }

/-- The answer to a question at a moment, and the world after it. -/
def reply (w : World) (m : Moment) (a : Ask) : World × a.Answer :=
  (w.timed m.time).answer m.circumstance a

/-- Runs a program to its end, each question at the next moment. Comes with the moments that are
left. -/
def live (e : Nat → Moment) : Program α → World → (Nat → Moment) × World × α
  | .done a, w => (e, w, a)
  | .ask a next, w => live (fun i => e (i + 1)) (next (w.reply (e 0) a).2) (w.reply (e 0) a).1

/-- Questions are asked at once, and nothing tells the program to stop. -/
def calmly : Nat → Moment := fun _ => ⟨⟨false, .unreachable⟩, .ofMillis 0⟩

theorem live_bind (e : Nat → Moment) (p : Program α) (f : α → Program β) (w : World) :
    live e (p.bind f) w = live (live e p w).1 (f (live e p w).2.2) (live e p w).2.1 := by
  induction p generalizing e w with
  | done => rfl
  | ask a next ih => exact ih _ _ _

/-- A program behind one that may fail runs in the world that the first one leaves, if that does not
fail. -/
theorem live_tried (e : Nat → Moment) (p : Procedure α) (f : α → Procedure β) (w : World) :
    live e (p >>= f).run w = match live e p.run w with
      | (e', w', .ok a) => live e' (f a).run w'
      | (e', w', .error x) => (e', w', .error x) := by
  rw [ExceptT.run_bind]
  show live e (p.run.bind _) w = _
  rw [live_bind]
  rcases live e p.run w with ⟨e', w', a | x⟩ <;> rfl

/-- A program that may fail runs behind another one in the world that this one leaves. -/
theorem live_lift (e : Nat → Moment) (p : Program α) (f : α → Procedure β) (w : World) :
    live e ((p : Procedure α) >>= f).run w =
      live (live e p w).1 (f (live e p w).2.2).run (live e p w).2.1 := by
  show live e (ExceptT.lift p >>= f).run w = _
  rw [ExceptT.run_bind_lift]
  exact live_bind e p _ w

/-- Every moment that is left is one of those that there were. -/
theorem live_moments (e : Nat → Moment) (p : Program α) (w : World) :
    ∃ n, (live e p w).1 = fun i => e (n + i) := by
  induction p generalizing e w with
  | done => exact ⟨0, by simp only [Nat.zero_add]; rfl⟩
  | ask a next ih =>
    obtain ⟨n, hn⟩ := ih (w.reply (e 0) a).2 (fun i => e (i + 1)) (w.reply (e 0) a).1
    refine ⟨n + 1, hn.trans (funext fun i => ?_)⟩
    rw [Nat.add_right_comm]

/-- The clock does not go on by itself. -/
theorem instant_answer (w : World) (c : Circumstance) (a : Ask) :
    (w.answer c a).1.instant = w.instant := by
  cases a with
  | createSession | saveSession | saveFlow | saveVersion =>
    simp only [answer, change]
    split <;> rfl
  | fresh i => cases i <;> rfl
  | _ => rfl

theorem clock_answer (w : World) (c : Circumstance) (a : Ask) :
    (w.answer c a).1.clock = w.clock :=
  congrArg Instant.millis (instant_answer w c a)

/-! ### Quiet answers -/

theorem Alike.trans {w w' w'' : World} (h : w.Alike w') (h' : w'.Alike w'') : w.Alike w'' :=
  ⟨h'.registered.trans h.registered, h'.flows.trans h.flows, h'.versions.trans h.versions,
    h'.sessions.trans h.sessions, h'.schedules.trans h.schedules, h'.deliveries.trans h.deliveries⟩

theorem alike_timed (w : World) (time : Instant) : w.Alike (w.timed time) :=
  ⟨rfl, rfl, rfl, rfl, rfl, rfl⟩

theorem alike_reply {a : Ask} (h : a.Quiet) (w : World) (m : Moment) : w.Alike (w.reply m a).1 :=
  (alike_timed w m.time).trans (alike_answer h _ _)

end World

namespace Program

variable {α β : Type} {P : Moment → Prop} {post post' : α → World → Prop} {p : Program α}
  {w w' : World} {e : Nat → Moment}

/-- Every result satisfies a condition in the world in which the program ends, if its questions are
asked at moments of some sort. -/
def Given (P : Moment → Prop) (post : α → World → Prop) : Program α → World → Prop
  | .done a, w => post a w
  | .ask a next, w => ∀ m, P m → (next (w.reply m a).2).Given P post (w.reply m a).1

theorem Given.live (h : p.Given P post w) (he : ∀ i, P (e i)) :
    post (w.live e p).2.2 (w.live e p).2.1 := by
  induction p generalizing e w with
  | done => exact h
  | ask a next ih => exact ih _ (h _ (he 0)) fun i => he (i + 1)

theorem Given.imp (h : p.Given P post w) (hp : ∀ a w, post a w → post' a w) :
    p.Given P post' w := by
  induction p generalizing w with
  | done a => exact hp a w h
  | ask a next ih => exact fun m hm => ih _ (h m hm)

theorem Given.and (h : p.Given P post w) (h' : p.Given P post' w) :
    p.Given P (fun a w => post a w ∧ post' a w) w := by
  induction p generalizing w with
  | done a => exact ⟨h, h'⟩
  | ask a next ih => exact fun m hm => ih _ (h m hm) (h' m hm)

theorem given_of_all (h : ∀ a w, post a w) : p.Given P post w := by
  induction p generalizing w with
  | done a => exact h a w
  | ask a next ih => exact fun m _ => ih _

/-- A program of quiet questions changes nothing that is kept. -/
theorem Gives.given {Q : α → Prop} (h : p.Gives Q) :
    p.Given P (fun a w' => Q a ∧ w.Alike w') w := by
  induction p generalizing w with
  | done a => exact ⟨h, .refl w⟩
  | ask a next ih =>
    intro m _
    exact (ih _ (h.answered _ _)).imp fun b w' hb => ⟨hb.1, (World.alike_reply h.1 w m).trans hb.2⟩

theorem given_bind {p : Program β} {f : β → Program α}
    (h : p.Given P (fun b w => (f b).Given P post w) w) : (p.bind f).Given P post w := by
  induction p generalizing w with
  | done b => exact h
  | ask a next ih => exact fun m hm => ih _ (h m hm)

theorem given_lift {p : Program β} {f : β → Procedure α} {post : Outcome α → World → Prop}
    (h : p.Given P (fun b w => (f b).run.Given P post w) w) :
    ((p : Procedure β) >>= f).run.Given P post w := by
  show (ExceptT.lift p >>= f).run.Given P post w
  rw [ExceptT.run_bind_lift]
  exact given_bind h

theorem given_tried {p : Procedure β} {f : β → Procedure α} {post : Outcome α → World → Prop}
    (h : p.run.Given P
      (Either (fun b w => (f b).run.Given P post w) fun e w => post (.error e) w) w) :
    (p >>= f).run.Given P post w := by
  rw [ExceptT.run_bind]
  refine given_bind (h.imp fun r w hr => ?_)
  cases r with
  | ok b => exact hr
  | error e => exact hr

end Program

end Dialogue
