import Dialogue.Proofs.Program.Always

/-! # What is seen of a session

A program that works on a session reads it, begins a turn, keeps the session and tells the chat
backend of it. Each of these leaves a mark. `Trail` is a run of a program with the marks that it
leaves for one session, whatever others do between two questions.

* `Trail.leads`: a trail is a run.
* `Passes`: a program leaves no mark. -/

namespace Dialogue

/-- The session that the chat backend is told of. -/
def Delivery.session : Delivery → String
  | .append id _ | .persist id _ | .transfer id _ _ | .close id => id

/-- What is seen of a session. -/
inductive Mark where
  /-- The session was read. -/
  | opened (s : Session)
  /-- The session was put into the store. -/
  | kept (s : Session)
  /-- The chat backend was told something. -/
  | told (d : Delivery)
  /-- A turn has begun. -/
  | turn

/-- The session that was put into the store. -/
def Mark.kept? : Mark → Option Session
  | .kept y => some y
  | _ => none

namespace Ask

/-- The mark that an answered question leaves for a session. -/
def mark? (sid : String) : (a : Ask) → a.Answer → Option Mark
  | .loadSession id, .ok s => if id = sid then some (.opened s) else none
  | .saveSession y, .ok () => if y.id = sid then some (.kept y) else none
  | .deliver d, () => if d.session = sid then some (.told d) else none
  | .openTurn, () => some .turn
  | _, _ => none

/-- The question leaves no mark. -/
def Unmarked : Ask → Prop
  | .loadSession _ | .saveSession _ | .deliver _ | .openTurn => False
  | _ => True

theorem Unmarked.mark?_eq {a : Ask} (h : a.Unmarked) (sid : String) (x : a.Answer) :
    a.mark? sid x = none := by
  cases a with
  | loadSession | saveSession | deliver | openTurn => exact h.elim
  | _ => rfl

end Ask

namespace Program

variable {α β : Type} {beside : World → World → Prop} {sid : String} {p q : Program α}
  {w w' : World} {log log' : List Mark}

/-- A program in a world leads to another program in another world and leaves marks in between. -/
inductive Trail (beside : World → World → Prop) (sid : String) :
    Program α → World → List Mark → Program α → World → Prop
  | refl (p : Program α) (w : World) : Trail beside sid p w [] p w
  | ask {a : Ask} {next : a.Answer → Program α} {q : Program α} {w w₁ w' : World}
      {log : List Mark} (c : Circumstance) (hb : beside w w₁)
      (h : Trail beside sid (next (w₁.answer c a).2) (w₁.answer c a).1 log q w') :
      Trail beside sid (.ask a next) w ((a.mark? sid (w₁.answer c a).2).toList ++ log) q w'

/-- A trail is a run. -/
theorem Trail.leads (h : Trail beside sid p w log q w') :
    Leads beside (fun _ => True) p w q w' := by
  induction h with
  | refl => exact .refl _ _
  | ask c hb _ ih => exact .ask c hb trivial ih

/-- A run that is told what happens at every question leaves a trail. -/
theorem exists_trail (hb : ∀ w, beside w w) (c : Nat → Circumstance) (n : Nat) (p : Program α)
    (w : World) : ∃ log, Trail beside sid p w log (.done (w.run c n p).2.2) (w.run c n p).2.1 := by
  induction p generalizing n w with
  | done a => exact ⟨[], .refl _ _⟩
  | ask a next ih =>
    obtain ⟨log, h⟩ := ih (w.answer (c n) a).2 (n + 1) (w.answer (c n) a).1
    exact ⟨_, .ask (c n) (hb w) h⟩

/-- No question of the program leaves a mark, and all results satisfy a condition, whatever worlds
answer. -/
abbrev Passes (P : α → Prop) (p : Program α) (w : World) : Prop :=
  p.Always (fun _ _ => True) (fun _ a => a.Unmarked) (fun a _ => P a) w

variable {P : α → Prop}

theorem passes_question {a : Ask} (h : a.Unmarked) (w : World) :
    (question a).Passes (fun _ => True) w :=
  fun _ _ => ⟨h, fun _ => trivial⟩

theorem passes_emit (session node : String) (e : Event.Content) (w : World) :
    (emit session node e).Passes (fun _ => True) w :=
  fun _ _ => ⟨trivial, fun _ => trivial⟩

theorem passes_emitNode (session node : String) (e : Millis → NodeEvent) (w : World) :
    (emitNode session node e).Passes (fun _ => True) w :=
  fun _ _ => ⟨trivial, fun _ => passes_emit _ _ _ _⟩

/-- Programs that may fail, behind each other. -/
theorem passes_tried {p : Procedure β} {f : β → Procedure α}
    (hp : ∀ w, p.run.Passes (fun _ => True) w) (hf : ∀ b w, (f b).run.Passes (fun _ => True) w)
    (w : World) : (p >>= f).run.Passes (fun _ => True) w := by
  refine always_tried ((hp w).imp_post fun o w _ => ?_)
  cases o with
  | ok b => exact hf b w
  | error e => exact trivial

theorem passes_lift {p : Program β} {f : β → Procedure α}
    (hp : ∀ w, p.Passes (fun _ => True) w) (hf : ∀ b w, (f b).run.Passes (fun _ => True) w)
    (w : World) : ((p : Procedure β) >>= f).run.Passes (fun _ => True) w :=
  always_lift ((hp w).imp_post fun b w _ => hf b w)

end Program

end Dialogue
