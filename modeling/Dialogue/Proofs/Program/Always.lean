import Dialogue.Proofs.Store.Rows

/-! # What always holds of a program

A program is run in a world that others change too: between two questions the world may go over to
any other one that the relation `beside` admits. `Leads` says how far a program may have come, under
whatever circumstances, and so where it may be cut. `Always` says that every question is asked in a
world where its guard holds, and that every result satisfies a condition together with the world in
which the program ends. It has one rule for each way to build a program.

* `Always.leads`: what always holds of a program always holds of what is left of it.
* `always_bind`, `always_tried`: a program behind another one.
* `Gives.always`: a program of quiet questions keeps everything that quiet answers keep. -/

namespace Dialogue

namespace Program

variable {α β : Type} {beside : World → World → Prop}

/-- A program in a world leads to another program in another world if it asks the questions in
between, all of them allowed. -/
inductive Leads (beside : World → World → Prop) (allowed : Ask → Prop) :
    Program α → World → Program α → World → Prop
  | refl (p : Program α) (w : World) : Leads beside allowed p w p w
  | ask {a : Ask} {next : a.Answer → Program α} {p : Program α} {w w₁ w' : World}
      (c : Circumstance) (hb : beside w w₁) (ha : allowed a)
      (h : Leads beside allowed (next (w₁.answer c a).2) (w₁.answer c a).1 p w') :
      Leads beside allowed (.ask a next) w p w'

/-- Every question of the program is asked under its guard, and every result satisfies a condition
in the world in which the program ends. -/
def Always (beside : World → World → Prop) (guard : World → Ask → Prop)
    (post : α → World → Prop) : Program α → World → Prop
  | .done a, w => post a w
  | .ask a next, w => ∀ w₁, beside w w₁ → guard w₁ a ∧
      ∀ c, (next (w₁.answer c a).2).Always beside guard post (w₁.answer c a).1

variable {guard guard' : World → Ask → Prop} {post post' : α → World → Prop} {p q : Program α}
  {w w' : World}

/-! ### Runs -/

/-- Others may be granted more. -/
theorem Leads.among {allowed : Ask → Prop} {beside' : World → World → Prop}
    (hb : ∀ w w', beside w w' → beside' w w') (h : Leads beside allowed p w q w') :
    Leads beside' allowed p w q w' := by
  induction h with
  | refl => exact .refl _ _
  | ask c h ha _ ih => exact .ask c (hb _ _ h) ha ih

/-- A run that is told what happens at every question is one of the runs. -/
theorem leads_run (hb : ∀ w, beside w w) (c : Nat → Circumstance) (n : Nat) (p : Program α)
    (w : World) :
    Leads beside (fun _ => True) p w (.done (w.run c n p).2.2) (w.run c n p).2.1 := by
  induction p generalizing n w with
  | done a => exact .refl _ _
  | ask a next ih => exact .ask (c n) (hb w) trivial (ih _ _ _)

/-- What is left of a program after a number of questions, and the world then. -/
def cut (c : Circumstance) : Nat → Program α → World → Program α × World
  | n + 1, .ask a next, w => cut c n (next (w.answer c a).2) (w.answer c a).1
  | _, p, w => (p, w)

theorem leads_cut (hb : ∀ w, beside w w) (c : Circumstance) (n : Nat) (p : Program α) (w : World) :
    Leads beside (fun _ => True) p w (cut c n p w).1 (cut c n p w).2 := by
  induction n generalizing p w with
  | zero => cases p <;> exact .refl _ _
  | succ n ih =>
    cases p with
    | done a => exact .refl _ _
    | ask a next => exact .ask c (hb w) trivial (ih _ _)

/-! ### Rules -/

/-- What always holds of a program always holds of what is left of it. -/
theorem Always.leads {allowed : Ask → Prop} (h : p.Always beside guard post w)
    (hl : Leads beside allowed p w q w') : q.Always beside guard post w' := by
  induction hl with
  | refl => exact h
  | ask c hb _ _ ih => exact ih ((h _ hb).2 c)

theorem Always.imp (h : p.Always beside guard post w) (hg : ∀ w a, guard w a → guard' w a)
    (hp : ∀ a w, post a w → post' a w) : p.Always beside guard' post' w := by
  induction p generalizing w with
  | done a => exact hp a w h
  | ask a next ih =>
    intro w₁ hb
    obtain ⟨h1, h2⟩ := h w₁ hb
    exact ⟨hg _ _ h1, fun c => ih _ (h2 c)⟩

theorem Always.imp_post (h : p.Always beside guard post w) (hp : ∀ a w, post a w → post' a w) :
    p.Always beside guard post' w :=
  h.imp (fun _ _ => id) hp

/-- What always holds holds as well while others may do less. -/
theorem Always.among {beside' : World → World → Prop} (h : p.Always beside guard post w)
    (hb : ∀ w w', beside' w w' → beside w w') : p.Always beside' guard post w := by
  induction p generalizing w with
  | done a => exact h
  | ask a next ih =>
    intro w₁ h₁
    obtain ⟨hg, hnext⟩ := h w₁ (hb _ _ h₁)
    exact ⟨hg, fun c => ih _ (hnext c)⟩

/-- A condition that others keep, and that is kept wherever the guard holds, holds throughout. -/
theorem Always.and {I : World → Prop} (h : p.Always beside guard post w)
    (hb : ∀ w w', beside w w' → I w → I w')
    (hg : ∀ w a c, guard w a → I w → I (w.answer c a).1) (hw : I w) :
    p.Always beside (fun w a => guard w a ∧ I w) (fun a w => post a w ∧ I w) w := by
  induction p generalizing w with
  | done a => exact ⟨h, hw⟩
  | ask a next ih =>
    intro w₁ hw₁
    obtain ⟨h1, h2⟩ := h w₁ hw₁
    have hI := hb w w₁ hw₁ hw
    exact ⟨⟨h1, hI⟩, fun c => ih _ (h2 c) (hg w₁ a c h1 hI)⟩

/-- Such a condition holds wherever the program has come. -/
theorem Always.kept {allowed : Ask → Prop} {I : World → Prop} (h : p.Always beside guard post w)
    (hl : Leads beside allowed p w q w') (hb : ∀ w w', beside w w' → I w → I w')
    (hg : ∀ w a c, guard w a → I w → I (w.answer c a).1) (hw : I w) : I w' := by
  induction hl with
  | refl => exact hw
  | ask c hw₁ _ _ ih =>
    obtain ⟨h1, h2⟩ := h _ hw₁
    exact ih (h2 c) (hg _ _ c h1 (hb _ _ hw₁ hw))

theorem always_bind {p : Program β} {f : β → Program α}
    (h : p.Always beside guard (fun b w => (f b).Always beside guard post w) w) :
    (p.bind f).Always beside guard post w := by
  induction p generalizing w with
  | done b => exact h
  | ask a next ih =>
    intro w₁ hb
    obtain ⟨h1, h2⟩ := h w₁ hb
    exact ⟨h1, fun c => ih _ (h2 c)⟩

theorem always_question {a : Ask} {post : a.Answer → World → Prop}
    (h : ∀ w₁, beside w w₁ → guard w₁ a ∧
      ∀ c, post (w₁.answer c a).2 (w₁.answer c a).1) :
    (question a).Always beside guard post w := h

/-! ### Programs that may fail -/

/-- A condition for a result and one for a failure. -/
def Either (good : α → World → Prop) (bad : Failure → World → Prop) : Outcome α → World → Prop
  | .ok a, w => good a w
  | .error f, w => bad f w

variable {good : α → World → Prop} {bad : Failure → World → Prop}

theorem always_tried {p : Procedure β} {f : β → Procedure α} {post : Outcome α → World → Prop}
    (h : p.run.Always beside guard
      (Either (fun b w => (f b).run.Always beside guard post w) fun e w => post (.error e) w) w) :
    (p >>= f).run.Always beside guard post w := by
  rw [ExceptT.run_bind]
  refine always_bind (h.imp_post fun r w hr => ?_)
  cases r with
  | ok b => exact hr
  | error e => exact hr

theorem always_lift {p : Program β} {f : β → Procedure α} {post : Outcome α → World → Prop}
    (h : p.Always beside guard (fun b w => (f b).run.Always beside guard post w) w) :
    ((p : Procedure β) >>= f).run.Always beside guard post w := by
  show (ExceptT.lift p >>= f).run.Always beside guard post w
  rw [ExceptT.run_bind_lift]
  exact always_bind h

/-- A result that is at hand. -/
theorem always_pure {o : Outcome β} {f : β → Procedure α} {post : Outcome α → World → Prop}
    (he : ∀ e, o = .error e → post (.error e) w)
    (hf : ∀ b, o = .ok b → (f b).run.Always beside guard post w) :
    ((ExceptT.mk (pure o) : Procedure β) >>= f).run.Always beside guard post w := by
  rw [ExceptT.run_bind]
  show Always _ _ _ (Program.bind (.done o) _) w
  cases o with
  | error e => exact he e rfl
  | ok b => exact hf b rfl

/-! ### Quiet programs -/

end Program

/-- The question changes nothing that is kept but events and logs, and tells the chat backend
nothing. -/
def Ask.Quiet : Ask → Prop
  | .createSession _ | .saveSession _ | .saveFlow _ | .saveVersion _ _ _ _ | .remember _ _
  | .deliver _ => False
  | _ => True

/-- The worlds have the same flows, versions, sessions and schedules, and the chat backend was told
the same in both. -/
structure World.Alike (w w' : World) : Prop where
  registered : w'.store.registered = w.store.registered
  flows : w'.store.flows = w.store.flows
  versions : w'.store.versions = w.store.versions
  sessions : w'.store.sessions = w.store.sessions
  schedules : w'.store.schedules = w.store.schedules
  deliveries : w'.deliveries = w.deliveries

namespace World

theorem Alike.refl (w : World) : w.Alike w := ⟨rfl, rfl, rfl, rfl, rfl, rfl⟩

/-- Keeping an event or a line of the log leaves the other collections as they are. -/
theorem exists_keep_eq (s : Store) (x : Signal) :
    ∃ events logs, keep s x = { s with events, logs } := by
  cases x with
  | event e => simp only [keep]; split <;> exact ⟨_, _, rfl⟩
  | log l => simp only [keep]; split <;> exact ⟨_, _, rfl⟩

theorem alike_emit (w : World) (s : Signal) (c : Circumstance) :
    w.Alike (w.answer c (.emit s)).1 := by
  obtain ⟨events, logs, h⟩ := exists_keep_eq w.store s
  simp only [answer, h]
  exact ⟨rfl, rfl, rfl, rfl, rfl, rfl⟩

theorem alike_answer {a : Ask} (h : a.Quiet) (w : World) (c : Circumstance) :
    w.Alike (w.answer c a).1 := by
  cases a with
  | createSession | saveSession | saveFlow | saveVersion | remember | deliver => exact h.elim
  | emit s => exact alike_emit w s c
  | fresh i => cases i <;> exact ⟨rfl, rfl, rfl, rfl, rfl, rfl⟩
  | _ => exact .refl w

theorem compiled_answer {a : Ask} (h : a.Quiet) (w : World) (c : Circumstance) :
    (w.answer c a).1.compiled = w.compiled := by
  cases a with
  | createSession | saveSession | saveFlow | saveVersion | remember | deliver => exact h.elim
  | fresh i => cases i <;> rfl
  | _ => rfl

/-- A condition that others keep, the answers to quiet questions, and compiled flows that may be
kept at hand. -/
structure Stable (beside : World → World → Prop) (remembers : String → Flow → Prop)
    (I : World → Prop) : Prop where
  others : ∀ {w w' : World}, beside w w' → I w → I w'
  quiet : ∀ {a : Ask} (w : World) (c : Circumstance), a.Quiet → I w → I (w.answer c a).1
  remembered : ∀ {w : World} {key : String} {f : Flow}, remembers key f → I w →
    I { w with compiled := w.compiled.set key f }

theorem Stable.and {beside : World → World → Prop} {remembers : String → Flow → Prop}
    {I J : World → Prop} (hI : Stable beside remembers I) (hJ : Stable beside remembers J) :
    Stable beside remembers fun w => I w ∧ J w where
  others hb h := ⟨hI.others hb h.1, hJ.others hb h.2⟩
  quiet w c ha h := ⟨hI.quiet w c ha h.1, hJ.quiet w c ha h.2⟩
  remembered hr h := ⟨hI.remembered hr h.1, hJ.remembered hr h.2⟩

end World

/-- The answer may come from a store, be it one that fails: that a schedule is not to be had refuses
no event. -/
def Ask.Admits : (a : Ask) → a.Answer → Prop
  | .loadSchedule _, .error f => f.isSession = false
  | _, _ => True

theorem World.admits_answer (w : World) (c : Circumstance) (a : Ask) :
    a.Admits (w.answer c a).2 := by
  cases a with
  | loadSchedule id =>
    show Ask.Admits (.loadSchedule id) (w.store.loadSchedule id)
    cases h : w.store.loadSchedule id with
    | ok s => exact trivial
    | error f => exact Store.isSession_of_loadSchedule h
  | _ => exact trivial

namespace Program

variable {α β : Type} {beside : World → World → Prop} {guard : World → Ask → Prop} {w : World}

/-- All questions of the program are quiet, and every result satisfies a condition, whatever
worlds answer and even if the store fails. -/
def Gives (P : α → Prop) : Program α → Prop
  | .done a => P a
  | .ask a next => a.Quiet ∧ ∀ x, a.Admits x → (next x).Gives P

/-- In some worlds the program ends with a result. -/
def MayEnd (a : α) : Program α → Prop
  | .done b => b = a
  | .ask q next => ∃ w c, (next (World.answer w c q).2).MayEnd a

variable {P Q : α → Prop} {p : Program α}

theorem gives_question (a : Ask) (h : a.Quiet) : (question a).Gives fun _ => True :=
  ⟨h, fun _ _ => trivial⟩

theorem gives_now : now.Gives fun _ => True := ⟨trivial, fun _ _ => trivial⟩

theorem gives_bind {p : Program β} {f : β → Program α} (h : p.Gives fun b => (f b).Gives P) :
    (p.bind f).Gives P := by
  induction p with
  | done b => exact h
  | ask a next ih => exact ⟨h.1, fun x hx => ih x (h.2 x hx)⟩

theorem Gives.imp (h : p.Gives P) (hi : ∀ a, P a → Q a) : p.Gives Q := by
  induction p with
  | done a => exact hi a h
  | ask a next ih => exact ⟨h.1, fun x hx => ih x (h.2 x hx)⟩

/-- What the questions of the program get for answers in worlds leads to results too. -/
theorem Gives.answered {a : Ask} {next : a.Answer → Program α} (h : (Program.ask a next).Gives P)
    (w : World) (c : Circumstance) : (next (w.answer c a).2).Gives P :=
  h.2 _ (w.admits_answer c a)

theorem Gives.of_mayEnd (h : p.Gives P) {a : α} (ha : p.MayEnd a) : P a := by
  induction p with
  | done b => exact ha ▸ h
  | ask q next ih =>
    obtain ⟨w, c, hx⟩ := ha
    exact ih _ (h.answered w c) hx

theorem gives_emit (session node : String) (e : Event.Content) :
    (emit session node e).Gives fun _ => True :=
  gives_question _ trivial

theorem gives_emitNode (session node : String) (e : Millis → NodeEvent) :
    (emitNode session node e).Gives fun _ => True :=
  ⟨trivial, fun _ _ => gives_emit _ _ _⟩

/-- What others and quiet answers keep is kept by a program of quiet questions. -/
theorem Gives.always (h : p.Gives P) {remembers : String → Flow → Prop} {I : World → Prop}
    (hI : World.Stable beside remembers I) (hg : ∀ w a, a.Quiet → guard w a)
    (hw : I w) :
    p.Always beside guard (fun a w => p.MayEnd a ∧ I w) w := by
  -- the results are those of the whole program, so the induction is on what is left of it
  suffices ∀ q : Program α, q.Gives P → (∀ a, q.MayEnd a → p.MayEnd a) → ∀ w, I w →
      q.Always beside guard (fun a w => p.MayEnd a ∧ I w) w from this p h (fun _ => id) w hw
  intro q
  induction q with
  | done a => exact fun _ hm w hw => ⟨hm a rfl, hw⟩
  | ask a next ih =>
    intro hq hm w hw w₁ hw₁
    refine ⟨hg w₁ a hq.1, fun c => ?_⟩
    exact ih _ (hq.answered w₁ c) (fun b hb => hm b ⟨w₁, c, hb⟩) _
      (hI.quiet w₁ c hq.1 (hI.others hw₁ hw))

end Program

end Dialogue
