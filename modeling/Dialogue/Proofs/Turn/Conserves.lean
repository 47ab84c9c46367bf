import Dialogue.Proofs.Program.Live
import Dialogue.Proofs.Turn.Revises
import Dialogue.Proofs.Turn.Writes

/-! # What a turn conserves

A condition on the session that a turn has in hand holds throughout the turn if it holds when the
turn begins, and each change of the session keeps it: what a node says and leaves, a halt, and the
time at which the session is kept. So it holds of every session that the turn keeps.

* `commit_conserves`, `stop_conserves`, `conclude_conserves`, `advance_conserves`: the parts of a
  turn.
* `walk_conserves`, `turn_conserves`: the whole turn, by induction on the budget. -/

namespace Dialogue

open Program Procedure World

/-- The condition lasts while others change the world and local questions are answered. -/
structure World.Lasts (beside : World → World → Prop) (I : World → Prop) : Prop where
  others : ∀ {w w' : World}, beside w w' → I w → I w'
  answer : ∀ {a : Ask} {w : World} (c : Circumstance), a.Local → I w → I (w.answer c a).1

section
variable {beside : World → World → Prop} {I J : World → Prop}

theorem World.lasts_true (beside : World → World → Prop) : Lasts beside fun _ => True :=
  ⟨fun _ => id, fun _ _ => id⟩

theorem World.Lasts.and (hI : Lasts beside I) (hJ : Lasts beside J) :
    Lasts beside fun w => I w ∧ J w where
  others hb h := ⟨hI.others hb h.1, hJ.others hb h.2⟩
  answer c ha h := ⟨hI.answer c ha h.1, hJ.answer c ha h.2⟩

/-- The clock goes on only while others act. -/
theorem World.lasts_clock {T : Millis → Prop}
    (h : ∀ {w w' : World}, beside w w' → T w.clock → T w'.clock) :
    Lasts beside fun w => T w.clock where
  others hb hw := h hb hw
  answer c _ hw := by rwa [clock_answer]

variable {guard : World → Ask → Prop} {w : World} {α β : Type} {P : β → Prop}

/-- Local questions keep what lasts. -/
theorem Program.Asks.always {p : Program β} (h : p.Asks Ask.Local P)
    (hg : ∀ w a, a.Local → guard w a) (hI : Lasts beside I) (hw : I w) :
    p.Always beside guard (fun b w => P b ∧ I w) w := by
  induction p generalizing w with
  | done b => exact ⟨h, hw⟩
  | ask a next ih =>
    intro w₁ hb
    exact ⟨hg w₁ a h.1, fun c => ih _ (h.2 _) (hI.answer c h.1 (hI.others hb hw))⟩

/-- A program of local questions, before another one that may fail. -/
theorem Program.always_behind {p : Program β} (hp : p.Asks Ask.Local P)
    (hg : ∀ w a, a.Local → guard w a) (hI : Lasts beside I) (hw : I w) {f : β → Procedure α}
    {post : Outcome α → World → Prop}
    (h : ∀ b w, p.MayEnd b → P b → I w → (f b).run.Always beside guard post w) :
    ((p : Procedure β) >>= f).run.Always beside guard post w :=
  always_lift ((hp.always hg hI hw).mayEnd.imp_post fun b w hb => h b w hb.1 hb.2.1 hb.2.2)

end

namespace Turn

/-- The bot said it, at a time of some sort. -/
def Uttered (T : Millis → Prop) (m : Message) : Prop := m.sender = .bot ∧ T m.timestamp

/-- The condition `P` on the session in hand is conserved by all that a turn makes of it. Times are
such that `T` holds of them, and the session is kept only in worlds that let it be kept. -/
structure Scene.Conserves (sc : Scene) (beside : World → World → Prop) (T : Millis → Prop)
    (lets : World → Prop) (P : Session → World → Prop) : Prop where
  clock : ∀ {w w' : World}, beside w w' → T w.clock → T w'.clock
  session : ∀ s, Lasts beside (P s)
  letting : Lasts beside lets
  live : ∀ {s w x}, P s w → w.store.sessionStatus s.id = .ok x → x ≠ .closed → lets w
  node : ∀ {s w st o} {spoken : List Message}, P s w → sc.Finishes s st o →
    (∀ m ∈ spoken, Uttered T m) →
    P (after s st.node o.vars spoken (o.transition.route sc.flow st.node)) w
  halt : ∀ {s w m} (h : Halt), P s w → Uttered T m → P (haltedBy s h m) w
  stamp : ∀ {s w now}, P s w → T now → P (stamped s now) w
  saved : ∀ {s w} (c : Circumstance), P s w → lets w → (w.answer c (.saveSession s)).2 = .ok () →
    P s (w.answer c (.saveSession s)).1

variable {sc : Scene} {beside : World → World → Prop} {guard : World → Ask → Prop}
  {T : Millis → Prop} {lets : World → Prop} {P : Session → World → Prop} {w : World} {s : Session}

section
variable (hg : ∀ w a, a.Local → guard w a)
include hg

theorem message_uttered (hT : ∀ {w w' : World}, beside w w' → T w.clock → T w'.clock)
    {I : World → Prop} (hI : Lasts beside I) (u : Utterance) (ht : T w.clock) (hw : I w) :
    (botMessage u).Always beside guard (fun m w => Uttered T m ∧ T w.clock ∧ I w) w := by
  refine fun w₁ hb₁ => ⟨hg _ _ trivial, fun c₁ w₂ hb₂ => ⟨hg _ _ trivial, fun c₂ => ?_⟩⟩
  have hJ := (lasts_clock hT).and hI
  have hw₁ := hJ.answer (a := .fresh .message) c₁ trivial (hJ.others hb₁ ⟨ht, hw⟩)
  have hw₂ := hJ.others hb₂ hw₁
  exact ⟨⟨rfl, hw₂.1⟩, hw₂⟩

theorem messages_uttered (hT : ∀ {w w' : World}, beside w w' → T w.clock → T w'.clock)
    {I : World → Prop} (hI : Lasts beside I) (us : List Utterance) (ht : T w.clock) (hw : I w) :
    (us.mapM botMessage).Always beside guard
      (fun ms w => (∀ m ∈ ms, Uttered T m) ∧ T w.clock ∧ I w) w := by
  induction us generalizing w with
  | nil => exact ⟨nofun, ht, hw⟩
  | cons u rest ih =>
    rw [List.mapM_cons]
    refine always_bind ((message_uttered hg hT hI u ht hw).imp_post fun m w hm => ?_)
    refine always_bind ((ih hm.2.1 hm.2.2).imp_post fun ms w hms => ?_)
    exact ⟨List.forall_mem_cons.mpr ⟨hm.1, hms.1⟩, hms.2⟩

omit hg in
theorem asks_append (id : String) (spoken : List Message) :
    (spoken.forM fun m => deliver (.append id m) : Program Unit).Asks Ask.Local fun _ => True := by
  induction spoken with
  | nil => exact trivial
  | cons m rest ih => exact ⟨trivial, fun _ => ih⟩

end

theorem asks_emit (session node : String) (e : Event.Content) :
    (emit session node e).Asks Ask.Local fun _ => True :=
  ⟨trivial, fun _ => trivial⟩

theorem asks_emitNode (session node : String) (e : Millis → NodeEvent) :
    (emitNode session node e).Asks Ask.Local fun _ => True :=
  ⟨trivial, fun _ => asks_emit _ _ _⟩

theorem asks_deliver (d : Delivery) : (deliver d).Asks Ask.Local fun _ => True :=
  ⟨trivial, fun _ => trivial⟩

/-- The condition holds of the session in hand, and the clock shows a time of the sort. -/
def Handy (T : Millis → Prop) (P : Session → World → Prop) (s : Session) (w : World) : Prop :=
  P s w ∧ T w.clock

/-- So it does of a session that was kept. -/
def HandyIf (T : Millis → Prop) (P : Session → World → Prop) : Option Session → World → Prop
  | some s, w => Handy T P s w
  | none, _ => True

/-- So it does of a session with which the turn goes on. -/
def HandyOn (T : Millis → Prop) (P : Session → World → Prop) : Progress → World → Prop
  | .on s _, w => Handy T P s w
  | .done _, _ => True

namespace Scene

section
variable (hP : sc.Conserves beside T lets P)
include hP

theorem Conserves.handy (s : Session) : Lasts beside (Handy T P s) :=
  (hP.session s).and (lasts_clock hP.clock)

variable (hg : ∀ w a, a.Local → guard w a)
  (hsave : ∀ {w y}, P y w → lets w → guard w (.saveSession y))
include hg hsave

omit hg in
/-- Keeping the session in hand. -/
theorem save_conserves (hs : Handy T P s w) (hw : lets w) :
    (saveSession s).run.Always beside guard
      (Either (fun _ => Handy T P s) fun _ _ => True) w := by
  refine always_question fun w₁ hb => ?_
  have hs₁ := (hP.handy s).others hb hs
  have hw₁ := hP.letting.others hb hw
  refine ⟨hsave hs₁.1 hw₁, fun c => ?_⟩
  have hkept := hP.saved c hs₁.1 hw₁
  cases ho : (w₁.answer c (.saveSession s)).2 with
  | error e => exact trivial
  | ok u => exact ⟨hkept ho, by rw [clock_answer]; exact hs₁.2⟩

theorem commit_conserves (spoken : List Message) (delta : Variables) (hs : Handy T P s w) :
    (commit s spoken delta).run.Always beside guard
      (Either (HandyIf T P) fun _ _ => True) w := by
  unfold commit
  refine always_behind (p := isAborted) (P := fun _ => True) ⟨trivial, fun _ => trivial⟩ hg
    (hP.handy s) hs fun aborted w _ _ hs => ?_
  split
  · exact trivial
  refine always_tried (p := sessionStatus s.id) fun w₁ hb => ⟨hg _ _ trivial, fun c => ?_⟩
  have hs₁ := (hP.handy s).others hb hs
  show Either _ _ (w₁.store.sessionStatus s.id) w₁
  cases hx : w₁.store.sessionStatus s.id with
  | error e => exact trivial
  | ok x =>
  show Always _ _ _ (ExceptT.run (if x = Status.closed then _ else _)) w₁
  split
  · exact trivial
  rename_i hopen
  have hw₁ := hP.live hs₁.1 hx hopen
  refine always_lift (p := now) fun w₂ hb₂ => ⟨hg _ _ trivial, fun c₂ => ?_⟩
  have hs₂ := (hP.handy s).others hb₂ hs₁
  have hstamped : Handy T P (stamped s w₂.clock) w₂ := ⟨hP.stamp hs₂.1 hs₂.2, hs₂.2⟩
  have hw₂ := hP.letting.others hb₂ hw₁
  refine always_tried ((save_conserves hP hsave hstamped hw₂).imp_post ?_)
  rintro (e | u) w hkept
  · exact trivial
  refine always_behind (asks_append _ spoken) hg (hP.handy _) hkept fun _ w _ _ hkept => ?_
  split
  · exact hkept
  · exact always_behind (asks_deliver _) hg (hP.handy _) hkept fun _ _ _ _ hkept => hkept

theorem stop_conserves (h : Halt) (steps : Nat) (hs : Handy T P s w) :
    (sc.stop s h steps).run.Always beside guard (fun _ _ => True) w := by
  unfold stop
  have hmessage := message_uttered hg hP.clock (hP.session s)
    ⟨sc.settings.messages.diagnosticPrefix ++ " " ++ h.message, none⟩ hs.2 hs.1
  refine always_lift (hmessage.imp_post fun m w hm => ?_)
  have hhalted : Handy T P (haltedBy s h m) w := ⟨hP.halt h hm.2.2 hm.1, hm.2.1⟩
  refine always_tried ((commit_conserves hP hg hsave [m] [] hhalted).imp_post ?_)
  rintro (e | kept) w -
  · exact trivial
  cases kept with
  | none => exact trivial
  | some y =>
    exact always_behind (asks_emit _ _ _) hg (lasts_true _) trivial fun _ _ _ _ _ => trivial

/-- Wherever a node leads, the session is in hand as it was kept. -/
theorem follow_conserves (node : String) (r : Route) (steps : Nat) (hs : Handy T P s w) :
    (sc.follow s node r steps).run.Always beside guard
      (Either (HandyOn T P) fun _ _ => True) w := by
  have hemit (e : SessionEvent) (rep : Report) (w : World) :
      (do
        emitSession sc.session node e
        return .done rep : Procedure Progress).run.Always beside guard
          (Either (HandyOn T P) fun _ _ => True) w :=
    always_behind (asks_emit _ _ _) hg (lasts_true _) trivial fun _ _ _ _ _ => trivial
  cases r with
  | go next => exact hs
  | finish => exact hemit _ _ _
  | pause => exact hemit _ _ _
  | handoff queue reason =>
    exact always_behind (asks_deliver _) hg (lasts_true _) trivial fun _ w _ _ _ => hemit _ _ w
  | close =>
    exact always_behind (asks_deliver _) hg (lasts_true _) trivial fun _ w _ _ _ => hemit _ _ w
  | halt kind text retryable =>
    refine always_tried ((stop_conserves hP hg hsave _ steps hs).imp_post ?_)
    rintro (e | rep) w -
    · exact trivial
    · exact trivial

theorem conclude_conserves {st : Step} {o : Output} (steps : Nat) (hs : Handy T P s w)
    (ho : sc.Finishes s st o) :
    (sc.conclude s st.node o steps).run.Always beside guard
      (Either (HandyOn T P) fun _ _ => True) w := by
  unfold conclude
  have hmessages := messages_uttered hg hP.clock (hP.session s) o.utterances hs.2 hs.1
  refine always_lift (hmessages.imp_post fun spoken w hm => ?_)
  have hafter : Handy T P
      (after s st.node o.vars spoken (o.transition.route sc.flow st.node)) w :=
    ⟨hP.node hm.2.2 ho hm.1, hm.2.1⟩
  refine always_tried ((commit_conserves hP hg hsave spoken _ hafter).imp_post ?_)
  rintro (e | kept) w hkept
  · exact trivial
  cases kept with
  | none =>
    exact always_behind (asks_emitNode _ _ _) hg (lasts_true _) trivial fun _ _ _ _ _ => trivial
  | some y =>
    refine always_behind (asks_emitNode _ _ _) hg (hP.handy y) hkept fun _ w _ _ hy => ?_
    exact follow_conserves hP hg hsave st.node _ steps hy

theorem advance_conserves {st : Step} (steps : Nat) (hs : Handy T P s w) :
    (sc.advance s st steps).run.Always beside guard
      (Either (HandyOn T P) fun _ _ => True) w := by
  have hstop (h : Halt) {w : World} (hs : Handy T P s w) :
      (do return .done (← sc.stop s h steps) : Procedure Progress).run.Always beside guard
        (Either (HandyOn T P) fun _ _ => True) w := by
    refine always_tried ((stop_conserves hP hg hsave h steps hs).imp_post ?_)
    rintro (e | rep) w -
    · exact trivial
    · exact trivial
  unfold advance
  dsimp only
  cases hn : sc.flow.node? st.node with
  | none => exact hstop _ hs
  | some n =>
    refine always_behind (asks_emitNode _ _ _) hg (hP.handy s) hs fun _ w _ _ hs => ?_
    refine always_behind ((asks_visit n st).mono fun _ => Ask.Visiting.local) hg (hP.handy s) hs
      fun v w hv _ hs => ?_
    cases v with
    | cut =>
      exact always_behind (asks_emitNode _ _ _) hg (lasts_true _) trivial fun _ _ _ _ _ => trivial
    | finished o => exact conclude_conserves hP hg hsave steps hs ⟨n, hn, hv⟩
    | failed f =>
      dsimp only
      split
      · exact trivial
      · refine always_behind (asks_emit _ _ _) hg (hP.handy s) hs fun _ w _ _ hs => ?_
        exact hstop _ hs

theorem walk_conserves (budget steps : Nat) (st : Step) (hs : Handy T P s w) :
    (sc.walk budget steps s st).run.Always beside guard (fun _ _ => True) w := by
  induction budget generalizing steps s st w with
  | zero => exact stop_conserves hP hg hsave _ steps hs
  | succ budget ih =>
    rw [walk_succ]
    refine always_tried ((advance_conserves hP hg hsave (steps + 1) hs).imp_post ?_)
    rintro (f | ⟨y, next⟩ | rep) w h
    · exact trivial
    · exact ih (steps + 1) (.run next) h
    · exact trivial

/-- **A turn** keeps only sessions of which the condition holds, where they may be kept. -/
theorem turn_conserves (st : Step) (hs : P (begun s) w) (ht : T w.clock) :
    (sc.turn s st).run.Always beside guard (fun _ _ => True) w :=
  walk_conserves hP hg hsave _ 0 st ⟨hs, ht⟩

end

end Scene

end Turn

end Dialogue
