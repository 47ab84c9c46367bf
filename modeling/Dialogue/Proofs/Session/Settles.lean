import Dialogue.Proofs.Session.Account
import Dialogue.Proofs.Turn.Course

/-! # Programs that settle their account

A program settles an account if it keeps the session only when nothing is owed, tells the chat
backend only what is owed, and ends in a way that satisfies a condition. There is one rule for each
way to build a program.

* `Trail.settles`: what settles is settled wherever the program has come.
* `settles_bind`, `settles_tried`, `settles_lift`, `settles_aside`: programs behind each other.
* `settles_save`, `settles_deliver`, `settles_commit`: what leaves marks. -/

namespace Dialogue

open Program Procedure Turn

namespace Program

variable {α β : Type} {sid : String} {post post' : α → Account → Prop} {t : Account}

/-- Every mark that the program leaves is admitted, and every result satisfies a condition together
with the account with which the program ends. -/
def Settles (sid : String) (post : α → Account → Prop) : Program α → Account → Prop
  | .done a, t => post a t
  | .ask a next, t => ∀ w c, t.Suits sid w →
      (∀ m, a.mark? sid (w.answer c a).2 = some m → t.Admits sid m) ∧
        (next (w.answer c a).2).Settles sid post (t.enter (a.mark? sid (w.answer c a).2))

/-- **What settles is settled** wherever the program has come: the account with the marks entered
that it left is sound, and it suits the world. -/
theorem Trail.settles {p q : Program α} {w w' : World} {log : List Mark}
    (hl : Trail (World.Aside sid) sid p w log q w') (h : p.Settles sid post t)
    (hw : t.Suits sid w) (ht : t.Sound sid) :
    q.Settles sid post (log.foldl Account.take t) ∧ (log.foldl Account.take t).Suits sid w' ∧
      (log.foldl Account.take t).Sound sid := by
  induction hl generalizing t with
  | refl => exact ⟨h, hw, ht⟩
  | @ask a next q w w₁ w' log c hb _ ih =>
    obtain ⟨hadmits, hnext⟩ := h w₁ c (hw.aside hb)
    have hsuits := (hw.aside hb).answer c hadmits
    cases hm : a.mark? sid (w₁.answer c a).2 with
    | none =>
      rw [hm] at hnext hsuits
      exact ih hnext hsuits ht
    | some m =>
      rw [hm] at hnext hsuits
      exact ih hnext hsuits (ht.take (hadmits m hm))

/-! ### Rules -/

theorem Settles.imp {p : Program α} (h : p.Settles sid post t) (hp : ∀ a t, post a t → post' a t) :
    p.Settles sid post' t := by
  induction p generalizing t with
  | done a => exact hp a t h
  | ask a next ih =>
    intro w c hw
    obtain ⟨hm, hnext⟩ := h w c hw
    exact ⟨hm, ih _ hnext⟩

theorem settles_bind {p : Program β} {f : β → Program α}
    (h : p.Settles sid (fun b t => (f b).Settles sid post t) t) :
    (p.bind f).Settles sid post t := by
  induction p generalizing t with
  | done b => exact h
  | ask a next ih =>
    intro w c hw
    obtain ⟨hm, hnext⟩ := h w c hw
    exact ⟨hm, ih _ hnext⟩

/-- A program that leaves no mark leaves the account as it is. -/
theorem settles_passes {P : α → Prop} {p : Program α} {w : World} (h : p.Passes P w)
    (hp : ∀ a, P a → post a t) : p.Settles sid post t := by
  induction p generalizing w with
  | done a => exact hp a h
  | ask a next ih =>
    intro w₁ c hw
    obtain ⟨ha, hnext⟩ := h w₁ trivial
    rw [ha.mark?_eq]
    exact ⟨fun _ hm => (by cases hm), ih _ (hnext c)⟩

/-! ### Programs that may fail -/

/-- A condition for a result; after a failure nothing is owed. -/
def Leaves (good : α → Account → Prop) : Outcome α → Account → Prop
  | .ok a, t => good a t
  | .error _, t => t.owed = []

variable {good : α → Account → Prop}

theorem settles_tried {p : Procedure β} {f : β → Procedure α}
    (h : p.run.Settles sid (Leaves fun b t => (f b).run.Settles sid (Leaves good) t) t) :
    (p >>= f).run.Settles sid (Leaves good) t := by
  rw [ExceptT.run_bind]
  refine settles_bind (h.imp fun o t ho => ?_)
  cases o with
  | ok b => exact ho
  | error e => exact ho

theorem settles_lift {p : Program β} {f : β → Procedure α} {post : Outcome α → Account → Prop}
    (h : p.Settles sid (fun b t => (f b).run.Settles sid post t) t) :
    ((p : Procedure β) >>= f).run.Settles sid post t := by
  show (ExceptT.lift p >>= f).run.Settles sid post t
  rw [ExceptT.run_bind_lift]
  exact settles_bind h

/-- A program that leaves no mark, before another one. -/
theorem settles_aside {P : β → Prop} {p : Program β} {f : β → Procedure α}
    {post : Outcome α → Account → Prop} (hp : ∀ w, p.Passes P w)
    (h : ∀ b, P b → (f b).run.Settles sid post t) :
    ((p : Procedure β) >>= f).run.Settles sid post t :=
  settles_lift (settles_passes (w := World.new .empty 0) (hp _) h)

/-- The same for one that may fail. -/
theorem settles_lookup {P : Outcome β → Prop} {p : Procedure β} {f : β → Procedure α}
    (hp : ∀ w, p.run.Passes P w) (ht : t.owed = [])
    (h : ∀ b, P (.ok b) → (f b).run.Settles sid (Leaves good) t) :
    (p >>= f).run.Settles sid (Leaves good) t := by
  refine settles_tried (settles_passes (w := World.new .empty 0) (hp _) fun o ho => ?_)
  cases o with
  | ok b => exact h b ho
  | error e => exact ht

/-! ### Marks -/

/-- The time fits its column. -/
theorem settles_now {f : Millis → Procedure α} {post : Outcome α → Account → Prop}
    (h : ∀ now, FitsColumn now → (f now).run.Settles sid post t) :
    ((now : Program Millis) >>= f : Procedure α).run.Settles sid post t :=
  settles_lift fun _ _ hw => ⟨fun _ hm => (by cases hm), h _ hw.clock⟩

/-- The own session is kept when nothing is owed. -/
theorem settles_save {y : Session} {f : Unit → Procedure α} (ht : t.owed = [])
    (hk : (t.commit y).Fits sid)
    (h : (f ()).run.Settles sid (Leaves good) (t.take (.kept y))) :
    (saveSession y >>= f).run.Settles sid (Leaves good) t := by
  refine settles_tried fun w c hw => ?_
  have hy : y.id = sid := hk.id
  have hok := hw.saved hy c
  have hmark : (Ask.saveSession y).mark? sid (.ok ()) = some (.kept y) := if_pos hy
  rw [hok, hmark]
  refine ⟨?_, h⟩
  rintro m ⟨⟩
  exact ⟨ht, hk⟩

/-- What is owed is told. -/
theorem settles_deliver {d : Delivery} {rest : List Notice} {post : Unit → Account → Prop}
    (hd : d.session = sid) (ht : t.owed = d.notice :: rest)
    (h : post () { t with owed := rest }) : (deliver d).Settles sid post t := by
  intro w c _
  have hmark : (Ask.deliver d).mark? sid (w.answer c (.deliver d)).2 = some (.told d) := if_pos hd
  rw [hmark]
  refine ⟨?_, ?_⟩
  · rintro m ⟨⟩
    exact ⟨rest, ht⟩
  · show post () { t with owed := t.owed.tail }
    rw [ht]
    exact h

theorem settles_append {spoken : List Message} {rest : List Notice}
    (ht : t.owed = spoken.map .append ++ rest) :
    (spoken.forM fun m => deliver (.append sid m) : Program Unit).Settles sid
      (fun _ t' => t' = { t with owed := rest }) t := by
  induction spoken generalizing t with
  | nil =>
    rw [List.map_nil, List.nil_append] at ht
    rw [← ht]
    exact rfl
  | cons m more ih =>
    show (deliver (.append sid m) >>= fun _ => more.forM _).Settles _ _ t
    refine settles_bind (settles_deliver rfl ht ?_)
    exact ih (t := { t with owed := more.map .append ++ rest }) rfl

end Program

namespace Turn

variable {sid : String} {t : Account} {s : Session}

/-- What comes of keeping a session: nothing, or it is kept and a transfer or an end is still to be
told. -/
def Committed (t : Account) (s : Session) : Option Session → Account → Prop
  | none, t' => t' = t
  | some y, t' => ∃ now, y = stamped s now ∧
      t' = { t.take (.kept y) with owed := (t.commit y).parting }

/-- **Keeping a session** tells what was said and what a node changed. -/
theorem settles_commit {spoken : List Message} {delta : Variables} (ht : t.owed = [])
    (hk : ∀ now, (t.commit (stamped s now)).Fits sid)
    (hspoken : ∀ now, (t.commit (stamped s now)).spoken = spoken)
    (hdelta : ∀ now, (t.commit (stamped s now)).delta = delta) :
    (commit s spoken delta).run.Settles sid (Leaves (Committed t s)) t := by
  have hid : s.id = sid := (hk 0).id
  subst hid
  unfold commit
  refine settles_aside (passes_question (a := .isAborted) trivial) fun aborted _ => ?_
  split
  · exact rfl
  refine settles_lookup (p := sessionStatus s.id)
    (passes_question (a := .sessionStatus s.id) trivial) ht fun x _ => ?_
  show Settles _ _ (ExceptT.run (if x = Status.closed then _ else _)) t
  split
  · exact rfl
  refine settles_now fun now _ => ?_
  refine settles_save (y := stamped s now) ht (hk now) ?_
  have howed : (t.take (.kept (stamped s now))).owed =
      spoken.map .append ++ ((t.commit (stamped s now)).persisted ++
        (t.commit (stamped s now)).parting) := by
    rw [← hspoken now]
    rfl
  refine settles_lift ((settles_append howed).imp fun _ t' ht' => ?_)
  subst ht'
  unfold Commit.persisted
  rw [hdelta now]
  split
  · exact ⟨now, rfl, rfl⟩
  · exact settles_lift (settles_deliver rfl rfl ⟨now, rfl, rfl⟩)

end Turn

end Dialogue
