import Dialogue.Proofs.Session.Journal
import Dialogue.Proofs.Turn.Private

/-! # Programs and their journals

What a program tells and keeps of a session is said of each of its questions: in the phase in which
it is asked, the entry that it leaves is one that the journal may go on with, and if the store fails
on it the program goes on from there. There is one rule for each way to build a program.

* `Journal.unfolds`: the journal of a run goes on as it may.
* `unfolds_asks`, `unfolds_bind`, `unfolds_tried`, `unfolds_lift`: programs behind each other.
* `unfolds_emit`, `unfolds_save`, `unfolds_commit`: what leaves entries.
* `Unfolds.found_eq`: a program that looks no version up. -/

namespace Dialogue

open Program Procedure Turn World

/-! ### Entries and phases -/

/-- The question leaves no entry, and the store has no part in it. -/
def Ask.Untold : Ask → Prop
  | .now | .fresh _ | .deliver _ | .emit (.log _) | .closeTurn | .isAborted | .wait _
  | .exchange _ => True
  | _ => False

/-- Of all rows the question changes that of the session only. -/
def Ask.Own (sid : String) : Ask → Prop
  | .saveSession y => y.id = sid
  | .createSession _ | .saveFlow _ | .saveVersion _ _ _ _ => False
  | _ => True

namespace Ask

variable {a : Ask} {sid : String} {w : World}

theorem Untold.own (h : a.Untold) : a.Own sid := by
  cases a with
  | saveSession | createSession | saveFlow | saveVersion => exact h.elim
  | _ => exact trivial

theorem Untold.record?_eq (h : a.Untold) (sid : String) (w : World) (x : a.Answer) :
    a.record? sid w x = none := by
  cases a with
  | now | fresh | deliver | closeTurn | isAborted | wait | exchange => rfl
  | emit s =>
    cases s with
    | event e => exact h.elim
    | log l => rfl
  | _ => exact h.elim

theorem Untold.failing?_eq (h : a.Untold) (f : Failure) : a.failing? f = none := by
  cases a with
  | now | fresh | deliver | emit | closeTurn | isAborted | wait | exchange => rfl
  | _ => exact h.elim

/-- A question of a visit leaves no entry. -/
theorem Visiting.record?_eq (h : a.Visiting) (sid : String) (w : World) (x : a.Answer) :
    a.record? sid w x = none := by
  cases a with
  | loadSchedule | now | isAborted | wait | exchange => rfl
  | emit s =>
    cases s with
    | event e => exact h.elim
    | log l => rfl
  | _ => exact h.elim

theorem Visiting.own (h : a.Visiting) : a.Own sid := by
  cases a with
  | loadSchedule | now | isAborted | wait | exchange | emit => exact trivial
  | _ => exact h.elim

/-- The answer of a store that fails is one that a visit may get. -/
theorem admits_failing {f : Failure} (hf : f.isSession = false) {x : a.Answer}
    (hx : a.failing? f = some x) : a.Admits x := by
  cases a with
  | loadSchedule => cases hx; exact hf
  | _ => exact trivial

/-- A row is kept only by the question that keeps it. -/
theorem Keepless.record?_ne (h : a.Keepless) {x : a.Answer} {r : SessionRow} {y : Session} :
    a.record? sid w x ≠ some (.kept r y) := by
  cases a with
  | saveSession => exact h.elim
  | emit s =>
    cases s with
    | event e =>
      show (if e.session = sid then some (Entry.event e.node e.content) else none) ≠ _
      split <;> nofun
    | log l => nofun
  | cached key => cases x <;> nofun
  | _ => nofun

/-- No version was looked up by the question. -/
theorem Private.record?_ne (h : a.Private sid) {x : a.Answer} {key : String} {f : Flow} :
    a.record? sid w x ≠ some (.found key f) := by
  cases a with
  | saveSession y =>
    cases x with
    | ok u =>
      show (if y.id = sid then (w.store.row? sid).map (Entry.kept · y) else none) ≠ _
      split
      · cases w.store.row? sid <;> nofun
      · nofun
    | error e => nofun
  | emit s =>
    cases s with
    | event e =>
      show (if e.session = sid then some (Entry.event e.node e.content) else none) ≠ _
      split <;> nofun
    | log l => nofun
  | cached | remember => exact h.elim
  | _ => nofun

end Ask

namespace Phase

/-- The journal goes on with the entry of an answer, if there is one. -/
def Enters (p : Phase) : Option Entry → Phase → Prop
  | none, p' => p' = p
  | some x, p' => p.Takes x p'

/-- The world has the row. -/
def Suits (sid : String) (p : Phase) (w : World) : Prop :=
  Holds (fun w => w.store.registered = true) sid p.row w

variable {p p' : Phase} {sid : String} {w : World} {x : Option Entry}

theorem Enters.row_eq (h : p.Enters x p') (hx : ∀ r y, x ≠ some (.kept r y)) :
    p'.row = p.row := by
  cases x with
  | none => exact congrArg row h
  | some x =>
    cases h with
    | stays | leaves => exact absurd rfl (hx _ _)
    | _ => rfl

theorem Enters.found_eq (h : p.Enters x p') (hx : ∀ key f, x ≠ some (.found key f)) :
    p'.found = p.found := by
  cases x with
  | none => exact congrArg found h
  | some x =>
    cases h with
    | found => exact absurd rfl (hx _ _)
    | _ => rfl

/-- The entry of the own session that is kept. -/
theorem Suits.record?_saveSession (h : p.Suits sid w) {y : Session} (hy : y.id = sid) :
    (Ask.saveSession y).record? sid w (.ok ()) = some (.kept p.row y) := by
  show (if y.id = sid then (w.store.row? sid).map (Entry.kept · y) else none) = _
  rw [if_pos hy, h.2]
  rfl

/-- The own session can be kept. -/
theorem Suits.saved (h : p.Suits sid w) {y : Session} (hy : y.id = sid) (c : Circumstance) :
    (w.answer c (.saveSession y)).2 = .ok () := by
  subst hy
  obtain ⟨sessions, hs, -⟩ := Store.saveSession_eq h.1 h.2
  simp only [World.answer, hs]
  rfl

variable {beside : World → World → Prop}

/-- An answer leads to a world that has the row of the next phase. -/
theorem Suits.answer (h : p.Suits sid w)
    (hB : Ground beside (fun _ _ => True) sid fun w => w.store.registered = true) {a : Ask}
    (ha : a.Own sid) (c : Circumstance)
    (hp : p.Enters (a.record? sid w (w.answer c a).2) p') : p'.Suits sid (w.answer c a).1 := by
  have hsame (hk : a.Keepless) : p'.Suits sid (w.answer c a).1 := by
    have hallowed : a.Allowed sid (fun _ _ => True) (fun _ _ => True) w := by
      cases a with
      | saveSession => exact hk.elim
      | createSession | saveFlow | saveVersion => exact ha.elim
      | _ => exact trivial
    obtain ⟨r', hw', rfl | ⟨y, rfl, -⟩⟩ := hallowed.holds hB h c
    · rwa [Suits, hp.row_eq fun _ _ => hk.record?_ne]
    · exact hk.elim
  cases a with
  | saveSession y =>
    obtain ⟨hok, hkept⟩ := hB.holds_save h ha c
    rw [hok, h.record?_saveSession ha] at hp
    cases hp <;> exact hkept
  | _ => exact hsame trivial

/-- A condition for a result and one for a failure. -/
def Either {α : Type} (good : α → Phase → Prop) (bad : Failure → Phase → Prop) :
    Outcome α → Phase → Prop
  | .ok a, p => good a p
  | .error f, p => bad f p

end Phase

namespace Program

variable {α β : Type} {sid : String} {post post' : α → Phase → Prop} {ph ph' : Phase}

/-- Every entry that the program leaves is one that the journal may go on with, whether the store
answers or fails, and every result satisfies a condition together with the phase in which the
program ends. -/
def Unfolds (sid : String) (post : α → Phase → Prop) : Program α → Phase → Prop
  | .done a, ph => post a ph
  | .ask a next, ph => a.Own sid ∧
      (∀ w c, ph.Suits sid w → ∃ ph', ph.Enters (a.record? sid w (w.answer c a).2) ph' ∧
        (next (w.answer c a).2).Unfolds sid post ph') ∧
      ∀ f x, f.isSession = false → a.failing? f = some x →
        ph.ended = none ∧ (next x).Unfolds sid post (ph.failing f)

/-- **The journal of a run** goes on as it may. -/
theorem Journal.unfolds {beside : World → World → Prop} {p q : Program α} {w w' : World}
    {log : List Entry} (hl : Journal beside sid p w log q w')
    (hB : Ground beside (fun _ _ => True) sid fun w => w.store.registered = true)
    (h : p.Unfolds sid post ph) (hw : ph.Suits sid w) :
    ∃ ph', ph.Leads log ph' ∧ q.Unfolds sid post ph' := by
  induction hl generalizing ph with
  | refl => exact ⟨ph, .refl ph, h⟩
  | @ask a next q w w₁ w' log c hb _ ih =>
    obtain ⟨hown, hanswer, -⟩ := h
    have hw₁ : ph.Suits sid w₁ := (hB.stable_holds ph.row).others hb hw
    obtain ⟨ph₁, henters, hun⟩ := hanswer w₁ c hw₁
    obtain ⟨ph', hleads, hq⟩ := ih hun (hw₁.answer hB hown c henters)
    refine ⟨ph', ?_, hq⟩
    generalize a.record? sid w₁ (w₁.answer c a).2 = x at henters
    cases x with
    | none =>
      cases henters
      exact hleads
    | some x => exact .cons henters hleads
  | @fault a next q w w₁ w' log f x hb hf hx _ ih =>
    obtain ⟨-, -, hfails⟩ := h
    obtain ⟨hended, hun⟩ := hfails f x hf hx
    have hw₁ : (ph.failing f).Suits sid w₁ := (hB.stable_holds ph.row).others hb hw
    obtain ⟨ph', hleads, hq⟩ := ih hun hw₁
    exact ⟨ph', .cons (.fault hended f) hleads, hq⟩

/-! ### Rules -/

theorem Unfolds.imp {p : Program α} (h : p.Unfolds sid post ph)
    (hp : ∀ a ph, post a ph → post' a ph) : p.Unfolds sid post' ph := by
  induction p generalizing ph with
  | done a => exact hp a ph h
  | ask a next ih =>
    obtain ⟨hown, hanswer, hfails⟩ := h
    refine ⟨hown, fun w c hw => ?_, fun f x hf hx => ?_⟩
    · obtain ⟨ph', henters, hnext⟩ := hanswer w c hw
      exact ⟨ph', henters, ih _ hnext⟩
    · obtain ⟨hended, hnext⟩ := hfails f x hf hx
      exact ⟨hended, ih _ hnext⟩

/-- A program that looks no version up finds none. -/
theorem Unfolds.found_eq {P : α → Prop} {p : Program α} (h : p.Unfolds sid post ph)
    (hp : p.Asks (Ask.Private sid) P) :
    p.Unfolds sid (fun a ph' => post a ph' ∧ ph'.found = ph.found) ph := by
  -- the phase at the end is compared with the first one, so that one is fixed before the induction
  generalize hl : ph.found = l
  induction p generalizing ph with
  | done a => exact ⟨h, hl⟩
  | ask a next ih =>
    obtain ⟨hown, hanswer, hfails⟩ := h
    obtain ⟨ha, hnexts⟩ := hp
    refine ⟨hown, fun w c hw => ?_, fun f x hf hx => ?_⟩
    · obtain ⟨ph', henters, hnext⟩ := hanswer w c hw
      have hsame := henters.found_eq fun _ _ => ha.record?_ne
      exact ⟨ph', henters, ih _ hnext (hnexts _) (hsame.trans hl)⟩
    · obtain ⟨hended, hnext⟩ := hfails f x hf hx
      exact ⟨hended, ih _ hnext (hnexts _) hl⟩

theorem unfolds_bind {p : Program β} {f : β → Program α}
    (h : p.Unfolds sid (fun b ph => (f b).Unfolds sid post ph) ph) :
    (p.bind f).Unfolds sid post ph := by
  induction p generalizing ph with
  | done b => exact h
  | ask a next ih =>
    obtain ⟨hown, hanswer, hfails⟩ := h
    refine ⟨hown, fun w c hw => ?_, fun f x hf hx => ?_⟩
    · obtain ⟨ph', henters, hnext⟩ := hanswer w c hw
      exact ⟨ph', henters, ih _ hnext⟩
    · obtain ⟨hended, hnext⟩ := hfails f x hf hx
      exact ⟨hended, ih _ hnext⟩

/-- A program that leaves no entry, before another one. -/
theorem unfolds_asks {p : Program β} {f : β → Program α}
    (h : p.Asks Ask.Untold fun b => (f b).Unfolds sid post ph) :
    (p.bind f).Unfolds sid post ph := by
  induction p with
  | done b => exact h
  | ask a next ih =>
    obtain ⟨ha, hnext⟩ := h
    refine ⟨ha.own, fun w c _ => ⟨ph, ha.record?_eq sid w _ ▸ rfl, ih _ (hnext _)⟩, ?_⟩
    intro f x _ hx
    rw [ha.failing?_eq] at hx
    cases hx

/-! ### Programs that may fail -/

variable {good : α → Phase → Prop} {bad : Failure → Phase → Prop}
  {out : Outcome α → Phase → Prop}

theorem unfolds_tried {p : Procedure β} {f : β → Procedure α}
    (h : p.run.Unfolds sid (Phase.Either (fun b ph => (f b).run.Unfolds sid out ph)
      fun e ph => out (.error e) ph) ph) :
    (p >>= f).run.Unfolds sid out ph := by
  rw [ExceptT.run_bind]
  refine unfolds_bind (h.imp fun o ph ho => ?_)
  cases o with
  | ok b => exact ho
  | error e => exact ho

theorem unfolds_lift {p : Program β} {f : β → Procedure α}
    (h : p.Unfolds sid (fun b ph => (f b).run.Unfolds sid out ph) ph) :
    ((p : Procedure β) >>= f).run.Unfolds sid out ph := by
  show (ExceptT.lift p >>= f).run.Unfolds sid out ph
  rw [ExceptT.run_bind_lift]
  exact unfolds_bind h

/-- A program that leaves no entry, before another one that may fail. -/
theorem unfolds_aside {p : Program β} {f : β → Procedure α}
    (h : p.Asks Ask.Untold fun b => (f b).run.Unfolds sid out ph) :
    ((p : Procedure β) >>= f).run.Unfolds sid out ph := by
  show (ExceptT.lift p >>= f).run.Unfolds sid out ph
  rw [ExceptT.run_bind_lift]
  exact unfolds_asks h

/-- The visit of a node, of whose results something is known, before another program. The store may
fail meanwhile. -/
theorem unfolds_visit {P : β → Prop} {p : Program β} {f : β → Procedure α}
    (hu : ph.ended = none) (hp : p.Asks Ask.Visiting fun _ => True) (hg : p.Gives P)
    (h : ∀ b faults, P b → (f b).run.Unfolds sid out { ph with faults }) :
    ((p : Procedure β) >>= f).run.Unfolds sid out ph := by
  refine unfolds_lift ?_
  induction p generalizing ph with
  | done b => exact h b ph.faults hg
  | ask a next ih =>
    obtain ⟨ha, hnexts⟩ := hp
    refine ⟨ha.own, fun w c _ => ?_, fun e x he hx => ?_⟩
    · exact ⟨ph, ha.record?_eq sid w _ ▸ rfl, ih _ hu (hnexts _) (hg.answered w c) h⟩
    · exact ⟨hu, ih _ hu (hnexts _) (hg.2 x (Ask.admits_failing he hx)) h⟩

/-! ### Entries -/

/-- An event is told. -/
theorem unfolds_emit {node : String} {e : Event.Content} {f : Unit → Procedure α}
    (hx : ph.Takes (.event node e) ph') (h : (f ()).run.Unfolds sid out ph') :
    ((emit sid node e : Program Unit) >>= f : Procedure α).run.Unfolds sid out ph := by
  refine unfolds_lift ⟨trivial, fun w c _ => ⟨ph', ?_, h⟩, nofun⟩
  show ph.Enters (if sid = sid then some (.event node e) else none) ph'
  rwa [if_pos rfl]

theorem unfolds_emitNode {node : String} {e : Millis → NodeEvent} {f : Unit → Procedure α}
    {next : Millis → Phase}
    (hx : ∀ time, ph.Takes (.event node (.node (e time))) (next time))
    (h : ∀ time, (f ()).run.Unfolds sid out (next time)) :
    ((emitNode sid node e : Program Unit) >>= f : Procedure α).run.Unfolds sid out ph := by
  refine unfolds_lift ⟨trivial, fun w c _ => ⟨ph, rfl, trivial, fun w' c' _ => ?_, nofun⟩, nofun⟩
  refine ⟨next w.instant.millis, ?_, h _⟩
  show ph.Enters (if sid = sid then some (.event node (.node (e w.instant.millis))) else none) _
  rw [if_pos rfl]
  exact hx _

/-- The own session is kept, unless the store fails. -/
theorem unfolds_save {y : Session} {f : Unit → Procedure α} (hy : y.id = sid)
    (hu : ph.ended = none) (hx : ph.Takes (.kept ph.row y) ph')
    (he : ∀ e, out (.error e) (ph.failing e)) (h : (f ()).run.Unfolds sid out ph') :
    (saveSession y >>= f).run.Unfolds sid out ph := by
  refine unfolds_tried ⟨hy, fun w c hw => ⟨ph', ?_, ?_⟩, ?_⟩
  · rw [hw.saved hy, hw.record?_saveSession hy]
    exact hx
  · rw [hw.saved hy]
    exact h
  · rintro e _ - ⟨⟩
    exact ⟨hu, he e⟩

/-- The status of the session is read off its row, unless the store fails. -/
theorem unfolds_status {x : Status} {f : Status → Procedure α} (hx : ph.row.status? = .ok x)
    (hu : ph.ended = none) (he : ∀ e, out (.error e) (ph.failing e))
    (h : (f x).run.Unfolds sid out ph) : (sessionStatus sid >>= f).run.Unfolds sid out ph := by
  refine unfolds_tried ⟨trivial, fun w c hw => ⟨ph, rfl, ?_⟩, ?_⟩
  · show Phase.Either _ _ (w.store.sessionStatus sid) ph
    rw [Store.sessionStatus_eq hw.1 hw.2, hx]
    exact h
  · rintro e _ - ⟨⟩
    exact ⟨hu, he e⟩

end Program

namespace Turn

variable {sid : String} {ph : Phase} {s : Session}

theorem untold_append (id : String) (spoken : List Message) :
    (spoken.forM fun m => deliver (.append id m) : Program Unit).Asks Ask.Untold fun _ => True := by
  induction spoken with
  | nil => exact trivial
  | cons m rest ih => exact ⟨trivial, fun _ => ih⟩

theorem untold_message (u : Utterance) : (botMessage u).Asks Ask.Untold fun _ => True :=
  ⟨trivial, fun _ => ⟨trivial, fun _ => trivial⟩⟩

theorem untold_messages (us : List Utterance) :
    (us.mapM botMessage).Asks Ask.Untold fun _ => True := by
  induction us with
  | nil => exact trivial
  | cons u rest ih =>
    rw [List.mapM_cons]
    exact asks_bind ((untold_message u).imp fun _ _ => asks_bind (ih.imp fun _ _ => trivial))

/-- What comes of keeping a session: nothing, or it is kept. -/
def Entered (ph : Phase) (next : Millis → Phase) (s : Session) :
    Option Session → Phase → Prop
  | none, ph' => ph' = ph
  | some y, ph' => ∃ now, y = stamped s now ∧ ph' = next now

/-- **Keeping a session** in a turn leaves one entry or none, or the store fails. -/
theorem unfolds_commit (hs : s.id = sid) (spoken : List Message) (delta : Variables) {x : Status}
    (hx : ph.row.status? = .ok x) (hu : ph.ended = none) {next : Millis → Phase}
    (hkept : ∀ now, ph.Takes (.kept ph.row (stamped s now)) (next now)) :
    (commit s spoken delta).run.Unfolds sid
      (Phase.Either (Entered ph next s) fun e ph' => ph' = ph.failing e) ph := by
  subst hs
  unfold commit
  refine unfolds_aside (p := isAborted) ⟨trivial, fun aborted => ?_⟩
  cases aborted with
  | true => exact rfl
  | false =>
    refine unfolds_status hx hu (fun _ => rfl) ?_
    show Unfolds _ _ (ExceptT.run (if x = Status.closed then _ else _)) ph
    split
    · exact rfl
    refine unfolds_aside (p := now) ⟨trivial, fun t => ?_⟩
    refine unfolds_save (y := stamped s t.millis) rfl hu (hkept t.millis) (fun _ => rfl) ?_
    refine unfolds_aside ((untold_append _ _).imp fun _ _ => ?_)
    split
    · exact ⟨t.millis, rfl, rfl⟩
    · exact unfolds_aside (p := deliver _) ⟨trivial, fun _ => ⟨t.millis, rfl, rfl⟩⟩

end Turn

end Dialogue
