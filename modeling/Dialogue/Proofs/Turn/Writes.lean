import Dialogue.Proofs.Turn.Visit
import Dialogue.Turn.Basic

/-! # What a turn writes

Between two writes a turn stands before a node, before a halt, or at its end. `Writes` says which
session it may keep next and where it stands then; `Comes` says where it may have come from its
beginning, and which row is stored there.

* `commit_always`: keeping a session either puts its row in the store or changes nothing. -/

namespace Dialogue

/-- What holds around the work on one session: others leave its row alone and keep the rest, and so
does whatever its own program asks. -/
structure World.Ground (beside : World → World → Prop) (remembers : String → Flow → Prop)
    (sid : String) (B : World → Prop) : Prop extends World.Stable beside remembers B where
  registered : ∀ {w : World}, B w → w.store.registered = true
  row : ∀ {w w' : World}, beside w w' → B w → w'.store.row? sid = w.store.row? sid
  saved : ∀ {w : World} {sessions : Collection SessionRow}, B w →
    B { w with store := { w.store with sessions } }
  told : ∀ {w : World} {d : Delivery}, B w → B { w with deliveries := w.deliveries ++ [d] }

/-- The world satisfies a condition and holds a row of a session. -/
def World.Holds (B : World → Prop) (sid : String) (r : SessionRow) (w : World) : Prop :=
  B w ∧ w.store.row? sid = some r

/-- What the program of a session may ask: of sessions it keeps its own one only, in place of a row
that admits it, and it makes no flows, versions or sessions. -/
def Ask.Allowed (sid : String) (writes : SessionRow → Session → Prop)
    (remembers : String → Flow → Prop) (w : World) : Ask → Prop
  | .saveSession y => y.id = sid ∧ ∃ r, w.store.row? sid = some r ∧ writes r y
  | .remember key f => remembers key f
  | .createSession _ | .saveFlow _ | .saveVersion _ _ _ _ => False
  | _ => True

namespace World

variable {beside : World → World → Prop} {remembers : String → Flow → Prop} {sid : String}
  {B : World → Prop} {r : SessionRow}

theorem row?_eq_of_alike {w w' : World} (h : w.Alike w') (id : String) :
    w'.store.row? id = w.store.row? id := by
  rw [Store.row?, Store.row?, h.sessions]

theorem Ground.stable_holds (hB : Ground beside remembers sid B) (r : SessionRow) :
    Stable beside remembers (Holds B sid r) where
  others hb h := ⟨hB.others hb h.1, (hB.row hb h.1).trans h.2⟩
  quiet w c ha h := ⟨hB.quiet w c ha h.1, (row?_eq_of_alike (alike_answer ha w c) sid).trans h.2⟩
  remembered hf h := ⟨hB.remembered hf h.1, h.2⟩

/-- Keeping the session puts its row in the store. -/
theorem Ground.holds_save (hB : Ground beside remembers sid B) {w : World} (h : Holds B sid r w)
    {y : Session} (hy : y.id = sid) (c : Circumstance) :
    (w.answer c (.saveSession y)).2 = .ok () ∧
      Holds B sid (.ofSession y) (w.answer c (.saveSession y)).1 := by
  subst hy
  obtain ⟨sessions, hs, hr⟩ := Store.saveSession_eq (hB.registered h.1) h.2
  simp only [answer, hs, change]
  exact ⟨trivial, hB.saved h.1, by rw [Store.row?, hr, if_pos rfl]⟩

theorem Ground.holds_deliver (hB : Ground beside remembers sid B) {w : World} (h : Holds B sid r w)
    (d : Delivery) (c : Circumstance) : Holds B sid r (w.answer c (.deliver d)).1 :=
  ⟨hB.told h.1, h.2⟩

end World

theorem Ask.Quiet.allowed {a : Ask} (h : a.Quiet) {sid : String}
    {writes : SessionRow → Session → Prop} {remembers : String → Flow → Prop} {w : World} :
    a.Allowed sid writes remembers w := by
  cases a with
  | createSession | saveSession | saveFlow | saveVersion | remember | deliver => exact h.elim
  | _ => exact trivial

/-- What is allowed leaves the row of the session as it is, or puts an admitted one in its place. -/
theorem Ask.Allowed.holds {beside : World → World → Prop} {remembers : String → Flow → Prop}
    {sid : String} {B : World → Prop} {writes : SessionRow → Session → Prop} {r : SessionRow}
    {a : Ask} {w : World} (hB : World.Ground beside remembers sid B)
    (ha : a.Allowed sid writes remembers w) (hw : World.Holds B sid r w) (c : Circumstance) :
    ∃ r', World.Holds B sid r' (w.answer c a).1 ∧
      (r' = r ∨ ∃ y, a = .saveSession y ∧ writes r y ∧ r' = .ofSession y) := by
  cases a with
  | saveSession y =>
    obtain ⟨hy, r', hr', hwr⟩ := ha
    obtain rfl : r = r' := Option.some.inj (hw.2.symm.trans hr')
    exact ⟨_, (hB.holds_save hw hy c).2, .inr ⟨y, rfl, hwr, rfl⟩⟩
  | remember key f => exact ⟨r, ⟨hB.remembered ha hw.1, hw.2⟩, .inl rfl⟩
  | deliver d => exact ⟨r, hB.holds_deliver hw d c, .inl rfl⟩
  | createSession | saveFlow | saveVersion => exact ha.elim
  | _ => exact ⟨r, (hB.stable_holds r).quiet w c trivial hw, .inl rfl⟩

/-- A condition on the stored row holds wherever a program has come if it holds of all that the
program keeps. -/
theorem Program.Always.holds_leads {α : Type} {beside : World → World → Prop}
    {remembers : String → Flow → Prop} {sid : String} {B : World → Prop}
    {writes : SessionRow → Session → Prop} {P : SessionRow → Prop} {r : SessionRow}
    {post : α → World → Prop} {allowed : Ask → Prop} {p q : Program α} {w w' : World}
    (hB : World.Ground beside remembers sid B)
    (h : p.Always beside (Ask.Allowed sid writes remembers) post w)
    (hl : Leads beside allowed p w q w') (hP : ∀ r y, writes r y → P (.ofSession y))
    (hw : World.Holds B sid r w) (hr : P r) : ∃ r', World.Holds B sid r' w' ∧ P r' := by
  induction hl generalizing r with
  | refl => exact ⟨r, hw, hr⟩
  | ask c hb _ _ ih =>
    obtain ⟨ha, hnext⟩ := h _ hb
    obtain ⟨r', hw', hr'⟩ := ha.holds hB ((hB.stable_holds r).others hb hw) c
    rcases hr' with rfl | ⟨y, -, hy, rfl⟩
    · exact ih (hnext c) hw' hr
    · exact ih (hnext c) hw' (hP r y hy)

/-- The question keeps no session. -/
def Ask.Keepless : Ask → Prop
  | .saveSession _ => False
  | _ => True

/-- The stored row stays as it is while a program keeps no session. -/
theorem Program.Always.holds_keepless {α : Type} {beside : World → World → Prop}
    {remembers : String → Flow → Prop} {sid : String} {B : World → Prop}
    {writes : SessionRow → Session → Prop} {r : SessionRow} {post : α → World → Prop}
    {p q : Program α} {w w' : World} (hB : World.Ground beside remembers sid B)
    (h : p.Always beside (Ask.Allowed sid writes remembers) post w)
    (hl : Leads beside Ask.Keepless p w q w') (hw : World.Holds B sid r w) :
    World.Holds B sid r w' := by
  induction hl with
  | refl => exact hw
  | ask c hb hk _ ih =>
    obtain ⟨ha, hnext⟩ := h _ hb
    obtain ⟨r', hw', hr'⟩ := ha.holds hB ((hB.stable_holds r).others hb hw) c
    rcases hr' with rfl | ⟨y, rfl, -⟩
    · exact ih (hnext c) hw'
    · exact hk.elim

theorem Ask.Allowed.imp {a : Ask} {sid : String} {writes writes' : SessionRow → Session → Prop}
    {remembers remembers' : String → Flow → Prop} {w : World}
    (h : a.Allowed sid writes remembers w) (hw : ∀ r y, writes r y → writes' r y)
    (hr : ∀ key f, remembers key f → remembers' key f) : a.Allowed sid writes' remembers' w := by
  cases a with
  | saveSession y =>
    obtain ⟨hy, r, hrow, hwr⟩ := h
    exact ⟨hy, r, hrow, hw r y hwr⟩
  | remember key f => exact hr key f h
  | createSession | saveFlow | saveVersion => exact h.elim
  | _ => exact trivial

namespace Turn

open Program Procedure World

/-! ### Where a turn stands -/

/-- Where a turn stands between two writes, with the session as it has it in hand. -/
inductive Stand where
  /-- It is about to run a node. -/
  | before (s : Session) (st : Step)
  /-- It is about to halt. -/
  | halting (s : Session) (h : Halt)
  /-- It is over. -/
  | over (s : Session) (e : Ending)

/-- The session in hand. -/
def Stand.session : Stand → Session
  | .before s _ | .halting s _ | .over s _ => s

/-- Where a turn stands after a node that leads on by a route. -/
def Stand.behind (s : Session) (node : String) : Route → Stand
  | .go next => .before s (.run next)
  | .finish => .over s .ended
  | .pause => .over s .paused
  | .handoff _ _ => .over s .handoff
  | .close => .over s .closed
  | .halt kind text retryable => .halting s ⟨node, kind, text, retryable⟩

/-- The session as it is kept at a time. -/
def stamped (s : Session) (now : Millis) : Session := { s with updateTime := now }

/-- The node of a step may finish with an output. -/
def Scene.Finishes (sc : Scene) (s : Session) (st : Step) (o : Output) : Prop :=
  ∃ n, sc.flow.node? st.node = some n ∧ (sc.visit n st s.vars).MayEnd (.finished o)

/-- A step may come to nothing but a halt. -/
inductive Scene.Faults (sc : Scene) (s : Session) (st : Step) : Halt → Prop
  | budget : Faults sc s st
      ⟨st.node, .stepBudget, budgetText sc.settings.engine.maxSteps, false⟩
  | missing (h : sc.flow.node? st.node = none) : Faults sc s st
      ⟨st.node, .graphIntegrity, missingText st.node sc.flow.id, false⟩
  | failed {n : Flow.Node} {f : Failure} (hn : sc.flow.node? st.node = some n)
      (h : (sc.visit n st s.vars).MayEnd (.failed f)) (hf : f.isSession = false) :
      Faults sc s st ⟨st.node, haltKind f, f.message, true⟩

/-- The session that a turn may keep next, and where it stands then. -/
inductive Scene.Writes (sc : Scene) : Stand → Session → Stand → Prop
  | node {s : Session} {st : Step} {o : Output} {r : Route} (h : sc.Finishes s st o)
      (hr : o.transition.route sc.flow st.node = r) (spoken : List Message) (now : Millis) :
      Writes sc (.before s st) (stamped (after s st.node o.vars spoken r) now)
        (.behind (stamped (after s st.node o.vars spoken r) now) st.node r)
  | halt (s : Session) (h : Halt) (diagnosis : Message) (now : Millis) :
      Writes sc (.halting s h) (stamped (haltedBy s h diagnosis) now)
        (.over (stamped (haltedBy s h diagnosis) now) .halted)

/-- Where a turn may have come that began at a stand with a row in the store, and which row is in
the store now. -/
inductive Scene.Comes (sc : Scene) (start : Stand) (r₀ : SessionRow) : Stand → SessionRow → Prop
  | begun : Comes sc start r₀ start r₀
  | fault {s : Session} {st : Step} {h : Halt} {r : SessionRow}
      (hc : Comes sc start r₀ (.before s st) r) (hf : sc.Faults s st h) :
      Comes sc start r₀ (.halting s h) r
  | wrote {stand next : Stand} {r : SessionRow} {y : Session}
      (hc : Comes sc start r₀ stand r) (hw : sc.Writes stand y next) :
      Comes sc start r₀ next (.ofSession y)

/-- The session that a turn may keep in place of a row. -/
def Scene.Turns (sc : Scene) (start : Stand) (r₀ r : SessionRow) (y : Session) : Prop :=
  ∃ stand next, sc.Comes start r₀ stand r ∧ sc.Writes stand y next

namespace Scene

variable {sc : Scene} {start stand next : Stand} {r₀ r : SessionRow} {s y : Session} {e : Ending}

section
variable (s : Session) (node : String) (vars : Variables) (spoken : List Message) (r : Route)

@[simp] theorem id_after : (after s node vars spoken r).id = s.id := by
  cases r <;> rfl

@[simp] theorem messages_after :
    (after s node vars spoken r).messages = s.messages ++ spoken := by
  cases r <;> rfl

@[simp] theorem vars_after : (after s node vars spoken r).vars = vars := by
  cases r <;> rfl

@[simp] theorem halt_after : (after s node vars spoken r).halt = s.halt := by
  cases r <;> rfl

end

@[simp] theorem session_behind (s : Session) (node : String) (r : Route) :
    (Stand.behind s node r).session = s := by
  cases r <;> rfl

/-- A write keeps the session that the turn has in hand afterwards. -/
theorem Writes.session_eq (h : sc.Writes stand y next) : next.session = y := by
  cases h with
  | node h hr spoken now => rw [session_behind]
  | halt s h diagnosis now => rfl

theorem Writes.id_eq (h : sc.Writes stand y next) : y.id = stand.session.id := by
  cases h with
  | node h hr spoken now => exact id_after _ _ _ _ _
  | halt s h diagnosis now => rfl

/-- A turn works on one session. -/
theorem Comes.id_eq (h : sc.Comes start r₀ stand r) : stand.session.id = start.session.id := by
  induction h with
  | begun => rfl
  | fault _ _ ih => exact ih
  | wrote _ hw ih => rw [hw.session_eq, hw.id_eq, ih]

@[simp] theorem flowId_after (s : Session) (node : String) (vars : Variables)
    (spoken : List Message) (r : Route) : (after s node vars spoken r).flowId = s.flowId := by
  cases r <;> rfl

theorem Writes.flowId_eq (h : sc.Writes stand y next) : y.flowId = stand.session.flowId := by
  cases h with
  | node h hr spoken now => exact flowId_after _ _ _ _ _
  | halt s h diagnosis now => rfl

/-- A turn does not leave the flow of its session. -/
theorem Comes.flowId_eq (h : sc.Comes start r₀ stand r) :
    stand.session.flowId = start.session.flowId := by
  induction h with
  | begun => rfl
  | fault _ _ ih => exact ih
  | wrote _ hw ih => rw [hw.session_eq, hw.flowId_eq, ih]

/-- The status of the stored row can be read throughout the turn. -/
theorem Comes.exists_status (h : sc.Comes start r₀ stand r) {x : Status}
    (h₀ : r₀.status? = .ok x) : ∃ x, r.status? = .ok x := by
  induction h with
  | begun => exact ⟨x, h₀⟩
  | fault _ _ ih => exact ih
  | wrote _ _ _ => exact ⟨_, SessionRow.status?_ofSession _⟩

end Scene

/-! ### Keeping a session -/

variable {beside : World → World → Prop} {sid : String} {B : World → Prop} {r : SessionRow}
  {writes : SessionRow → Session → Prop} {remembers : String → Flow → Prop} {w : World}

/-- A program of quiet questions, before another one that may fail. -/
theorem always_aside {α β : Type} {I : World → Prop} (hI : Stable beside remembers I)
    {p : Program β} {P : β → Prop} (hp : p.Gives P) {f : β → Procedure α}
    {post : Outcome α → World → Prop}
    (hw : I w) (h : ∀ b w, p.MayEnd b → I w →
      (f b).run.Always beside (Ask.Allowed sid writes remembers) post w) :
    ((p : Procedure β) >>= f).run.Always beside (Ask.Allowed sid writes remembers) post w :=
  always_lift ((hp.always hI (fun _ _ ha => ha.allowed) hw).imp_post fun b w hb => h b w hb.1 hb.2)

/-- The chat backend is told without a change of the row. -/
theorem always_deliver (hB : Ground beside remembers sid B) (d : Delivery) (hw : Holds B sid r w) :
    (deliver d).Always beside (Ask.Allowed sid writes remembers) (fun _ => Holds B sid r) w :=
  always_question fun _ hb =>
    ⟨trivial, fun c => hB.holds_deliver ((hB.stable_holds r).others hb hw) d c⟩

theorem always_append (hB : Ground beside remembers sid B) (id : String) (spoken : List Message)
    (hw : Holds B sid r w) :
    (spoken.forM fun m => deliver (.append id m) : Program Unit).Always beside
      (Ask.Allowed sid writes remembers) (fun _ => Holds B sid r) w := by
  induction spoken generalizing w with
  | nil => exact hw
  | cons m rest ih =>
    show (deliver (.append id m) >>= fun _ => rest.forM _).Always _ _ _ w
    exact always_bind ((always_deliver hB _ hw).imp_post fun _ _ h => ih h)

/-- Keeping the own session puts its row in the store. -/
theorem always_save (hB : Ground beside remembers sid B) {y : Session} (hy : y.id = sid)
    (hr : writes r y) (hw : Holds B sid r w) :
    (saveSession y).run.Always beside (Ask.Allowed sid writes remembers)
      (Either (fun _ => Holds B sid (.ofSession y)) fun _ _ => False) w := by
  refine always_question fun w₁ hb => ?_
  have hw₁ := (hB.stable_holds r).others hb hw
  refine ⟨⟨hy, r, hw₁.2, hr⟩, fun c => ?_⟩
  obtain ⟨hok, hkept⟩ := hB.holds_save hw₁ hy c
  rw [hok]
  exact hkept

/-- The status of a session is read off its row. -/
theorem always_status (hB : Ground beside remembers sid B) {x : Status} (hr : r.status? = .ok x)
    (hw : Holds B sid r w) :
    (sessionStatus sid).run.Always beside (Ask.Allowed sid writes remembers)
      (Either (fun y w => y = x ∧ Holds B sid r w) fun _ _ => False) w := by
  refine always_question fun w₁ hb => ⟨trivial, fun c => ?_⟩
  have hw₁ := (hB.stable_holds r).others hb hw
  show Either _ _ (w₁.store.sessionStatus sid) w₁
  rw [Store.sessionStatus_eq (hB.registered hw₁.1) hw₁.2, hr]
  exact ⟨rfl, hw₁⟩

/-- What comes of keeping a session in place of a row: it is kept at some time, or the row stays as
it is. -/
def Kept (B : World → Prop) (sid : String) (r : SessionRow) (s : Session) :
    Option Session → World → Prop
  | none, w => Holds B sid r w
  | some y, w => ∃ now, y = stamped s now ∧ Holds B sid (.ofSession y) w

/-- **Keeping a session** in place of a row that admits it does not fail. -/
theorem commit_always (hB : Ground beside remembers sid B) {s : Session} (hs : s.id = sid)
    (spoken : List Message) (delta : Variables) {x : Status} (hr : r.status? = .ok x)
    (hwrites : ∀ now, writes r (stamped s now)) (hw : Holds B sid r w) :
    (commit s spoken delta).run.Always beside (Ask.Allowed sid writes remembers)
      (Either (Kept B sid r s) fun _ _ => False) w := by
  subst hs
  unfold commit
  have hI := hB.stable_holds r
  refine always_aside hI (gives_question .isAborted trivial) hw fun aborted w _ hw => ?_
  split
  · exact hw
  refine always_tried ((always_status hB hr hw).imp_post ?_)
  rintro (e | y) w hy
  · exact hy.elim
  show Always _ _ _ (ExceptT.run (if y = Status.closed then _ else _)) w
  split
  · exact hy.2
  refine always_aside hI gives_now hy.2 fun now w _ hw => ?_
  refine always_tried ((always_save (y := stamped s now) hB rfl (hwrites now) hw).imp_post ?_)
  rintro (e | y) w hy
  · exact hy.elim
  refine always_lift ((always_append hB _ _ hy).imp_post fun _ w hw => ?_)
  split
  · exact ⟨now, rfl, hw⟩
  · refine always_lift ((always_deliver hB _ hw).imp_post fun _ w hw => ?_)
    exact ⟨now, rfl, hw⟩

end Turn

end Dialogue
