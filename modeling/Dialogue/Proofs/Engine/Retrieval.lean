import Dialogue.Proofs.Engine.Charters
import Dialogue.Proofs.Engine.Reached
import Dialogue.Proofs.Turn.Values

/-! # What is written can be read

Whatever errands an engine does side by side, each session that it writes is read back as it was
written, unless its variables nest one container more than the reader goes into. That happens only
with the whole answer of a peer, kept under a name that the version of the session keeps whole
answers under; then the session is not read any more.

* `Errand.tended`: what every errand writes.
* `Errands.Run.sound_tended`: so it is wherever the errands of an engine have come.
* `Errands.Run.retrieved`: what is read of what was written. -/

namespace Dialogue

open Program Procedure World

/-- What errands can rely on: flows and versions stay in order, and times fit their column. -/
structure World.Advances (w w' : World) : Prop extends w.Onward w' where
  clock : FitsColumn w.clock → FitsColumn w'.clock

/-- The session is kempt, but for whole answers that its version may keep. -/
def Session.Tended (y : Session) (w : World) : Prop :=
  y.Kempt fun name =>
    ∃ f, w.store.versionFlow y.flowId y.flowVersion = .ok f ∧ f.KeepsWhole name

/-- The question writes no session but a kempt one. -/
def Ask.Tended (w : World) (a : Ask) : Prop :=
  a.Orderly w ∧ match a with
    | .createSession y | .saveSession y => y.Tended w
    | _ => True

/-- The question writes no session. -/
def Ask.Sessionless : Ask → Prop
  | .createSession _ | .saveSession _ => False
  | _ => True

theorem Ask.Sessionless.tended {a : Ask} {w : World} (h : a.Sessionless) (ha : a.Orderly w) :
    a.Tended w := by
  cases a with
  | createSession | saveSession => exact h.elim
  | _ => exact ⟨ha, trivial⟩

theorem Ask.Local.tended {a : Ask} (h : a.Local) (w : World) : a.Tended w := by
  cases a with
  | createSession | saveSession | saveFlow | saveVersion | remember => exact h.elim
  | _ => exact ⟨trivial, trivial⟩

/-- The world is tidy and its clock shows a time that fits its column. -/
def World.Steady (w : World) : Prop := w.Tidy ∧ FitsColumn w.clock

namespace World

/-- **What errands can rely on** that write no session but kempt ones. -/
theorem relies_advances : Crew.Relies Passing Advances Ask.Tended Steady where
  refl w := ⟨.refl w, id⟩
  trans h h' := ⟨h.toOnward.trans h'.toOnward, fun hw => h'.clock (h.clock hw)⟩
  others := by
    rintro w w' ⟨⟨hr, hf, hv, -, hc, -⟩, hclock⟩
    exact ⟨Elsewhere.onward ⟨hr, hf, hv, hc⟩, hclock⟩
  answer {w a} c hw ha := by
    refine ⟨onward_answer c hw.1 ha.1, fun hclock => ?_⟩
    rwa [clock_answer]
  kept h hw := ⟨h.tidy hw.1, h.clock hw.2⟩

end World

/-! ### The registry -/

namespace Registry

variable {w : World} {flow : String} {v : Nat}

/-- A firm program asks only what is in order. -/
theorem Firm.always {α : Type} {p : Program (Outcome α)} (h : Firm p w) :
    p.Always Onward (fun w a => a.Orderly w) (fun _ _ => True) w := by
  induction p generalizing w with
  | done o => exact trivial
  | ask a next ih =>
    intro w₁ hb
    obtain ⟨hord, hnext⟩ := h w₁ hb
    exact ⟨hord, fun c => ih _ (hnext c).1⟩

/-- What writes no session is tended as soon as it is in order. -/
theorem always_tended {α : Type} {p : Program α} {post : α → World → Prop}
    (h : p.Always Onward (fun w a => a.Orderly w) post w)
    (hp : p.Asks Ask.Sessionless fun _ => True) : p.Always Advances Ask.Tended post w :=
  ((h.among fun _ _ hb => hb.toOnward).asks hp).imp (fun _ _ ha => ha.2.tended ha.1)
    fun _ _ => id

theorem version_sessionless (flow : String) (v : Nat) :
    (version flow v).run.Asks Ask.Sessionless fun _ => True := by
  unfold version
  refine asks_lift (p := question (.cached (VersionRow.key flow v))) ⟨trivial, fun o => ?_⟩
  cases o with
  | some f => exact trivial
  | none =>
    refine asks_tried (p := loadVersion flow v) (fun _ => trivial) ⟨trivial, fun o g _ => ?_⟩
    refine asks_tried (p := compile flow v g) (fun _ => trivial) fun f _ => ?_
    exact asks_lift (p := remember f) ⟨trivial, fun _ => trivial⟩

theorem published_sessionless (flow : String) :
    (published flow).run.Asks Ask.Sessionless fun _ => True := by
  unfold published
  refine asks_tried (p := loadFlow flow) (fun _ => trivial) ⟨trivial, fun o d _ => ?_⟩
  show Asks _ _ (ExceptT.run (if d.version = 0 then _ else _))
  split
  · exact trivial
  · exact version_sessionless flow d.version

/-- **No call** of the registry writes a session. -/
theorem Call.sessionless (c : Call) : c.program.Asks Ask.Sessionless fun _ => True := by
  cases c with
  | create name =>
    show (createFlow name).run.Asks _ _
    unfold createFlow
    refine asks_lift (p := now) ⟨trivial, fun _ => ?_⟩
    refine asks_lift (p := fresh .flow) ⟨trivial, fun _ => ?_⟩
    exact asks_tried (p := saveFlow _) (fun _ => trivial) ⟨trivial, fun _ _ _ => trivial⟩
  | draft flow g =>
    show (saveDraft flow g).run.Asks _ _
    unfold saveDraft
    refine asks_lift (p := now) ⟨trivial, fun t => ?_⟩
    refine asks_tried (p := loadFlow flow) (fun _ => trivial) ⟨trivial, fun _ d _ => ?_⟩
    refine asks_tried (p := ExceptT.mk (pure (withDraft d g t.millis))) (fun _ => trivial)
      fun d' _ => ?_
    exact asks_tried (p := saveFlow d') (fun _ => trivial) ⟨trivial, fun _ _ _ => trivial⟩
  | publish flow =>
    show (Registry.publish flow).run.Asks _ _
    unfold Registry.publish
    refine asks_lift (p := now) ⟨trivial, fun t => ?_⟩
    refine asks_tried (p := loadFlow flow) (fun _ => trivial) ⟨trivial, fun _ d _ => ?_⟩
    refine asks_tried (p := compile flow (d.version + 1) d.draft) (fun _ => trivial) fun f _ => ?_
    refine asks_tried (p := saveVersion flow (d.version + 1) d.draft t.millis) (fun _ => trivial)
      ⟨trivial, fun _ _ _ => ?_⟩
    refine asks_tried (p := saveFlow _) (fun _ => trivial) ⟨trivial, fun _ _ _ => ?_⟩
    exact asks_lift (p := remember f) ⟨trivial, fun _ => trivial⟩
  | published flow => exact published_sessionless flow
  | version flow v => exact version_sessionless flow v

/-- A version that is looked up is answered by what is stored. -/
theorem version_tended (hw : w.Steady) :
    (version flow v).run.Always Advances Ask.Tended
      (fun o w' => w'.Steady ∧ ∀ f, o = .ok f → f.version = v ∧
        w'.store.versionFlow flow f.version = .ok f) w := by
  have honward : (version flow v).run.Always _ _ _ w := version_onward hw.1
  have hguard := honward.imp (fun _ _ ha => ha.1) fun _ _ => id
  have htended := always_tended hguard (version_sessionless flow v)
  refine (relies_advances.reaches hw htended).imp_post ?_
  rintro o w' ⟨⟨ho, -⟩, -, hw'⟩
  refine ⟨hw', fun f hf => ?_⟩
  have hstored := ho f hf
  obtain ⟨-, rfl, -⟩ := Store.versionFlow_sound hstored
  exact ⟨rfl, hstored⟩

/-- So is the live version. -/
theorem published_tended (hw : w.Steady) :
    (published flow).run.Always Advances Ask.Tended
      (fun o w' => w'.Steady ∧ ∀ f, o = .ok f → w'.store.versionFlow flow f.version = .ok f) w := by
  refine always_published (fun _ _ => ⟨trivial, trivial⟩) (fun w₁ e hb => ⟨?_, nofun⟩)
    fun w₁ d hb _ _ => ?_
  · exact relies_advances.kept hb hw
  · have hversion : (version flow d.version).run.Always _ _ _ w₁ :=
      version_tended (relies_advances.kept hb hw)
    exact hversion.imp_post fun o w' ho => ⟨ho.1, fun f hf => (ho.2 f hf).2⟩

end Registry

/-! ### Commands -/

namespace Turn

/-- The session in a turn on a version: it has that version, and is kempt but for whole answers that
the version keeps. -/
structure Handles (f : Flow) (s : Session) (w : World) : Prop where
  steady : w.Steady
  version : s.flowVersion = f.version
  stored : w.store.versionFlow s.flowId f.version = .ok f
  kempt : s.Kempt f.KeepsWhole

variable {f : Flow} {s : Session} {w w' : World}

theorem Handles.onward (h : Handles f s w) (hb : w.Advances w') : Handles f s w' where
  steady := relies_advances.kept hb h.steady
  version := h.version
  stored := hb.store.versionFlow (hb.tidy h.steady.1).registered h.stored
  kempt := h.kempt

theorem Handles.tended (h : Handles f s w) : s.Tended w := by
  refine h.kempt.mono fun name hname => ⟨f, ?_, hname⟩
  rw [h.version]
  exact h.stored

/-- The transcript goes on with what is said at times that fit their column. -/
theorem kempt_uttered {whole : String → Prop} (h : s.Kempt whole) {spoken : List Message}
    (hspoken : ∀ m ∈ spoken, Uttered FitsColumn m) :
    ∀ m ∈ s.messages ++ spoken, FitsColumn m.timestamp :=
  List.forall_mem_append.mpr ⟨h.times, fun m hm => (hspoken m hm).2⟩

/-- **A node** leaves a session that is kempt but for whole answers that its version keeps. -/
theorem Scene.kempt_after {sc : Scene} {st : Step} {o : Output} {spoken : List Message} (r : Route)
    (h : Handles sc.flow s w) (ho : sc.Finishes s st o)
    (hspoken : ∀ m ∈ spoken, Uttered FitsColumn m) :
    (after s st.node o.vars spoken r).Kempt sc.flow.KeepsWhole := by
  obtain ⟨n, hn, hend⟩ := ho
  have hmem : n ∈ sc.flow.nodes := List.mem_of_find?_eq_some hn
  have hrevises : n.action.Revises s.vars o.vars := (asks_visit n st).of_mayEnd hend
  have hbounded : n.action.Bounded 126 := Store.versionFlow_bounded h.stored n hmem
  have hvars : o.vars.Within sc.flow.KeepsWhole :=
    hrevises.within hbounded h.kempt.vars fun call name ha hname => ⟨n, hmem, call, ha, hname⟩
  have htimes := kempt_uttered h.kempt hspoken
  cases r <;> exact ⟨htimes, hvars⟩

theorem Scene.conserves_handles (sc : Scene) :
    sc.Conserves Advances FitsColumn (fun _ => True) (Handles sc.flow) where
  clock hb := hb.clock
  session _ := relies_advances.lasts (fun w _ ha => ha.tended w) (fun hb h => h.onward hb)
    (·.steady)
  letting := lasts_true _
  live _ _ _ := trivial
  node {s w st o spoken} h ho hspoken := by
    have hkempt := Scene.kempt_after (o.transition.route sc.flow st.node) h ho hspoken
    refine ⟨h.steady, ?_, ?_, hkempt⟩
    · cases o.transition.route sc.flow st.node <;> exact h.version
    · rw [flowId_after]
      exact h.stored
  halt x h hm := ⟨h.steady, h.version, h.stored,
    kempt_uttered h.kempt (List.forall_mem_singleton.mpr hm), h.kempt.vars⟩
  stamp h _ := ⟨h.steady, h.version, h.stored, h.kempt.times, h.kempt.vars⟩
  saved {s w} circ h _ _ := h.onward
    (relies_advances.answer (a := .saveSession s) circ h.steady ⟨trivial, h.tended⟩)

end Turn

namespace Command

variable {w w' : World}

/-- The session is kempt, and no value in it could be a whole answer. -/
def Fresh (s : Session) (w : World) : Prop := w.Steady ∧ s.Kempt fun _ => False

theorem Fresh.tended {s : Session} (h : Fresh s w) : s.Tended w := h.2.mono fun _ => False.elim

/-- What a command makes of its session before a turn keeps it free of whole answers. -/
theorem conserves_tended (settings : Settings) (sid : String) (c : Command) :
    c.Conserves settings sid Advances Ask.Tended FitsColumn (fun _ => True) Fresh Fresh
      (fun flow f w => w.Steady ∧ w.store.versionFlow flow f.version = .ok f) Turn.Handles where
  clock hb := hb.clock
  letting := lasts_true _
  loaded _ := relies_advances.lasts (fun w _ ha => ha.tended w)
    (fun hb h => ⟨relies_advances.kept hb h.1, h.2⟩) (·.1)
  kept _ := relies_advances.lasts (fun w _ ha => ha.tended w)
    (fun hb h => ⟨relies_advances.kept hb h.1, h.2⟩) (·.1)
  found _ _ := relies_advances.lasts (fun w _ ha => ha.tended w)
    (fun hb h => ⟨relies_advances.kept hb h.1,
      hb.store.versionFlow (hb.tidy h.1.1).registered h.2⟩) (·.1)
  load _ := ⟨trivial, trivial⟩
  locals w _ ha := ha.tended w
  save h _ := ⟨trivial, h.tended⟩
  saveTurn h _ := ⟨trivial, h.tended⟩
  version {w s} hs := (Registry.version_tended hs.1.1).imp_post fun o w' ho =>
    ⟨fun f hf => ⟨ho.1, (ho.2 f hf).2⟩, ⟨ho.1, hs.1.2⟩, ho.1.2⟩
  live _ {w s} hs := (Registry.published_tended hs.1.1).imp_post fun o w' ho =>
    ⟨fun f hf => ⟨ho.1, ho.2 f hf⟩, ⟨ho.1, hs.1.2⟩, ho.1.2⟩
  free _ := trivial
  keep h := h
  record h _ hnow _ := ⟨h.1, List.forall_mem_append.mpr
    ⟨h.2.times, List.forall_mem_singleton.mpr hnow⟩, h.2.vars⟩
  close _ _ _ _ h _ := ⟨h.1, h.2.times, h.2.vars⟩
  assign _ _ _ _ _ h _ := ⟨h.1, h.2.times, h.2.vars⟩
  back h := ⟨h.1, h.2.times, h.2.vars⟩
  saved {w s} circ h _ _ := ⟨relies_advances.kept
    (relies_advances.answer (a := .saveSession s) circ h.1 ⟨trivial, h.tended⟩) h.1, h.2⟩
  foundSaved {w s flow f} circ hf h := by
    have hb := relies_advances.answer (a := .saveSession s) circ h.1 ⟨trivial, h.tended⟩
    exact ⟨relies_advances.kept hb hf.1, hb.store.versionFlow (hb.tidy hf.1.1).registered hf.2⟩
  begins h hf := ⟨h.1, rfl, hf.2, h.2.times, h.2.vars.mono fun _ => False.elim⟩
  scene f := Turn.Scene.conserves_handles ⟨sid, f, settings⟩

end Command

namespace Errand

/-- Whatever is drafted is read back as it was written. -/
def Proper : Errand → Prop
  | .call c => c.Proper
  | _ => True

/-- **Every errand** writes no session but kempt ones. -/
theorem tended (settings : Settings) {e : Errand} (he : e.Proper) {w : World} (hw : w.Steady) :
    (e.program settings).Always Advances Ask.Tended (fun _ _ => True) w := by
  cases e with
  | call c => exact Registry.always_tended (Registry.Call.firm he hw.1).always c.sessionless
  | opening flow =>
    show (Command.openSession flow).run.Always _ _ _ _
    unfold Command.openSession
    have hlive : (Registry.published flow).run.Always _ _ _ w := Registry.published_tended hw
    refine always_tried (hlive.imp_post ?_)
    rintro (e | f) w₁ -
    · exact trivial
    refine always_lift (p := fresh .session) fun w₂ _ => ⟨⟨trivial, trivial⟩, fun _ => ?_⟩
    refine always_lift (p := now) fun w₃ _ => ⟨⟨trivial, trivial⟩, fun _ => ?_⟩
    refine always_tried (p := createSession _) fun w₄ _ => ⟨⟨trivial, ?_⟩, fun c => ?_⟩
    · -- a new session has neither messages nor variables
      exact ⟨nofun, List.Pairwise.nil, nofun⟩
    · cases (w₄.answer c (.createSession _)).2 <;> exact trivial
  | order o =>
    refine Command.handle_conserves (Command.conserves_tended settings o.session o.command)
      fun w₁ s hb hs _ => ?_
    have hw₁ := relies_advances.kept hb hw
    obtain ⟨-, r, -, hread⟩ := Store.loadSession_eq_ok hs
    exact ⟨⟨hw₁, SessionRow.kempt_of_toSession hread⟩, hw₁.2⟩

end Errand

/-! ### Runs -/

namespace Errands.Run

variable {settings : Settings} {now : Millis} {m : Errands}

/-- **Wherever errands have come**, they write no session but kempt ones. -/
theorem sound_tended (h : Run settings Errand.Proper (.new now) m) (hnow : FitsColumn now) :
    Crew.Sound (fun (e : Errand) (p : Program (Outcome e.Value)) w =>
      p.Always Advances Ask.Tended (fun _ _ => True) w) Steady m := by
  have hconduct (e : Errand) : Crew.Conduct Advances Ask.Tended
      fun (p : Program (Outcome e.Value)) w =>
        p.Always Advances Ask.Tended (fun _ _ => True) w :=
    relies_advances.always fun _ _ => trivial
  refine (Crew.Course.onward relies_advances hconduct (fun hw hj => ?_)
    (Crew.sound_nil ⟨tidy_new now, (clock_new .empty now).symm ▸ hnow⟩) h).2
  obtain ⟨he, rfl⟩ := hj
  exact Errand.tended settings he hw

end Errands.Run

/-- The question writes the session, which leaves another store. -/
inductive Ask.Writes (s : Store) (y : Session) (s' : Store) : Ask → Prop
  | create (h : s.createSession y = .ok s') : Writes s y s' (.createSession y)
  | save (h : s.saveSession y = .ok s') : Writes s y s' (.saveSession y)

theorem Ask.Writes.loadSession {s s' : Store} {y : Session} {a : Ask} (h : a.Writes s y s')
    (hs : s.registered = true) : s'.loadSession y.id = (SessionRow.ofSession y).toSession := by
  cases h with
  | create h =>
    obtain ⟨-, sessions, rfl, -, hrow⟩ := Store.createSession_eq_ok h
    exact Store.loadSession_eq hs ((hrow y.id).trans (if_pos rfl))
  | save h =>
    obtain ⟨sessions, rfl, hrow⟩ := Store.saveSession_eq_ok h
    exact Store.loadSession_eq hs ((hrow y.id).trans (if_pos rfl))

/-- **What is written can be read**, but for whole answers. Wherever the errands of an engine have
come, every session that one of them writes next is read back as it was written, as long as its
numbers are, unless a value in it nests 127 containers, the variables themselves being one more.
Such a value is under a name that the version of the session keeps whole answers of peers under, and
the session is not read then. -/
theorem Errands.Run.retrieved {settings : Settings} {now : Millis} {m : Errands}
    (h : Run settings Errand.Proper (.new now) m) (hnow : FitsColumn now) {k : Nat} {e : Errand}
    {a : Ask} {next : a.Answer → Program (Outcome e.Value)}
    (hk : m.members[k]? = some ⟨e, .ask a next⟩) {y : Session} {s : Store}
    (ha : a.Writes m.world.store y s) (hx : ∀ x ∈ (Json.obj y.vars).doubles, Json.ReadsBack x) :
    ((Json.obj y.vars).depth ≤ 127 ∧ s.loadSession y.id = .ok y) ∨
      (s.loadSession y.id = .error (.illegible .convert) ∧
        ∃ f, m.world.store.versionFlow y.flowId y.flowVersion = .ok f ∧
          ∃ v ∈ y.vars, v.2.depth = 127 ∧ f.KeepsWhole v.1) := by
  have hsound := h.sound_tended hnow
  have hregistered : m.world.store.registered = true := hsound.world.1.registered
  obtain ⟨⟨-, htended⟩, -⟩ := hsound.member hk m.world (relies_advances.refl _)
  obtain ⟨hchartered, -⟩ := h.sound_chartered.member hk m.world (.refl _)
  have hy : y.Tended m.world ∧ y.flowVersion < 0x8000000000000000 := by
    cases ha with
    | create => exact ⟨htended, hchartered.1⟩
    | save => exact ⟨htended, hchartered.1⟩
  rw [ha.loadSession hregistered]
  rcases hy.1.toSession hy.2 hx with hread | ⟨hfails, v, hv, hdepth, f, hf, hwhole⟩
  · exact .inl hread
  · exact .inr ⟨hfails, f, hf, v, hv, hdepth, hwhole⟩

/-! ### A session that keeps the answer of a peer -/

/-- The session that the program is about to save. -/
def Program.saves? {α : Type} : Program α → Option Session
  | .ask (.saveSession y) _ => some y
  | _ => none

theorem Program.exists_of_saves? {α : Type} {p : Program α} {y : Session}
    (h : p.saves? = some y) : ∃ next, p = .ask (.saveSession y) next := by
  unfold saves? at h
  split at h
  · rename_i next
    obtain rfl := Option.some.inj h
    exact ⟨next, rfl⟩
  · cases h

namespace World

/-- A flow that keeps the answer of a peer. -/
def calling : Graph :=
  drawn "httpRequest" (.obj [("responseVariable", .str "r"), ("url", .str "http://peer/")])

/-- A session was opened on that flow. -/
def opened : World :=
  (((new .empty 0).doing (Registry.createFlow "").run).publishing calling).doing
    (Command.openSession "f1").run

/-- What is left of the start of the session when the peer has answered, and the world then. -/
def hearing (peer : Http.Attempt) : Program (Outcome Turn.Report) × World :=
  cut ⟨false, peer⟩ 22 (Command.handle .default "s1" .start).run opened

theorem readsBack_calling : calling.ReadsBack := by
  refine Graph.readsBack ?_ (by decide) rfl
  simp [calling, drawn, Graph.toJson, Graph.Node.toJson, Graph.Edge.toJson, Json.Legible,
    Json.LegibleFields, Json.LegibleItems]

/-- What is left of the start, in a world whose rows are written out. -/
theorem hearing_eq (peer : Http.Attempt) :
    hearing peer = cut ⟨false, peer⟩ 22 (Command.handle .default "s1" .start).run
      (begun calling calling) := by
  have hopened : opened = begun calling calling := begun_eq readsBack_calling.readsAs
    readsBack_calling.readsAs (by decide +kernel) rfl
  rw [hearing, hopened]

end World

/-- An engine comes to that. -/
theorem Errands.run_hearing (peer : Http.Attempt) : ∃ (m : Errands) (k : Nat),
    Run .default Errand.Proper (.new 0) m ∧ m.world = (hearing peer).2 ∧
      m.members[k]? = some ⟨.order ⟨"s1", .start⟩, (hearing peer).1⟩ := by
  have hdoes (e : Errand) (he : e.Proper) (m : Errands) :
      ∃ m', Run .default Errand.Proper m m' ∧ m'.world = m.world.doing (e.program .default) :=
    does he m
  obtain ⟨m₁, h₁, hw₁⟩ := hdoes (.call (.create "")) trivial (.new 0)
  obtain ⟨m₂, h₂, hw₂⟩ := hdoes (.call (.draft "f1" calling)) readsBack_calling m₁
  obtain ⟨m₃, h₃, hw₃⟩ := hdoes (.call (.publish "f1")) trivial m₂
  obtain ⟨m₄, h₄, hw₄⟩ := hdoes (.opening "f1") trivial m₃
  have hopened : m₄.world = opened := by
    simp only [hw₄, hw₃, hw₂, hw₁, opened, World.publishing, Errand.program,
      Registry.Call.program, Errands.new]
  have hjoined : Run .default Errand.Proper m₄ (m₄.joined (.order ⟨"s1", .start⟩)
      (Command.handle .default "s1" .start).run) := .single (.join ⟨trivial, rfl⟩)
  have hlast := Crew.getElem?_joined m₄ (.order ⟨"s1", .start⟩)
    (Command.handle .default "s1" .start).run
  have hcut : Run .default Errand.Proper _ _ :=
    Crew.Course.cuts ⟨false, peer⟩ 22 hlast fun _ _ => trivial
  refine ⟨_, m₄.members.length, ((((h₁.trans h₂).trans h₃).trans h₄).trans hjoined).trans hcut,
    ?_, ?_⟩
  · simp only [hearing, ← hopened, Crew.joined]
  · have hlt := (List.getElem?_eq_some_iff.mp hlast).1
    simp only [hearing, ← hopened, Crew.joined] at hlt ⊢
    exact List.getElem?_set_self hlt

/-- There the session is saved with the answer. -/
theorem Errands.writes_hearing (peer : Http.Attempt) (v : Json)
    (hv : (hearing peer).1.saves?.map (fun y => (y.id, y.vars)) = some ("s1", [("r", v)]) ∧
      ((hearing peer).2.store.row? "s1").isSome = true) :
    ∃ (m : Errands) (k : Nat) (y : Session) (next : Outcome Unit → Program (Outcome Turn.Report))
      (s : Store), Run .default Errand.Proper (.new 0) m ∧
        m.members[k]? = some ⟨.order ⟨"s1", .start⟩, .ask (.saveSession y) next⟩ ∧
        Ask.Writes m.world.store y s (.saveSession y) ∧ y.vars = [("r", v)] := by
  obtain ⟨hv, hrow⟩ := hv
  obtain ⟨m, k, h, hm, hk⟩ := run_hearing peer
  obtain ⟨y, hy, hyv⟩ := Option.map_eq_some_iff.mp hv
  obtain ⟨hid, hvars⟩ := Prod.mk.inj hyv
  obtain ⟨next, hnext⟩ := Program.exists_of_saves? hy
  have hfits : FitsColumn 0 := by unfold FitsColumn; decide
  rw [← hm, ← hid] at hrow
  obtain ⟨r, hr⟩ := Option.isSome_iff_exists.mp hrow
  obtain ⟨sessions, hs, -⟩ := Store.saveSession_eq (h.sound_tended hfits).world.1.registered hr
  exact ⟨m, k, y, next, _, h, hnext ▸ hk, .save hs, hvars⟩

/-- An answer that is read back. -/
theorem Errands.retrieved_null : ∃ (m : Errands) (k : Nat) (y : Session)
    (next : Outcome Unit → Program (Outcome Turn.Report)) (s : Store),
    Run .default Errand.Proper (.new 0) m ∧
      m.members[k]? = some ⟨.order ⟨"s1", .start⟩, .ask (.saveSession y) next⟩ ∧
      Ask.Writes m.world.store y s (.saveSession y) ∧ y.vars = [("r", .null)] ∧
      s.loadSession y.id = .ok y := by
  obtain ⟨m, k, y, next, s, h, hk, hw, hvars⟩ :=
    writes_hearing (.reply 200 "null") .null (by rw [hearing_eq]; decide +kernel)
  have hfits : FitsColumn 0 := by unfold FitsColumn; decide
  have hx : ∀ x ∈ (Json.obj y.vars).doubles, Json.ReadsBack x := by
    rw [hvars]
    nofun
  refine ⟨m, k, y, next, s, h, hk, hw, hvars, ?_⟩
  rcases h.retrieved hfits hk hw hx with ⟨-, hread⟩ | ⟨-, -, -, v, hv, hdepth, -⟩
  · exact hread
  · rw [hvars, List.mem_singleton] at hv
    simp [hv, Json.depth] at hdepth

/-- **An answer that is not read back**: null inside of 127 lists. The session is written, and then
it is not read any more. -/
theorem Errands.unread_nested : ∃ (m : Errands) (k : Nat) (y : Session)
    (next : Outcome Unit → Program (Outcome Turn.Report)) (s : Store),
    Run .default Errand.Proper (.new 0) m ∧
      m.members[k]? = some ⟨.order ⟨"s1", .start⟩, .ask (.saveSession y) next⟩ ∧
      Ask.Writes m.world.store y s (.saveSession y) ∧ y.vars = [("r", .nested 127)] ∧
      s.loadSession y.id = .error (.illegible .convert) := by
  obtain ⟨m, k, y, next, s, h, hk, hw, hvars⟩ :=
    writes_hearing (.reply 200 (Json.nested 127).text) (.nested 127)
      (by rw [hearing_eq]; decide +kernel)
  have hfits : FitsColumn 0 := by unfold FitsColumn; decide
  have hdeep : 127 < (Json.obj y.vars).depth := by
    rw [hvars]
    simp [Json.depth, Json.depthFields, Json.depth_nested]
  have hlegible : (Json.obj y.vars).Legible := by
    rw [hvars]
    simp [Json.Legible, Json.LegibleFields, Json.legible_nested]
  refine ⟨m, k, y, next, s, h, hk, hw, hvars, ?_⟩
  rw [hw.loadSession (h.sound_tended hfits).world.1.registered]
  exact SessionRow.toSession_of_deep hlegible hdeep

end Dialogue
