import Dialogue.Proofs.Engine.Errands

/-! # Versions that are stored

Whatever graphs are drafted, a session runs on a version that is stored, and nothing but stored
versions is at hand. What is stored as a version stays so, and no other graph ever takes its place.

* `issuing_answer`: the answer to a question that stays within what is stored.
* `Errand.chartered`: all errands ask only such questions.
* `Errands.Run.sound_chartered`: so it is wherever the errands of an engine have come. -/

namespace Dialogue

open Program Procedure World

/-- The version of the flow is stored. -/
def Store.Issues (s : Store) (flow : String) (v : Nat) : Prop :=
  (s.versions.row? (VersionRow.key flow v)).isSome

/-- Sessions, flows and what is at hand have versions that are stored, and their numbers fit. -/
structure World.Chartered (w : World) : Prop where
  sessions : ∀ id r, w.store.row? id = some r → r.flowVersion < 0x8000000000000000 ∧
    w.store.Issues r.flowId (ofSigned64 r.flowVersion)
  flows : ∀ id r, w.store.flows.row? id = some r → r.version < 0x8000000000000000 ∧
    (ofSigned64 r.version ≠ 0 → w.store.Issues r.id (ofSigned64 r.version))
  compiled : ∀ key f, w.compiled.get? key = some f → key = VersionRow.key f.id f.version ∧
    w.store.Issues f.id f.version

/-- What is stored as a version stays as it is. -/
structure World.Issuing (w w' : World) : Prop where
  versions : ∀ key r, w.store.versions.row? key = some r → w'.store.versions.row? key = some r
  chartered : w.Chartered → w'.Chartered

/-- The question keeps nothing that has a version which is not stored. -/
def Ask.Chartered (w : World) : Ask → Prop
  | .createSession y | .saveSession y => y.flowVersion < 0x8000000000000000 ∧
    w.store.Issues y.flowId y.flowVersion
  | .saveFlow d => ofSigned64 (toSigned64 d.version) ≠ 0 →
    w.store.Issues d.id (ofSigned64 (toSigned64 d.version))
  | .remember key f => key = VersionRow.key f.id f.version ∧ w.store.Issues f.id f.version
  | _ => True

namespace World

variable {w w' w'' : World} {flow : String} {v : Nat}

/-! ### Answers -/

theorem Issuing.refl (w : World) : w.Issuing w := ⟨fun _ _ => id, id⟩

theorem Issuing.trans (h : w.Issuing w') (h' : w'.Issuing w'') : w.Issuing w'' :=
  ⟨fun key r hr => h'.versions key r (h.versions key r hr), fun hw => h'.chartered (h.chartered hw)⟩

theorem Issuing.issues (h : w.Issuing w') (hv : w.store.Issues flow v) :
    w'.store.Issues flow v := by
  obtain ⟨r, hr⟩ := Option.isSome_iff_exists.mp hv
  exact Option.isSome_iff_exists.mpr ⟨r, h.versions _ r hr⟩

/-- A world with the same flows and sessions, no fewer versions, and nothing else at hand. -/
theorem Chartered.of_same (h : w.Chartered)
    (hv : ∀ key r, w.store.versions.row? key = some r → w'.store.versions.row? key = some r)
    (hs : w'.store.sessions = w.store.sessions) (hf : w'.store.flows = w.store.flows)
    (hc : ∀ key f, w'.compiled.get? key = some f → w.compiled.get? key = some f) :
    w'.Chartered := by
  have hissues {flow : String} {v : Nat} (hi : w.store.Issues flow v) :
      w'.store.Issues flow v := by
    obtain ⟨r, hr⟩ := Option.isSome_iff_exists.mp hi
    exact Option.isSome_iff_exists.mpr ⟨r, hv _ r hr⟩
  refine ⟨fun id r hr => ?_, fun id r hr => ?_, fun key f hcached => ?_⟩
  · have hr : w.store.row? id = some r := by rwa [Store.row?, hs] at hr
    exact (h.sessions id r hr).imp_right hissues
  · rw [hf] at hr
    exact (h.flows id r hr).imp_right fun hi hne => hissues (hi hne)
  · exact (h.compiled key f (hc key f hcached)).imp_right hissues

theorem Idle.issuing (h : w.Idle w') : w.Issuing w' := by
  have hv : ∀ key r, w.store.versions.row? key = some r → w'.store.versions.row? key = some r :=
    fun key r hr => by rwa [h.versions]
  exact ⟨hv, fun hw => hw.of_same hv h.sessions h.flows h.compiled⟩

/-- A session of a stored version may be kept. -/
theorem Chartered.keep (h : w.Chartered) {y : Session} {sessions : Collection SessionRow}
    (hy : y.flowVersion < 0x8000000000000000) (hi : w.store.Issues y.flowId y.flowVersion)
    (hrow : ∀ id, sessions.row? id = if id = y.id then some (.ofSession y) else w.store.row? id) :
    { w with store := { w.store with sessions } }.Chartered := by
  refine ⟨fun id r hr => ?_, h.flows, h.compiled⟩
  rw [Store.row?, hrow] at hr
  split at hr
  · obtain rfl := Option.some.inj hr
    have hn : (SessionRow.ofSession y).flowVersion = (y.flowVersion : Int) := by
      rw [SessionRow.ofSession, toSigned64_eq hy]
    rw [hn, ofSigned64_natCast]
    exact ⟨by omega, hi⟩
  · exact h.sessions id r hr

/-- **The answer to a question** that stays within what is stored. -/
theorem issuing_answer {a : Ask} (c : Circumstance) (hw : w.Chartered) (ha : a.Chartered w) :
    w.Issuing (w.answer c a).1 := by
  have hversions : ∀ key r, w.store.versions.row? key = some r →
      (w.answer c a).1.store.versions.row? key = some r := fun key r hr => version_answer hr c a
  refine ⟨hversions, fun _ => ?_⟩
  cases a with
  | createSession y =>
    simp only [answer]
    cases hs : w.store.createSession y with
    | error e => exact hw
    | ok s =>
      obtain ⟨-, sessions, rfl, -, hrow⟩ := Store.createSession_eq_ok hs
      exact hw.keep ha.1 ha.2 hrow
  | saveSession y =>
    simp only [answer]
    cases hs : w.store.saveSession y with
    | error e => exact hw
    | ok s =>
      obtain ⟨sessions, rfl, hrow⟩ := Store.saveSession_eq_ok hs
      exact hw.keep ha.1 ha.2 hrow
  | saveFlow d =>
    simp only [answer]
    cases hs : w.store.saveFlow d with
    | error e => exact hw
    | ok s =>
      obtain rfl := Store.saveFlow_eq_ok hs
      refine ⟨hw.sessions, fun id r hr => ?_, hw.compiled⟩
      simp only [change, Collection.row?_put] at hr
      split at hr
      · obtain rfl := Option.some.inj hr
        have hn : (FlowRow.ofDefinition d).version = toSigned64 d.version := by
          rw [FlowRow.ofDefinition]
        have hid : (FlowRow.ofDefinition d).id = d.id := by rw [FlowRow.ofDefinition]
        rw [hn, hid]
        exact ⟨toSigned64_lt d.version, ha⟩
      · exact hw.flows id r hr
  | saveVersion flow v g now =>
    simp only [answer] at hversions ⊢
    cases hs : w.store.saveVersion flow v g now with
    | error e => exact hw
    | ok s =>
      rw [hs] at hversions
      obtain ⟨-, versions, rfl, -⟩ := Store.saveVersion_eq_ok hs
      exact hw.of_same hversions rfl rfl fun _ _ => id
  | remember key f =>
    refine ⟨hw.sessions, hw.flows, fun key' f' hf' => ?_⟩
    by_cases he : key' = key
    · subst he
      simp only [answer, Cache.get?_set_self] at hf'
      obtain rfl := Option.some.inj hf'
      exact ha
    · simp only [answer, Cache.get?_set_of_ne he] at hf'
      exact hw.compiled key' f' hf'
  | deliver d => exact ⟨hw.sessions, hw.flows, hw.compiled⟩
  | _ =>
    refine (fun hquiet => hw.of_same hversions (alike_answer hquiet w c).sessions
      (alike_answer hquiet w c).flows fun key f hf => ?_) ?_
    · rwa [compiled_answer hquiet w c] at hf
    · trivial

/-- **What errands can rely on** that stay within what is stored. -/
theorem relies_issuing : Crew.Relies Passing Issuing Ask.Chartered Chartered where
  refl := .refl
  trans := .trans
  others h := h.toIdle.issuing
  answer c hw ha := issuing_answer c hw ha
  kept h hw := h.chartered hw

end World

theorem Ask.Local.chartered {a : Ask} (h : a.Local) (w : World) : a.Chartered w := by
  cases a with
  | createSession | saveSession | saveFlow | remember => exact h.elim
  | _ => trivial

/-! ### The registry -/

namespace Registry

variable {w : World} {flow : String} {v : Nat}

/-- A version that is looked up is answered by a flow of that version. -/
theorem version_chartered (hw : w.Chartered) :
    (version flow v).run.Always Issuing Ask.Chartered
      (fun o _ => ∀ f, o = .ok f → f.version = v) w := by
  unfold version
  refine always_lift (p := question (.cached (VersionRow.key flow v)))
    (always_question fun w₁ hb₁ => ⟨trivial, fun c => ?_⟩)
  simp only [answer]
  cases hf : w₁.compiled.get? (VersionRow.key flow v) with
  | some f =>
    obtain ⟨hkey, -⟩ := (hb₁.chartered hw).compiled _ f hf
    obtain ⟨-, hversion⟩ := VersionRow.key_injective hkey
    intro f' hf'
    obtain rfl := Except.ok.inj hf'
    exact hversion.symm
  | none =>
    refine always_tried (p := loadVersion flow v) fun w₂ hb₂ => ⟨trivial, fun c => ?_⟩
    show Either _ _ (w₂.store.loadVersion flow v) w₂
    cases hg : w₂.store.loadVersion flow v with
    | error e => rintro _ ⟨⟩
    | ok g =>
      have hstored : w₂.store.Issues flow v := by
        obtain ⟨-, r, hr, -⟩ := Store.loadVersion_eq_ok hg
        exact Option.isSome_iff_exists.mpr ⟨r, hr⟩
      refine always_pure (fun e _ f hf => by cases hf) fun f hf => ?_
      obtain ⟨rfl, rfl, -⟩ := Flow.compile_sound (compile_eq_ok hf)
      refine always_lift (p := remember f) fun w₃ hb₃ => ?_
      refine ⟨⟨rfl, hb₃.issues hstored⟩, fun c f' hf' => ?_⟩
      obtain rfl := Except.ok.inj hf'
      rfl

/-- What was read of a flow has a version that is stored, or none. -/
theorem issues_of_loadFlow {d : Definition} (hw : w.Chartered)
    (hd : w.store.loadFlow flow = .ok d) :
    d.id = flow ∧ d.version < 0x8000000000000000 ∧
      (d.version ≠ 0 → w.store.Issues flow d.version) := by
  obtain ⟨-, r, hr, hdef⟩ := Store.loadFlow_eq_ok hd
  obtain ⟨hid, hversion, -⟩ := FlowRow.toDefinition_eq_ok hdef
  obtain ⟨hlt, hissues⟩ := hw.flows flow r hr
  have hrow : r.id = flow := Collection.id_of_row? hr
  rw [hrow, ← hversion] at hissues
  refine ⟨hid.trans hrow, ?_, hissues⟩
  rw [hversion, ofSigned64]
  omega

/-- The live version of a flow is stored. -/
theorem published_chartered (hw : w.Chartered) :
    (published flow).run.Always Issuing Ask.Chartered (fun o w' => ∀ f, o = .ok f →
      f.version < 0x8000000000000000 ∧ w'.store.Issues flow f.version) w := by
  refine always_published (fun _ _ => trivial) (fun _ _ _ => nofun) fun w₁ d hb hd hv => ?_
  have hw₁ := hb.chartered hw
  obtain ⟨-, hlt, hissues⟩ := issues_of_loadFlow hw₁ hd
  refine (relies_issuing.reaches hw₁ (version_chartered hw₁)).imp_post ?_
  rintro o w₂ ⟨ho, hb₂, -⟩ f hf
  rw [ho f hf]
  exact ⟨hlt, hb₂.issues (hissues hv)⟩

/-- A flow is kept with a version that is stored, or none. -/
theorem saveFlow_chartered {d : Definition} {f : Unit → Procedure Definition}
    (hd : ∀ w₁, w.Issuing w₁ → Ask.Chartered w₁ (.saveFlow d))
    (hf : ∀ w₁, w.Issuing w₁ →
      (f ()).run.Always Issuing Ask.Chartered (fun _ _ => True) w₁) (hw : w.Chartered) :
    (saveFlow d >>= f).run.Always Issuing Ask.Chartered (fun _ _ => True) w := by
  refine always_tried (p := saveFlow d) fun w₁ hb => ⟨hd w₁ hb, fun c => ?_⟩
  have hb' := hb.trans (issuing_answer c (hb.chartered hw) (hd w₁ hb))
  cases ho : (w₁.answer c (.saveFlow d)).2 with
  | error e => exact trivial
  | ok u => exact hf _ hb'

/-- **All calls** stay within what is stored, whatever graphs are drafted. -/
theorem Call.chartered (c : Call) (hw : w.Chartered) :
    c.program.Always Issuing Ask.Chartered (fun _ _ => True) w := by
  have hnumber (n : Nat) (hn : n < 0x8000000000000000) : ofSigned64 (toSigned64 n) = n := by
    rw [toSigned64_eq hn, ofSigned64_natCast]
  cases c with
  | create name =>
    show (createFlow name).run.Always _ _ _ _
    unfold createFlow
    refine always_lift (p := now) fun w₁ hb₁ => ⟨trivial, fun _ => ?_⟩
    refine always_lift (p := fresh .flow) fun w₂ hb₂ => ⟨trivial, fun c => ?_⟩
    have hw₂ := (hb₁.trans hb₂).chartered hw
    refine saveFlow_chartered (fun w₃ _ hne => ?_) (fun _ _ => trivial)
      ((issuing_answer (a := .fresh .flow) c hw₂ trivial).chartered hw₂)
    exact absurd (hnumber 0 (by decide)) hne
  | draft flow g =>
    show (saveDraft flow g).run.Always _ _ _ _
    unfold saveDraft
    refine always_lift (p := now) fun w₁ hb₁ => ⟨trivial, fun _ => ?_⟩
    refine always_tried (p := loadFlow flow) fun w₂ hb₂ => ⟨trivial, fun _ => ?_⟩
    have hw₂ := (hb₁.trans hb₂).chartered hw
    show Either _ _ (w₂.store.loadFlow flow) w₂
    cases hd : w₂.store.loadFlow flow with
    | error e => exact trivial
    | ok d =>
      obtain ⟨rfl, hlt, hissues⟩ := issues_of_loadFlow hw₂ hd
      refine always_pure (fun _ _ => trivial) fun d' hd' => ?_
      obtain rfl := withDraft_eq_ok hd'
      refine saveFlow_chartered (fun w₃ hb₃ hne => ?_) (fun _ _ => trivial) hw₂
      rw [hnumber d.version hlt] at hne ⊢
      exact hb₃.issues (hissues hne)
  | publish flow =>
    show (Registry.publish flow).run.Always _ _ _ _
    unfold Registry.publish
    refine always_lift (p := now) fun w₁ hb₁ => ⟨trivial, fun _ => ?_⟩
    refine always_tried (p := loadFlow flow) fun w₂ hb₂ => ⟨trivial, fun _ => ?_⟩
    have hw₂ := (hb₁.trans hb₂).chartered hw
    show Either _ _ (w₂.store.loadFlow flow) w₂
    cases hd : w₂.store.loadFlow flow with
    | error e => exact trivial
    | ok d =>
      obtain ⟨rfl, hlt, hissues⟩ := issues_of_loadFlow hw₂ hd
      refine always_pure (fun _ _ => trivial) fun f hf => ?_
      obtain ⟨hid, hversion, -⟩ := Flow.compile_sound (compile_eq_ok hf)
      refine always_tried (p := saveVersion d.id (d.version + 1) d.draft w₁.clock) fun w₃ hb₃ =>
        ⟨trivial, fun c => ?_⟩
      have hw₃ := hb₃.chartered hw₂
      have hw₄ := (issuing_answer (a := .saveVersion d.id (d.version + 1) d.draft w₁.clock) c hw₃
        trivial).chartered hw₃
      simp only [answer] at hw₄ ⊢
      cases hs : w₃.store.saveVersion d.id (d.version + 1) d.draft w₁.clock with
      | error e => exact trivial
      | ok s =>
        rw [hs] at hw₄
        have hstored : s.Issues d.id (d.version + 1) := by
          obtain ⟨-, versions, rfl, -, hrow⟩ := Store.saveVersion_eq_ok hs
          exact Option.isSome_iff_exists.mpr ⟨_, (hrow _).trans (if_pos rfl)⟩
        have hissued {w₅ : World} (hb₅ : Issuing { w₃ with store := s } w₅) :
            w₅.store.Issues d.id (d.version + 1) := hb₅.issues hstored
        refine saveFlow_chartered (fun w₅ hb₅ hne => ?_) (fun w₅ hb₅ => ?_) hw₄
        · by_cases hsmall : d.version + 1 < 0x8000000000000000
          · rw [hnumber _ hsmall]
            exact hissued hb₅
          · -- the number after the last one that fits the column is kept as a negative one
            have hlast : d.version + 1 = 0x8000000000000000 := by omega
            rw [hlast] at hne
            have hzero : ofSigned64 (toSigned64 0x8000000000000000) = 0 := by decide
            exact absurd hzero hne
        · refine always_lift (p := remember f) fun w₆ hb₆ => ⟨⟨rfl, ?_⟩, fun _ => trivial⟩
          rw [hid, hversion]
          exact hissued (hb₅.trans hb₆)
  | published flow => exact (published_chartered hw).imp_post fun _ _ _ => trivial
  | version flow v => exact (version_chartered hw).imp_post fun _ _ _ => trivial

end Registry

/-! ### Sessions -/

/-- The session runs on a version that is stored. -/
def Session.Chartered (s : Session) (w : World) : Prop :=
  w.Chartered ∧ s.flowVersion < 0x8000000000000000 ∧ w.store.Issues s.flowId s.flowVersion

namespace Command

variable {w : World}

theorem lasts_chartered {P : Prop} {flow : String} {v : Nat} :
    Lasts Issuing fun w => w.Chartered ∧ P ∧ w.store.Issues flow v :=
  relies_issuing.lasts (fun w _ ha => ha.chartered w)
    (fun hb h => ⟨hb.chartered h.1, h.2.1, hb.issues h.2.2⟩) (·.1)

/-- A turn does not go over to another version. -/
theorem Scene.conserves_chartered (sc : Turn.Scene) :
    sc.Conserves Issuing (fun _ => True) (fun _ => True) Session.Chartered where
  clock _ _ := trivial
  session _ := lasts_chartered
  letting := lasts_true _
  live _ _ _ := trivial
  node {s w st o spoken} h _ _ := by
    cases o.transition.route sc.flow st.node <;> exact h
  halt _ h _ := h
  stamp h _ := h
  saved circ h _ _ :=
    have hb := issuing_answer (a := .saveSession _) circ h.1 h.2
    ⟨hb.chartered h.1, h.2.1, hb.issues h.2.2⟩

/-- No command goes over to a version that is not stored. -/
theorem conserves_chartered (settings : Settings) (sid : String) (c : Command) :
    c.Conserves settings sid Issuing Ask.Chartered (fun _ => True) (fun _ => True)
      Session.Chartered Session.Chartered
      (fun flow f w => w.Chartered ∧ f.version < 0x8000000000000000 ∧
        w.store.Issues flow f.version)
      (fun _ => Session.Chartered) where
  clock _ _ := trivial
  letting := lasts_true _
  loaded _ := lasts_chartered
  kept _ := lasts_chartered
  found _ _ := lasts_chartered
  load _ := trivial
  locals w _ ha := ha.chartered w
  save h _ := h.2
  saveTurn h _ := h.2
  version {w s} hs := by
    obtain ⟨⟨hw, hlt, hissues⟩, -⟩ := hs
    refine (relies_issuing.reaches hw (Registry.version_chartered hw)).imp_post ?_
    rintro o w' ⟨ho, hb, hw'⟩
    refine ⟨fun f hf => ?_, ⟨hw', hlt, hb.issues hissues⟩, trivial⟩
    rw [ho f hf]
    exact ⟨hw', hlt, hb.issues hissues⟩
  live _ {w s} hs := by
    obtain ⟨⟨hw, hlt, hissues⟩, -⟩ := hs
    refine (relies_issuing.reaches hw (Registry.published_chartered hw)).imp_post ?_
    rintro o w' ⟨ho, hb, hw'⟩
    exact ⟨fun f hf => ⟨hw', ho f hf⟩, ⟨hw', hlt, hb.issues hissues⟩, trivial⟩
  free _ := trivial
  keep h := h
  record h _ _ _ := h
  close _ _ _ _ h _ := h
  assign _ _ _ _ _ h _ := h
  back h := h
  saved circ h _ _ :=
    have hb := issuing_answer (a := .saveSession _) circ h.1 h.2
    ⟨hb.chartered h.1, h.2.1, hb.issues h.2.2⟩
  foundSaved circ hf h :=
    have hb := issuing_answer (a := .saveSession _) circ h.1 h.2
    ⟨hb.chartered hf.1, hf.2.1, hb.issues hf.2.2⟩
  begins _ hf := hf
  scene f := Scene.conserves_chartered ⟨sid, f, settings⟩

theorem handle_chartered (settings : Settings) (sid : String) (c : Command) (hw : w.Chartered) :
    (handle settings sid c).run.Always Issuing Ask.Chartered (fun _ _ => True) w := by
  refine handle_conserves (conserves_chartered settings sid c) fun w₁ s hb hs _ => ?_
  have hw₁ := hb.chartered hw
  obtain ⟨-, r, hr, hread⟩ := Store.loadSession_eq_ok hs
  obtain ⟨-, hflow, hversion, -⟩ := SessionRow.toSession_eq_ok hread
  obtain ⟨hlt, hissues⟩ := hw₁.sessions _ r hr
  rw [← hflow, ← hversion] at hissues
  refine ⟨⟨hw₁, ?_, hissues⟩, trivial⟩
  rw [hversion, ofSigned64]
  omega

/-- A session is opened on a version that is stored. -/
theorem openSession_chartered (flow : String) (hw : w.Chartered) :
    (openSession flow).run.Always Issuing Ask.Chartered (fun _ _ => True) w := by
  unfold openSession
  have hlive : (Registry.published flow).run.Always _ _ _ w := Registry.published_chartered hw
  refine always_tried ((relies_issuing.reaches hw hlive).imp_post ?_)
  rintro (e | f) w₁ ⟨ho, -, hw₁⟩
  · exact trivial
  obtain ⟨hlt, hissues⟩ := ho f rfl
  refine always_lift (p := fresh .session) fun w₂ hb₂ => ⟨trivial, fun c => ?_⟩
  have hfresh := issuing_answer (a := .fresh .session) c (hb₂.chartered hw₁) trivial
  refine always_lift (p := now) fun w₃ hb₃ => ⟨trivial, fun _ => ?_⟩
  refine always_tried (p := createSession _) fun w₄ hb₄ => ⟨⟨hlt, ?_⟩, fun c' => ?_⟩
  · exact hb₄.issues (hb₃.issues (hfresh.issues (hb₂.issues hissues)))
  · cases (w₄.answer c' (.createSession _)).2 <;> exact trivial

end Command

/-- **All errands** stay within what is stored. -/
theorem Errand.chartered (settings : Settings) (e : Errand) {w : World} (hw : w.Chartered) :
    (e.program settings).Always Issuing Ask.Chartered (fun _ _ => True) w := by
  cases e with
  | call c => exact c.chartered hw
  | opening flow => exact Command.openSession_chartered flow hw
  | order o => exact Command.handle_chartered settings o.session o.command hw

theorem chartered_new (now : Millis) : Chartered (.new .empty now) := ⟨nofun, nofun, nofun⟩

/-- **Wherever errands have come**, everything has versions that are stored, and they ask only for
what stays within that. -/
theorem Errands.Run.sound_chartered {settings : Settings} {may : Errand → Prop} {now : Millis}
    {m : Errands} (h : Run settings may (.new now) m) :
    Crew.Sound (fun (e : Errand) (p : Program (Outcome e.Value)) w =>
      p.Always Issuing Ask.Chartered (fun _ _ => True) w) Chartered m := by
  have hconduct (e : Errand) : Crew.Conduct Issuing Ask.Chartered
      fun (p : Program (Outcome e.Value)) w =>
        p.Always Issuing Ask.Chartered (fun _ _ => True) w :=
    relies_issuing.always fun _ _ => trivial
  refine (Crew.Course.onward relies_issuing hconduct (fun hw hj => ?_)
    (Crew.sound_nil (chartered_new now)) h).2
  obtain ⟨-, rfl⟩ := hj
  exact Errand.chartered settings _ hw

end Dialogue
