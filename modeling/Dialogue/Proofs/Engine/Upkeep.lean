import Dialogue.Proofs.Session.Places

/-! # What the engine keeps up

A sound world has a live version for every published flow, no compiled flows at hand but stored
versions, and sessions that point to nodes of their versions. Versions are only ever added, so what
held of them before still holds. A question is safe if its answer leaves a sound world sound.

* `sound_answer`: the answer to a safe question.
* `createFlow_safe`, `saveDraft_safe`, `publish_safe`, `openSession_safe`, `handle_safe`: whatever
  the engine does alone, it asks safe questions only. -/

namespace Dialogue

open Program Procedure World

/-! ### Stores that grow -/

/-- The later store has the flows and the versions of the earlier one. -/
structure Store.Grows (s s' : Store) : Prop where
  flows : ∀ id, (s.flows.row? id).isSome → (s'.flows.row? id).isSome
  versions : ∀ flow v f, s.versionFlow flow v = .ok f → s'.versionFlow flow v = .ok f

/-- The row is that of a flow that is read back, and its live version is stored. -/
def FlowRow.Kept (s : Store) (r : FlowRow) : Prop :=
  ∃ d, r = .ofDefinition d ∧ d.ReadsBack ∧ (ofSigned64 (toSigned64 d.version) ≠ 0 →
    ∃ f, s.versionFlow d.id (ofSigned64 (toSigned64 d.version)) = .ok f)

namespace Store

variable {s s' : Store} {flow : String} {f : Flow} {d : Definition}

theorem Grows.of_eq (hr : s'.registered = s.registered) (hf : s'.flows = s.flows)
    (hv : s'.versions = s.versions) : s.Grows s' where
  flows id h := by rwa [hf]
  versions flow v f h := (versionFlow_congr hr hv).trans h

theorem Grows.trans {s'' : Store} (h : s.Grows s') (h' : s'.Grows s'') : s.Grows s'' :=
  ⟨fun id hid => h'.flows id (h.flows id hid),
    fun flow v f hf => h'.versions flow v f (h.versions flow v f hf)⟩

theorem Grows.keeps (h : s.Grows s') (hf : s.Keeps f) : s'.Keeps f :=
  ⟨h.flows _ hf.flow, h.versions _ _ _ hf.version, hf.small⟩

theorem Grows.placed (h : s.Grows s') {r : SessionRow} (hr : r.Placed s) : r.Placed s' := by
  obtain ⟨f, halt, hf, hplaced⟩ := hr
  exact ⟨f, halt, h.keeps hf, hplaced⟩

theorem Grows.kept (h : s.Grows s') {r : FlowRow} (hr : r.Kept s) : r.Kept s' := by
  obtain ⟨d, rfl, hd, hlive⟩ := hr
  refine ⟨d, rfl, hd, fun hv => ?_⟩
  obtain ⟨f, hf⟩ := hlive hv
  exact ⟨f, h.versions _ _ _ hf⟩

theorem Grows.backs (h : s.Grows s') {c : Cache Flow} (hc : s.Backs c) : s'.Backs c := by
  intro key f hf
  obtain ⟨flow, v, hk, hv⟩ := hc key f hf
  exact ⟨flow, v, hk, h.versions _ _ _ hv⟩

theorem grows_saveFlow (h : s.saveFlow d = .ok s') : s.Grows s' := by
  obtain rfl := saveFlow_eq_ok h
  refine ⟨fun id hid => ?_, fun flow v f hf => hf⟩
  dsimp only
  rw [Collection.row?_put]
  split
  · rfl
  · exact hid

/-- A new version leaves the others as they are. -/
theorem grows_saveVersion {v : Nat} {g : Graph} {now : Millis}
    (h : s.saveVersion flow v g now = .ok s') : s.Grows s' := by
  obtain ⟨-, versions, rfl, hnone, hrow⟩ := saveVersion_eq_ok h
  refine ⟨fun _ hid => hid, fun flow' v' f hf => ?_⟩
  obtain ⟨g', hg', hc⟩ := versionFlow_eq_ok hf
  obtain ⟨hreg, r, hr, hgraph⟩ := loadVersion_eq_ok hg'
  have hne : VersionRow.key flow' v' ≠ VersionRow.key flow v := by
    intro he
    rw [he, hnone] at hr
    cases hr
  have hload : loadVersion { s with versions } flow' v' = .ok g' := by
    have hr' := (hrow _).trans ((if_neg hne).trans hr)
    rw [loadVersion_eq (s := { s with versions }) hreg hr', hgraph]
  rw [versionFlow_eq hload, hc]
  rfl

/-- A graph that compiles is the version as which it was kept. -/
theorem versionFlow_saveVersion {v : Nat} {g : Graph} {now : Millis}
    (h : s.saveVersion flow v g now = .ok s') (hg : g.ReadsBack)
    (hc : Flow.compile flow v g = .ok f) : s'.versionFlow flow v = .ok f := by
  obtain ⟨hreg, versions, rfl, -, hrow⟩ := saveVersion_eq_ok h
  have hload : loadVersion { s with versions } flow v = .ok g := by
    have hr := (hrow _).trans (if_pos rfl)
    rw [loadVersion_eq (s := { s with versions }) hreg hr, toGraph_ofGraph hg]
  rw [versionFlow_eq hload, hc]
  rfl

end Store

/-! ### Sound worlds -/

/-- Flows are read back and their live versions are stored, compiled flows at hand are stored
versions, and sessions point to nodes of their versions. -/
structure World.Sound (w : World) : Prop where
  registered : w.store.registered = true
  flows : ∀ id r, w.store.flows.row? id = some r → r.Kept w.store
  backs : w.store.Backs w.compiled
  sessions : ∀ id r, w.store.row? id = some r → r.Placed w.store

/-- The question leaves a sound world sound. -/
def Ask.Safe (w : World) : Ask → Prop
  | .saveFlow d => (FlowRow.ofDefinition d).Kept w.store
  | .createSession y | .saveSession y => (SessionRow.ofSession y).Placed w.store
  | .remember key f => w.store.Remembers key f
  | _ => True

namespace World

variable {w w' : World}

/-- A world with the same rows is sound, whatever was forgotten. -/
theorem Sound.of_same (h : w.Sound) (hr : w'.store.registered = w.store.registered)
    (hf : w'.store.flows = w.store.flows) (hv : w'.store.versions = w.store.versions)
    (hs : w'.store.sessions = w.store.sessions)
    (hc : ∀ key f, w'.compiled.get? key = some f → w.compiled.get? key = some f) : w'.Sound := by
  have hgrows : w.store.Grows w'.store := .of_eq hr hf hv
  refine ⟨hr.trans h.registered, fun id r hrow => ?_, fun key f hk => ?_, fun id r hrow => ?_⟩
  · rw [hf] at hrow
    exact hgrows.kept (h.flows id r hrow)
  · exact hgrows.backs h.backs key f (hc key f hk)
  · rw [Store.row?, hs] at hrow
    exact hgrows.placed (h.sessions id r hrow)

theorem Idle.grows (hb : w.Idle w') : w.store.Grows w'.store :=
  .of_eq hb.registered hb.flows hb.versions

theorem Idle.sound (hb : w.Idle w') (h : w.Sound) : w'.Sound :=
  h.of_same hb.registered hb.flows hb.versions hb.sessions hb.compiled

theorem Sound.quiet {a : Ask} (h : w.Sound) (ha : a.Quiet) (c : Circumstance) :
    (w.answer c a).1.Sound := by
  have hw := alike_answer ha w c
  refine h.of_same hw.registered hw.flows hw.versions hw.sessions fun key f hf => ?_
  rwa [compiled_answer ha w c] at hf

/-- A sound world in which a session was kept that points to nodes of its version. -/
theorem Sound.keep_session (h : w.Sound) {y : Session} {sessions : Collection SessionRow}
    (hy : (SessionRow.ofSession y).Placed w.store)
    (hrow : ∀ id, sessions.row? id =
      if id = y.id then some (.ofSession y) else w.store.row? id) :
    Sound { w with store := { w.store with sessions } } := by
  have hgrows : w.store.Grows { w.store with sessions } := .of_eq rfl rfl rfl
  refine ⟨h.registered, fun id r hr => hgrows.kept (h.flows id r hr), hgrows.backs h.backs,
    fun id r hr => hgrows.placed ?_⟩
  rw [Store.row?, hrow] at hr
  split at hr
  · cases hr
    exact hy
  · exact h.sessions id r hr

/-- **The answer to a safe question** leaves a sound world sound. -/
theorem sound_answer {a : Ask} (h : w.Sound) (ha : a.Safe w) (c : Circumstance) :
    (w.answer c a).1.Sound := by
  cases a with
  | saveFlow d =>
    simp only [answer]
    cases hs : w.store.saveFlow d with
    | error e => exact h
    | ok s' =>
      have hgrows := Store.grows_saveFlow hs
      obtain rfl := Store.saveFlow_eq_ok hs
      refine ⟨h.registered, fun id r hr => ?_, hgrows.backs h.backs, fun id r hr => ?_⟩
      · refine hgrows.kept ?_
        simp only [change] at hr
        rw [Collection.row?_put] at hr
        split at hr
        · cases hr
          exact ha
        · exact h.flows id r hr
      · exact hgrows.placed (h.sessions id r hr)
  | saveVersion flow v g now =>
    simp only [answer]
    cases hs : w.store.saveVersion flow v g now with
    | error e => exact h
    | ok s' =>
      have hgrows := Store.grows_saveVersion hs
      obtain ⟨-, versions, rfl, -⟩ := Store.saveVersion_eq_ok hs
      exact ⟨h.registered, fun id r hr => hgrows.kept (h.flows id r hr), hgrows.backs h.backs,
        fun id r hr => hgrows.placed (h.sessions id r hr)⟩
  | createSession y =>
    simp only [answer]
    cases hs : w.store.createSession y with
    | error e => exact h
    | ok s' =>
      obtain ⟨-, sessions, rfl, -, hrow⟩ := Store.createSession_eq_ok hs
      exact h.keep_session ha hrow
  | saveSession y =>
    simp only [answer]
    cases hs : w.store.saveSession y with
    | error e => exact h
    | ok s' =>
      obtain ⟨sessions, rfl, hrow⟩ := Store.saveSession_eq_ok hs
      exact h.keep_session ha hrow
  | remember key f => exact ⟨h.registered, h.flows, h.backs.set ha, h.sessions⟩
  | deliver d => exact ⟨h.registered, h.flows, h.backs, h.sessions⟩
  | _ =>
    refine h.quiet ?_ c
    trivial

/-- What a sound world has of a flow. -/
theorem Sound.loadFlow (h : w.Sound) {flow : String} {d : Definition}
    (hd : w.store.loadFlow flow = .ok d) :
    d.id = flow ∧ d.ReadsBack ∧ d.version < 0x8000000000000000 ∧
      (d.version ≠ 0 → ∃ f, w.store.versionFlow d.id d.version = .ok f) := by
  obtain ⟨-, r, hr, hdef⟩ := Store.loadFlow_eq_ok hd
  have hid : r.id = flow := Collection.id_of_row? hr
  obtain ⟨d', rfl, hback, hlive⟩ := h.flows flow r hr
  rw [FlowRow.toDefinition_ofDefinition hback] at hdef
  cases hdef
  refine ⟨hid, ⟨hback.1, hback.2⟩, ?_⟩
  dsimp only
  exact ⟨ofSigned64_lt d'.version, hlive⟩

/-- The live versions of a sound world are stored versions. -/
theorem Sound.keepsLive (h : w.Sound) : w.store.KeepsLive := by
  intro flow f hf
  obtain ⟨d, hd, hv, hversion⟩ := Store.liveFlow_eq_ok hf
  obtain ⟨hid, hfv, -⟩ := Store.versionFlow_sound hversion
  obtain ⟨-, r, hr, -⟩ := Store.loadFlow_eq_ok hd
  refine ⟨by rw [hid, hr]; rfl, by rw [hid, hfv]; exact hversion, ?_⟩
  rw [hfv]
  exact (h.loadFlow hd).2.2.1

theorem Sound.shelves (h : w.Sound) : Shelves w.store w := ⟨h.registered, rfl, rfl, rfl, h.backs⟩

end World

/-! ### What the engine does -/

variable {w : World}

theorem Ask.Allowed.shelves {a : Ask} {sid : String} {writes : SessionRow → Session → Prop}
    {s : Store} (ha : a.Allowed sid writes s.Remembers w) (h : Shelves s w) (c : Circumstance) :
    Shelves s (w.answer c a).1 := by
  have hB := ground_idle s sid
  cases a with
  | saveSession y =>
    simp only [answer]
    cases hs : w.store.saveSession y with
    | error e => exact h
    | ok s' =>
      obtain ⟨sessions, rfl, -⟩ := Store.saveSession_eq_ok hs
      exact hB.saved h
  | remember key f => exact hB.remembered ha h
  | deliver d => exact hB.told h
  | createSession | saveFlow | saveVersion => exact ha.elim
  | _ =>
    refine hB.quiet w c ?_ h
    trivial

/-- What is allowed is safe if only sessions are kept that point to nodes of their versions. -/
theorem World.Sound.always_safe {α : Type} (h : w.Sound) {sid : String}
    {writes : SessionRow → Session → Prop} {p : Program α} {post : α → World → Prop}
    (hp : p.Always Idle (Ask.Allowed sid writes w.store.Remembers) post w)
    (hwrites : ∀ r y, writes r y → (SessionRow.ofSession y).Placed w.store) :
    p.Always Idle Ask.Safe (fun a w' => post a w' ∧ Shelves w.store w') w := by
  have hkept := hp.and (I := Shelves w.store) (fun _ _ hb => (stable_shelves w.store).others hb)
    (fun _ _ c ha h => ha.shelves h c) h.shelves
  refine hkept.imp (fun w' a ⟨ha, hw'⟩ => ?_) fun _ _ h => h
  have hgrows : w.store.Grows w'.store := .of_eq hw'.same hw'.flows hw'.versions
  cases a with
  | saveSession y =>
    obtain ⟨-, r, -, hy⟩ := ha
    exact hgrows.placed (hwrites r y hy)
  | remember key f =>
    obtain ⟨flow, v, hk, hv⟩ := ha
    exact ⟨flow, v, hk, hgrows.versions _ _ _ hv⟩
  | createSession | saveFlow | saveVersion => exact ha.elim
  | _ => exact trivial

namespace Registry

/-- A flow is kept whose live version is stored. -/
theorem saveFlow_safe {d : Definition} (hd : (FlowRow.ofDefinition d).Kept w.store) :
    (saveFlow d).run.Always Idle Ask.Safe
      (Either (fun _ w' => w.store.Grows w'.store) fun _ _ => True) w := by
  refine always_question fun w₁ hb => ⟨hb.grows.kept hd, fun c => ?_⟩
  simp only [answer]
  cases hs : w₁.store.saveFlow d with
  | error e => exact trivial
  | ok s => exact hb.grows.trans (Store.grows_saveFlow hs)

/-- A graph that compiles is kept as a version. -/
theorem saveVersion_safe {flow : String} {v : Nat} {g : Graph} {f : Flow} (now : Millis)
    (hg : g.ReadsBack) (hc : Flow.compile flow v g = .ok f) :
    (saveVersion flow v g now).run.Always Idle Ask.Safe
      (Either (fun _ w' => w'.store.versionFlow flow v = .ok f) fun _ _ => True) w := by
  refine always_question fun w₁ _ => ⟨trivial, fun c => ?_⟩
  simp only [answer]
  cases hs : w₁.store.saveVersion flow v g now with
  | error e => exact trivial
  | ok s => exact Store.versionFlow_saveVersion hs hg hc

/-- A new flow has no live version. -/
theorem kept_new (s : Store) (id name : String) (now : Millis) :
    (FlowRow.ofDefinition ⟨id, name, .initial, none, 0, now, now⟩).Kept s := by
  refine ⟨_, rfl, ⟨Graph.readsBack_initial, nofun⟩, ?_⟩
  dsimp only
  rw [toSigned64_eq (by decide), ofSigned64_natCast]
  exact fun hv => absurd rfl hv

theorem createFlow_safe (name : String) (w : World) :
    (createFlow name).run.Always Idle Ask.Safe (fun _ _ => True) w := by
  unfold createFlow
  refine always_lift (p := Program.now) fun w₁ _ => ⟨trivial, fun c₁ => ?_⟩
  refine always_lift (p := fresh .flow) fun w₂ _ => ⟨trivial, fun c₂ => ?_⟩
  refine always_tried ((saveFlow_safe (kept_new _ _ name _)).imp_post ?_)
  rintro (e | u) w' _ <;> exact trivial

/-- A flow with another draft has the same live version. -/
theorem kept_withDraft {d : Definition} {draft : Graph} (hdraft : draft.ReadsBack)
    (hback : d.ReadsBack) (hsmall : d.version < 0x8000000000000000)
    (hlive : d.version ≠ 0 → ∃ f, w.store.versionFlow d.id d.version = .ok f) (now : Millis) :
    (FlowRow.ofDefinition { d with draft, updateTime := now }).Kept w.store := by
  refine ⟨_, rfl, ⟨hdraft, hback.2⟩, ?_⟩
  dsimp only
  rw [toSigned64_eq hsmall, ofSigned64_natCast]
  exact hlive

/-- Another draft leaves the live version of a flow as it is. -/
theorem saveDraft_safe {draft : Graph} (flow : String) (hdraft : draft.ReadsBack) (hw : w.Sound) :
    (saveDraft flow draft).run.Always Idle Ask.Safe (fun _ _ => True) w := by
  unfold saveDraft
  refine always_lift (p := Program.now) fun w₁ hb => ⟨trivial, fun c₁ => ?_⟩
  have hw₁ := hb.sound hw
  refine always_tried (p := loadFlow flow) fun w₂ hb => ⟨trivial, fun c₂ => ?_⟩
  have hw₂ : w₂.Sound := hb.sound hw₁
  show Always _ _ _ (.done (w₂.store.loadFlow flow)) w₂
  cases hd : w₂.store.loadFlow flow with
  | error e => exact trivial
  | ok d =>
    obtain ⟨-, hback, hsmall, hlive⟩ := hw₂.loadFlow hd
    refine always_tried (p := ExceptT.mk (pure (withDraft d draft _))) ?_
    show Always _ _ _ (.done (withDraft d draft _)) w₂
    cases hd' : withDraft d draft (w₁.answer c₁ .now).2.millis with
    | error e => exact trivial
    | ok d' =>
      obtain rfl := withDraft_eq_ok hd'
      have hkept := kept_withDraft hdraft hback hsmall hlive (w₁.answer c₁ .now).2.millis
      refine always_tried ((saveFlow_safe hkept).imp_post ?_)
      rintro (e | u) w' _ <;> exact trivial

/-- A flow whose next live version is stored already. -/
theorem kept_published {s : Store} {d : Definition} {f : Flow} (hback : d.ReadsBack)
    (hsmall : d.version < 0x8000000000000000)
    (hf : s.versionFlow d.id (d.version + 1) = .ok f) (now : Millis) :
    (FlowRow.ofDefinition { d with
      published := some d.draft, version := d.version + 1, updateTime := now }).Kept s := by
  refine ⟨_, rfl, ⟨hback.1, ?_⟩, fun hv => ⟨f, ?_⟩⟩
  · rintro _ ⟨⟩
    exact hback.1
  · dsimp only at hv ⊢
    -- the last number that fits the column has no successor there
    have hlt : d.version + 1 < 0x8000000000000000 := by
      refine Nat.lt_of_le_of_ne hsmall fun he => hv ?_
      rw [he]
      decide
    rw [toSigned64_eq hlt, ofSigned64_natCast]
    exact hf

/-- A draft that compiles is stored before it goes live. -/
theorem publish_safe (flow : String) (hw : w.Sound) :
    (publish flow).run.Always Idle Ask.Safe (fun _ _ => True) w := by
  unfold publish
  refine always_lift (p := Program.now) fun w₁ hb => ⟨trivial, fun c₁ => ?_⟩
  have hw₁ := hb.sound hw
  refine always_tried (p := loadFlow flow) fun w₂ hb => ⟨trivial, fun c₂ => ?_⟩
  have hw₂ : w₂.Sound := hb.sound hw₁
  show Always _ _ _ (.done (w₂.store.loadFlow flow)) w₂
  cases hd : w₂.store.loadFlow flow with
  | error e => exact trivial
  | ok d =>
    obtain ⟨rfl, hback, hsmall, -⟩ := hw₂.loadFlow hd
    refine always_tried (p := compile d.id (d.version + 1) d.draft) ?_
    show Always _ _ _
      (.done ((Flow.compile d.id (d.version + 1) d.draft).mapError Flow.Defect.toFailure)) w₂
    cases hc : Flow.compile d.id (d.version + 1) d.draft with
    | error e => exact trivial
    | ok f =>
      refine always_tried ((saveVersion_safe _ hback.1 hc).imp_post ?_)
      rintro (e | u) w₃ hf
      · exact trivial
      have hkept := kept_published hback hsmall hf (w₁.answer c₁ .now).2.millis
      refine always_tried ((saveFlow_safe hkept).imp_post ?_)
      rintro (e | u) w₄ hgrows
      · exact trivial
      refine always_lift (p := remember f) fun w₅ hb => ⟨?_, fun c => trivial⟩
      exact .of_versionFlow (hb.grows.versions _ _ _ (hgrows.versions _ _ _ hf))

end Registry

namespace Command

/-- A new session runs on a stored version. -/
theorem placed_new {s : Store} {f : Flow} (hf : s.Keeps f) (id : String) (now : Millis) :
    (SessionRow.ofSession (.new id f.id f.version now)).Placed s :=
  Session.Placed.row ⟨rfl, rfl, .none f⟩ hf

theorem createSession_safe {y : Session} (hy : (SessionRow.ofSession y).Placed w.store) :
    (createSession y).run.Always Idle Ask.Safe (fun _ _ => True) w :=
  always_question fun _ hb => ⟨hb.grows.placed hy, fun _ => trivial⟩

theorem openSession_safe (flow : String) (hw : w.Sound) :
    (openSession flow).run.Always Idle Ask.Safe (fun _ _ => True) w := by
  unfold openSession
  have hlive : (Registry.published flow).run.Always Idle
      (Ask.Allowed "" (fun _ _ => False) w.store.Remembers) _ w :=
    (Library.serves_ofStore w.store).live (stable_shelves w.store) (fun _ h => h) flow hw.shelves
  have hsafe := hw.always_safe hlive fun _ _ h => h.elim
  refine always_tried (hsafe.imp_post ?_)
  rintro (e | f) w₁ ⟨⟨hf, -⟩, hw₁⟩
  · exact trivial
  have hf : w.store.liveFlow flow = .ok f := hf.symm
  obtain rfl := Store.liveFlow_id hf
  have hgrows : w.store.Grows w₁.store := .of_eq hw₁.same hw₁.flows hw₁.versions
  have hkeeps := hgrows.keeps (hw.keepsLive f.id f hf)
  refine always_lift (p := fresh .session) fun w₂ hb₂ => ⟨trivial, fun c₂ => ?_⟩
  refine always_lift (p := Program.now) fun w₃ hb₃ => ⟨trivial, fun c₃ => ?_⟩
  have hplaced := placed_new (hb₃.grows.keeps (hb₂.grows.keeps hkeeps))
  refine always_tried ((createSession_safe (hplaced _ _)).imp_post ?_)
  rintro (e | u) w₄ _ <;> exact trivial

/-- A command to a session that is stored. -/
theorem course_always (settings : Settings) {sid : String} {r : SessionRow} (c : Command)
    (hw : w.Sound) (hr : w.store.row? sid = some r) :
    (handle settings sid c).run.Always Idle
      (Ask.Allowed sid (Writes settings (.ofStore w.store) sid c r) w.store.Remembers)
      (Came settings (.ofStore w.store) Idle (Shelves w.store) sid c r w.deliveries) w :=
  handle_always (ground_idle w.store sid) (Library.serves_ofStore w.store) c ⟨hw.shelves, hr⟩
    fun _ => rfl

/-- A command keeps sessions only that point to nodes of their versions. -/
theorem handle_safe (settings : Settings) (sid : String) (c : Command) (hw : w.Sound) :
    (handle settings sid c).run.Always Idle Ask.Safe (fun _ _ => True) w := by
  cases hr : w.store.row? sid with
  | some r =>
    have hsafe := hw.always_safe (course_always settings c hw hr) fun r' y hy =>
      hy.placed (hw.sessions sid r hr) hw.keepsLive
    exact hsafe.imp_post fun _ _ _ => trivial
  | none =>
    refine always_tried (p := loadSession sid) fun w₁ hb => ⟨trivial, fun circ => ?_⟩
    show Either _ _ (w₁.store.loadSession sid) w₁
    have hr₁ : w₁.store.row? sid = none := by rw [Store.row?, hb.sessions, ← Store.row?, hr]
    rw [Store.loadSession_eq_of_none (hb.sound hw).registered hr₁]
    exact trivial

end Command

end Dialogue
