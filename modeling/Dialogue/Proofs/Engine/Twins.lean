import Dialogue.Proofs.Engine.Charters
import Dialogue.Proofs.Program.Concert

/-! # Twins

A world is spared as far as some versions go if these are stored as before, nothing else came in
hand for them, and all sessions, schedules and counts are the same. While flows are drafted and
published a world is spared, as far as versions go that are stored, and some of them may be
forgotten. If none is forgotten the worlds are twins: what asks for no other version goes on alike
in both.

* `Twin.answer`: what twins are asked alike they answer alike, and stay twins.
* `Always.twin`: so programs go on alike in twins.
* `Spared.exists_twin`: a spared world is the twin of one in which the versions are forgotten.
* `Editing.spared`: drafts and publications spare a world. -/

namespace Dialogue

open Program Procedure World

/-- The versions of those keys are stored in both worlds alike, but may be forgotten in the second
one. The rest of what commands ask is the same. -/
structure World.Spared (keys : String → Prop) (w v : World) : Prop where
  registered : v.store.registered = w.store.registered
  sessions : v.store.sessions = w.store.sessions
  schedules : v.store.schedules = w.store.schedules
  deliveries : v.deliveries = w.deliveries
  counts : v.flows = w.flows ∧ v.sessions = w.sessions ∧ v.messages = w.messages
  versions : ∀ flow n, keys (VersionRow.key flow n) →
    v.store.loadVersion flow n = w.store.loadVersion flow n
  compiled : ∀ key f, keys key → v.compiled.get? key = some f → w.compiled.get? key = some f

/-- No version of those keys is forgotten. -/
structure World.Twin (keys : String → Prop) (w v : World) : Prop extends w.Spared keys v where
  kept : ∀ key, keys key → v.compiled.get? key = none → w.compiled.get? key = none

/-- The question concerns no versions but those of the keys. -/
def Ask.Confined (keys : String → Prop) : Ask → Prop
  | .cached key | .remember key _ => keys key
  | .loadVersion flow v => keys (VersionRow.key flow v)
  | .createSession _ | .loadFlow _ | .saveFlow _ | .saveVersion _ _ _ _ => False
  | _ => True

/-- The world in which the version of the key is forgotten. -/
def World.forgetting (w : World) (key : String) : World :=
  { w with compiled := w.compiled.remove key }

/-- The same world, in which another number of messages was given identities. -/
def World.Numbered (w w' : World) : Prop := ∃ messages, w' = { w with messages }

namespace World

variable {keys : String → Prop} {u v w : World}

/-! ### Twins -/

theorem Spared.refl (keys : String → Prop) (w : World) : w.Spared keys w :=
  ⟨rfl, rfl, rfl, rfl, ⟨rfl, rfl, rfl⟩, fun _ _ _ => rfl, fun _ _ _ => id⟩

theorem Spared.trans (h : u.Spared keys v) (h' : v.Spared keys w) : u.Spared keys w where
  registered := h'.registered.trans h.registered
  sessions := h'.sessions.trans h.sessions
  schedules := h'.schedules.trans h.schedules
  deliveries := h'.deliveries.trans h.deliveries
  counts := ⟨h'.counts.1.trans h.counts.1, h'.counts.2.1.trans h.counts.2.1,
    h'.counts.2.2.trans h.counts.2.2⟩
  versions flow n hk := (h'.versions flow n hk).trans (h.versions flow n hk)
  compiled key f hk hf := h.compiled key f hk (h'.compiled key f hk hf)

theorem Spared.timed (h : w.Spared keys v) (t : Instant) : (w.timed t).Spared keys (v.timed t) :=
  ⟨h.registered, h.sessions, h.schedules, h.deliveries, h.counts, h.versions, h.compiled⟩

/-- **A spared world** has a twin, in which the version of the key may be forgotten. -/
theorem Spared.exists_twin (h : w.Spared keys v)
    (hone : ∀ key key', keys key → keys key' → key = key') :
    ∃ w' : World, w'.Twin keys v ∧ (w' = w ∨ ∃ key, keys key ∧ w' = w.forgetting key) := by
  by_cases hgone : ∃ key, keys key ∧ v.compiled.get? key = none
  · obtain ⟨key, hk, hnone⟩ := hgone
    refine ⟨w.forgetting key, ⟨⟨h.registered, h.sessions, h.schedules,
      h.deliveries, h.counts, h.versions, fun key' f hk' hf => ?_⟩, fun key' hk' _ => ?_⟩,
      .inr ⟨key, hk, rfl⟩⟩
    · rw [hone key' key hk' hk, hnone] at hf
      cases hf
    · rw [hone key' key hk' hk]
      exact Cache.get?_remove_self _ _
  · exact ⟨w, ⟨h, fun key hk hnone => absurd ⟨key, hk, hnone⟩ hgone⟩, .inl rfl⟩

theorem Twin.compiled_eq (h : w.Twin keys v) {key : String} (hk : keys key) :
    v.compiled.get? key = w.compiled.get? key := by
  cases hv : v.compiled.get? key with
  | none => exact (h.kept key hk hv).symm
  | some f => exact (h.compiled key f hk hv).symm

/-- The same identities were given to messages. -/
theorem Twin.numbered (h : w.Twin keys v) (messages : Nat) :
    Twin keys { w with messages } { v with messages } :=
  ⟨⟨h.registered, h.sessions, h.schedules, h.deliveries, ⟨h.counts.1, h.counts.2.1, rfl⟩,
    h.versions, h.compiled⟩, h.kept⟩

/-- **What twins are asked alike** they answer alike, and stay twins. -/
theorem Twin.answer (h : w.Twin keys v) {a : Ask} (ha : a.Confined keys)
    (hi : v.instant = w.instant) (c : Circumstance) :
    (v.answer c a).2 = (w.answer c a).2 ∧ (w.answer c a).1.Twin keys (v.answer c a).1 := by
  cases a with
  | createSession | loadFlow | saveFlow | saveVersion => exact ha.elim
  | loadSession id => exact ⟨Store.loadSession_congr h.registered h.sessions id, h⟩
  | sessionStatus id => exact ⟨Store.sessionStatus_congr h.registered h.sessions id, h⟩
  | loadVersion flow n => exact ⟨h.versions flow n ha, h⟩
  | loadSchedule id =>
    refine ⟨?_, h⟩
    simp only [World.answer, Store.loadSchedule, Store.access, h.registered, h.schedules]
  | cached key => exact ⟨h.compiled_eq ha, h⟩
  | now => exact ⟨hi, h⟩
  | saveSession y =>
    simp only [World.answer, Store.saveSession_congr h.registered h.sessions]
    cases hs : w.store.saveSession y with
    | error e => exact ⟨rfl, h⟩
    | ok s =>
      obtain ⟨sessions, rfl, -⟩ := Store.saveSession_eq_ok hs
      exact ⟨rfl, ⟨h.registered, rfl, h.schedules, h.deliveries, h.counts, h.versions,
        h.compiled⟩, h.kept⟩
  | remember key f =>
    refine ⟨rfl, ⟨h.registered, h.sessions, h.schedules, h.deliveries, h.counts, h.versions,
      fun key' g hk hg => ?_⟩, fun key' hk hnone => ?_⟩
    all_goals by_cases he : key' = key
    · subst he
      rwa [World.answer, Cache.get?_set_self] at hg ⊢
    · rw [World.answer, Cache.get?_set_of_ne he] at hg ⊢
      exact h.compiled key' g hk hg
    · subst he
      rw [World.answer, Cache.get?_set_self] at hnone
      cases hnone
    · rw [World.answer, Cache.get?_set_of_ne he] at hnone ⊢
      exact h.kept key' hk hnone
  | fresh i =>
    obtain ⟨hflows, hsessions, hmessages⟩ := h.counts
    cases i with
    | flow =>
      simp only [World.answer, World.fresh, hflows]
      exact ⟨trivial, ⟨h.registered, h.sessions, h.schedules, h.deliveries,
        ⟨rfl, hsessions, hmessages⟩, h.versions, h.compiled⟩, h.kept⟩
    | session =>
      simp only [World.answer, World.fresh, hsessions]
      exact ⟨trivial, ⟨h.registered, h.sessions, h.schedules, h.deliveries,
        ⟨hflows, rfl, hmessages⟩, h.versions, h.compiled⟩, h.kept⟩
    | message =>
      simp only [World.answer, World.fresh, hmessages]
      exact ⟨trivial, ⟨h.registered, h.sessions, h.schedules, h.deliveries,
        ⟨hflows, hsessions, rfl⟩, h.versions, h.compiled⟩, h.kept⟩
  | deliver d =>
    have hd : v.deliveries ++ [d] = w.deliveries ++ [d] := by rw [h.deliveries]
    exact ⟨rfl, ⟨h.registered, h.sessions, h.schedules, hd, h.counts, h.versions, h.compiled⟩,
      h.kept⟩
  | emit x =>
    obtain ⟨events, logs, hw⟩ := exists_keep_eq w.store x
    obtain ⟨events', logs', hv⟩ := exists_keep_eq v.store x
    simp only [World.answer, hw, hv]
    exact ⟨trivial, ⟨h.registered, h.sessions, h.schedules, h.deliveries, h.counts, h.versions,
      h.compiled⟩, h.kept⟩
  | openTurn | closeTurn | isAborted | wait | exchange => exact ⟨rfl, h⟩

end World

/-- **A program goes on alike in twins** at the same time, if it asks nothing else. -/
theorem Program.Always.twin {α : Type} {keys : String → Prop} {p : Program α}
    {post : α → World → Prop} {w v : World}
    (h : p.Always Numbered (fun _ a => a.Confined keys) post w) (ht : w.Twin keys v)
    (hi : v.instant = w.instant) (e : Nat → Occasion) :
    (v.alone e p).2 = (w.alone e p).2 ∧ (w.alone e p).1.Twin keys (v.alone e p).1 := by
  induction p generalizing w v e with
  | done a => exact ⟨rfl, ht⟩
  | ask a next ih =>
    obtain ⟨ha, hnext⟩ := h { w with messages := (e 0).number } ⟨_, rfl⟩
    obtain ⟨hsame, ht'⟩ := (ht.numbered (e 0).number).answer ha hi (e 0).circumstance
    have hi' : (v.pose (e 0) a).1.instant = (w.pose (e 0) a).1.instant := by
      rw [pose, instant_answer, pose, instant_answer, hi]
    have hrest := ih _ (hnext (e 0).circumstance) ht' hi' (a.spend e)
    have hsame : (v.pose (e 0) a).2 = (w.pose (e 0) a).2 := hsame
    show (alone _ (next (v.pose (e 0) a).2) _).2 = _ ∧
      Twin keys _ (alone _ (next (v.pose (e 0) a).2) _).1
    rw [hsame]
    exact hrest

/-! ### Drafts and publications -/

/-- Flows are drafted and published. -/
def Registry.Call.Edits : Call → Prop
  | .draft _ _ | .publish _ => True
  | _ => False

/-- Time goes on, and compiled versions are forgotten. -/
structure World.Forgets (w w' : World) : Prop where
  same : ∃ instant compiled, w' = { w with instant, compiled }
  compiled : ∀ key f, w'.compiled.get? key = some f → w.compiled.get? key = some f

/-- No more compiled versions are kept than fit. -/
theorem World.forgets_pruned (w : World) : w.Forgets w.pruned :=
  ⟨⟨_, _, rfl⟩, fun _ _ hf => Cache.get?_newest hf⟩

/-- **What comes of drafts and publications**, any number of them at a time, each of which may go
wrong or be cut. -/
abbrev Registry.Editing : Calls → Calls → Prop :=
  Crew.Course World.Forgets (Joins Call.Edits) fun _ _ _ => True

/-- The question changes flows and versions only, and remembers no version of those keys. -/
def Ask.Editing (keys : String → Prop) : Ask → Prop
  | .remember key _ => ¬ keys key
  | .createSession _ | .saveSession _ | .deliver _ | .emit _ | .fresh _ => False
  | _ => True

/-- All versions of the keys are stored. -/
def World.Stores (keys : String → Prop) (w : World) : Prop :=
  ∀ key, keys key → (w.store.versions.row? key).isSome

/-- What drafts and publications can rely on: the world is spared where the versions are stored. -/
structure World.Alongside (keys : String → Prop) (w w' : World) : Prop where
  versions : ∀ key r, w.store.versions.row? key = some r → w'.store.versions.row? key = some r
  spared : w.Stores keys → w.Spared keys w'

namespace World

variable {keys : String → Prop} {u v w w' : World}

theorem Alongside.stores (h : w.Alongside keys w') (hw : w.Stores keys) : w'.Stores keys := by
  intro key hk
  obtain ⟨r, hr⟩ := Option.isSome_iff_exists.mp (hw key hk)
  exact Option.isSome_iff_exists.mpr ⟨r, h.versions key r hr⟩

/-- Another version is stored. -/
theorem spared_saveVersion (hw : w.Stores keys) {flow : String} {n : Nat} {g : Graph} {now : Millis}
    {s : Store} (hs : w.store.saveVersion flow n g now = .ok s) :
    w.Spared keys { w with store := s } := by
  obtain ⟨hreg, versions, rfl, hnone, hrow⟩ := Store.saveVersion_eq_ok hs
  refine ⟨rfl, rfl, rfl, rfl, ⟨rfl, rfl, rfl⟩, fun flow' n' hk => ?_, fun _ _ _ => id⟩
  obtain ⟨r, hr⟩ := Option.isSome_iff_exists.mp (hw _ hk)
  have hr' : versions.row? (VersionRow.key flow' n') = some r := by
    rw [hrow, if_neg]
    · exact hr
    · intro he
      rw [he, hnone] at hr
      cases hr
  rw [Store.loadVersion_eq hreg hr]
  exact Store.loadVersion_eq hreg hr'

/-- **The answer to a question** of drafts and publications. -/
theorem alongside_answer {a : Ask} (c : Circumstance) (ha : a.Editing keys) :
    w.Alongside keys (w.answer c a).1 := by
  refine ⟨fun key r hr => version_answer hr c a, fun hw => ?_⟩
  cases a with
  | createSession | saveSession | deliver | emit | fresh => exact ha.elim
  | saveFlow d =>
    simp only [answer]
    cases hs : w.store.saveFlow d with
    | error e => exact .refl keys w
    | ok s =>
      obtain rfl := Store.saveFlow_eq_ok hs
      exact ⟨rfl, rfl, rfl, rfl, ⟨rfl, rfl, rfl⟩, fun _ _ _ => rfl, fun _ _ _ => id⟩
  | saveVersion flow n g now =>
    simp only [answer]
    cases hs : w.store.saveVersion flow n g now with
    | error e => exact .refl keys w
    | ok s => exact spared_saveVersion hw hs
  | remember key f =>
    refine ⟨rfl, rfl, rfl, rfl, ⟨rfl, rfl, rfl⟩, fun _ _ _ => rfl, fun key' g hk hg => ?_⟩
    have hne : key' ≠ key := by
      rintro rfl
      exact ha hk
    rwa [answer, Cache.get?_set_of_ne hne] at hg
  | _ => exact .refl keys w

theorem relies_alongside (keys : String → Prop) :
    Crew.Relies Forgets (Alongside keys) (fun _ a => a.Editing keys) (Stores keys) where
  refl w := ⟨fun _ _ => id, fun _ => .refl keys w⟩
  trans h h' := ⟨fun key r hr => h'.versions key r (h.versions key r hr),
    fun hw => (h.spared hw).trans (h'.spared (h.stores hw))⟩
  others := by
    rintro w w' ⟨⟨instant, compiled, rfl⟩, hc⟩
    exact ⟨fun _ _ => id, fun _ => ⟨rfl, rfl, rfl, rfl, ⟨rfl, rfl, rfl⟩, fun _ _ _ => rfl,
      fun key f _ => hc key f⟩⟩
  answer c _ ha := alongside_answer c ha
  kept h hw := h.stores hw

end World

/-- **Drafting and publishing** remember no version that was stored before. -/
theorem Registry.Call.editing {keys : String → Prop} {c : Call} (hc : c.Edits) {w : World}
    (hw : w.Stores keys) :
    c.program.Always (Alongside keys) (fun _ a => a.Editing keys) (fun _ _ => True) w := by
  cases c with
  | create | published | version => exact hc.elim
  | draft flow g =>
    show (saveDraft flow g).run.Always _ _ _ _
    unfold saveDraft
    refine always_lift (p := now) fun w₁ _ => ⟨trivial, fun _ => ?_⟩
    refine always_tried (p := loadFlow flow) fun w₂ _ => ⟨trivial, fun _ => ?_⟩
    show Either _ _ (w₂.store.loadFlow flow) w₂
    cases w₂.store.loadFlow flow with
    | error e => exact trivial
    | ok d =>
      refine always_pure (fun _ _ => trivial) fun d' _ => ?_
      refine always_tried (p := saveFlow d') fun w₃ _ => ⟨trivial, fun c => ?_⟩
      cases (w₃.answer c (.saveFlow d')).2 <;> exact trivial
  | publish flow =>
    show (Registry.publish flow).run.Always _ _ _ _
    unfold Registry.publish
    refine always_lift (p := now) fun w₁ hb₁ => ⟨trivial, fun _ => ?_⟩
    refine always_tried (p := loadFlow flow) fun w₂ hb₂ => ⟨trivial, fun _ => ?_⟩
    show Either _ _ (w₂.store.loadFlow flow) w₂
    cases w₂.store.loadFlow flow with
    | error e => exact trivial
    | ok d =>
      refine always_pure (fun _ _ => trivial) fun f hf => ?_
      obtain ⟨hid, hversion, -⟩ := Flow.compile_sound (compile_eq_ok hf)
      refine always_tried (p := saveVersion flow (d.version + 1) d.draft w₁.clock) fun w₃ hb₃ =>
        ⟨trivial, fun c => ?_⟩
      simp only [answer]
      cases hs : w₃.store.saveVersion flow (d.version + 1) d.draft w₁.clock with
      | error e => exact trivial
      | ok s =>
        -- the version is a new one, so it is none of those that were stored
        have hnew : ¬ keys (VersionRow.key f.id f.version) := by
          intro hk
          have hstored := hb₃.stores (hb₂.stores (hb₁.stores hw)) _ hk
          obtain ⟨-, -, -, hnone, -⟩ := Store.saveVersion_eq_ok hs
          rw [hid, hversion, hnone] at hstored
          cases hstored
        refine always_tried (p := saveFlow _) fun w₄ _ => ⟨trivial, fun c => ?_⟩
        cases (w₄.answer c (.saveFlow _)).2 with
        | error e => exact trivial
        | ok u => exact always_lift (p := remember f) fun w₅ _ => ⟨hnew, fun _ => trivial⟩

/-- **Drafts and publications spare a world**, as far as versions go that were stored. -/
theorem Registry.Editing.spared {keys : String → Prop} {w : World} {edits : Calls}
    (hw : w.Stores keys) (h : Editing ⟨w, []⟩ edits) : w.Spared keys edits.world := by
  have hconduct (c : Call) : Crew.Conduct (Alongside keys) (fun _ a => a.Editing keys)
      fun (p : Program (Outcome c.Value)) w =>
        p.Always (Alongside keys) (fun _ a => a.Editing keys) (fun _ _ => True) w :=
    (relies_alongside keys).always fun _ _ => trivial
  have honward := Crew.Course.onward (relies_alongside keys) hconduct (fun hw hj => ?_)
    (Crew.sound_nil hw) h
  · exact honward.1.spared hw
  · obtain ⟨hedits, rfl⟩ := hj
    exact Call.editing hedits hw

end Dialogue
