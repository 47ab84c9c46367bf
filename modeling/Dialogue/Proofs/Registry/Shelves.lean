import Dialogue.Proofs.Flow.Compile
import Dialogue.Proofs.Registry.Answers
import Dialogue.Proofs.Store.Flows

/-! # The registry alone at work

While nobody but one program changes flows and versions the registry answers what a store tells:
every compiled flow at hand is the stored version of its flow, and stays so.

* `versionFlow_sound`: a stored version that compiles is a sound flow of that identity and version.
* `ground_idle`, `serves_ofStore`: while others are idle the registry serves the library of the
  store. -/

namespace Dialogue

open Program World

namespace Store

variable {s s' : Store} {flow : String} {v : Nat} {f : Flow} {d : Definition} {e : Failure}

/-- The live version of a flow, compiled. -/
def liveFlow (s : Store) (flow : String) : Outcome Flow := do
  let d ← s.loadFlow flow
  if d.version = 0 then .error (.plain .flow ("flow '" ++ flow ++ "' is not published"))
  else s.versionFlow flow d.version

theorem versionFlow_eq_ok (h : s.versionFlow flow v = .ok f) :
    ∃ g, s.loadVersion flow v = .ok g ∧ Flow.compile flow v g = .ok f := by
  obtain ⟨g, hg, h⟩ := bind_eq_ok.mp h
  cases hc : Flow.compile flow v g with
  | error e => rw [hc] at h; cases h
  | ok f' => rw [hc] at h; cases h; exact ⟨g, hg, hc⟩

/-- A stored version that compiles is a sound flow of that identity and version. -/
theorem versionFlow_sound (h : s.versionFlow flow v = .ok f) :
    f.id = flow ∧ f.version = v ∧ f.Sound := by
  obtain ⟨g, -, hc⟩ := versionFlow_eq_ok h
  exact Flow.compile_sound hc

theorem versionFlow_congr (hr : s'.registered = s.registered) (hv : s'.versions = s.versions) :
    s'.versionFlow flow v = s.versionFlow flow v := by
  unfold versionFlow
  rw [loadVersion_congr hr hv]

theorem loadFlow_congr (hr : s'.registered = s.registered) (hf : s'.flows = s.flows) :
    s'.loadFlow flow = s.loadFlow flow := by
  simp only [loadFlow, access, hr, hf]

theorem liveFlow_eq (h : s.loadFlow flow = .ok d) (hv : d.version ≠ 0) :
    s.liveFlow flow = s.versionFlow flow d.version := by
  unfold liveFlow
  rw [h]
  exact if_neg hv

theorem liveFlow_eq_of_error (h : s.loadFlow flow = .error e) : s.liveFlow flow = .error e := by
  unfold liveFlow
  rw [h]
  rfl

theorem liveFlow_eq_of_unpublished (h : s.loadFlow flow = .ok d) (hv : d.version = 0) :
    s.liveFlow flow = .error (.plain .flow ("flow '" ++ flow ++ "' is not published")) := by
  unfold liveFlow
  rw [h]
  exact if_pos hv

/-- The live version is a stored version. -/
theorem liveFlow_eq_ok (h : s.liveFlow flow = .ok f) :
    ∃ d, s.loadFlow flow = .ok d ∧ d.version ≠ 0 ∧ s.versionFlow flow d.version = .ok f := by
  obtain ⟨d, hd, -⟩ := bind_eq_ok.mp h
  by_cases hv : d.version = 0
  · rw [liveFlow_eq_of_unpublished hd hv] at h
    cases h
  · rw [liveFlow_eq hd hv] at h
    exact ⟨d, hd, hv, h⟩

/-- The flow is the stored version under the key. -/
def Remembers (s : Store) (key : String) (f : Flow) : Prop :=
  ∃ flow v, key = VersionRow.key flow v ∧ s.versionFlow flow v = .ok f

/-- The compiled flows at hand are stored versions. -/
def Backs (s : Store) (c : Cache Flow) : Prop :=
  ∀ key f, c.get? key = some f → s.Remembers key f

theorem Remembers.eq (h : s.Remembers (VersionRow.key flow v) f) :
    s.versionFlow flow v = .ok f := by
  obtain ⟨flow', v', hk, hf⟩ := h
  obtain ⟨rfl, rfl⟩ := VersionRow.key_injective hk
  exact hf

theorem Remembers.of_versionFlow (h : s.versionFlow flow v = .ok f) :
    s.Remembers (VersionRow.key f.id f.version) f := by
  obtain ⟨rfl, rfl, -⟩ := versionFlow_sound h
  exact ⟨_, _, rfl, h⟩

theorem Backs.set {c : Cache Flow} {key : String} (h : s.Backs c) (hk : s.Remembers key f) :
    s.Backs (c.set key f) := by
  intro key' f' hf'
  by_cases he : key' = key
  · rw [he, Cache.get?_set_self] at hf'
    cases hf'
    rw [he]
    exact hk
  · rw [Cache.get?_set_of_ne he] at hf'
    exact h key' f' hf'

end Store

namespace Registry

variable {d d' : Definition} {draft : Graph} {now : Millis}

/-- A draft has one start node, and that is the one of the draft which it replaces. -/
theorem withDraft_eq_ok_iff : withDraft d draft now = .ok d' ↔ draft.starts.length = 1 ∧
    (d.draft.starts.length = 1 → startId? d.draft = startId? draft) ∧
      { d with draft, updateTime := now } = d' := by
  unfold withDraft
  split
  · simp_all
  · split
    · simp_all
    · rename_i hone hstart
      simp only [ne_eq, Decidable.not_not] at hone
      simp only [ne_eq, not_and, Decidable.not_not] at hstart
      simp only [hone, Except.ok.injEq, true_and]
      exact ⟨fun h => ⟨hstart, h⟩, (·.2)⟩

theorem withDraft_eq_ok (h : withDraft d draft now = .ok d') :
    d' = { d with draft, updateTime := now } :=
  (withDraft_eq_ok_iff.mp h).2.2.symm

end Registry

/-! ### While others are idle -/

/-- What happens while others are idle: time passes, identities are given, events, logs and
schedules change, and compiled flows that were at hand are forgotten. -/
structure World.Idle (w w' : World) : Prop where
  registered : w'.store.registered = w.store.registered
  flows : w'.store.flows = w.store.flows
  versions : w'.store.versions = w.store.versions
  sessions : w'.store.sessions = w.store.sessions
  compiled : ∀ key f, w'.compiled.get? key = some f → w.compiled.get? key = some f
  deliveries : w'.deliveries = w.deliveries

/-- The world has the flows and versions of the store, and no other compiled ones at hand. -/
structure World.Shelves (s : Store) (w : World) : Prop where
  registered : w.store.registered = true
  same : w.store.registered = s.registered
  flows : w.store.flows = s.flows
  versions : w.store.versions = s.versions
  backs : s.Backs w.compiled

namespace World

theorem Idle.refl (w : World) : w.Idle w := ⟨rfl, rfl, rfl, rfl, fun _ _ h => h, rfl⟩

variable {s : Store} {w w' : World}

theorem stable_shelves (s : Store) : Stable Idle s.Remembers (Shelves s) where
  others hb h := ⟨hb.registered.trans h.registered, hb.registered.trans h.same,
    hb.flows.trans h.flows, hb.versions.trans h.versions,
    fun key f hf => h.backs key f (hb.compiled key f hf)⟩
  quiet w c ha h := by
    have hw := alike_answer ha w c
    refine ⟨hw.registered.trans h.registered, hw.registered.trans h.same, hw.flows.trans h.flows,
      hw.versions.trans h.versions, ?_⟩
    rw [compiled_answer ha w c]
    exact h.backs
  remembered hk h := ⟨h.registered, h.same, h.flows, h.versions, h.backs.set hk⟩

/-- Work on a session while others are idle. -/
theorem ground_idle (s : Store) (sid : String) : Ground Idle s.Remembers sid (Shelves s) where
  toStable := stable_shelves s
  registered h := h.registered
  row hb _ := by rw [Store.row?, Store.row?, hb.sessions]
  saved h := ⟨h.registered, h.same, h.flows, h.versions, h.backs⟩
  told h := ⟨h.registered, h.same, h.flows, h.versions, h.backs⟩

theorem Shelves.versionFlow_eq (h : Shelves s w) (flow : String) (v : Nat) :
    w.store.versionFlow flow v = s.versionFlow flow v :=
  Store.versionFlow_congr h.same h.versions

end World

/-- The library of what is stored. -/
def Library.ofStore (s : Store) : Library :=
  ⟨fun flow v o => o = s.versionFlow flow v, fun flow o => o = s.liveFlow flow⟩

/-- **The registry** answers what is stored, while others are idle. -/
theorem Library.serves_ofStore (s : Store) :
    (ofStore s).Serves Idle s.Remembers (Shelves s) := by
  have hversion {I : World → Prop} (hI : Stable Idle s.Remembers I) (hIB : ∀ w, I w → Shelves s w)
      {sid : String} {writes : SessionRow → Session → Prop} (flow : String) (v : Nat) {w : World}
      (hw : I w) :
      (Registry.version flow v).run.Always Idle (Ask.Allowed sid writes s.Remembers)
        (fun o w => o = s.versionFlow flow v ∧ I w) w := by
    refine Registry.version_always (A := fun o => o = s.versionFlow flow v) hI ?_ ?_ ?_ hw
    · exact fun w f hw hf => ((hIB w hw).backs _ _ hf).eq.symm
    · exact fun w hw => (hIB w hw).versionFlow_eq flow v
    · exact fun w f hw hf => .of_versionFlow (((hIB w hw).versionFlow_eq flow v).symm.trans hf)
  refine ⟨fun hI hIB _ _ flow v _ hw => hversion hI hIB flow v hw, fun hI hIB _ _ flow _ hw => ?_⟩
  have hload {w : World} {o : Outcome Definition} (hw : Shelves s w)
      (h : w.store.loadFlow flow = o) : s.loadFlow flow = o :=
    (Store.loadFlow_congr hw.same hw.flows).symm.trans h
  refine Registry.published_always (A := fun o => o = s.liveFlow flow) hI ?_ ?_ ?_ hw
  · exact fun w e hw he => (Store.liveFlow_eq_of_error (hload (hIB w hw) he)).symm
  · exact fun w d hw hd hv => (Store.liveFlow_eq_of_unpublished (hload (hIB w hw) hd) hv).symm
  · intro w d hw hd hv
    rw [Store.liveFlow_eq (hload (hIB w hw) hd) hv]
    exact hversion hI hIB flow d.version hw

end Dialogue
