import Dialogue.Proofs.Program.Crew
import Dialogue.Proofs.Registry.Shelves

/-! # Flows and versions in order

A tidy world holds together what the registry keeps in two collections and at hand: the live graph
of a flow is the graph of its last version, all versions up to that one are there, every version
compiles, and what is at hand is a stored version. Drafts and versions alike have the start node
that every new flow begins with.

Whatever many calls of the registry do at a time, the world leads onward: rows of versions are there
for ever, and what is tidy stays so.

* `onward_answer`: the answer to a question that is in order.
* `relies_onward`: what calls of the registry can rely on. -/

namespace Dialogue

open Program World

/-- The graph has the one start node that every new flow begins with. -/
def Graph.Rooted (g : Graph) : Prop := g.starts.map (·.id) = ["start"]

/-- The graph can be kept as that version: it is read back, and compiles. -/
structure Graph.Publishable (g : Graph) (flow : String) (v : Nat) : Prop where
  readsBack : g.ReadsBack
  rooted : g.Rooted
  compiles : ∃ f, Flow.compile flow v g = .ok f

/-- The row is that of a graph that compiles as that version. -/
def VersionRow.Tidy (r : VersionRow) : Prop :=
  ∃ flow v g now, r = .ofGraph flow v g now ∧ g.Publishable flow v

namespace Store

/-- The numbers of all versions fit their column. -/
def Fits (s : Store) : Prop := ∀ key r, s.versions.row? key = some r → 0 ≤ r.version

/-- The later store has the versions of the earlier one as they were, and its flows. -/
structure Extends (s s' : Store) : Prop where
  flows : ∀ id, (s.flows.row? id).isSome → (s'.flows.row? id).isSome
  versions : ∀ key r, s.versions.row? key = some r → s'.versions.row? key = some r

end Store

/-- The versions of a flow are counted: the live graph is that of the last version, and all
versions up to that one are there. -/
structure Definition.Counts (s : Store) (d : Definition) : Prop where
  small : d.version < 0x8000000000000000
  unpublished : d.version = 0 → d.published = none
  live : d.version ≠ 0 → ∃ g now, d.published = some g ∧
    s.versions.row? (VersionRow.key d.id d.version) = some (.ofGraph d.id d.version g now)
  history : ∀ v, 1 ≤ v → v ≤ d.version → (s.versions.row? (VersionRow.key d.id v)).isSome

/-- The row is that of a flow whose versions are counted, as far as their numbers fit. -/
def FlowRow.Tidy (s : Store) (r : FlowRow) : Prop :=
  ∃ d, r = .ofDefinition d ∧ d.ReadsBack ∧ d.draft.Rooted ∧ (s.Fits → d.Counts s)

/-- Flows and versions belong together, and so do versions and what is at hand. -/
structure World.Tidy (w : World) : Prop where
  registered : w.store.registered = true
  flows : ∀ id r, w.store.flows.row? id = some r → r.Tidy w.store
  versions : ∀ key r, w.store.versions.row? key = some r → r.Tidy
  backs : w.store.Backs w.compiled

/-- What calls of the registry can rely on: what is kept as a version stays, and what is tidy stays
so. -/
structure World.Onward (w w' : World) : Prop where
  store : w.store.Extends w'.store
  tidy : w.Tidy → w'.Tidy

/-- The question leaves a tidy world tidy. -/
def Ask.Orderly (w : World) : Ask → Prop
  | .saveFlow d => (FlowRow.ofDefinition d).Tidy w.store
  | .saveVersion flow v g _ => g.Publishable flow v
  | .remember key f => w.store.Remembers key f
  | _ => True

/-- The flows and the versions are the same. -/
def World.Unchanged (w w' : World) : Prop :=
  w'.store.flows = w.store.flows ∧ w'.store.versions = w.store.versions

/-- The question changes no flow and no version. -/
def Ask.Mute : Ask → Prop
  | .saveFlow _ | .saveVersion _ _ _ _ => False
  | _ => True

/-- What others do beside the registry: they change no flow and no version, and compiled flows may
be forgotten. -/
structure World.Elsewhere (w w' : World) : Prop where
  registered : w'.store.registered = w.store.registered
  flows : w'.store.flows = w.store.flows
  versions : w'.store.versions = w.store.versions
  compiled : ∀ key f, w'.compiled.get? key = some f → w.compiled.get? key = some f

/-! ### Stores that are extended -/

namespace Store

variable {s s' s'' : Store} {flow : String} {v : Nat} {f : Flow} {d : Definition}

theorem Extends.refl (s : Store) : s.Extends s := ⟨fun _ => id, fun _ _ => id⟩

theorem Extends.trans (h : s.Extends s') (h' : s'.Extends s'') : s.Extends s'' :=
  ⟨fun id hid => h'.flows id (h.flows id hid),
    fun key r hr => h'.versions key r (h.versions key r hr)⟩

theorem Extends.of_eq (hf : s'.flows = s.flows) (hv : s'.versions = s.versions) : s.Extends s' :=
  ⟨fun id h => by rwa [hf], fun key r h => by rwa [hv]⟩

theorem Extends.fits (h : s.Extends s') (hs : s'.Fits) : s.Fits :=
  fun key r hr => hs key r (h.versions key r hr)

theorem Extends.counts (h : s.Extends s') (hd : d.Counts s) : d.Counts s' where
  small := hd.small
  unpublished := hd.unpublished
  live hv := by
    obtain ⟨g, now, hg, hr⟩ := hd.live hv
    exact ⟨g, now, hg, h.versions _ _ hr⟩
  history v h1 hv := by
    obtain ⟨r, hr⟩ := Option.isSome_iff_exists.mp (hd.history v h1 hv)
    rw [h.versions _ _ hr]
    rfl

theorem Extends.tidy (h : s.Extends s') {r : FlowRow} (hr : r.Tidy s) : r.Tidy s' := by
  obtain ⟨d, rfl, hback, hroot, hcounts⟩ := hr
  exact ⟨d, rfl, hback, hroot, fun hs => h.counts (hcounts (h.fits hs))⟩

/-- A stored version is what its row holds. -/
theorem versionFlow_eq_of_row (hs : s.registered = true) {g : Graph} {now : Millis}
    (hr : s.versions.row? (VersionRow.key flow v) = some (.ofGraph flow v g now))
    (hg : g.ReadsBack) (hc : Flow.compile flow v g = .ok f) : s.versionFlow flow v = .ok f := by
  rw [versionFlow_eq ((loadVersion_eq hs hr).trans hg), hc]
  rfl

theorem Extends.versionFlow (h : s.Extends s') (hs : s'.registered = true)
    (hf : s.versionFlow flow v = .ok f) : s'.versionFlow flow v = .ok f := by
  obtain ⟨g, hg, hc⟩ := versionFlow_eq_ok hf
  obtain ⟨-, r, hr, hgraph⟩ := loadVersion_eq_ok hg
  rw [versionFlow_eq ((loadVersion_eq hs (h.versions _ _ hr)).trans hgraph), hc]
  rfl

theorem Extends.backs (h : s.Extends s') (hs : s'.registered = true) {c : Cache Flow}
    (hc : s.Backs c) : s'.Backs c := by
  intro key f hf
  obtain ⟨flow, v, hk, hv⟩ := hc key f hf
  exact ⟨flow, v, hk, h.versionFlow hs hv⟩

theorem extends_saveFlow (h : s.saveFlow d = .ok s') : s.Extends s' := by
  obtain rfl := saveFlow_eq_ok h
  refine ⟨fun id hid => ?_, fun _ _ => id⟩
  dsimp only
  rw [Collection.row?_put]
  split
  · rfl
  · exact hid

theorem extends_saveVersion {g : Graph} {now : Millis} (h : s.saveVersion flow v g now = .ok s') :
    s.Extends s' := by
  obtain ⟨-, versions, rfl, hnone, hrow⟩ := saveVersion_eq_ok h
  refine ⟨fun _ => id, fun key r hr => ?_⟩
  rw [hrow, if_neg]
  · exact hr
  · rintro rfl
    rw [hnone] at hr
    cases hr

end Store

namespace World

variable {w w' w'' : World}

/-! ### Tidy worlds -/

theorem tidy_new (now : Millis) : Tidy (.new .empty now) := ⟨rfl, nofun, nofun, nofun⟩

theorem Onward.refl (w : World) : w.Onward w := ⟨.refl _, id⟩

theorem Onward.trans (h : w.Onward w') (h' : w'.Onward w'') : w.Onward w'' :=
  ⟨h.store.trans h'.store, fun hw => h'.tidy (h.tidy hw)⟩

/-- A world with the same flows and versions, whatever was forgotten. -/
theorem Elsewhere.onward (h : w.Elsewhere w') : w.Onward w' where
  store := .of_eq h.flows h.versions
  tidy hw := by
    have hr : w'.store.registered = true := h.registered.trans hw.registered
    have hext : w.store.Extends w'.store := .of_eq h.flows h.versions
    refine ⟨hr, fun id r hrow => ?_, fun key r hrow => ?_, fun key f hf => ?_⟩
    · exact hext.tidy (hw.flows id r (h.flows ▸ hrow))
    · exact hw.versions key r (h.versions ▸ hrow)
    · exact hext.backs hr hw.backs key f (h.compiled key f hf)

/-- A quiet question changes nothing for the registry. -/
theorem elsewhere_quiet {a : Ask} (ha : a.Quiet) (w : World) (c : Circumstance) :
    w.Elsewhere (w.answer c a).1 := by
  have h := alike_answer ha w c
  refine ⟨h.registered, h.flows, h.versions, fun key f hf => ?_⟩
  rwa [compiled_answer ha w c] at hf

theorem Tidy.quiet {a : Ask} (hw : w.Tidy) (ha : a.Quiet) (c : Circumstance) :
    (w.answer c a).1.Tidy :=
  (elsewhere_quiet ha w c).onward.tidy hw

/-- A change of sessions changes nothing for the registry. -/
theorem Elsewhere.change {o : Outcome Store}
    (ho : ∀ s, o = .ok s → ∃ sessions, s = { w.store with sessions }) :
    w.Elsewhere (w.change o).1 := by
  cases o with
  | error e => exact ⟨rfl, rfl, rfl, fun _ _ => id⟩
  | ok s =>
    obtain ⟨sessions, rfl⟩ := ho s rfl
    exact ⟨rfl, rfl, rfl, fun _ _ => id⟩

theorem elsewhere_createSession (w : World) (c : Circumstance) (y : Session) :
    w.Elsewhere (w.answer c (.createSession y)).1 :=
  .change fun _ hs =>
    let ⟨_, sessions, hs, _⟩ := Store.createSession_eq_ok hs
    ⟨sessions, hs⟩

theorem elsewhere_saveSession (w : World) (c : Circumstance) (y : Session) :
    w.Elsewhere (w.answer c (.saveSession y)).1 :=
  .change fun _ hs =>
    let ⟨sessions, hs, _⟩ := Store.saveSession_eq_ok hs
    ⟨sessions, hs⟩

/-- Every version that is stored compiles. -/
theorem Tidy.exists_versionFlow (hw : w.Tidy) {flow : String} {v : Nat}
    (h : (w.store.versions.row? (VersionRow.key flow v)).isSome) :
    ∃ f, w.store.versionFlow flow v = .ok f := by
  obtain ⟨r, hr⟩ := Option.isSome_iff_exists.mp h
  obtain ⟨flow', v', g, now, rfl, hback, -, f, hf⟩ := hw.versions _ _ hr
  obtain ⟨rfl, rfl⟩ := VersionRow.key_injective (Collection.id_of_row? hr)
  exact ⟨f, Store.versionFlow_eq_of_row hw.registered hr hback hf⟩

/-- What a tidy world has of a flow. -/
theorem Tidy.loadFlow (hw : w.Tidy) {flow : String} {d : Definition}
    (hd : w.store.loadFlow flow = .ok d) :
    d.id = flow ∧ d.ReadsBack ∧ d.draft.Rooted ∧ (w.store.Fits → d.Counts w.store) := by
  obtain ⟨-, r, hr, hdef⟩ := Store.loadFlow_eq_ok hd
  have hid : r.id = flow := Collection.id_of_row? hr
  obtain ⟨d', rfl, hback, hroot, hcounts⟩ := hw.flows flow r hr
  rw [FlowRow.toDefinition_ofDefinition hback] at hdef
  cases hdef
  refine ⟨hid, ⟨hback.1, hback.2⟩, hroot, fun hfits => ?_⟩
  -- the version is the one that was kept, since that fits its column
  have hcounts := hcounts hfits
  rw [toSigned64_eq hcounts.small, ofSigned64_natCast]
  exact hcounts

/-- Every flow that is stored is read. -/
theorem Tidy.exists_loadFlow (hw : w.Tidy) {flow : String}
    (h : (w.store.flows.row? flow).isSome) : ∃ d, w.store.loadFlow flow = .ok d := by
  obtain ⟨r, hr⟩ := Option.isSome_iff_exists.mp h
  obtain ⟨d, rfl, hback, -⟩ := hw.flows flow r hr
  exact ⟨_, (Store.loadFlow_eq hw.registered hr).trans (FlowRow.toDefinition_ofDefinition hback)⟩

theorem Elsewhere.unchanged (h : w.Elsewhere w') : w.Unchanged w' := ⟨h.flows, h.versions⟩

theorem unchanged_mute {a : Ask} (ha : a.Mute) (w : World) (c : Circumstance) :
    w.Unchanged (w.answer c a).1 := by
  cases a with
  | saveFlow | saveVersion => exact ha.elim
  | createSession y => exact (elsewhere_createSession w c y).unchanged
  | saveSession y => exact (elsewhere_saveSession w c y).unchanged
  | remember | deliver => exact ⟨rfl, rfl⟩
  | _ =>
    refine (elsewhere_quiet ?_ w c).unchanged
    trivial

/-- A version that is stored stays as it is, whatever is asked. -/
theorem version_answer {key : String} {r : VersionRow}
    (h : w.store.versions.row? key = some r) (c : Circumstance) (a : Ask) :
    (w.answer c a).1.store.versions.row? key = some r := by
  cases a with
  | saveFlow d =>
    simp only [answer]
    cases hs : w.store.saveFlow d with
    | error e => exact h
    | ok s' => exact (Store.extends_saveFlow hs).versions key r h
  | saveVersion flow v g now =>
    simp only [answer]
    cases hs : w.store.saveVersion flow v g now with
    | error e => exact h
    | ok s' => exact (Store.extends_saveVersion hs).versions key r h
  | _ =>
    rw [(unchanged_mute ?_ w c).2]
    · exact h
    · trivial

/-- **The answer to a question** that is in order leads onward from a tidy world. -/
theorem onward_answer {a : Ask} (c : Circumstance) (hw : w.Tidy) (ha : a.Orderly w) :
    w.Onward (w.answer c a).1 := by
  cases a with
  | saveFlow d =>
    simp only [answer]
    cases hs : w.store.saveFlow d with
    | error e => exact .refl w
    | ok s' =>
      have hext := Store.extends_saveFlow hs
      obtain rfl := Store.saveFlow_eq_ok hs
      refine ⟨hext, fun _ => ⟨hw.registered, fun id r hr => ?_, hw.versions,
        hext.backs hw.registered hw.backs⟩⟩
      refine hext.tidy ?_
      simp only [change] at hr
      rw [Collection.row?_put] at hr
      split at hr
      · cases hr
        exact ha
      · exact hw.flows id r hr
  | saveVersion flow v g now =>
    simp only [answer]
    cases hs : w.store.saveVersion flow v g now with
    | error e => exact .refl w
    | ok s' =>
      have hext := Store.extends_saveVersion hs
      obtain ⟨-, versions, rfl, -, hrow⟩ := Store.saveVersion_eq_ok hs
      refine ⟨hext, fun _ => ⟨hw.registered, fun id r hr => hext.tidy (hw.flows id r hr),
        fun key r hr => ?_, hext.backs hw.registered hw.backs⟩⟩
      simp only [change] at hr
      rw [hrow] at hr
      split at hr
      · cases hr
        exact ⟨flow, v, g, now, rfl, ha⟩
      · exact hw.versions key r hr
  | remember key f =>
    exact ⟨.refl _, fun _ => ⟨hw.registered, hw.flows, hw.versions, hw.backs.set ha⟩⟩
  | createSession y => exact (elsewhere_createSession w c y).onward
  | saveSession y => exact (elsewhere_saveSession w c y).onward
  | deliver d => exact ⟨.refl _, fun _ => ⟨hw.registered, hw.flows, hw.versions, hw.backs⟩⟩
  | _ =>
    refine (elsewhere_quiet ?_ w c).onward
    trivial

/-- **What calls of the registry can rely on** that ask what is in order, whatever happens
elsewhere. -/
theorem relies_onward {guard : World → Ask → Prop} (h : ∀ {w a}, guard w a → a.Orderly w) :
    Crew.Relies Elsewhere Onward guard Tidy where
  refl := .refl
  trans := .trans
  others h := h.onward
  answer c hw ha := onward_answer c hw (h ha)
  kept h hw := h.tidy hw

end World

end Dialogue
