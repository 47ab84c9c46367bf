import Dialogue.Proofs.Registry.Tidy

/-! # Calls of the registry side by side

Flows are made, drafted and published, and versions looked up, by any number of calls at a time,
whose questions come in any order. Each of them leaves a tidy world tidy, and none of them fails
after it has changed something.

* `Firm`: a call that has changed a flow or a version does not fail any more.
* `Call.firm`: so it is with all calls.
* `version_onward`, `published_onward`: what the calls answer that look versions up. -/

namespace Dialogue

open Program Procedure World

namespace Registry

/-- A call of the registry. -/
inductive Call where
  | create (name : String)
  | draft (flow : String) (g : Graph)
  | publish (flow : String)
  | published (flow : String)
  | version (flow : String) (v : Nat)
deriving DecidableEq

namespace Call

/-- What a call gives if it does not fail. -/
abbrev Value : Call → Type
  | .create _ | .draft _ _ | .publish _ => Definition
  | .published _ | .version _ _ => Flow

/-- What a call does. -/
def program : (c : Call) → Program (Outcome c.Value)
  | .create name => (createFlow name).run
  | .draft flow g => (saveDraft flow g).run
  | .publish flow => (Registry.publish flow).run
  | .published flow => (Registry.published flow).run
  | .version flow v => (Registry.version flow v).run

/-- A draft is one that is read back as it was written. -/
def Proper : Call → Prop
  | .draft _ g => g.ReadsBack
  | _ => True

end Call

/-- Calls of the registry that are made at the same time. -/
abbrev Calls := Crew fun c : Call => Outcome c.Value

/-- A call is made. -/
def Joins (may : Call → Prop) (c : Call) (p : Program (Outcome c.Value)) : Prop :=
  may c ∧ p = c.program

/-- What calls of the registry come to in the course of time, whatever happens elsewhere. -/
abbrev Course (may : Call → Prop) : Calls → Calls → Prop :=
  Crew.Course Elsewhere (Joins may) fun _ _ _ => True

/-- Nothing is stored, and no call was made. -/
def Calls.new (now : Millis) : Calls := ⟨.new .empty now, []⟩

/-! ### Calls that do not fail halfway -/

/-- Every question is in order, and once the program has changed a flow or a version it does not
fail any more. -/
def Firm {α : Type} : Program (Outcome α) → World → Prop
  | .done _, _ => True
  | .ask a next, w => ∀ w₁, w.Onward w₁ → a.Orderly w₁ ∧ ∀ c,
      Firm (next (w₁.answer c a).2) (w₁.answer c a).1 ∧
      (¬ w₁.Unchanged (w₁.answer c a).1 →
        (next (w₁.answer c a).2).Always Onward Ask.Orderly (fun o _ => ∃ x, o = .ok x)
          (w₁.answer c a).1)

variable {α : Type} {w w' : World} {flow : String} {v : Nat}

theorem conduct_firm : Crew.Conduct Onward Ask.Orderly (Firm (α := α)) where
  onward {p w w'} hw h := by
    cases p with
    | done o => exact trivial
    | ask a next => exact fun w₁ hb => h w₁ (hw.trans hb)
  ask h := ⟨(h _ (.refl _)).1, fun c => ((h _ (.refl _)).2 c).1⟩

/-- A question that changes nothing. -/
theorem firm_mute {a : Ask} {next : a.Answer → Program (Outcome α)} (ha : a.Mute)
    (h : ∀ w₁, w.Onward w₁ → a.Orderly w₁ ∧
      ∀ c, Firm (next (w₁.answer c a).2) (w₁.answer c a).1) : Firm (.ask a next) w := by
  refine fun w₁ hb => ⟨(h w₁ hb).1, fun c => ⟨(h w₁ hb).2 c, fun hne => ?_⟩⟩
  exact absurd (unchanged_mute ha w₁ c) hne

/-- A program that changes nothing at all. -/
theorem firm_of_always {p : Program (Outcome α)} {post : Outcome α → World → Prop}
    (h : p.Always Onward (fun w a => a.Orderly w ∧ a.Mute) post w) : Firm p w := by
  induction p generalizing w with
  | done o => exact trivial
  | ask a next ih =>
    intro w₁ hb
    obtain ⟨⟨hord, hmute⟩, hnext⟩ := h w₁ hb
    refine ⟨hord, fun c => ⟨ih _ (hnext c), fun hne => ?_⟩⟩
    exact absurd (unchanged_mute hmute w₁ c) hne

/-- A program that does not fail any more. -/
theorem firm_of_ok {p : Program (Outcome α)}
    (h : p.Always Onward Ask.Orderly (fun o _ => ∃ x, o = .ok x) w) : Firm p w := by
  induction p generalizing w with
  | done o => exact trivial
  | ask a next ih =>
    intro w₁ hb
    obtain ⟨hord, hnext⟩ := h w₁ hb
    exact ⟨hord, fun c => ⟨ih _ (hnext c), fun _ => hnext c⟩⟩

theorem firm_lift {a : Ask} {f : a.Answer → Procedure α} (ha : a.Mute)
    (h : ∀ w₁, w.Onward w₁ → a.Orderly w₁ ∧
      ∀ c, Firm (f (w₁.answer c a).2).run (w₁.answer c a).1) :
    Firm (((question a : Program a.Answer) : Procedure a.Answer) >>= f).run w := by
  show Firm (ExceptT.lift (question a) >>= f).run w
  rw [ExceptT.run_bind_lift]
  exact firm_mute ha h

/-- A result that is at hand. -/
theorem firm_pure {β : Type} {o : Outcome β} {f : β → Procedure α}
    (h : ∀ b, o = .ok b → Firm (f b).run w) :
    Firm ((ExceptT.mk (pure o) : Procedure β) >>= f).run w := by
  rw [ExceptT.run_bind]
  show Firm (Program.bind (.done o) _) w
  cases o with
  | error e => exact trivial
  | ok b => exact h b rfl

theorem firm_loadFlow {f : Definition → Procedure α} (hw : w.Tidy)
    (h : ∀ w₁ d, w₁.Tidy → w₁.store.loadFlow flow = .ok d → Firm (f d).run w₁) :
    Firm (loadFlow flow >>= f).run w := by
  rw [ExceptT.run_bind]
  refine firm_mute (a := .loadFlow flow) trivial fun w₁ hb => ⟨trivial, fun c => ?_⟩
  have h := h w₁
  show Firm (Program.bind (.done (w₁.store.loadFlow flow)) _) w₁
  cases hd : w₁.store.loadFlow flow with
  | error e => exact trivial
  | ok d => exact h d (hb.tidy hw) hd

/-! ### Making, drafting and publishing flows -/

/-- Keeping a flow that is in order does not fail. -/
theorem saveFlow_ok {d : Definition} (hw : w.Tidy) (hd : (FlowRow.ofDefinition d).Tidy w.store)
    {f : Unit → Procedure α}
    (h : ∀ w', w'.Tidy → w.Onward w' →
      (f ()).run.Always Onward Ask.Orderly (fun o _ => ∃ x, o = .ok x) w') :
    (saveFlow d >>= f).run.Always Onward Ask.Orderly (fun o _ => ∃ x, o = .ok x) w := by
  refine always_tried (p := saveFlow d) fun w₁ hb => ?_
  have hd₁ := hb.store.tidy hd
  have hw₁ := hb.tidy hw
  refine ⟨hd₁, fun c => ?_⟩
  have honward := onward_answer (a := .saveFlow d) c hw₁ hd₁
  have hok : (w₁.answer c (.saveFlow d)).2 = .ok () := by
    simp only [answer, Store.saveFlow, Store.access, hw₁.registered, if_true]
    rfl
  rw [hok]
  exact h _ (honward.tidy hw₁) (hb.trans honward)

theorem rooted_initial : Graph.initial.Rooted := by
  simp [Graph.Rooted, Graph.starts, Graph.initial]

/-- A new flow has no versions. -/
theorem tidy_created (s : Store) (id name : String) (now : Millis) :
    (FlowRow.ofDefinition ⟨id, name, .initial, none, 0, now, now⟩).Tidy s := by
  refine ⟨_, rfl, ⟨Graph.readsBack_initial, nofun⟩, rooted_initial, fun _ => ?_⟩
  refine ⟨(by decide : 0 < 0x8000000000000000), fun _ => rfl, fun hv => absurd rfl hv,
    fun v h1 hv => ?_⟩
  exact absurd (Nat.le_trans h1 hv) (by simp)

theorem createFlow_firm (name : String) (hw : w.Tidy) : Firm (createFlow name).run w := by
  unfold createFlow
  refine firm_lift (a := .now) trivial fun w₁ hb₁ => ⟨trivial, fun c₁ => ?_⟩
  refine firm_lift (a := .fresh .flow) trivial fun w₂ hb₂ => ⟨trivial, fun c₂ => ?_⟩
  have hw₂ : (w₂.answer c₂ (.fresh .flow)).1.Tidy :=
    (hb₂.tidy (hb₁.tidy hw)).quiet (show Ask.Quiet (.fresh .flow) from trivial) c₂
  exact firm_of_ok (saveFlow_ok hw₂ (tidy_created _ _ _ _) fun w₃ _ _ => ⟨_, rfl⟩)

/-- A draft has the start node of the one that it replaces. -/
theorem rooted_withDraft {d d' : Definition} {draft : Graph} {now : Millis}
    (h : withDraft d draft now = .ok d') (hd : d.draft.Rooted) : draft.Rooted := by
  obtain ⟨hone, hstart, -⟩ := withDraft_eq_ok_iff.mp h
  unfold Graph.Rooted at hd ⊢
  have hlen : d.draft.starts.length = 1 := by
    have := congrArg List.length hd
    rwa [List.length_map] at this
  have hstart := hstart hlen
  obtain ⟨n, hn⟩ := List.length_eq_one_iff.mp hlen
  obtain ⟨m, hm⟩ := List.length_eq_one_iff.mp hone
  simp only [startId?, hn, hm, List.head?_cons, Option.map_some, Option.some.injEq] at hstart
  rw [hn, List.map_singleton, hstart] at hd
  rwa [hm, List.map_singleton]

/-- A flow with another draft has the same versions. -/
theorem tidy_drafted {s : Store} {d : Definition} {draft : Graph} {now : Millis}
    (hdraft : draft.ReadsBack) (hroot : draft.Rooted) (hback : d.ReadsBack)
    (hcounts : s.Fits → d.Counts s) :
    (FlowRow.ofDefinition { d with draft, updateTime := now }).Tidy s := by
  refine ⟨_, rfl, ⟨hdraft, hback.2⟩, hroot, fun hfits => ?_⟩
  obtain ⟨hsmall, hnone, hlive, hhistory⟩ := hcounts hfits
  exact ⟨hsmall, hnone, hlive, hhistory⟩

theorem saveDraft_firm {draft : Graph} (hdraft : draft.ReadsBack) (hw : w.Tidy) :
    Firm (saveDraft flow draft).run w := by
  unfold saveDraft
  refine firm_lift (a := .now) trivial fun w₁ hb₁ => ⟨trivial, fun c₁ => ?_⟩
  refine firm_loadFlow (hb₁.tidy hw) fun w₂ d hw₂ hd => ?_
  obtain ⟨-, hback, hroot, hcounts⟩ := hw₂.loadFlow hd
  refine firm_pure fun d' hd' => ?_
  have hrooted := rooted_withDraft hd' hroot
  obtain rfl := withDraft_eq_ok hd'
  exact firm_of_ok (saveFlow_ok hw₂ (tidy_drafted hdraft hrooted hback hcounts)
    fun w₃ _ _ => ⟨_, rfl⟩)

/-- A flow whose next version was kept is in order as soon as it is live. -/
theorem tidy_published {s s' : Store} {d : Definition} {now later : Millis} (hback : d.ReadsBack)
    (hroot : d.draft.Rooted) (hcounts : s.Fits → d.Counts s)
    (hs : s.saveVersion d.id (d.version + 1) d.draft now = .ok s') :
    (FlowRow.ofDefinition { d with
      published := some d.draft, version := d.version + 1, updateTime := later }).Tidy s' := by
  refine ⟨_, rfl, ⟨hback.1, ?_⟩, hroot, fun hfits => ?_⟩
  · rintro _ ⟨⟩
    exact hback.1
  have hext := Store.extends_saveVersion hs
  have hcounts := hext.counts (hcounts (hext.fits hfits))
  obtain ⟨-, versions, rfl, -, hrow⟩ := Store.saveVersion_eq_ok hs
  have hrow : versions.row? (VersionRow.key d.id (d.version + 1)) =
      some (.ofGraph d.id (d.version + 1) d.draft now) := (hrow _).trans (if_pos rfl)
  have hlt : d.version + 1 < 0x8000000000000000 := by
    -- the last number that fits the column has no successor there
    have hpos := hfits _ _ hrow
    have hsmall : d.version < 0x8000000000000000 := hcounts.small
    refine Nat.lt_of_le_of_ne hsmall fun he => ?_
    rw [VersionRow.ofGraph, he] at hpos
    exact absurd hpos (by decide : ¬ 0 ≤ toSigned64 0x8000000000000000)
  refine ⟨hlt, nofun, fun _ => ⟨_, _, rfl, hrow⟩, fun v h1 hv => ?_⟩
  by_cases hlast : v = d.version + 1
  · rw [hlast]
    show (versions.row? _).isSome
    rw [hrow]
    rfl
  · exact hcounts.history v h1 (Nat.le_of_lt_succ (Nat.lt_of_le_of_ne hv hlast))

theorem compile_eq_ok {v : Nat} {g : Graph} {f : Flow}
    (h : (Flow.compile flow v g).mapError Flow.Defect.toFailure = .ok f) :
    Flow.compile flow v g = .ok f := by
  cases hc : Flow.compile flow v g with
  | error e => rw [hc] at h; cases h
  | ok f' => rw [hc] at h; cases h; rfl

theorem publish_firm (hw : w.Tidy) : Firm (publish flow).run w := by
  unfold publish
  refine firm_lift (a := .now) trivial fun w₁ hb₁ => ⟨trivial, fun c₁ => ?_⟩
  refine firm_loadFlow (hb₁.tidy hw) fun w₂ d hw₂ hd => ?_
  obtain ⟨rfl, hback, hroot, hcounts⟩ := hw₂.loadFlow hd
  refine firm_pure fun f hf => ?_
  have hf := compile_eq_ok hf
  rw [ExceptT.run_bind]
  refine fun w₃ hb₃ => ⟨⟨hback.1, hroot, f, hf⟩, fun c₃ => ?_⟩
  have hw₃ := hb₃.tidy hw₂
  have honward := onward_answer (a := .saveVersion d.id (d.version + 1) d.draft
    (w₁.answer c₁ .now).2.millis) c₃ hw₃ ⟨hback.1, hroot, f, hf⟩
  simp only [answer] at honward ⊢
  cases hs : w₃.store.saveVersion d.id (d.version + 1) d.draft w₁.clock with
  | error e => exact ⟨trivial, fun hne => absurd ⟨rfl, rfl⟩ hne⟩
  | ok s' =>
    rw [hs] at honward
    -- the rest of the call does not fail
    refine (fun h => ⟨firm_of_ok h, fun _ => h⟩) ?_
    have hcounts₃ : w₃.store.Fits → d.Counts w₃.store :=
      fun hfits => hb₃.store.counts (hcounts (hb₃.store.fits hfits))
    refine saveFlow_ok (honward.tidy hw₃) (tidy_published hback hroot hcounts₃ hs)
      fun w₄ hw₄ hb₄ => ?_
    refine always_lift (p := remember f) fun w₅ hb₅ => ⟨?_, fun c₅ => ⟨_, rfl⟩⟩
    have hstored : s'.versionFlow d.id (d.version + 1) = .ok f := by
      obtain ⟨hreg, versions, rfl, -, hrow⟩ := Store.saveVersion_eq_ok hs
      exact Store.versionFlow_eq_of_row hreg ((hrow _).trans (if_pos rfl)) hback.1 hf
    have honward₅ := hb₄.trans hb₅
    exact .of_versionFlow (honward₅.store.versionFlow (hb₅.tidy hw₄).registered hstored)

/-! ### Looking versions up -/

/-- What is answered for a version is what is stored, and a version that is stored is had. -/
theorem version_onward (hw : w.Tidy) :
    (version flow v).run.Always Onward (fun w a => a.Orderly w ∧ a.Mute)
      (fun o w' => (∀ f, o = .ok f → w'.store.versionFlow flow v = .ok f) ∧
        ((w.store.versions.row? (VersionRow.key flow v)).isSome → ∃ f, o = .ok f)) w := by
  unfold version
  refine always_lift (p := question (.cached (VersionRow.key flow v)))
    (always_question fun w₁ hb₁ => ⟨⟨trivial, trivial⟩, fun c => ?_⟩)
  have hw₁ := hb₁.tidy hw
  simp only [answer]
  cases hf : w₁.compiled.get? (VersionRow.key flow v) with
  | some f =>
    have hstored := (hw₁.backs _ f hf).eq
    exact ⟨fun g hg => Except.ok.inj hg ▸ hstored, fun _ => ⟨f, rfl⟩⟩
  | none =>
    refine always_tried (p := loadVersion flow v) fun w₂ hb₂ => ⟨⟨trivial, trivial⟩, fun c => ?_⟩
    have hw₂ := hb₂.tidy hw₁
    have hstored (h : (w.store.versions.row? (VersionRow.key flow v)).isSome) :
        ∃ f, w₂.store.versionFlow flow v = .ok f := by
      obtain ⟨r, hr⟩ := Option.isSome_iff_exists.mp h
      refine hw₂.exists_versionFlow ?_
      rw [hb₂.store.versions _ _ (hb₁.store.versions _ _ hr)]
      rfl
    show Always _ _ _ (.done (w₂.store.loadVersion flow v)) w₂
    cases hg : w₂.store.loadVersion flow v with
    | error e =>
      refine ⟨fun f hf => ?_, fun h => ?_⟩
      · cases hf
      · obtain ⟨f, hf⟩ := hstored h
        rw [Store.versionFlow_eq_of_error hg] at hf
        cases hf
    | ok g =>
      refine always_pure (fun e he => ⟨fun f hf => ?_, fun h => ?_⟩) fun f hf => ?_
      · cases hf
      · obtain ⟨f, hf⟩ := hstored h
        rw [Store.versionFlow_eq hg, he] at hf
        cases hf
      · have hf : w₂.store.versionFlow flow v = .ok f := (Store.versionFlow_eq hg).trans hf
        refine always_lift (p := remember f) fun w₃ hb₃ => ?_
        have hf₃ := hb₃.store.versionFlow (hb₃.tidy hw₂).registered hf
        exact ⟨⟨.of_versionFlow hf₃, trivial⟩, fun c =>
          ⟨fun g hg => Except.ok.inj hg ▸ hf₃, fun _ => ⟨f, rfl⟩⟩⟩

/-- A stored version of the flow is had, or there is no live one. -/
def HasLive (flow : String) (o : Outcome Flow) (w : World) : Prop :=
  (∃ v f, v ≠ 0 ∧ o = .ok f ∧ w.store.versionFlow flow v = .ok f) ∨
    o = .error (.plain .flow ("flow '" ++ flow ++ "' is not published"))

theorem HasLive.onward {o : Outcome Flow} (h : HasLive flow o w) (hb : w.Onward w')
    (hw' : w'.Tidy) : HasLive flow o w' := by
  rcases h with ⟨v, f, hv, ho, hf⟩ | ho
  · exact .inl ⟨v, f, hv, ho, hb.store.versionFlow hw'.registered hf⟩
  · exact .inr ho

/-- The live version of a flow that is stored is had, unless there is none. -/
theorem published_onward (hw : w.Tidy) (hflow : (w.store.flows.row? flow).isSome) :
    (published flow).run.Always Onward (fun w a => a.Orderly w ∧ a.Mute)
      (fun o w' => w'.store.Fits → HasLive flow o w') w := by
  unfold published
  refine always_tried (p := loadFlow flow) fun w₁ hb₁ => ⟨⟨trivial, trivial⟩, fun c => ?_⟩
  have hw₁ := hb₁.tidy hw
  obtain ⟨d, hd⟩ := hw₁.exists_loadFlow (hb₁.store.flows flow hflow)
  obtain ⟨rfl, -, -, hcounts⟩ := hw₁.loadFlow hd
  simp only [answer, hd]
  show Always _ _ _ (ExceptT.run (if d.version = 0 then _ else _)) w₁
  split
  · exact fun _ => .inr rfl
  · rename_i hv
    have hversion : (version d.id d.version).run.Always _ _ _ w₁ := version_onward hw₁
    refine ((relies_onward (·.1)).reaches hw₁ hversion).imp_post fun o w' ho hfits => .inl ?_
    obtain ⟨⟨hok, hhad⟩, hb, -⟩ := ho
    have hcounts := hcounts (hb.store.fits hfits)
    obtain ⟨f, rfl⟩ := hhad (hcounts.history d.version (Nat.pos_of_ne_zero hv) (Nat.le_refl _))
    exact ⟨d.version, f, hv, rfl, hok f rfl⟩

theorem firm_published (hw : w.Tidy) : Firm (published flow).run w := by
  unfold published
  refine firm_loadFlow hw fun w₁ d hw₁ _ => ?_
  show Firm (ExceptT.run (if d.version = 0 then _ else _)) w₁
  split
  · exact trivial
  · exact firm_of_always (version_onward hw₁)

/-- **Every call** asks what is in order, and once it has changed something it does not fail. -/
theorem Call.firm {c : Call} (hc : c.Proper) (hw : w.Tidy) : Firm c.program w := by
  cases c with
  | create name => exact createFlow_firm name hw
  | draft flow g => exact saveDraft_firm hc hw
  | publish flow => exact publish_firm hw
  | published flow => exact firm_published hw
  | version flow v => exact firm_of_always (version_onward hw)

end Registry

end Dialogue
