import Dialogue.Proofs.Command.Course

/-! # What the registry answers

The registry answers a compiled flow that is at hand, or else compiles the stored version. So it
serves a library as soon as both belong to it.

* `version_always`, `published_always`: the answers to a look-up of a version and of the live one.
* `Library.serves_any`: whatever others do, the registry serves the library that admits all. -/

namespace Dialogue

open Program Procedure World

/-- The stored version of a flow, compiled. -/
def Store.versionFlow (s : Store) (flow : String) (v : Nat) : Outcome Flow := do
  (Flow.compile flow v (← s.loadVersion flow v)).mapError Flow.Defect.toFailure

theorem Store.versionFlow_eq {s : Store} {flow : String} {v : Nat} {g : Graph}
    (h : s.loadVersion flow v = .ok g) :
    s.versionFlow flow v = (Flow.compile flow v g).mapError Flow.Defect.toFailure := by
  unfold versionFlow
  rw [h]
  rfl

theorem Store.versionFlow_eq_of_error {s : Store} {flow : String} {v : Nat} {e : Failure}
    (h : s.loadVersion flow v = .error e) : s.versionFlow flow v = .error e := by
  unfold versionFlow
  rw [h]
  rfl

namespace Registry

variable {beside : World → World → Prop} {remembers : String → Flow → Prop} {I : World → Prop}
  {sid : String} {writes : SessionRow → Session → Prop} {A : Outcome Flow → Prop} {flow : String}
  {w : World}

/-- What the registry answers for a version, from what is at hand and what is stored. -/
theorem version_always {v : Nat} (hI : Stable beside remembers I)
    (hcached : ∀ w f, I w → w.compiled.get? (VersionRow.key flow v) = some f → A (.ok f))
    (hstored : ∀ w, I w → A (w.store.versionFlow flow v))
    (hkept : ∀ w f, I w → w.store.versionFlow flow v = .ok f →
      remembers (VersionRow.key f.id f.version) f) (hw : I w) :
    (version flow v).run.Always beside (Ask.Allowed sid writes remembers)
      (fun o w => A o ∧ I w) w := by
  unfold version
  refine always_lift (p := question (.cached (VersionRow.key flow v))) ?_
  refine fun w₁ hb => ⟨trivial, fun c => ?_⟩
  have hw₁ := hI.others hb hw
  show Always _ _ _ (.done (w₁.compiled.get? (VersionRow.key flow v))) w₁
  cases hf : w₁.compiled.get? (VersionRow.key flow v) with
  | some f => exact ⟨hcached w₁ f hw₁ hf, hw₁⟩
  | none =>
    refine always_tried (p := loadVersion flow v) fun w₂ hb => ⟨trivial, fun c => ?_⟩
    have hw₂ := hI.others hb hw₁
    have ho := hstored w₂ hw₂
    have hr := hkept w₂
    show Always _ _ _ (.done (w₂.store.loadVersion flow v)) w₂
    cases hg : w₂.store.loadVersion flow v with
    | error e => exact ⟨Store.versionFlow_eq_of_error hg ▸ ho, hw₂⟩
    | ok g =>
      rw [Store.versionFlow_eq hg] at ho hr
      refine always_tried (p := compile flow v g) ?_
      show Always _ _ _ (.done ((Flow.compile flow v g).mapError Flow.Defect.toFailure)) w₂
      cases hc : (Flow.compile flow v g).mapError Flow.Defect.toFailure with
      | error e => exact ⟨hc ▸ ho, hw₂⟩
      | ok f =>
        have hr := hr f hw₂ hc
        refine always_lift (p := remember f) ?_
        refine fun w₃ hb => ⟨hr, fun c => ?_⟩
        exact ⟨hc ▸ ho, hI.remembered hr (hI.others hb hw₂)⟩

/-- What the registry answers for the live version. -/
theorem published_always (hI : Stable beside remembers I)
    (hlost : ∀ w e, I w → w.store.loadFlow flow = .error e → A (.error e))
    (hnone : ∀ w d, I w → w.store.loadFlow flow = .ok d → d.version = 0 →
      A (.error (.plain .flow ("flow '" ++ flow ++ "' is not published"))))
    (hlive : ∀ w d, I w → w.store.loadFlow flow = .ok d → d.version ≠ 0 →
      (version flow d.version).run.Always beside (Ask.Allowed sid writes remembers)
        (fun o w => A o ∧ I w) w) (hw : I w) :
    (published flow).run.Always beside (Ask.Allowed sid writes remembers)
      (fun o w => A o ∧ I w) w := by
  unfold published
  refine always_tried (p := loadFlow flow) fun w₁ hb => ⟨trivial, fun c => ?_⟩
  have hw₁ := hI.others hb hw
  show Always _ _ _ (.done (w₁.store.loadFlow flow)) w₁
  cases hd : w₁.store.loadFlow flow with
  | error e => exact ⟨hlost w₁ e hw₁ hd, hw₁⟩
  | ok d =>
    show Always _ _ _ (ExceptT.run (if d.version = 0 then _ else _)) w₁
    split
    · rename_i hv
      exact ⟨hnone w₁ d hw₁ hd hv, hw₁⟩
    · rename_i hv
      exact hlive w₁ d hw₁ hd hv

end Registry

/-- The library that admits every answer. -/
def Library.any : Library := ⟨fun _ _ _ => True, fun _ _ => True⟩

/-- Whatever others do, the registry answers something. -/
theorem Library.serves_any (beside : World → World → Prop) (B : World → Prop) :
    any.Serves beside (fun _ _ => True) B := by
  have hversion {I : World → Prop} (hI : Stable beside (fun _ _ => True) I) {sid : String}
      {writes : SessionRow → Session → Prop} (flow : String) (v : Nat) {w : World} (hw : I w) :
      (Registry.version flow v).run.Always beside (Ask.Allowed sid writes fun _ _ => True)
        (fun _ w => True ∧ I w) w :=
    Registry.version_always (A := fun _ => True) hI (fun _ _ _ _ => trivial) (fun _ _ => trivial)
      (fun _ _ _ _ => trivial) hw
  refine ⟨fun hI _ _ _ flow v _ hw => hversion hI flow v hw, fun hI _ _ _ flow _ hw => ?_⟩
  exact Registry.published_always (A := fun _ => True) hI (fun _ _ _ _ => trivial)
    (fun _ _ _ _ _ => trivial) (fun w d hw _ _ => hversion hI flow d.version hw) hw

end Dialogue
