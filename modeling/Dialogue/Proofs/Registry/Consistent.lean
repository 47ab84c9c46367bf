import Dialogue.Proofs.Registry.Calls

/-! # Consistent flows and versions

Whatever calls of the registry are made at the same time, flows and versions are consistent whenever
one looks at them, and no row of a version ever changes. This rests on drafts that are read back as
they were written: a number that is read as another one changes the live graph of its flow with the
next draft.

* `consistent`: what a whole course of calls leaves.
* `inconsistent_drifting`: what becomes of a graph that is not read back. -/

namespace Dialogue

open Program Procedure World

/-- Flows and versions are consistent. -/
structure Store.Consistent (s : Store) : Prop where
  /-- A flow has the versions up to its own one. -/
  history : ∀ id r, s.flows.row? id = some r → ∀ v : Nat, 1 ≤ v → v ≤ r.version →
    (s.versions.row? (VersionRow.key id v)).isSome
  /-- The graph that is live is that of the version. -/
  live : ∀ id r, s.flows.row? id = some r → 0 < r.version →
    ∃ x, s.versions.row? (VersionRow.key id r.version.toNat) = some x ∧ r.published = some x.graph
  unpublished : ∀ id r, s.flows.row? id = some r → r.version = 0 → r.published = none
  counted : ∀ id r, s.flows.row? id = some r → 0 ≤ r.version
  /-- Drafts are read, and have the start node that all graphs have. -/
  drafts : ∀ id r, s.flows.row? id = some r → ∃ d, r.toDefinition = .ok d ∧ d.draft.Rooted
  /-- So do versions, and they compile. -/
  versions : ∀ key x, s.versions.row? key = some x → ∃ flow v g f, key = VersionRow.key flow v ∧
    x.toGraph = .ok g ∧ Flow.compile flow v g = .ok f ∧ g.Rooted

/-- Tidy worlds are consistent as long as the numbers of versions fit. -/
theorem World.Tidy.isConsistent {w : World} (hw : w.Tidy) (hfits : w.store.Fits) :
    w.store.Consistent := by
  have hflow {id : String} {r : FlowRow} (hr : w.store.flows.row? id = some r) :
      ∃ d, r = .ofDefinition d ∧ d.id = id ∧ d.ReadsBack ∧ d.draft.Rooted ∧ d.Counts w.store ∧
        (FlowRow.ofDefinition d).version = d.version := by
    obtain ⟨d, rfl, hback, hroot, hcounts⟩ := hw.flows id r hr
    have hcounts := hcounts hfits
    refine ⟨d, rfl, Collection.id_of_row? hr, hback, hroot, hcounts, ?_⟩
    rw [FlowRow.ofDefinition, toSigned64_eq hcounts.small]
  constructor
  · intro id r hr v h1 hv
    obtain ⟨d, rfl, rfl, -, -, hcounts, hversion⟩ := hflow hr
    exact hcounts.history v h1 (by omega)
  · intro id r hr hpos
    obtain ⟨d, rfl, rfl, -, -, hcounts, hversion⟩ := hflow hr
    rw [hversion] at hpos ⊢
    obtain ⟨g, now, hg, hrow⟩ := hcounts.live (by omega)
    exact ⟨_, hrow, by rw [FlowRow.ofDefinition, hg]; rfl⟩
  · intro id r hr hzero
    obtain ⟨d, rfl, -, -, -, hcounts, hversion⟩ := hflow hr
    rw [FlowRow.ofDefinition, hcounts.unpublished (by omega)]
    rfl
  · intro id r hr
    obtain ⟨d, rfl, -, -, -, -, hversion⟩ := hflow hr
    omega
  · intro id r hr
    obtain ⟨d, rfl, -, hback, hroot, -⟩ := hflow hr
    exact ⟨_, FlowRow.toDefinition_ofDefinition hback, hroot⟩
  · intro key x hx
    obtain ⟨flow, v, g, now, rfl, hback, hroot, f, hf⟩ := hw.versions key x hx
    exact ⟨flow, v, g, f, (Collection.id_of_row? hx).symm, hback, hf, hroot⟩

namespace Registry

variable {c c' : Calls} {now : Millis}

/-- In the course of calls with drafts that are read back the world is tidy and all calls are
firm. -/
theorem Course.sound (h : Course Call.Proper (Calls.new now) c) :
    Crew.Sound (fun _ p w => Firm p w) Tidy c := by
  have hnew : Crew.Sound (fun (i : Call) p w => Firm (α := i.Value) p w) Tidy (Calls.new now) :=
    Crew.sound_nil (tidy_new now)
  exact (Crew.Course.onward (relies_onward id) (fun _ => conduct_firm)
    (fun hw ⟨hproper, hp⟩ => hp ▸ Call.firm hproper hw) hnew h).2

/-- What a sound crew of calls comes to. -/
theorem Course.onward (hc : Crew.Sound (fun (i : Call) p w => Firm (α := i.Value) p w) Tidy c)
    (h : Course Call.Proper c c') : c.world.Onward c'.world :=
  (Crew.Course.onward (relies_onward id) (fun _ => conduct_firm)
    (fun hw ⟨hproper, hp⟩ => hp ▸ Call.firm hproper hw) hc h).1

/-- What always holds of a call holds of it in the course of time. -/
theorem Course.member {guard : World → Ask → Prop} {i : Call} {k : Nat}
    {p : Program (Outcome i.Value)} {post : Outcome i.Value → World → Prop}
    (hc : Crew.Sound (fun (i : Call) p w => Firm (α := i.Value) p w) Tidy c)
    (h : Course Call.Proper c c') (hk : c.members[k]? = some ⟨i, p⟩)
    (hguard : ∀ {w a}, guard w a → a.Orderly w)
    (hpost : ∀ {o u v}, Onward u v → post o u → post o v)
    (hp : p.Always Onward guard post c.world) :
    ∃ p', c'.members[k]? = some ⟨i, p'⟩ ∧ p'.Always Onward guard post c'.world := by
  have hkept : Crew.Conduct Onward guard fun (p : Program (Outcome i.Value)) w =>
      p.Always Onward guard post w := (relies_onward hguard).always hpost
  have hQ : Crew.Conduct Onward Ask.Orderly fun p w => p.Always Onward guard post w :=
    ⟨hkept.onward, fun h => ⟨hguard (hkept.ask h).1, (hkept.ask h).2⟩⟩
  exact Crew.Course.member (relies_onward id) (fun _ => conduct_firm)
    (fun hw ⟨hproper, hp⟩ => hp ▸ Call.firm hproper hw) hQ hc h hk hp

/-- A call is made. -/
theorem Course.joined {may : Call → Prop} {i : Call} (h : Course may (Calls.new now) c)
    (hi : may i) : Course may (Calls.new now) (c.joined i i.program) :=
  h.tail (.join ⟨hi, rfl⟩)

/-- A call that has changed a flow or a version does not fail. -/
theorem Course.not_failed {k : Nat} {i : Call} {a : Ask}
    {next : a.Answer → Program (Outcome i.Value)} {circ : Circumstance}
    (h : Course Call.Proper (Calls.new now) c) (hk : c.members[k]? = some ⟨i, .ask a next⟩)
    (hchange : ¬ c.world.Unchanged (c.world.answer circ a).1)
    (h' : Course Call.Proper ⟨(c.world.answer circ a).1,
      c.members.set k ⟨i, next (c.world.answer circ a).2⟩⟩ c') (e : Failure) :
    c'.members[k]? ≠ some ⟨i, .done (.error e)⟩ := by
  intro hk'
  obtain ⟨-, hfirm⟩ := (Course.sound h).member hk _ (.refl _)
  have hlt : k < c.members.length := (List.getElem?_eq_some_iff.mp hk).1
  have hstep := Course.sound (h.tail (.ask hk trivial circ))
  obtain ⟨p', hp', hdone⟩ := Course.member hstep h' (List.getElem?_set_self hlt) id (fun _ => id)
    ((hfirm circ).2 hchange)
  cases Option.some.inj (hp'.symm.trans hk')
  obtain ⟨x, hx⟩ := hdone
  cases hx

/-- A call for a version that is stored gives the compiled row. -/
theorem Course.version_had {flow : String} {v : Nat} {r : VersionRow} {o : Outcome Flow}
    (h : Course Call.Proper (Calls.new now) c)
    (hr : c.world.store.versions.row? (VersionRow.key flow v) = some r)
    (h' : Course Call.Proper (c.joined (.version flow v) (Call.version flow v).program) c')
    (hk : c'.members[c.members.length]? = some ⟨.version flow v, .done o⟩) :
    ∃ g f, r.toGraph = .ok g ∧ Flow.compile flow v g = .ok f ∧ o = .ok f := by
  have hw := (Course.sound h).world
  obtain ⟨f, hf⟩ := hw.exists_versionFlow (by rw [hr]; rfl)
  obtain ⟨g, hg, hcompile⟩ := Store.versionFlow_eq_ok hf
  obtain ⟨-, r', hr', hgraph⟩ := Store.loadVersion_eq_ok hg
  obtain rfl := Option.some.inj (hr.symm.trans hr')
  refine ⟨g, f, hgraph, hcompile, ?_⟩
  -- the row is there for ever, so what is answered is what it holds
  have hversion : (Registry.version flow v).run.Always _ _ _ _ := version_onward hw
  have halways : (Registry.version flow v).run.Always Onward (fun w a => a.Orderly w ∧ a.Mute)
      (fun o _ => o = .ok f) c.world :=
    ((relies_onward (·.1)).reaches hw hversion).imp_post fun o w' ⟨⟨hok, hhad⟩, hb, hw'⟩ => by
      obtain ⟨f', rfl⟩ := hhad (by rw [hr]; rfl)
      exact (hok f' rfl).symm.trans (hb.store.versionFlow hw'.registered hf)
  have hjoined := Course.sound (Course.joined (i := .version flow v) h trivial)
  obtain ⟨p', hp', hdone⟩ := Course.member hjoined h' (Crew.getElem?_joined _ _ _) (·.1)
    (fun _ => id) halways
  cases Option.some.inj (hp'.symm.trans hk)
  exact hdone

/-- A call for the live version of a flow that is stored. -/
theorem Course.published_had {flow : String} {o : Outcome Flow}
    (h : Course Call.Proper (Calls.new now) c) (hflow : (c.world.store.flows.row? flow).isSome)
    (h' : Course Call.Proper (c.joined (.published flow) (Call.published flow).program) c')
    (hfits : c'.world.store.Fits)
    (hk : c'.members[c.members.length]? = some ⟨.published flow, .done o⟩) :
    HasLive flow o c'.world := by
  have hw := (Course.sound h).world
  have halways : (published flow).run.Always Onward (fun w a => a.Orderly w ∧ a.Mute)
      (fun o w' => w'.Tidy ∧ (w'.store.Fits → HasLive flow o w')) c.world :=
    ((relies_onward (·.1)).reaches hw (published_onward hw hflow)).imp_post
      fun o w' ⟨hlive, _, hw'⟩ => ⟨hw', hlive⟩
  have hjoined := Course.sound (Course.joined (i := .published flow) h trivial)
  obtain ⟨p', hp', hdone⟩ := Course.member hjoined h' (Crew.getElem?_joined _ _ _) (·.1)
    (fun hb ⟨hw, hlive⟩ => ⟨hb.tidy hw, fun hfits =>
      (hlive (hb.store.fits hfits)).onward hb (hb.tidy hw)⟩) halways
  cases Option.some.inj (hp'.symm.trans hk)
  exact hdone.2 hfits

/-- **The registry is consistent** in the course of any calls whose drafts are read back, as long as
the numbers of versions fit. A row of a version stays as it is. A call that has changed a flow or a
version does not fail. A call for a version that is stored gives the compiled row, whatever is at
hand, and a call for the live version of a flow gives a stored version, unless there is no live one.
Every call can come to its end. -/
theorem consistent (h : Course Call.Proper (Calls.new now) c) (hfits : c.world.store.Fits) :
    c.world.store.Consistent ∧
    (∀ c', Course Call.Proper c c' → ∀ key r, c.world.store.versions.row? key = some r →
      c'.world.store.versions.row? key = some r) ∧
    (∀ (k : Nat) (i : Call) (a : Ask) (next : a.Answer → Program (Outcome i.Value))
      (circ : Circumstance), c.members[k]? = some ⟨i, .ask a next⟩ →
      ¬ c.world.Unchanged (c.world.answer circ a).1 →
      ∀ c', Course Call.Proper ⟨(c.world.answer circ a).1,
          c.members.set k ⟨i, next (c.world.answer circ a).2⟩⟩ c' →
        ∀ e, c'.members[k]? ≠ some ⟨i, .done (.error e)⟩) ∧
    (∀ flow v r, c.world.store.versions.row? (VersionRow.key flow v) = some r →
      ∀ c', Course Call.Proper (c.joined (.version flow v) (Call.version flow v).program) c' →
        ∀ o, c'.members[c.members.length]? = some ⟨.version flow v, .done o⟩ →
          ∃ g f, r.toGraph = .ok g ∧ Flow.compile flow v g = .ok f ∧ o = .ok f) ∧
    (∀ flow, (c.world.store.flows.row? flow).isSome →
      ∀ c', Course Call.Proper (c.joined (.published flow) (Call.published flow).program) c' →
        c'.world.store.Fits →
        ∀ o, c'.members[c.members.length]? = some ⟨.published flow, .done o⟩ →
          HasLive flow o c'.world) ∧
    (∀ (k : Nat) (i : Call) (p : Program (Outcome i.Value)), c.members[k]? = some ⟨i, p⟩ →
      ∃ c' o, Course Call.Proper c c' ∧ c'.members[k]? = some ⟨i, .done o⟩) := by
  have hc := Course.sound h
  refine ⟨hc.world.isConsistent hfits, fun c' h' => (Course.onward hc h').store.versions, ?_, ?_,
    ?_, fun k i p hk => ?_⟩
  · exact fun k i a next circ hk hchange c' h' e => Course.not_failed h hk hchange h' e
  · exact fun flow v r hr c' h' o hk => Course.version_had h hr h' hk
  · exact fun flow hflow c' h' hfits' o hk => Course.published_had h hflow h' hfits' hk
  · exact ⟨_, _, Crew.Course.runs (calm .unreachable) 0 hk fun _ _ => trivial,
      List.getElem?_set_self (List.getElem?_eq_some_iff.mp hk).1⟩

/-! ### Calls one after the other -/

/-- A call is made and comes to its end while nothing else happens. -/
def Calls.calling (c : Calls) (i : Call) : Calls :=
  let ended := World.run (calm .unreachable) 0 i.program c.world
  ⟨ended.2.1, c.members ++ [⟨i, .done ended.2.2⟩]⟩

theorem Course.calling {may : Call → Prop} {i : Call} (h : Course may (Calls.new now) c)
    (hi : may i) : Course may (Calls.new now) (c.calling i) := by
  have hruns : Course may (c.joined i i.program) _ :=
    Crew.Course.runs (calm .unreachable) 0 (Crew.getElem?_joined c i i.program) fun _ _ => trivial
  simp only [Crew.joined, List.set_append_right _ _ (Nat.le_refl _), Nat.sub_self,
    List.set_cons_zero] at hruns
  exact (Course.joined h hi).trans hruns

/-- Numbers fit if they do in all rows. -/
theorem fits_of_all {s : Store} (h : (s.versions.rows.all fun r => 0 ≤ r.version) = true) :
    s.Fits := by
  intro key r hr
  have := List.all_eq_true.mp h r (List.mem_of_find?_eq_some hr)
  exact of_decide_eq_true this

/-- A flow is made and published. -/
def opened : Calls := ((Calls.new 0).calling (.create "")).calling (.publish "f1")

theorem opened_rows :
    ((opened.world.store.flows.row? "f1").map (·.version)) = some 1 ∧
      (opened.world.store.versions.rows.all fun r => 0 ≤ r.version) = true := by
  decide +kernel

/-- The flow that was published has its graph as its first version. -/
theorem consistent_opened : Course Call.Proper (Calls.new 0) opened ∧ opened.world.store.Fits ∧
    ∃ r x, opened.world.store.flows.row? "f1" = some r ∧ r.version = 1 ∧
      opened.world.store.versions.row? (VersionRow.key "f1" 1) = some x ∧
      r.published = some x.graph := by
  obtain ⟨hversion, hall⟩ := opened_rows
  have hcourse : Course Call.Proper (Calls.new 0) opened :=
    Course.calling (Course.calling .refl trivial) trivial
  have hfits := fits_of_all hall
  obtain ⟨r, hr, hv⟩ := Option.map_eq_some_iff.mp hversion
  have hconsistent := (consistent hcourse hfits).1
  obtain ⟨x, hx, hgraph⟩ := hconsistent.live "f1" r hr (by omega)
  rw [hv] at hx
  exact ⟨hcourse, hfits, r, x, hr, hv, hx, hgraph⟩

/-- A graph with a number whose text is read as another one, and so is the text of that. -/
def drifting : Graph :=
  ⟨[⟨"start", "start", .obj [("x", .float (.ofBits 4507492795417909513))], none⟩], []⟩

/-- The graph is published, and then another draft is kept. -/
def drifted : Calls :=
  ((((Calls.new 0).calling (.create "")).calling (.draft "f1" drifting)).calling
    (.publish "f1")).calling (.draft "f1" .initial)

theorem drifted_rows :
    ((drifted.world.store.flows.row? "f1").map (·.version)) = some 1 ∧
      ((drifted.world.store.flows.row? "f1").map (·.published)) ≠
        ((drifted.world.store.versions.row? (VersionRow.key "f1" 1)).map (some ·.graph)) ∧
      (drifted.world.store.versions.rows.all fun r => 0 ≤ r.version) = true := by
  decide +kernel

/-- **A live graph that is not that of its version**: another draft has changed it. -/
theorem inconsistent_drifting : Course (fun _ => True) (Calls.new 0) drifted ∧
    drifted.world.store.Fits ∧ ∃ r, drifted.world.store.flows.row? "f1" = some r ∧
      r.version = 1 ∧ ¬ ∃ x, drifted.world.store.versions.row? (VersionRow.key "f1" 1) = some x ∧
        r.published = some x.graph := by
  obtain ⟨hversion, hne, hall⟩ := drifted_rows
  obtain ⟨r, hr, hv⟩ := Option.map_eq_some_iff.mp hversion
  refine ⟨?_, fits_of_all hall, r, hr, hv, ?_⟩
  · have hmade : Course (fun _ => True) (Calls.new 0) ((Calls.new 0).calling (.create "")) :=
      Course.calling .refl trivial
    exact Course.calling (Course.calling (Course.calling hmade trivial) trivial) trivial
  · rintro ⟨x, hx, hgraph⟩
    rw [hr, hx, Option.map_some, Option.map_some, hgraph] at hne
    exact hne rfl

end Registry

end Dialogue
