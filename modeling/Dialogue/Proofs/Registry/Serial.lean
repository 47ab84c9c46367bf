import Dialogue.Proofs.Registry.Edits

/-! # Edits one after the other

Calls that save drafts of a flow and publish it at the same time come to what they would come to one
after the other, in the order in which they save the flow, if what they save is fresh. A version is
kept before its flow is saved, so the next version is kept by at most one call that has not come to
its end, and the others fail.

* `Settled.drafts`, `Settled.publishes`: a call alone.
* `Ledger`: what calls have done so far, beside what the same calls do one after the other.
* `Ledger.step`, `Ledger.course`: it is kept in the course of time.
* `linearizes`: what all calls come to in the end.
* `undone`: what they come to when a draft is not fresh. -/

namespace Dialogue

open Program Procedure World

namespace World

variable {flow : String} {w : World} {d d' : Definition} {g : Graph} {f : Flow} {now : Millis}

/-- **A draft that is saved alone** is the draft of the flow. -/
theorem Settled.drafts (hw : w.Settled flow d) (hg : g.ReadsBack)
    (hd : Registry.withDraft d g w.clock = .ok d') (peer : Http.Attempt) :
    w.perform peer ((Registry.Edit.draft g).program flow) = (w.withFlow d', .ok d') ∧
      (w.withFlow d').Settled flow d' := by
  obtain ⟨hone, -, rfl⟩ := Registry.withDraft_eq_ok_iff.mp hd
  exact ⟨perform_saveDraft peer hw.loadFlow hd,
    hasFlow_withFlow hw.registered hw.id ⟨hg, hw.readsBack.2⟩ hw.small hone, hw.next⟩

/-- A version of the flow is kept, and the flow is as it was. -/
theorem HasFlow.kept (h : w.HasFlow flow d) {v : Nat} {s : Store}
    (hs : w.store.saveVersion flow v g now = .ok s) :
    (∀ v', s.versions.row? (VersionRow.key flow v') = if v' = v then
      some (.ofGraph flow v g now) else w.store.versions.row? (VersionRow.key flow v')) ∧
    HasFlow flow { w with store := s } d := by
  obtain ⟨-, versions, rfl, -, hrow⟩ := Store.saveVersion_eq_ok hs
  refine ⟨fun v' => (hrow _).trans ?_, h.registered, h.row, h.readsBack, h.small, h.one⟩
  by_cases hv : v' = v
  · rw [hv, if_pos rfl, if_pos rfl]
  · rw [if_neg hv, if_neg fun he => hv (VersionRow.key_injective he).2]

/-- **A flow that is published alone** has its draft as its next version. -/
theorem Settled.publishes (hw : w.Settled flow d)
    (hf : Flow.compile flow (d.version + 1) d.draft = .ok f) (peer : Http.Attempt) :
    let w' := w.offering (d.live w.clock) f
    w.perform peer (Registry.Edit.publish.program flow) = (w', .ok (d.live w.clock)) ∧
      (∀ v, w'.store.versions.row? (VersionRow.key flow v) = if v = d.version + 1 then
        some (.ofGraph flow (d.version + 1) d.draft w.clock)
        else w.store.versions.row? (VersionRow.key flow v)) ∧
      (d.version + 1 < 0x8000000000000000 → w'.Settled flow (d.live w.clock)) := by
  obtain rfl := hw.id
  have hfree := hw.next _ (Nat.lt_succ_self _)
  have hs : w.store.saveVersion d.id (d.version + 1) d.draft w.clock =
      .ok (w.withVersion (d.live w.clock)).store := Store.saveVersion_eq hw.registered hfree
  obtain ⟨hrow, hkept⟩ := hw.kept hs
  refine ⟨perform_publish peer hw.loadFlow hf hfree, hrow, fun hsmall => ?_⟩
  have hsaved := hasFlow_withFlow hkept.registered (show (d.live w.clock).id = d.id from rfl)
    ⟨hw.readsBack.1, fun _ hg => Option.some.inj hg ▸ hw.readsBack.1⟩ hsmall hw.one
  refine ⟨⟨hsaved.registered, hsaved.row, hsaved.readsBack, hsaved.small, hsaved.one⟩,
    fun v hv => (hrow v).trans ?_⟩
  have hv : d.version + 1 < v := hv
  rw [if_neg (by omega), hw.next v (by omega)]

end World

namespace Registry

variable {flow : String} {w s s' : World} {d cur : Definition} {c c' : Edits}
  {l : List (Nat × Edit × Definition)}

/-- Calls are made one after the other, each of them alone and at some time, and none fails. -/
inductive Serial (flow : String) (w : World) : List (Edit × Definition) → World → Prop
  | nil : Serial flow w [] w
  | snoc {l : List (Edit × Definition)} {w₁ w₂ : World} {e : Edit} {x : Definition} {now : Instant}
      {peer : Http.Attempt} (h : Serial flow w l w₁)
      (hrun : perform { w₁ with instant := now } peer (e.program flow) = (w₂, .ok x)) :
      Serial flow w (l ++ [(e, x)]) w₂

/-- What calls have made of a flow, one after the other: its versions are counted, its draft is the
last one, and every version that was published is stored. -/
structure Tally (flow : String) (d : Definition) (rows : Collection VersionRow)
    (l : List (Edit × Definition))
    (cur : Definition) : Prop where
  version : cur.version = d.version + l.countP (·.1 = .publish)
  draft : cur.draft = l.foldl (fun g m => m.1.draftOf g) d.draft
  kept : ∀ x, (.publish, x) ∈ l → x.version ≤ cur.version ∧ x.published = some x.draft ∧
    ∃ now, rows.row? (VersionRow.key flow x.version) =
      some (.ofGraph flow x.version x.draft now)

namespace Tally

variable {rows rows' : Collection VersionRow} {ms : List (Edit × Definition)} {x : Definition}

theorem nil (flow : String) (d : Definition) (rows : Collection VersionRow) :
    Tally flow d rows [] d := ⟨rfl, rfl, nofun⟩

/-- Another draft. -/
theorem draft_snoc {g : Graph} (h : Tally flow d rows ms cur) (hv : x.version = cur.version)
    (hx : x.draft = g) : Tally flow d rows (ms ++ [(.draft g, x)]) x where
  version := by rw [hv, h.version, List.countP_append]; rfl
  draft := by rw [hx, List.foldl_append]; rfl
  kept y hy := by
    rcases List.mem_append.mp hy with hy | hy
    · exact hv ▸ h.kept y hy
    · cases List.mem_singleton.mp hy

/-- The next version. -/
theorem publish_snoc {now : Millis} (h : Tally flow d rows ms cur)
    (hrow : rows.row? (VersionRow.key flow (cur.version + 1)) =
      some (.ofGraph flow (cur.version + 1) cur.draft now)) :
    Tally flow d rows (ms ++ [(.publish, cur.live now)]) (cur.live now) where
  version := by
    rw [List.countP_append, ← Nat.add_assoc, ← h.version]
    rfl
  draft := by
    rw [List.foldl_append, ← h.draft]
    rfl
  kept y hy := by
    rcases List.mem_append.mp hy with hy | hy
    · obtain ⟨hle, hpub, hrow⟩ := h.kept y hy
      exact ⟨Nat.le_succ_of_le hle, hpub, hrow⟩
    · cases List.mem_singleton.mp hy
      exact ⟨Nat.le_refl _, rfl, now, hrow⟩

/-- Versions that are stored stay. -/
theorem onward (h : Tally flow d rows ms cur)
    (hrows : ∀ v r, rows.row? (VersionRow.key flow v) = some r →
      rows'.row? (VersionRow.key flow v) = some r) : Tally flow d rows' ms cur where
  version := h.version
  draft := h.draft
  kept x hx := by
    obtain ⟨hle, hpub, now, hrow⟩ := h.kept x hx
    exact ⟨hle, hpub, now, hrows _ _ hrow⟩

end Tally

/-- What calls have done so far: those that have saved the flow, in that order, and the world that
the same calls leave one after the other. -/
structure Ledger (flow : String) (w : World) (d : Definition) (c : Edits)
    (l : List (Nat × Edit × Definition)) (s : World) (cur : Definition) : Prop where
  serial : Serial flow w (l.map (·.2)) s
  tally : Tally flow d c.world.store.versions (l.map (·.2)) cur
  settled : s.Settled flow cur
  held : c.world.HasFlow flow cur
  versions : ∀ v, v ≤ cur.version → c.world.store.versions.row? (VersionRow.key flow v) =
    s.store.versions.row? (VersionRow.key flow v)
  /-- The next version is that of a call which has not come to its end. -/
  ahead : ∀ v, cur.version < v →
    (c.world.store.versions.row? (VersionRow.key flow v)).isSome →
    v = cur.version + 1 ∧ ∃ k i p, c.At k i p ∧ Halfway i p
  /-- There is one such call at most. -/
  alone : ∀ {k k' i i' p p'}, c.At k i p → Halfway i p → c.At k' i' p' → Halfway i' p' → k = k'
  members : ∀ {k i p}, c.At k i p →
    ∃ o, Stage flow c.world.store cur i o p ∧ ∀ x, (k, i, x) ∈ l ↔ o = some x
  nodup : (l.map (·.1)).Nodup
  listed : ∀ {k i x}, (k, i, x) ∈ l → ∃ p, c.At k i p

namespace Ledger

variable {k : Nat} {i : Edit} {p p' : Program (Outcome Definition)} {w' : World} {d₀ : Definition}

/-- Nothing has been done. -/
theorem new (h : w.Settled flow d) : Ledger flow w d ⟨w, []⟩ [] w d where
  serial := .nil
  tally := .nil _ _ _
  settled := h
  held := h.toHasFlow
  versions _ _ := rfl
  ahead v hv hrow := by rw [h.next v hv] at hrow; cases hrow
  alone := nofun
  members := nofun
  nodup := .nil
  listed := nofun

/-- What others do beside changes nothing. -/
theorem aside (h : Ledger flow w d₀ c l s cur) (hw : Apart flow c.world w') :
    Ledger flow w d₀ ⟨w', c.members⟩ l s cur where
  serial := h.serial
  tally := h.tally.onward fun v r hr => by rwa [hw.versions v]
  settled := h.settled
  held := hw.hasFlow h.held
  versions v hv := (hw.versions v).trans (h.versions v hv)
  ahead v hv hrow := h.ahead v hv (by rwa [hw.versions v] at hrow)
  alone := h.alone
  members hk := by
    obtain ⟨o, hstage, ho⟩ := h.members hk
    refine ⟨o, hstage.later (h.held.behind _) h.held.id (fun v r hr => ?_) fun _ => rfl, ho⟩
    rwa [hw.versions v]
  nodup := h.nodup
  listed := h.listed

/-- Another call is made. -/
theorem join (h : Ledger flow w d₀ c l s cur) (hi : i.Proper) :
    Ledger flow w d₀ (c.joined i (i.program flow)) l s cur where
  serial := h.serial
  tally := h.tally
  settled := h.settled
  held := h.held
  versions := h.versions
  ahead v hv hrow := by
    obtain ⟨hv, k, i, p, hk, hp⟩ := h.ahead v hv hrow
    exact ⟨hv, k, i, p, hk.joined, hp⟩
  alone hk hp hk' hp' := by
    rcases hk.of_joined with hk | ⟨-, rfl, rfl⟩
    · rcases hk'.of_joined with hk' | ⟨-, rfl, rfl⟩
      · exact h.alone hk hp hk' hp'
      · exact absurd hp' (not_halfway_program _ _)
    · exact absurd hp (not_halfway_program _ _)
  members hk := by
    rcases hk.of_joined with hk | ⟨rfl, rfl, rfl⟩
    · exact h.members hk
    · refine ⟨none, stage_program hi, fun x => ⟨fun hx => ?_, nofun⟩⟩
      obtain ⟨p, hp⟩ := h.listed hx
      exact absurd hp.lt (Nat.lt_irrefl _)
  nodup := h.nodup
  listed hx := by
    obtain ⟨p, hp⟩ := h.listed hx
    exact ⟨p, hp.joined⟩

/-- A call goes on that has kept no version, and leaves the flow as it is. -/
theorem move {o : Option Definition} (h : Ledger flow w d₀ c l s cur) (hk : c.At k i p)
    (hw : Apart flow c.world w') (hp : ¬ Halfway i p) (hp' : ¬ Halfway i p')
    (ho : ∀ x, (k, i, x) ∈ l ↔ o = some x) (hstage : Stage flow w'.store cur i o p') :
    Ledger flow w d₀ (c.moved w' k i p') l s cur where
  serial := h.serial
  tally := (h.aside hw).tally
  settled := h.settled
  held := (h.aside hw).held
  versions := (h.aside hw).versions
  ahead v hv hrow := by
    obtain ⟨hv, k', i', q, hk', hq⟩ := (h.aside hw).ahead v hv hrow
    refine ⟨hv, k', i', q, Edits.At.moved_of_ne hk' ?_, hq⟩
    rintro rfl
    obtain ⟨rfl, rfl⟩ := hk.inj hk'
    exact hp hq
  alone h₁ hq₁ h₂ hq₂ := by
    rcases hk.of_moved h₁ with ⟨-, rfl, rfl⟩ | ⟨-, h₁⟩
    · exact absurd hq₁ hp'
    rcases hk.of_moved h₂ with ⟨-, rfl, rfl⟩ | ⟨-, h₂⟩
    · exact absurd hq₂ hp'
    exact h.alone h₁ hq₁ h₂ hq₂
  members hk' := by
    rcases hk.of_moved hk' with ⟨rfl, rfl, rfl⟩ | ⟨-, hk'⟩
    · exact ⟨o, hstage, ho⟩
    · exact (h.aside hw).members hk'
  nodup := h.nodup
  listed hx := by
    obtain ⟨q, hq⟩ := h.listed hx
    exact hk.still hq

/-- The next version is stored when a call has kept it. -/
theorem isSome_next (h : Ledger flow w d₀ c l s cur) (hk : c.At k i p) (hp : Halfway i p) :
    (c.world.store.versions.row? (VersionRow.key flow (cur.version + 1))).isSome := by
  obtain ⟨rfl, d', next, rfl⟩ := hp
  obtain ⟨o, hstage, -⟩ := h.members hk
  cases hstage with
  | versioned hd hf hv hrow => rw [← hv, hrow]; rfl

/-- **A call keeps the next version.** No other one has kept it before. -/
theorem keep {d : Definition} {f : Flow} {now : Millis} {st : Store}
    (h : Ledger flow w d₀ c l s cur)
    (hk : c.At k .publish
      (.ask (.saveVersion flow (d.version + 1) d.draft now) (versioned d now f)))
    (hd : d.Behind c.world.store cur) (hf : Flow.compile flow (d.version + 1) d.draft = .ok f)
    (ho : ∀ x, (k, .publish, x) ∈ l ↔ none = some x)
    (hs : c.world.store.saveVersion flow (d.version + 1) d.draft now = .ok st) :
    Ledger flow w d₀ (c.moved { c.world with store := st } k .publish (versioned d now f (.ok ())))
      l s cur := by
  obtain ⟨hrow, hheld⟩ := h.held.kept hs
  obtain ⟨-, versions, -, hnone, -⟩ := Store.saveVersion_eq_ok hs
  have hnext : d.version = cur.version := by
    have hle := hd.version
    refine Nat.le_antisymm hle (Nat.le_of_not_lt fun hlt => ?_)
    have hsome := hd.rows (d.version + 1) (by omega) (by omega)
    rw [h.held.id, hnone] at hsome
    cases hsome
  have hfirst {k' i' p'} (hk' : c.At k' i' p') : ¬ Halfway i' p' := by
    intro hp'
    have hsome := h.isSome_next hk' hp'
    rw [← hnext, hnone] at hsome
    cases hsome
  have hrows (v : Nat) (r : VersionRow)
      (hr : c.world.store.versions.row? (VersionRow.key flow v) = some r) :
      st.versions.row? (VersionRow.key flow v) = some r := by
    refine (hrow v).trans ((if_neg ?_).trans hr)
    rintro rfl
    rw [hnone] at hr
    cases hr
  refine ⟨h.serial, h.tally.onward hrows, h.settled, hheld, fun v hv => ?_,
    fun v hv hsome => ?_, ?_, ?_, h.nodup, ?_⟩
  · exact (hrow v).trans ((if_neg (by omega)).trans (h.versions v hv))
  · by_cases he : v = d.version + 1
    · exact ⟨by omega, k, _, _, hk.moved_self, rfl, _, _, rfl⟩
    · have hsame := (hrow v).trans (if_neg he)
      obtain ⟨-, k', i', p', hk', hp'⟩ := h.ahead v hv (hsame ▸ hsome)
      exact absurd hp' (hfirst hk')
  · intro k₁ k₂ i₁ i₂ p₁ p₂ h₁ hp₁ h₂ hp₂
    rcases hk.of_moved h₁ with ⟨rfl, -, -⟩ | ⟨-, h₁⟩
    · rcases hk.of_moved h₂ with ⟨rfl, -, -⟩ | ⟨-, h₂⟩
      · rfl
      · exact absurd hp₂ (hfirst h₂)
    · exact absurd hp₁ (hfirst h₁)
  · intro k' i' p' hk'
    rcases hk.of_moved hk' with ⟨rfl, rfl, rfl⟩ | ⟨-, hk'⟩
    · have hd : d.Behind st cur := by
        refine hd.trans (h.held.behind _) fun v hv => ?_
        obtain ⟨r, hr⟩ := Option.isSome_iff_exists.mp hv
        rw [h.held.id] at hr ⊢
        rw [hrows v r hr]
        rfl
      exact ⟨none, .versioned hd hf hnext ((hrow _).trans (if_pos rfl)), ho⟩
    · obtain ⟨o', hstage', ho'⟩ := h.members hk'
      exact ⟨o', hstage'.later (h.held.behind _) h.held.id hrows fun _ => rfl, ho'⟩
  · intro k' i' x hx
    obtain ⟨q, hq⟩ := h.listed hx
    exact hk.still hq

/-- **A call saves the flow**: it follows on those that have done so. -/
theorem save {x : Definition} {rest : Program (Outcome Definition)}
    (h : Ledger flow w d₀ c l s cur) (hk : c.At k i (.ask (.saveFlow x) (saved rest)))
    (hserial : Serial flow w ((l ++ [(k, i, x)]).map (·.2)) s') (hsettled : s'.Settled flow x)
    (htally : Tally flow d₀ c.world.store.versions ((l ++ [(k, i, x)]).map (·.2)) x)
    (hcur : cur.Behind (c.world.withFlow x).store x)
    (hversions : ∀ v, v ≤ x.version → c.world.store.versions.row? (VersionRow.key flow v) =
      s'.store.versions.row? (VersionRow.key flow v))
    (hv : x.version = cur.version ∧ i ≠ .publish ∨ x.version = cur.version + 1 ∧ i = .publish)
    (hstage : Stage flow (c.world.withFlow x).store x i (some x) rest) (hrest : ¬ Halfway i rest)
    (hnew : ∀ y, (k, i, y) ∉ l) :
    Ledger flow w d₀ (c.moved (c.world.withFlow x) k i rest) (l ++ [(k, i, x)]) s' x := by
  have hhalf {k' i' p'} (hne : k' ≠ k) (hk' : c.At k' i' p') (hp' : Halfway i' p') :
      x.version = cur.version := by
    rcases hv with ⟨hv, -⟩ | ⟨-, rfl⟩
    · exact hv
    · exact absurd (h.alone hk' hp' hk ⟨rfl, _, _, rfl⟩) hne
  refine ⟨hserial, htally, hsettled, ?_, hversions, fun v hlt hsome => ?_, ?_, ?_, ?_, ?_⟩
  · exact hasFlow_withFlow h.held.registered hsettled.id hsettled.readsBack hsettled.small
      hsettled.one
  · have hle := hcur.version
    obtain ⟨hnext, k', i', p', hk', hp'⟩ := h.ahead v (by omega) hsome
    rcases hv with ⟨hv, hi⟩ | ⟨hv, -⟩
    · have hne : k' ≠ k := by
        rintro rfl
        exact hi ((hk.inj hk').1 ▸ hp'.1)
      exact ⟨by omega, k', i', p', hk'.moved_of_ne hne, hp'⟩
    · omega
  · intro k₁ k₂ i₁ i₂ p₁ p₂ h₁ hp₁ h₂ hp₂
    rcases hk.of_moved h₁ with ⟨-, rfl, rfl⟩ | ⟨-, h₁⟩
    · exact absurd hp₁ hrest
    rcases hk.of_moved h₂ with ⟨-, rfl, rfl⟩ | ⟨-, h₂⟩
    · exact absurd hp₂ hrest
    exact h.alone h₁ hp₁ h₂ hp₂
  · intro k' i' p' hk'
    rcases hk.of_moved hk' with ⟨rfl, rfl, rfl⟩ | ⟨hne, hk'⟩
    · refine ⟨some x, hstage, fun y => ?_⟩
      simp [hnew y, eq_comm]
    · obtain ⟨o, hstage', ho⟩ := h.members hk'
      refine ⟨o, hstage'.later hcur h.held.id (fun _ _ => id) (hhalf hne hk'), fun y => ?_⟩
      simp [← ho y, hne]
  · rw [List.map_append, List.nodup_append]
    refine ⟨h.nodup, by simp, fun a ha b hb => ?_⟩
    obtain rfl := List.mem_singleton.mp hb
    rintro rfl
    obtain ⟨⟨k', i', y⟩, hy, rfl⟩ := List.mem_map.mp ha
    obtain ⟨q, hq⟩ := h.listed hy
    obtain ⟨rfl, -⟩ := hk.inj hq
    exact hnew y hy
  · intro k' i' y hy
    rcases List.mem_append.mp hy with hy | hy
    · obtain ⟨q, hq⟩ := h.listed hy
      exact hk.still hq
    · cases List.mem_singleton.mp hy
      exact ⟨rest, hk.moved_self⟩

/-- A draft that is fresh follows. -/
theorem drafts {g : Graph} {now : Millis} {d d' : Definition} (h : Ledger flow w d₀ c l s cur)
    (hk : c.At k (.draft g) (.ask (.saveFlow d') (saved (.done (.ok d'))))) (hg : g.ReadsBack)
    (hd : d.Behind c.world.store cur) (hd' : withDraft d g now = .ok d')
    (hfresh : (Edit.draft g).Fresh c.world (.saveFlow d')) (hnew : ∀ y, (k, .draft g, y) ∉ l) :
    ∃ s', Ledger flow w d₀ (c.moved (c.world.withFlow d') k (.draft g) (.done (.ok d')))
      (l ++ [(k, .draft g, d')]) s' d' ∧ cur.Behind (c.world.withFlow d').store d' := by
  obtain ⟨hone, hstart, rfl⟩ := withDraft_eq_ok_iff.mp hd'
  have hrow : c.world.store.flows.row? d.id = some (.ofDefinition cur) := by
    rw [hd.id, h.held.id]
    exact h.held.row
  have hv : d.version = cur.version := by
    have hsmall : d.version < 0x8000000000000000 := Nat.lt_of_le_of_lt hd.version h.held.small
    have hfresh := hfresh _ rfl _ hrow
    rw [Edit.Suits, FlowRow.ofDefinition, toSigned64_eq h.held.small,
      toSigned64_eq hsmall] at hfresh
    exact (Int.ofNat_inj.mp hfresh).symm
  -- the same call alone loads the flow as it is now
  have hcur : withDraft cur g now = .ok { d with draft := g, updateTime := now } := by
    refine withDraft_eq_ok_iff.mpr ⟨hone, fun _ => hd.start.symm.trans (hstart hd.one), ?_⟩
    simp only [hd.id, hd.name, hd.createTime, hv, hd.published hv]
  obtain ⟨hrun, hsettled⟩ := (h.settled.timed (.ofMillis now)).drafts hg
    (by rwa [clock, Instant.millis_ofMillis]) .unreachable
  have hbehind : cur.Behind (c.world.withFlow { d with draft := g, updateTime := now }).store
      { d with draft := g, updateTime := now } :=
    ⟨h.held.readsBack.1, hd.id.symm, hd.name.symm, hd.createTime.symm, h.held.one,
      hd.start.symm.trans (hstart hd.one), Nat.le_of_eq hv.symm, fun _ => (hd.published hv).symm,
      fun v h1 h2 => absurd (show v ≤ d.version from h2) (by omega)⟩
  refine ⟨_, h.save hk ?_ hsettled ?_ hbehind (fun v hle => ?_) (.inl ⟨hv, ?_⟩) .ended
    (not_halfway rfl) hnew, hbehind⟩
  · rw [List.map_append]
    exact h.serial.snoc hrun
  · rw [List.map_append]
    exact h.tally.draft_snoc hv rfl
  · exact h.versions v (hv ▸ hle)
  · intro hi
    cases hi

/-- A version that is fresh follows. -/
theorem publishes {now : Millis} {d : Definition} {f : Flow} (h : Ledger flow w d₀ c l s cur)
    (hk : c.At k .publish (.ask (.saveFlow (d.live now))
      (saved (.ask (.remember (VersionRow.key f.id f.version) f) (remembered (d.live now))))))
    (hd : d.Behind c.world.store cur) (hf : Flow.compile flow (d.version + 1) d.draft = .ok f)
    (hv : d.version = cur.version)
    (hrow : c.world.store.versions.row? (VersionRow.key flow (d.version + 1)) =
      some (.ofGraph flow (d.version + 1) d.draft now))
    (hfresh : Edit.publish.Fresh c.world (.saveFlow (d.live now)))
    (hnew : ∀ y, (k, .publish, y) ∉ l) (hfits : d.version + 1 < 0x8000000000000000) :
    ∃ s', Ledger flow w d₀ (c.moved (c.world.withFlow (d.live now)) k .publish
      (.ask (.remember (VersionRow.key f.id f.version) f) (remembered (d.live now))))
      (l ++ [(k, .publish, d.live now)]) s' (d.live now) ∧
      cur.Behind (c.world.withFlow (d.live now)).store (d.live now) := by
  have hcurrow : c.world.store.flows.row? d.id = some (.ofDefinition cur) := by
    rw [hd.id, h.held.id]
    exact h.held.row
  have hdraft : d.draft = cur.draft := by
    have hfresh : cur.draft.toJson.text = d.draft.toJson.text := hfresh _ rfl _ hcurrow
    have hback : Decode.ofText .convert Graph.decode d.draft.toJson.text = .ok d.draft :=
      hd.readsBack
    rw [← hfresh] at hback
    exact Except.ok.inj (hback.symm.trans h.held.readsBack.1)
  have hlive : d.live now = cur.live now := by
    simp only [Definition.live, hd.id, hd.name, hd.createTime, hv, hdraft]
  rw [hv, hdraft] at hf hrow
  obtain ⟨hrun, hrows, hsettled⟩ := (h.settled.timed (.ofMillis now)).publishes hf .unreachable
  rw [clock, Instant.millis_ofMillis] at hrun hrows hsettled
  have hsettled := hsettled (hv ▸ hfits)
  rw [← hlive] at hrun hrows hsettled
  have hbehind : cur.Behind (c.world.withFlow (d.live now)).store (d.live now) := by
    refine ⟨h.held.readsBack.1, hd.id.symm, hd.name.symm, hd.createTime.symm, h.held.one,
      hd.start.symm, ?_, ?_, ?_⟩
    · show cur.version ≤ d.version + 1
      omega
    · intro he
      have he : cur.version = d.version + 1 := he
      omega
    · intro v h1 h2
      have h2 : v ≤ d.version + 1 := h2
      obtain rfl : v = cur.version + 1 := by omega
      show (c.world.store.versions.row? (VersionRow.key d.id _)).isSome
      rw [hd.id, h.held.id, hrow]
      rfl
  refine ⟨_, h.save hk ?_ hsettled ?_ hbehind (fun v hle => ?_)
    (.inr ⟨congrArg (· + 1) hv, rfl⟩) .remembering (not_halfway rfl) hnew, hbehind⟩
  · rw [List.map_append]
    exact h.serial.snoc hrun
  · rw [List.map_append, hlive]
    exact h.tally.publish_snoc hrow
  · have hle : v ≤ d.version + 1 := hle
    rw [hrows]
    split
    · rename_i he
      rw [he]
      exact hrow
    · exact h.versions v (by omega)

/-- **A step** keeps the ledger, and what was the flow before is behind. -/
theorem step (h : Ledger flow w d₀ c l s cur) (hs : Edits.Step flow Edit.Fresh c c')
    (hfits : c'.world.store.Numbered flow) :
    ∃ l' s' cur', Ledger flow w d₀ c' l' s' cur' ∧ cur.Behind c'.world.store cur' := by
  cases hs with
  | aside hw => exact ⟨l, s, cur, h.aside hw, h.held.behind _⟩
  | join hp =>
    obtain ⟨hi, rfl⟩ := hp
    exact ⟨l, s, cur, h.join hi, h.held.behind _⟩
  | @ask k i a next hk hfresh circ =>
    have hk : c.At k i (.ask a next) := hk
    obtain ⟨o, hstage, ho⟩ := h.members hk
    have on {w' : World} {p' : Program (Outcome Definition)} (hw : Apart flow c.world w')
        (hp : isHalfway i (.ask a next) = false) (hp' : isHalfway i p' = false)
        (hstage : Stage flow w'.store cur i o p') :
        ∃ l' s' cur', Ledger flow w d₀ (c.moved w' k i p') l' s' cur' ∧ cur.Behind w'.store cur' :=
      ⟨l, s, cur, h.move hk hw (not_halfway hp) (not_halfway hp') ho hstage, h.held.behind _⟩
    cases hstage with
    | draft hg => exact on (.refl _ _) rfl rfl (.drafting hg)
    | @drafting g now hg =>
      rw [h.held.answer_loadFlow]
      dsimp only [drafted]
      cases hd' : withDraft cur g now with
      | error e => exact on (.refl _ _) rfl rfl .failed
      | ok d' => exact on (.refl _ _) rfl rfl (.drafted hg (h.held.behind _) hd')
    | @drafted g now d d' hg hd hd' =>
      obtain ⟨s', h'⟩ := h.drafts hk hg hd hd' hfresh fun y hy => by cases (ho y).mp hy
      rw [h.held.answer_saveFlow]
      exact ⟨_, s', _, h'⟩
    | publish => exact on (.refl _ _) rfl rfl .publishing
    | @publishing now =>
      rw [h.held.answer_loadFlow]
      dsimp only [released]
      cases hf : Flow.compile flow (cur.version + 1) cur.draft with
      | error e => exact on (.refl _ _) rfl rfl .failed
      | ok f => exact on (.refl _ _) rfl rfl (.released (h.held.behind _) hf)
    | @released d now f hd hf =>
      simp only [answer]
      cases hs : c.world.store.saveVersion flow (d.version + 1) d.draft now with
      | error e => exact on (.refl _ _) rfl rfl .failed
      | ok st => exact ⟨l, s, cur, h.keep hk hd hf ho hs, h.held.behind _⟩
    | @versioned d now f hd hf hv hrow =>
      have hsmall := hfits (d.version + 1) (by rw [version_answer hrow]; rfl)
      obtain ⟨s', h'⟩ := h.publishes hk hd hf hv hrow hfresh (fun y hy => by cases (ho y).mp hy)
        hsmall
      rw [h.held.answer_saveFlow]
      exact ⟨_, s', _, h'⟩
    | remembering => exact on ⟨rfl, rfl, fun _ => rfl⟩ rfl rfl .ended

end Ledger

/-! ### In the course of time -/

section
variable {asks : World → Edit → Ask → Prop}

/-- Versions that are stored stay, whatever calls do. -/
theorem numbered_step (hs : Edits.Step flow asks c c') (h : c'.world.store.Numbered flow) :
    c.world.store.Numbered flow := by
  intro v hv
  refine h v ?_
  cases hs with
  | aside hw => rwa [hw.versions v]
  | join => exact hv
  | ask hk ha circ =>
    obtain ⟨r, hr⟩ := Option.isSome_iff_exists.mp hv
    rw [version_answer hr]
    rfl

theorem numbered_course (hc : Edits.Course flow asks c c') (h : c'.world.store.Numbered flow) :
    c.world.store.Numbered flow := by
  induction hc with
  | refl => exact h
  | tail _ hs ih => exact ih (numbered_step hs h)

end

/-- **A course** keeps the ledger, and versions only grow. -/
theorem Ledger.course {d₀ : Definition} (h : Ledger flow w d₀ c l s cur)
    (hc : Edits.Course flow Edit.Fresh c c') (hfits : c'.world.store.Numbered flow) :
    ∃ l' s' cur', Ledger flow w d₀ c' l' s' cur' ∧ cur.version ≤ cur'.version := by
  induction hc with
  | refl => exact ⟨l, s, cur, h, Nat.le_refl _⟩
  | tail _ hs ih =>
    obtain ⟨l₁, s₁, cur₁, h₁, hle⟩ := ih (numbered_step hs hfits)
    obtain ⟨l₂, s₂, cur₂, h₂, hbehind⟩ := h₁.step hs hfits
    exact ⟨l₂, s₂, cur₂, h₂, Nat.le_trans hle hbehind.version⟩

/-- When all calls have come to their end no version is ahead of its flow. -/
theorem Ledger.rest {d₀ : Definition} (h : Ledger flow w d₀ c l s cur)
    (hdone : ∀ m ∈ c.members, ∃ o, m.2 = .done o) :
    c.world.Settled flow cur ∧
      (∀ k i x, (k, i, x) ∈ l ↔ c.At k i (.done (.ok x))) ∧
      ∀ v, c.world.store.versions.row? (VersionRow.key flow v) =
        s.store.versions.row? (VersionRow.key flow v) := by
  have hended {k i p} (hk : c.At k i p) : ∃ o, p = .done o := hdone _ (List.mem_of_getElem? hk)
  have hnone (v : Nat) (hv : cur.version < v) :
      c.world.store.versions.row? (VersionRow.key flow v) = none := by
    rw [← Option.not_isSome_iff_eq_none]
    intro hsome
    obtain ⟨-, k, i, p, hk, -, d, next, rfl⟩ := h.ahead v hv hsome
    obtain ⟨o, ho⟩ := hended hk
    cases ho
  refine ⟨⟨h.held, hnone⟩, fun k i x => ⟨fun hx => ?_, fun hk => ?_⟩, fun v => ?_⟩
  · obtain ⟨p, hk⟩ := h.listed hx
    obtain ⟨r, rfl⟩ := hended hk
    obtain ⟨o, hstage, ho⟩ := h.members hk
    have ho := (ho x).mp hx
    cases hstage with
    | ended =>
      cases ho
      exact hk
    | failed => cases ho
  · obtain ⟨o, hstage, ho⟩ := h.members hk
    cases hstage with
    | ended => exact (ho x).mpr rfl
  · by_cases hv : v ≤ cur.version
    · exact h.versions v hv
    · rw [hnone v (by omega), h.settled.next v (by omega)]

/-- **Calls that edit a flow at the same time come to what they come to one after the other**, if
what they save is fresh. When all have come to their end, those that have not failed can be made one
after the other, with the same answers, and leave the same flow with the same versions. So every
call that has published has made a version of its own, and every draft that is not the one of the
flow was replaced by a later one. The draft of the flow can be published if it compiles. The version
of the flow never goes back. -/
theorem linearizes (hw : w.Settled flow d) (h : Edits.Course flow Edit.Fresh ⟨w, []⟩ c)
    (hfits : c.world.store.Numbered flow) (hdone : ∀ m ∈ c.members, ∃ o, m.2 = .done o) :
    (∃ (l : List (Nat × Edit × Definition)) (s : World) (cur : Definition),
      Serial flow w (l.map (·.2)) s ∧ (l.map (·.1)).Nodup ∧
      (∀ k i x, (k, i, x) ∈ l ↔ c.At k i (.done (.ok x))) ∧
      s.Settled flow cur ∧ c.world.Settled flow cur ∧
      (∀ v, c.world.store.versions.row? (VersionRow.key flow v) =
        s.store.versions.row? (VersionRow.key flow v)) ∧
      Tally flow d c.world.store.versions (l.map (·.2)) cur ∧
      ∀ f peer, Flow.compile flow (cur.version + 1) cur.draft = .ok f →
        ∃ w', c.world.perform peer (Edit.publish.program flow) =
          (w', .ok (cur.live c.world.clock))) ∧
    ∀ c₁, Edits.Course flow Edit.Fresh ⟨w, []⟩ c₁ → Edits.Course flow Edit.Fresh c₁ c →
      ∀ r₁ r, c₁.world.store.flows.row? flow = some r₁ → c.world.store.flows.row? flow = some r →
        r₁.version ≤ r.version := by
  refine ⟨?_, fun c₁ h₁ h₂ r₁ r hr₁ hr => ?_⟩
  · obtain ⟨l, s, cur, hl, -⟩ := (Ledger.new hw).course h hfits
    obtain ⟨hrest, hcalls, hversions⟩ := hl.rest hdone
    refine ⟨l, s, cur, hl.serial, hl.nodup, hcalls, hl.settled, hrest, hversions, hl.tally,
      fun f peer hf => ?_⟩
    exact ⟨_, (hrest.publishes hf peer).1⟩
  · obtain ⟨l₁, s₁, cur₁, hl₁, -⟩ := (Ledger.new hw).course h₁ (numbered_course h₂ hfits)
    obtain ⟨l₂, s₂, cur₂, hl₂, hle⟩ := hl₁.course h₂ hfits
    cases hr₁.symm.trans hl₁.held.row
    cases hr.symm.trans hl₂.held.row
    rw [FlowRow.ofDefinition, FlowRow.ofDefinition, toSigned64_eq hl₁.held.small,
      toSigned64_eq hl₂.held.small]
    exact Int.ofNat_le.mpr hle

/-! ### A new flow -/

/-- **A new flow** is settled, if there are no versions of its identity. -/
theorem settled_created (hw : w.store.registered = true) (name : String) (peer : Http.Attempt)
    (hnone : ∀ v, w.store.versions.row?
      (VersionRow.key ("f" ++ toString (w.flows + 1)) v) = none) :
    ∃ w' d, w.perform peer (createFlow name).run = (w', .ok d) ∧
      d.id = "f" ++ toString (w.flows + 1) ∧ w'.Settled d.id d := by
  let d : Definition := ⟨(w.fresh .flow).2, name, .initial, none, 0, w.clock, w.clock⟩
  have hd : ((w.fresh .flow).1.withFlow d).HasFlow d.id d :=
    hasFlow_withFlow hw rfl ⟨Graph.readsBack_initial, nofun⟩
      (by decide : 0 < 0x8000000000000000) rfl
  exact ⟨_, d, perform_createFlow peer hw name, rfl, hd, fun v _ => hnone v⟩

/-- A world with a new flow. -/
def created : World := (perform (.new .empty 0) .unreachable (createFlow "").run).1

theorem exists_created : ∃ d, created.Settled "f1" d := by
  obtain ⟨w', d, hrun, hid, hd⟩ :=
    settled_created (w := .new .empty 0) rfl "" .unreachable fun _ => rfl
  have hw : w' = created := (congrArg Prod.fst hrun).symm
  have hid : d.id = "f1" := hid
  rw [hw, hid] at hd
  exact ⟨d, hd⟩

/-- Calls that have just been made. -/
def started (calls : List Edit) : Edits :=
  calls.foldl (fun c e => c.joined e (e.program "f1")) ⟨created, []⟩

theorem course_started {asks : World → Edit → Ask → Prop} (calls : List Edit)
    (h : ∀ e ∈ calls, e.Proper) : Edits.Course "f1" asks ⟨created, []⟩ (started calls) := by
  unfold started
  generalize (⟨created, []⟩ : Edits) = c
  induction calls generalizing c with
  | nil => exact .refl
  | cons e calls ih =>
    refine .head (.join ⟨h e List.mem_cons_self, rfl⟩) ?_
    exact ih (fun e he => h e (List.mem_cons_of_mem _ he)) _

/-- The only version is the first one. -/
theorem numbered_of_all {st : Store}
    (h : (st.versions.rows.all fun r => r.id = VersionRow.key flow 1) = true) :
    st.Numbered flow := by
  intro v hv
  obtain ⟨r, hr⟩ := Option.isSome_iff_exists.mp hv
  have hkey := of_decide_eq_true (List.all_eq_true.mp h r (List.mem_of_find?_eq_some hr))
  obtain ⟨-, rfl⟩ := VersionRow.key_injective ((Collection.id_of_row? hr).symm.trans hkey)
  decide

theorem proper_initial : ∀ e ∈ [Edit.draft .initial, .publish, .publish], e.Proper := by
  simp [Edit.Proper, Graph.readsBack_initial]

/-- What is seen of calls. -/
structure Sight where
  /-- The version that a call has answered, if it has come to its end and has not failed. -/
  answers : List (Option (Option Nat))
  /-- The version of the flow. -/
  version : Option Int
  /-- The only version that is stored is the first one. -/
  first : Bool
deriving DecidableEq

/-- What is seen of calls that edit the new flow. -/
def sight (c : Edits) : Sight where
  answers := c.members.map fun m =>
    match m.2 with
    | .done (.ok d) => some (some d.version)
    | .done (.error _) => some none
    | .ask _ _ => none
  version := (c.world.store.flows.row? "f1").map (·.version)
  first := c.world.store.versions.rows.all fun r => r.id = VersionRow.key "f1" 1

theorem done_of_sight (h : ((sight c).answers.all (·.isSome)) = true) :
    ∀ m ∈ c.members, ∃ o, m.2 = .done o := by
  intro m hm
  have hsome := List.all_eq_true.mp h _ (List.mem_map_of_mem hm)
  split at hsome
  · rename_i x hx
    exact ⟨_, hx⟩
  · rename_i e hx
    exact ⟨_, hx⟩
  · cases hsome

/-- A draft, and two publications at the same time. -/
theorem sight_fresh : ((started [.draft .initial, .publish, .publish]).turns Edit.Fresh
    ⟨false, .unreachable⟩ [0, 0, 1, 2, 0, 1, 2, 1, 2, 1, 1]).map sight =
      some ⟨[some (some 0), some (some 1), some none], some 1, true⟩ := by
  decide +kernel

/-- What is saved is fresh: one of the publications fails, and the others are as one after the
other. -/
theorem linearizes_started : ∃ d c, created.Settled "f1" d ∧
    Edits.Course "f1" Edit.Fresh ⟨created, []⟩ c ∧ c.world.store.Numbered "f1" ∧
    (∀ m ∈ c.members, ∃ o, m.2 = .done o) ∧
    sight c = ⟨[some (some 0), some (some 1), some none], some 1, true⟩ ∧
    ∃ l s, Serial "f1" created l s ∧
      s.store.flows.row? "f1" = c.world.store.flows.row? "f1" := by
  obtain ⟨d, hd⟩ := exists_created
  obtain ⟨c, hturns, hsight⟩ := Option.map_eq_some_iff.mp sight_fresh
  have hcourse : Edits.Course "f1" Edit.Fresh ⟨created, []⟩ c :=
    (course_started _ proper_initial).trans (Crew.Course.turns hturns)
  have hfits : c.world.store.Numbered "f1" := numbered_of_all (congrArg Sight.first hsight)
  have hdone := done_of_sight (by rw [hsight]; rfl)
  obtain ⟨l, s, cur, hserial, -, -, hs, hc, -⟩ := (linearizes hd hcourse hfits hdone).1
  exact ⟨d, c, hd, hcourse, hfits, hdone, hsight, _, s, hserial, hs.row.trans hc.row.symm⟩

/-- A draft, a publication that comes in between, and another one after both. -/
theorem sight_stale : ((started [.draft .initial, .publish, .publish]).turns (fun _ _ _ => True)
    ⟨false, .unreachable⟩ [0, 0, 1, 1, 1, 1, 1]).bind (fun c =>
      (c.turns (fun _ _ _ => True) ⟨false, .unreachable⟩ [0, 2, 2, 2]).map fun c' =>
        (sight c, sight c')) =
      some (⟨[none, some (some 1), none], some 1, true⟩,
        ⟨[some (some 0), some (some 1), some none], some 0, true⟩) := by
  decide +kernel

/-- **A publication that is undone** by a draft that is not fresh: both calls have succeeded, the
version of the flow has gone back, and its draft, which compiles, cannot be published any more. -/
theorem undone : (∃ d, created.Settled "f1" d) ∧ (∃ f, Flow.compile "f1" 1 .initial = .ok f) ∧
    ∃ c c', Edits.Course "f1" (fun _ _ _ => True) ⟨created, []⟩ c ∧
      Edits.Course "f1" (fun _ _ _ => True) c c' ∧
      sight c = ⟨[none, some (some 1), none], some 1, true⟩ ∧
      sight c' = ⟨[some (some 0), some (some 1), some none], some 0, true⟩ := by
  refine ⟨exists_created, ⟨_, rfl⟩, ?_⟩
  obtain ⟨c, hturns, h⟩ := Option.bind_eq_some_iff.mp sight_stale
  obtain ⟨c', hturns', h⟩ := Option.map_eq_some_iff.mp h
  obtain ⟨hsight, hsight'⟩ := Prod.mk.inj h
  refine ⟨c, c', ?_, Crew.Course.turns hturns', hsight, hsight'⟩
  exact (course_started _ proper_initial).trans (Crew.Course.turns hturns)

end Registry

end Dialogue
