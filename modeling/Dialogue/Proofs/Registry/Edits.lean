import Dialogue.Proofs.Engine.Performed
import Dialogue.Proofs.Registry.Tidy

/-! # Calls that edit one flow

Any number of calls save drafts of a flow and publish it at the same time. A call loads the flow,
and later on saves it as a whole; in between the others have gone on. So what a call has in hand is
the flow as it is or as it was, and it may undo what was done since. It does not if what it saves is
fresh: a draft belongs to the version that is stored, and a version to the draft that is stored.

* `Edit.Fresh`: what is saved was made for what is stored.
* `Stage`: how far a call has come, and what it has in hand.
* `Stage.later`: others go on. -/

namespace Dialogue

open Program Procedure World

namespace Definition

/-- The flow with its draft as the next version. -/
def live (d : Definition) (now : Millis) : Definition :=
  { d with published := some d.draft, version := d.version + 1, updateTime := now }

/-- The flow as it was before the current one: all later versions are stored, and the start node is
the same. -/
structure Behind (s : Store) (d cur : Definition) : Prop where
  readsBack : d.draft.ReadsBack
  id : d.id = cur.id
  name : d.name = cur.name
  createTime : d.createTime = cur.createTime
  one : d.draft.starts.length = 1
  start : Registry.startId? d.draft = Registry.startId? cur.draft
  version : d.version ≤ cur.version
  published : d.version = cur.version → d.published = cur.published
  rows : ∀ v, d.version < v → v ≤ cur.version →
    (s.versions.row? (VersionRow.key cur.id v)).isSome

variable {s s' : Store} {d cur cur' : Definition}

theorem Behind.refl (hg : cur.draft.ReadsBack) (h : cur.draft.starts.length = 1) :
    cur.Behind s cur :=
  ⟨hg, rfl, rfl, rfl, h, rfl, Nat.le_refl _, fun _ => rfl, fun _ h1 h2 => absurd h2 (by omega)⟩

/-- Versions stay, so the flow is behind the one that the current one is behind. -/
theorem Behind.trans (h : d.Behind s cur) (h' : cur.Behind s' cur')
    (hrows : ∀ v, (s.versions.row? (VersionRow.key cur.id v)).isSome →
      (s'.versions.row? (VersionRow.key cur.id v)).isSome) : d.Behind s' cur' where
  readsBack := h.readsBack
  id := h.id.trans h'.id
  name := h.name.trans h'.name
  createTime := h.createTime.trans h'.createTime
  one := h.one
  start := h.start.trans h'.start
  version := Nat.le_trans h.version h'.version
  published hv := by
    have h1 := h.version
    have h2 := h'.version
    exact (h.published (by omega)).trans (h'.published (by omega))
  rows v h1 h2 := by
    by_cases hv : v ≤ cur.version
    · rw [← h'.id]
      exact hrows v (h.rows v h1 hv)
    · exact h'.rows v (by omega) h2

end Definition

/-- The numbers of the versions of a flow fit their column. -/
def Store.Numbered (s : Store) (flow : String) : Prop :=
  ∀ v, (s.versions.row? (VersionRow.key flow v)).isSome → v < 0x8000000000000000

/-- The flow and its versions are the same, whatever else has changed. -/
structure World.Apart (flow : String) (w w' : World) : Prop where
  registered : w'.store.registered = w.store.registered
  row : w'.store.flows.row? flow = w.store.flows.row? flow
  versions : ∀ v, w'.store.versions.row? (VersionRow.key flow v) =
    w.store.versions.row? (VersionRow.key flow v)

/-- The flow is stored and is read back. -/
structure World.HasFlow (flow : String) (w : World) (d : Definition) : Prop where
  registered : w.store.registered = true
  row : w.store.flows.row? flow = some (.ofDefinition d)
  readsBack : d.ReadsBack
  small : d.version < 0x8000000000000000
  one : d.draft.starts.length = 1

/-- No version is stored after that of the flow. -/
structure World.Settled (flow : String) (w : World) (d : Definition) : Prop extends
    HasFlow flow w d where
  next : ∀ v, d.version < v → w.store.versions.row? (VersionRow.key flow v) = none

namespace World

variable {flow : String} {w w' : World} {d d' : Definition}

theorem Apart.refl (flow : String) (w : World) : Apart flow w w := ⟨rfl, rfl, fun _ => rfl⟩

theorem Apart.hasFlow (h : Apart flow w w') (hw : w.HasFlow flow d) : w'.HasFlow flow d :=
  ⟨h.registered.trans hw.registered, h.row.trans hw.row, hw.readsBack, hw.small, hw.one⟩

theorem HasFlow.id (h : w.HasFlow flow d) : d.id = flow := Collection.id_of_row? h.row

/-- The flow is loaded as it is. -/
theorem HasFlow.loadFlow (h : w.HasFlow flow d) : w.store.loadFlow flow = .ok d := by
  rw [Store.loadFlow_eq h.registered h.row, FlowRow.toDefinition_ofDefinition h.readsBack,
    toSigned64_eq h.small, ofSigned64_natCast]

theorem HasFlow.answer_loadFlow (h : w.HasFlow flow d) (c : Circumstance) :
    w.answer c (.loadFlow flow) = (w, .ok d) := congrArg (Prod.mk w) h.loadFlow

theorem hasFlow_withFlow (h : w.store.registered = true) (hid : d.id = flow) (hback : d.ReadsBack)
    (hsmall : d.version < 0x8000000000000000) (hone : d.draft.starts.length = 1) :
    (w.withFlow d).HasFlow flow d := by
  refine ⟨h, ?_, hback, hsmall, hone⟩
  rw [← hid]
  exact (Collection.row?_put _ _ _).trans (if_pos rfl)

theorem HasFlow.answer_saveFlow (h : w.HasFlow flow d) (c : Circumstance) :
    w.answer c (.saveFlow d') = (w.withFlow d', .ok ()) :=
  congrArg w.change (saveFlow_withFlow h.registered d')

/-- At another time. -/
theorem Settled.timed (h : w.Settled flow d) (instant : Instant) :
    Settled flow { w with instant } d :=
  ⟨⟨h.registered, h.row, h.readsBack, h.small, h.one⟩, h.next⟩

theorem HasFlow.behind (h : w.HasFlow flow d) (s : Store) : d.Behind s d :=
  .refl h.readsBack.1 h.one

end World

/-- The flow that is saved. -/
def Ask.saved? : Ask → Option Definition
  | .saveFlow d => some d
  | _ => none

namespace Registry

/-- A call that edits a flow. -/
inductive Edit where
  | draft (g : Graph)
  | publish
deriving DecidableEq

namespace Edit

/-- What a call does. -/
def program (flow : String) : Edit → Program (Outcome Definition)
  | .draft g => (saveDraft flow g).run
  | .publish => (Registry.publish flow).run

/-- A draft is one that is read back as it was written. -/
def Proper : Edit → Prop
  | .draft g => g.ReadsBack
  | .publish => True

/-- The draft of a flow after the call. -/
def draftOf : Edit → Graph → Graph
  | .draft g, _ => g
  | .publish, g => g

/-- The flow was made for the row in whose place it comes: a draft for its version, a version for
its draft. -/
def Suits : Edit → Definition → FlowRow → Prop
  | .draft _, d, r => r.version = toSigned64 d.version
  | .publish, d, r => r.draft = d.draft.toJson.text

instance (e : Edit) (d : Definition) (r : FlowRow) : Decidable (e.Suits d r) :=
  match e with
  | .draft _ => inferInstanceAs (Decidable (r.version = toSigned64 d.version))
  | .publish => inferInstanceAs (Decidable (r.draft = d.draft.toJson.text))

/-- What is saved was made for what is stored. -/
def Fresh (w : World) (e : Edit) (a : Ask) : Prop :=
  ∀ d ∈ a.saved?, ∀ r ∈ w.store.flows.row? d.id, e.Suits d r

instance (w : World) (e : Edit) (a : Ask) : Decidable (e.Fresh w a) :=
  inferInstanceAs (Decidable (∀ d ∈ a.saved?, ∀ r ∈ w.store.flows.row? d.id, e.Suits d r))

end Edit

/-- Calls that edit a flow at the same time. -/
abbrev Edits := Crew fun _ : Edit => Outcome Definition

/-- What can happen to calls that edit a flow, whatever else happens. -/
abbrev Edits.Step (flow : String) (asks : World → Edit → Ask → Prop) : Edits → Edits → Prop :=
  Crew.Step (Apart flow) (fun e p => e.Proper ∧ p = e.program flow) asks

/-- What they come to in the course of time. -/
abbrev Edits.Course (flow : String) (asks : World → Edit → Ask → Prop) : Edits → Edits → Prop :=
  Relation.ReflTransGen (Step flow asks)

namespace Edits

variable {c : Edits} {k k' : Nat} {i i' : Edit} {p p' q : Program (Outcome Definition)} {w : World}

/-- The call of that number, and what is left of it. -/
def At (c : Edits) (k : Nat) (i : Edit) (p : Program (Outcome Definition)) : Prop :=
  c.members[k]? = some ⟨i, p⟩

/-- The calls when one of them has come to another place. -/
def moved (c : Edits) (w : World) (k : Nat) (i : Edit) (p : Program (Outcome Definition)) : Edits :=
  ⟨w, c.members.set k ⟨i, p⟩⟩

theorem At.inj (h : c.At k i p) (h' : c.At k i' p') : i = i' ∧ p = p' := by
  have he := Option.some.inj (h.symm.trans h')
  cases he
  exact ⟨rfl, rfl⟩

theorem At.lt (h : c.At k i p) : k < c.members.length := (List.getElem?_eq_some_iff.mp h).1

theorem At.joined (h : c.At k i p) : Edits.At (c.joined i' p') k i p :=
  (List.getElem?_append_left h.lt).trans h

theorem at_joined : Edits.At (c.joined i p) c.members.length i p := Crew.getElem?_joined c i p

theorem At.of_joined (h : Edits.At (c.joined i p) k i' p') :
    c.At k i' p' ∨ k = c.members.length ∧ i' = i ∧ p' = p := by
  have hlt : k < c.members.length + 1 := by simpa [Crew.joined] using h.lt
  by_cases hk : k < c.members.length
  · exact .inl ((List.getElem?_append_left hk).symm.trans h)
  · obtain rfl : k = c.members.length := by omega
    obtain ⟨hi, hp⟩ := h.inj at_joined
    exact .inr ⟨rfl, hi, hp⟩

theorem At.moved_self (h : c.At k i q) : (c.moved w k i p).At k i p := List.getElem?_set_self h.lt

theorem At.moved_of_ne (h : c.At k' i' p') (hne : k' ≠ k) : (c.moved w k i p).At k' i' p' :=
  (List.getElem?_set_ne hne.symm).trans h

theorem At.of_moved (hk : c.At k i q) (h : (c.moved w k i p).At k' i' p') :
    k' = k ∧ i' = i ∧ p' = p ∨ k' ≠ k ∧ c.At k' i' p' := by
  by_cases he : k' = k
  · subst he
    obtain ⟨hi, hp⟩ := h.inj hk.moved_self
    exact .inl ⟨rfl, hi, hp⟩
  · exact .inr ⟨he, (List.getElem?_set_ne (Ne.symm he)).symm.trans h⟩

/-- A call stays among the calls. -/
theorem At.still (hk : c.At k i q) (h : c.At k' i' p') : ∃ p'', (c.moved w k i p).At k' i' p'' := by
  by_cases he : k' = k
  · subst he
    obtain ⟨rfl, -⟩ := hk.inj h
    exact ⟨p, hk.moved_self⟩
  · exact ⟨p', h.moved_of_ne he⟩

end Edits

/-! ### What a call does, step by step -/

/-- What is left when the flow is saved. -/
def saved (rest : Program (Outcome Definition)) : Outcome Unit → Program (Outcome Definition)
  | .ok () => rest
  | .error e => .done (.error e)

/-- What is left when the compiled version is at hand. -/
def remembered (d : Definition) : Unit → Program (Outcome Definition) := fun _ => .done (.ok d)

/-- What is left of a call for a draft when the flow is loaded. -/
def drafted (g : Graph) (now : Millis) : Outcome Definition → Program (Outcome Definition)
  | .error e => .done (.error e)
  | .ok d =>
    match withDraft d g now with
    | .error e => .done (.error e)
    | .ok d => .ask (.saveFlow d) (saved (.done (.ok d)))

/-- What is left of a call that publishes when the version is kept. -/
def versioned (d : Definition) (now : Millis) (f : Flow) :
    Outcome Unit → Program (Outcome Definition)
  | .ok () => .ask (.saveFlow (d.live now))
      (saved (.ask (.remember (VersionRow.key f.id f.version) f) (remembered (d.live now))))
  | .error e => .done (.error e)

/-- What is left of a call that publishes when the flow is loaded. -/
def released (flow : String) (now : Millis) : Outcome Definition → Program (Outcome Definition)
  | .error e => .done (.error e)
  | .ok d =>
    match (Flow.compile flow (d.version + 1) d.draft).mapError Flow.Defect.toFailure with
    | .error e => .done (.error e)
    | .ok f => .ask (.saveVersion flow (d.version + 1) d.draft now) (versioned d now f)

theorem program_draft (flow : String) (g : Graph) : (Edit.draft g).program flow =
    .ask .now fun t => .ask (.loadFlow flow) (drafted g t.millis) := by
  show Program.ask _ _ = _
  congr 1
  funext t
  show Program.ask _ _ = _
  congr 1
  funext o
  cases o with
  | error e => rfl
  | ok d =>
    show (ExceptT.mk (pure (withDraft d g t.millis)) >>= fun d => (do
      saveFlow d
      return d : Procedure Definition)).run = _
    dsimp only [drafted]
    cases withDraft d g t.millis with
    | error e => rfl
    | ok d =>
      show Program.ask _ _ = _
      congr 1
      funext o
      cases o <;> rfl

theorem program_publish (flow : String) : Edit.publish.program flow =
    .ask .now fun t => .ask (.loadFlow flow) (released flow t.millis) := by
  show Program.ask _ _ = _
  congr 1
  funext t
  show Program.ask _ _ = _
  congr 1
  funext o
  cases o with
  | error e => rfl
  | ok d =>
    show (compile flow (d.version + 1) d.draft >>= fun f => (do
      saveVersion flow (d.version + 1) d.draft t.millis
      saveFlow (d.live t.millis)
      remember f
      return d.live t.millis : Procedure Definition)).run = _
    dsimp only [released, compile]
    cases (Flow.compile flow (d.version + 1) d.draft).mapError Flow.Defect.toFailure with
    | error e => rfl
    | ok f =>
      show Program.ask _ _ = _
      congr 1
      funext o
      cases o with
      | error e => rfl
      | ok _ =>
        show Program.ask _ _ = _
        congr 1
        funext o
        cases o <;> rfl

/-- How far a call has come beside others that have made the flow the current one, and what it has
saved. -/
inductive Stage (flow : String) (s : Store) (cur : Definition) :
    Edit → Option Definition → Program (Outcome Definition) → Prop
  | draft {g : Graph} (hg : g.ReadsBack) : Stage flow s cur (.draft g) none
      (.ask .now fun t => .ask (.loadFlow flow) (drafted g t.millis))
  | drafting {g : Graph} {now : Millis} (hg : g.ReadsBack) : Stage flow s cur (.draft g) none
      (.ask (.loadFlow flow) (drafted g now))
  | drafted {g : Graph} {now : Millis} {d d' : Definition} (hg : g.ReadsBack)
      (hd : d.Behind s cur) (h : withDraft d g now = .ok d') : Stage flow s cur (.draft g) none
      (.ask (.saveFlow d') (saved (.done (.ok d'))))
  | publish : Stage flow s cur .publish none
      (.ask .now fun t => .ask (.loadFlow flow) (released flow t.millis))
  | publishing {now : Millis} : Stage flow s cur .publish none
      (.ask (.loadFlow flow) (released flow now))
  | released {d : Definition} {now : Millis} {f : Flow} (hd : d.Behind s cur)
      (hf : Flow.compile flow (d.version + 1) d.draft = .ok f) : Stage flow s cur .publish none
      (.ask (.saveVersion flow (d.version + 1) d.draft now) (versioned d now f))
  | versioned {d : Definition} {now : Millis} {f : Flow} (hd : d.Behind s cur)
      (hf : Flow.compile flow (d.version + 1) d.draft = .ok f) (hv : d.version = cur.version)
      (hrow : s.versions.row? (VersionRow.key flow (d.version + 1)) =
        some (.ofGraph flow (d.version + 1) d.draft now)) : Stage flow s cur .publish none
      (.ask (.saveFlow (d.live now))
        (saved (.ask (.remember (VersionRow.key f.id f.version) f) (remembered (d.live now)))))
  | remembering {d : Definition} {key : String} {f : Flow} : Stage flow s cur .publish (some d)
      (.ask (.remember key f) (remembered d))
  | ended {i : Edit} {d : Definition} : Stage flow s cur i (some d) (.done (.ok d))
  | failed {i : Edit} {e : Failure} : Stage flow s cur i none (.done (.error e))

/-- The call has kept a version, and will make the flow point to it. -/
def Halfway (i : Edit) (p : Program (Outcome Definition)) : Prop :=
  i = .publish ∧ ∃ d next, p = .ask (.saveFlow d) next

/-- Whether the call is halfway. -/
def isHalfway : Edit → Program (Outcome Definition) → Bool
  | .publish, .ask (.saveFlow _) _ => true
  | _, _ => false

theorem not_halfway {i : Edit} {p : Program (Outcome Definition)} (hp : isHalfway i p = false) :
    ¬ Halfway i p := by
  rintro ⟨rfl, d, next, rfl⟩
  cases hp

variable {flow : String} {s s' : Store} {d d' cur cur' : Definition} {i : Edit}
  {o : Option Definition} {p : Program (Outcome Definition)}

/-- **Others go on**: a call stays where it is. Once it has kept a version no other one follows. -/
theorem Stage.later (h : Stage flow s cur i o p) (hcur : cur.Behind s' cur') (hid : cur.id = flow)
    (hrows : ∀ v r, s.versions.row? (VersionRow.key flow v) = some r →
      s'.versions.row? (VersionRow.key flow v) = some r)
    (hhalf : Halfway i p → cur'.version = cur.version) : Stage flow s' cur' i o p := by
  have hrows' (v : Nat) (hv : (s.versions.row? (VersionRow.key cur.id v)).isSome) :
      (s'.versions.row? (VersionRow.key cur.id v)).isSome := by
    rw [hid] at hv ⊢
    obtain ⟨r, hr⟩ := Option.isSome_iff_exists.mp hv
    rw [hrows v r hr]
    rfl
  cases h with
  | draft hg => exact .draft hg
  | drafting hg => exact .drafting hg
  | drafted hg hd h => exact .drafted hg (hd.trans hcur hrows') h
  | publish => exact .publish
  | publishing => exact .publishing
  | released hd hf => exact .released (hd.trans hcur hrows') hf
  | versioned hd hf hv hrow =>
    exact .versioned (hd.trans hcur hrows') hf (hv.trans (hhalf ⟨rfl, _, _, rfl⟩).symm)
      (hrows _ _ hrow)
  | remembering => exact .remembering
  | ended => exact .ended
  | failed => exact .failed

/-- A call that has just been made has kept nothing. -/
theorem not_halfway_program (flow : String) (i : Edit) : ¬ Halfway i (i.program flow) := by
  rintro ⟨rfl, d, next, hp⟩
  rw [program_publish] at hp
  cases hp

/-- A call that has just been made. -/
theorem stage_program (h : i.Proper) : Stage flow s cur i none (i.program flow) := by
  cases i with
  | draft g => rw [program_draft]; exact .draft h
  | publish => rw [program_publish]; exact .publish

end Registry

end Dialogue
