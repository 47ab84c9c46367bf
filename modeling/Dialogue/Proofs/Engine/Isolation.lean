import Dialogue.Proofs.Command.Solo
import Dialogue.Proofs.Engine.Reached
import Dialogue.Proofs.Engine.Twins
import Dialogue.Proofs.Json.RoundTrip
import Dialogue.Proofs.Registry.Serial
import Dialogue.Proofs.Session.Shape

/-! # Pinned sessions are isolated

A command to a session that goes on at its own version asks only what twins answer alike. So drafts
and publications make no difference to it, but for one thing: more versions are published than are
kept at hand, and the one of the session may be forgotten. Then it is compiled again from its row.
That makes no difference either if the version at hand is the stored one, and it does if the graph
is not read back as it was written.

* `handle_confined`: what such a command asks.
* `Errands.Run.isolated`: it does the same before and after drafts and publications.
* `Republished`: what is left at hand when a flow is published many times.
* `Errands.unisolated_sliding`: a version that is forgotten and compiled with another number. -/

namespace Dialogue

open Program Procedure World

/-! ### Commands to pinned sessions -/

/-- The key is that of the version which the session has. -/
def World.Pins (w : World) (sid key : String) : Prop :=
  ∃ r, w.store.row? sid = some r ∧ key = VersionRow.key r.flowId (ofSigned64 r.flowVersion)

/-- A session has one version only. -/
theorem World.Pins.unique {w : World} {sid key key' : String} (h : w.Pins sid key)
    (h' : w.Pins sid key') : key = key' := by
  obtain ⟨r, hr, rfl⟩ := h
  obtain ⟨r', hr', rfl⟩ := h'
  cases hr.symm.trans hr'
  rfl

theorem Ask.Local.confined {a : Ask} (h : a.Local) (keys : String → Prop) : a.Confined keys := by
  cases a with
  | createSession | loadFlow | saveFlow | loadVersion | saveVersion | cached | remember =>
    exact h.elim
  | _ => trivial

section
variable {keys : String → Prop} {w : World}

theorem lasts_numbered (P : Prop) : Lasts Numbered fun _ => P := ⟨fun _ => id, fun _ _ => id⟩

/-- To look a version up is to ask for that version alone. -/
theorem Registry.version_confined {flow : String} {v : Nat} (hk : keys (VersionRow.key flow v)) :
    (version flow v).run.Always Numbered (fun _ a => a.Confined keys) (fun _ _ => True) w := by
  unfold version
  refine always_lift (p := question (.cached (VersionRow.key flow v)))
    (always_question fun w₁ _ => ⟨hk, fun c => ?_⟩)
  simp only [answer]
  cases w₁.compiled.get? (VersionRow.key flow v) with
  | some f => exact trivial
  | none =>
    refine always_tried (p := loadVersion flow v) fun w₂ _ => ⟨hk, fun c => ?_⟩
    show Either _ _ (w₂.store.loadVersion flow v) w₂
    cases w₂.store.loadVersion flow v with
    | error e => exact trivial
    | ok g =>
      refine always_pure (fun _ _ => trivial) fun f hf => ?_
      obtain ⟨rfl, rfl, -⟩ := Flow.compile_sound (compile_eq_ok hf)
      exact always_lift (p := remember f) fun w₃ _ => ⟨hk, fun _ => trivial⟩

/-- A command to a pinned session that does not give it back to the live flow asks for no version
but that of the session. -/
theorem Command.conserves_confined {settings : Settings} (sid : String) {c : Command}
    (hpinned : settings.engine.binding = .pinned) (hc : ∀ node, c ≠ .giveBack node) :
    c.Conserves settings sid Numbered (fun _ a => a.Confined keys) (fun _ => True) (fun _ => True)
      (fun s _ => keys (VersionRow.key s.flowId s.flowVersion)) (fun _ _ => True)
      (fun _ _ _ => True) (fun _ _ _ => True) where
  clock _ _ := trivial
  letting := lasts_true _
  loaded _ := lasts_numbered _
  kept _ := lasts_true _
  found _ _ := lasts_true _
  load _ := trivial
  locals _ _ ha := ha.confined keys
  save _ _ := trivial
  saveTurn _ _ := trivial
  version hs := (Registry.version_confined hs.1).imp_post fun _ _ _ => ⟨fun _ _ => trivial, hs⟩
  live h := by
    rcases h with h | ⟨node, h⟩
    · rw [hpinned] at h
      cases h
    · exact absurd h (hc node)
  free _ := trivial
  keep _ := trivial
  record _ _ _ _ := trivial
  close _ _ _ _ _ _ := trivial
  assign _ _ _ _ _ _ _ := trivial
  back _ := trivial
  saved _ _ _ _ := trivial
  foundSaved _ _ _ := trivial
  begins _ _ := trivial
  scene _ :=
    { clock := fun _ _ => trivial
      session := fun _ => lasts_true _
      letting := lasts_true _
      live := fun _ _ _ => trivial
      node := fun _ _ _ => trivial
      halt := fun _ _ _ => trivial
      stamp := fun _ _ => trivial
      saved := fun _ _ _ _ => trivial }

theorem Command.handle_confined {settings : Settings} (sid : String) {c : Command}
    (hpinned : settings.engine.binding = .pinned) (hc : ∀ node, c ≠ .giveBack node) :
    (handle settings sid c).run.Always Numbered (fun _ a => a.Confined (w.Pins sid))
      (fun _ _ => True) w := by
  refine handle_conserves (conserves_confined sid hpinned hc) fun w₁ s hb hs _ => ⟨?_, trivial⟩
  obtain ⟨t, rfl⟩ := hb
  obtain ⟨-, r, hr, hread⟩ := Store.loadSession_eq_ok hs
  obtain ⟨-, hflow, hversion, -⟩ := SessionRow.toSession_eq_ok hread
  exact ⟨r, hr, by rw [hflow, hversion]⟩

end

/-- The version of a session is stored, wherever errands have come. -/
theorem Errands.Run.stores_pinned {settings : Settings} {may : Errand → Prop} {now : Millis}
    {m : Errands} (h : Run settings may (.new now) m) (sid : String) :
    m.world.Stores (m.world.Pins sid) := by
  rintro _ ⟨r, hr, rfl⟩
  exact (h.sound_chartered.world.sessions sid r hr).2

/-- **After drafts and publications** such a command does what it does before, but that the version
of the session may be forgotten. -/
theorem Command.edited {settings : Settings} (hpinned : settings.engine.binding = .pinned)
    {sid : String} {c : Command} (hc : ∀ node, c ≠ .giveBack node) {w : World}
    (hw : w.Stores (w.Pins sid)) {edits : Registry.Calls} (he : Registry.Editing ⟨w, []⟩ edits)
    (t : Instant) (e : Nat → Occasion) :
    ∃ w' : World,
      (w' = w.timed t ∨ ∃ key, w.Pins sid key ∧ w' = (w.timed t).forgetting key) ∧
      w'.Twin (w.Pins sid) (edits.world.timed t) ∧
      ((edits.world.timed t).alone e (handle settings sid c).run).2 =
        (w'.alone e (handle settings sid c).run).2 ∧
      (w'.alone e (handle settings sid c).run).1.Twin (w.Pins sid)
        ((edits.world.timed t).alone e (handle settings sid c).run).1 := by
  obtain ⟨w', htwin, hw'⟩ := ((he.spared hw).timed t).exists_twin fun _ _ => Pins.unique
  have hconfined : (handle settings sid c).run.Always Numbered
      (fun _ a => a.Confined (w.Pins sid)) (fun _ _ => True) w' := by
    rcases hw' with rfl | ⟨key, -, rfl⟩ <;> exact handle_confined sid hpinned hc
  have hinstant : (edits.world.timed t).instant = w'.instant := by
    rcases hw' with rfl | ⟨key, -, rfl⟩ <;> rfl
  exact ⟨w', hw', htwin, hconfined.twin htwin hinstant e⟩

/-- **Pinned sessions are isolated.** Whatever an engine has come to, drafts and publications make
no difference to a session that goes on at its own version, even if compiled versions are forgotten
meanwhile, provided that the version at hand for it is the stored one. A command that does not give
the session back to the live flow comes to the same report or failure, leaves the same row and tells
the chat backend the same, at whatever time and whatever comes from outside. -/
theorem Errands.Run.isolated {settings : Settings} {may : Errand → Prop} {now : Millis}
    {m : Errands} (h : Run settings may (.new now) m)
    (hpinned : settings.engine.binding = .pinned) {sid : String}
    (hread : ∀ key, m.world.Pins sid key → m.world.Vouches key) {edits : Registry.Calls}
    (he : Registry.Editing ⟨m.world, []⟩ edits) {c : Command} (hc : ∀ node, c ≠ .giveBack node)
    (t : Instant) (e : Nat → Occasion) :
    let before := (m.world.timed t).alone e (Command.handle settings sid c).run
    let after := (edits.world.timed t).alone e (Command.handle settings sid c).run
    after.2 = before.2 ∧ after.1.store.row? sid = before.1.store.row? sid ∧
      ∃ told, before.1.deliveries = m.world.deliveries ++ told ∧
        after.1.deliveries = edits.world.deliveries ++ told := by
  intro before after
  obtain ⟨w', hw', htwin, hresult, hend⟩ := Command.edited hpinned hc (h.stores_pinned sid) he t e
  -- to forget a version that is stored is no matter for the session
  have hshares : (m.world.timed t).Shares w' := by
    rcases hw' with rfl | ⟨key, hk, rfl⟩
    · exact .refl _
    · exact (Shares.refl _).forget (hread key hk)
  have hsame : (m.world.timed t).Same sid w' := by
    rcases hw' with rfl | ⟨key, -, rfl⟩ <;> exact ⟨rfl, rfl⟩
  have hsolo := Command.solo_handle (m.world.timed t) settings sid c
  obtain ⟨hresult', hend'⟩ := hsolo.alone_same (e := e) (.refl _) hshares hsame
  obtain ⟨told, htold, hown⟩ := hsolo.exists_told (.refl _) e
  obtain ⟨told', htold', hown'⟩ := hsolo.exists_told hshares e
  have hall {l : List Delivery} (hl : ∀ d ∈ l, d.session = sid) :
      l.filter (fun d => d.session = sid) = l :=
    List.filter_eq_self.mpr fun d hd => decide_eq_true (hl d hd)
  have heq : told' = told := by
    have hends := hend'.told
    rw [World.told, World.told, htold, htold', List.filter_append, List.filter_append, hall hown,
      hall hown'] at hends
    exact List.append_cancel_left (hends.trans (congrArg (· ++ told) hsame.told.symm))
  refine ⟨hresult.trans hresult', ?_, told, htold, ?_⟩
  · rw [Store.row?, hend.sessions]
    exact hend'.row
  · rw [hend.deliveries, htold', heq, ← htwin.deliveries]
    rfl

/-! ### A session whose flow is drawn anew -/

/-- Nothing comes from outside. -/
def silence : Nat → Occasion := fun n => ⟨n, ⟨false, .unreachable⟩⟩

namespace World

/-- A session waits for the answer in a flow that asks. -/
def awaiting : World :=
  ((((new .empty 0).doing (Registry.createFlow "").run).publishing asking).doing
    (Command.openSession "f1").run).doing (Command.handle .pinned "s1" .start).run

theorem reached_awaiting : Reached awaiting := by
  have hmade := (Reached.new 0).createFlow (leads_doing _ (Registry.createFlow "").run)
  have hopened := (hmade.publishing readsBack_asking).openSession
    (leads_doing _ (Command.openSession "f1").run)
  exact hopened.command (leads_doing _ (Command.handle .pinned "s1" .start).run)

end World

/-- An engine comes to that. -/
theorem Errands.run_awaiting :
    ∃ m, Run .pinned (fun _ => True) (.new 0) m ∧ m.world = World.awaiting := by
  have hdoes (e : Errand) (m : Errands) : ∃ m', Run .pinned (fun _ => True) m m' ∧
      m'.world = m.world.doing (e.program .pinned) := does trivial m
  obtain ⟨m₁, h₁, hw₁⟩ := hdoes (.call (.create "")) (.new 0)
  obtain ⟨m₂, h₂, hw₂⟩ := hdoes (.call (.draft "f1" asking)) m₁
  obtain ⟨m₃, h₃, hw₃⟩ := hdoes (.call (.publish "f1")) m₂
  obtain ⟨m₄, h₄, hw₄⟩ := hdoes (.opening "f1") m₃
  obtain ⟨m₅, h₅, hw₅⟩ := hdoes (.order ⟨"s1", .start⟩) m₄
  refine ⟨m₅, (((h₁.trans h₂).trans h₃).trans h₄).trans h₅, ?_⟩
  simp only [hw₅, hw₄, hw₃, hw₂, hw₁, World.awaiting, World.publishing, Errand.program,
    Registry.Call.program, Errands.new]

theorem Registry.editing_does {c : Call} (hc : c.Edits) (m : Calls) :
    ∃ m', Editing m m' ∧ m'.world = m.world.doing c.program :=
  Crew.Course.does (calm .unreachable) ⟨hc, rfl⟩ (fun _ _ => trivial) m

/-- The flow is drawn anew and published, and all compiled versions are forgotten. -/
theorem Registry.editing_awaiting : ∃ edits : Calls, Editing ⟨World.awaiting, []⟩ edits ∧
    edits.world = { World.awaiting.publishing telling with compiled := .empty } := by
  obtain ⟨m₁, h₁, hw₁⟩ := editing_does (c := .draft "f1" telling) trivial ⟨World.awaiting, []⟩
  obtain ⟨m₂, h₂, hw₂⟩ := editing_does (c := .publish "f1") trivial m₁
  have hforgets : m₂.world.Forgets { m₂.world with compiled := .empty } := ⟨⟨_, _, rfl⟩, nofun⟩
  refine ⟨_, (h₁.trans h₂).tail (.aside hforgets), ?_⟩
  simp only [hw₂, hw₁, World.publishing, Registry.Call.program]

/-- The customer answers after the flow was drawn anew and its versions were forgotten, as
before. -/
theorem Errands.isolated_awaiting :
    ∃ (m : Errands) (edits : Registry.Calls) (r : SessionRow),
      Run .pinned (fun _ => True) (.new 0) m ∧
      (∀ key, m.world.Pins "s1" key → m.world.Vouches key) ∧
      Registry.Editing ⟨m.world, []⟩ edits ∧ edits.world.compiled = .empty ∧
      ((edits.world.timed (.ofMillis 0)).alone silence
        (Command.handle .pinned "s1" (.text "Ana")).run).1.store.row? "s1" = some r ∧
      r.vars = "\x7b\"x\":\"Ana\"\x7d" := by
  obtain ⟨m, h, hm⟩ := run_awaiting
  obtain ⟨edits, he, hedits⟩ := Registry.editing_awaiting
  rw [← hm] at he
  have hread : ∀ key, m.world.Pins "s1" key → m.world.Vouches key := by
    rw [hm]
    exact fun key _ => World.reached_awaiting.sound.backs key
  obtain ⟨-, hrow, -⟩ := h.isolated rfl hread he (c := .text "Ana") (by nofun) (.ofMillis 0) silence
  have hvars : (((World.awaiting.timed (.ofMillis 0)).alone silence
      (Command.handle .pinned "s1" (.text "Ana")).run).1.store.row? "s1").map (·.vars) =
        some "\x7b\"x\":\"Ana\"\x7d" := by
    rw [World.awaiting, World.begun_asking]
    decide +kernel
  rw [← hm, Option.map_eq_some_iff] at hvars
  obtain ⟨r, hr, hv⟩ := hvars
  exact ⟨m, edits, r, h, hread, he, hedits ▸ rfl, hrow.trans hr, hv⟩

/-! ### A version that is forgotten -/

namespace World

/-- The flow is published so many times. -/
def republished (w : World) (flow : String) : Nat → World
  | 0 => w
  | n + 1 => (w.republished flow n).doing (Registry.publish flow).run

/-- The flow with that draft was published so many times. So many newer versions are at hand than
the one of the key. -/
structure Republished (flow : String) (g : Graph) (key : String) (n : Nat) (w : World) : Prop where
  settled : ∃ d, w.Settled flow d ∧ d.draft = g ∧ d.version = n
  fresh : ∀ v, n < v → w.compiled.get? (VersionRow.key flow v) = none
  beyond : w.compiled.Beyond n key

variable {flow key : String} {g : Graph} {n : Nat} {w : World}

/-- **Once more**: another version is at hand. -/
theorem Republished.publish (h : Republished flow g key n w)
    (hg : ∀ v, ∃ f, Flow.compile flow v g = .ok f) (hkey : ∀ v, VersionRow.key flow v ≠ key)
    (hn : n + 1 < 0x8000000000000000) :
    Republished flow g key (n + 1) (w.doing (Registry.publish flow).run) := by
  obtain ⟨d, hsettled, rfl, rfl⟩ := h.settled
  obtain ⟨f, hf⟩ := hg (d.version + 1)
  obtain ⟨hid, hversion, -⟩ := Flow.compile_sound hf
  obtain ⟨hrun, -, hlive⟩ := hsettled.publishes hf .unreachable
  have hw : w.doing (Registry.publish flow).run = w.offering (d.live w.clock) f :=
    congrArg Prod.fst hrun
  have hcompiled : (w.offering (d.live w.clock) f).compiled =
      w.compiled.set (VersionRow.key flow (d.version + 1)) f := by
    rw [← hid, ← hversion]
    rfl
  rw [hw]
  refine ⟨⟨_, hlive hn, rfl, rfl⟩, fun v hv => ?_, ?_⟩
  · have hne : VersionRow.key flow v ≠ VersionRow.key flow (d.version + 1) := by
      intro he
      have hv' := (VersionRow.key_injective he).2
      omega
    rw [hcompiled, Cache.get?_set_of_ne hne]
    exact h.fresh v (by omega)
  · rw [hcompiled]
    exact h.beyond.set (h.fresh _ (Nat.lt_succ_self _)) (hkey _) f

/-- **Many times**, from the first one on. -/
theorem Republished.many (h : Republished flow g key 0 w)
    (hg : ∀ v, ∃ f, Flow.compile flow v g = .ok f) (hkey : ∀ v, VersionRow.key flow v ≠ key)
    (hn : n < 0x8000000000000000) : Republished flow g key n (w.republished flow n) := by
  induction n with
  | zero => exact h
  | succ n ih => exact (ih (by omega)).publish hg hkey hn

/-- To publish a flow many times is to edit flows. -/
theorem editing_republished (w : World) (flow : String) (n : Nat) :
    ∃ edits, Registry.Editing ⟨w, []⟩ edits ∧ edits.world = w.republished flow n := by
  induction n with
  | zero => exact ⟨_, .refl, rfl⟩
  | succ n ih =>
    obtain ⟨edits, he, hw⟩ := ih
    obtain ⟨edits', he', hw'⟩ := Registry.editing_does (c := .publish flow) trivial edits
    exact ⟨edits', he.trans he', by rw [hw', hw]; rfl⟩

/-- A flow that keeps a value. -/
def storing (x : Json) : Graph := drawn "setValue" (.obj [("value", x), ("variable", .str "k")])

/-- A session was opened on such a flow. There is another flow, which is not published. -/
def keeper (x : Json) : World :=
  ((((new .empty 0).doing (Registry.createFlow "").run).publishing (storing x)).doing
    (Command.openSession "f1").run).doing (Registry.createFlow "").run

/-- The session was started, and its turn was lost before it came to the value. -/
def lost (x : Json) : World :=
  (cut ⟨false, .unreachable⟩ 12 (Command.handle .pinned "s1" .start).run (keeper x)).2

/-- The variables that the session is kept with when it is recovered. -/
def recovered (w : World) : Option String :=
  (((w.timed (.ofMillis 0)).alone silence
    (Command.handle .pinned "s1" .recover).run).1.store.row? "s1").map (·.vars)

/-- The number that the text of `sliding` is read as. -/
def slid : Float := .ofBits 4508054750025069344

/-- The number that the text of `slid` is read as. -/
def slidOn : Float := .ofBits 4508054750025069345

theorem readsAs_sliding : (storing (.float sliding)).ReadsAs (storing (.float slid)) :=
  Outcome.eq_ok_of_toOption (by decide +kernel)

theorem readsAs_slid : (storing (.float slid)).ReadsAs (storing (.float slidOn)) :=
  Outcome.eq_ok_of_toOption (by decide +kernel)

/-- The draft has one number, and what is live another one. -/
theorem keeper_sliding : keeper (.float sliding) =
    (begun (storing (.float sliding)) (storing (.float slid))).doing
      (Registry.createFlow "").run := by
  rw [keeper, begun_eq readsAs_sliding readsAs_slid (by decide +kernel) rfl]

/-- The rows, what is at hand, and what comes of a recovery, with the version at hand and
without. -/
theorem lost_sliding :
    (lost (.float sliding)).store.registered = true ∧
      (lost (.float sliding)).store.flows.row? "f2" =
        some (.ofDefinition { firstFlow .initial none 0 with id := "f2" }) ∧
      (lost (.float sliding)).store.versions.rows.map (·.id) = [VersionRow.key "f1" 1] ∧
      (lost (.float sliding)).compiled.entries.map (·.1) = [VersionRow.key "f1" 1] ∧
      ((lost (.float sliding)).store.row? "s1").map (fun r =>
        VersionRow.key r.flowId (ofSigned64 r.flowVersion)) = some (VersionRow.key "f1" 1) ∧
      (lost (.float sliding)).recovered = some "\x7b\"k\":2.3713540431586443e-7\x7d" ∧
      ((lost (.float sliding)).forgetting (VersionRow.key "f1" 1)).recovered =
        some "\x7b\"k\":2.3713540431586446e-7\x7d" := by
  rw [lost, keeper_sliding]
  decide +kernel

/-- The other flow can be published as often as one likes. -/
theorem republished_lost : Republished "f2" .initial (VersionRow.key "f1" 1) 0
    (lost (.float sliding)) := by
  obtain ⟨hregistered, hrow, hversions, hcompiled, -⟩ := lost_sliding
  have hne (v : Nat) : VersionRow.key "f2" v ≠ VersionRow.key "f1" 1 := fun he =>
    absurd (VersionRow.key_injective he).1 (by decide)
  refine ⟨⟨{ firstFlow .initial none 0 with id := "f2" }, ⟨⟨hregistered, hrow,
    ⟨Graph.readsBack_initial, nofun⟩, by decide, rfl⟩, fun v _ => ?_⟩, rfl, rfl⟩, fun v _ => ?_,
    Cache.beyond_zero _ _⟩
  · cases hr : (lost (.float sliding)).store.versions.row? (VersionRow.key "f2" v) with
    | none => rfl
    | some r =>
      have hid : r.id = VersionRow.key "f2" v := Collection.id_of_row? hr
      have hmem := List.mem_map_of_mem (f := (·.id)) (List.mem_of_find?_eq_some hr)
      rw [hversions, hid] at hmem
      exact absurd (List.mem_singleton.mp hmem) (hne v)
  · refine List.lookup_eq_none_iff.mpr fun e he => ?_
    have hmem := List.mem_map_of_mem (f := (·.1)) he
    rw [hcompiled] at hmem
    rw [List.mem_singleton.mp hmem]
    simpa using hne v

end World

/-- An engine comes to that. -/
theorem Errands.run_lost (x : Json) :
    ∃ m, Run .pinned (fun _ => True) (.new 0) m ∧ m.world = World.lost x := by
  have hdoes (e : Errand) (m : Errands) : ∃ m', Run .pinned (fun _ => True) m m' ∧
      m'.world = m.world.doing (e.program .pinned) := does trivial m
  obtain ⟨m₁, h₁, hw₁⟩ := hdoes (.call (.create "")) (.new 0)
  obtain ⟨m₂, h₂, hw₂⟩ := hdoes (.call (.draft "f1" (storing x))) m₁
  obtain ⟨m₃, h₃, hw₃⟩ := hdoes (.call (.publish "f1")) m₂
  obtain ⟨m₄, h₄, hw₄⟩ := hdoes (.opening "f1") m₃
  obtain ⟨m₅, h₅, hw₅⟩ := hdoes (.call (.create "")) m₄
  have hopened : m₅.world = World.keeper x := by
    simp only [hw₅, hw₄, hw₃, hw₂, hw₁, World.keeper, World.publishing, Errand.program,
      Registry.Call.program, Errands.new]
  have hjoined : Run .pinned (fun _ => True) m₅ (m₅.joined (.order ⟨"s1", .start⟩)
      (Command.handle .pinned "s1" .start).run) := .single (.join ⟨trivial, rfl⟩)
  have hcut : Run .pinned (fun _ => True) _ _ :=
    Crew.Course.cuts ⟨false, .unreachable⟩ 12 (Crew.getElem?_joined m₅ (.order ⟨"s1", .start⟩)
      (Command.handle .pinned "s1" .start).run) fun _ _ => trivial
  refine ⟨_, (((((h₁.trans h₂).trans h₃).trans h₄).trans h₅).trans hjoined).trans hcut, ?_⟩
  simp only [World.lost, ← hopened, Crew.joined]

/-- **A version that is compiled with another number**: the session is recovered after another flow
was published so many times that its own version is not at hand any more. -/
theorem Errands.unisolated_sliding : ∃ (m : Errands) (edits : Registry.Calls),
    Run .pinned (fun _ => True) (.new 0) m ∧ Registry.Editing ⟨m.world, []⟩ edits ∧
      edits.world = (m.world.republished "f2" capacity).pruned ∧
      m.world.recovered = some "\x7b\"k\":2.3713540431586443e-7\x7d" ∧
      edits.world.recovered = some "\x7b\"k\":2.3713540431586446e-7\x7d" := by
  obtain ⟨m, h, hm⟩ := run_lost (.float sliding)
  obtain ⟨-, -, -, hcompiled, hpins, hbefore, hafter⟩ := lost_sliding
  rw [← hm] at hcompiled hpins hbefore hafter
  obtain ⟨edits, he, hedits⟩ := editing_republished m.world "f2" capacity
  have hedited := he.tail (.aside (forgets_pruned edits.world))
  have hmany : Republished "f2" .initial (VersionRow.key "f1" 1) capacity edits.world := by
    rw [hedits, hm]
    refine republished_lost.many (fun v => ⟨_, rfl⟩) (fun v he => ?_) (by decide)
    exact absurd (VersionRow.key_injective he).1 (by decide)
  have hgone : edits.world.pruned.compiled.get? (VersionRow.key "f1" 1) = none :=
    hmany.beyond.get?_newest
  refine ⟨m, _, h, hedited, congrArg pruned hedits, hbefore, ?_⟩
  have hbinding : Settings.pinned.engine.binding = .pinned := rfl
  obtain ⟨w', hw', htwin, -, hend⟩ := Command.edited hbinding (c := .recover) (by nofun)
    (h.stores_pinned "s1") hedited (.ofMillis 0) silence
  have hpinned : m.world.Pins "s1" (VersionRow.key "f1" 1) := by
    obtain ⟨r, hr, hkey⟩ := Option.map_eq_some_iff.mp hpins
    exact ⟨r, hr, hkey.symm⟩
  obtain rfl : w' = (m.world.timed (.ofMillis 0)).forgetting (VersionRow.key "f1" 1) := by
    rcases hw' with rfl | ⟨key, hkey, rfl⟩
    · -- the version was at hand, so it is not this world that has the twin
      have hnone := List.lookup_eq_none_iff.mp (htwin.kept _ hpinned hgone)
      have hmem : VersionRow.key "f1" 1 ∈ m.world.compiled.entries.map (·.1) := by
        rw [hcompiled]
        exact List.mem_singleton_self _
      obtain ⟨e, he, hkey⟩ := List.mem_map.mp hmem
      exact absurd hkey.symm (bne_iff_ne.mp (hnone e he))
    · rw [hkey.unique hpinned]
  have hsame : edits.world.pruned.recovered =
      (m.world.forgetting (VersionRow.key "f1" 1)).recovered := by
    rw [recovered, Store.row?, hend.sessions]
    rfl
  exact hsame.trans hafter

end Dialogue
