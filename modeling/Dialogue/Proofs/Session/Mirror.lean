import Dialogue.Proofs.Command.Dues

/-! # The chat backend mirrors the store

Whenever no command of a session is handled, the chat backend was told all of its stored transcript
and of its stored variables, once for each commit of a node that changed variables, and of every
transfer and every end, once for each commit that made it. While a command is handled the chat
backend may lag behind the transcript, and never runs ahead of it.

* `Account.Sound.messages_notices`: what the notices of an account tell.
* `Chronicle.account`: what a session has gone through is told by an account in which nothing is
  owed.
* `Chronicle.mirrors`: so the chat backend mirrors the store. -/

namespace Dialogue

open Program Turn

/-! ### What the chat backend was told -/

/-- The queue that is passed on. -/
def Notice.queue? : Notice → Option (Option String)
  | .transfer queue => some queue
  | _ => none

namespace World

variable (sid : String) (w : World)

/-- The messages of a session that the chat backend was passed. -/
def appended : List Message := (w.notices sid).filterMap Notice.message?

/-- The variables of a session that the chat backend was passed, call by call. -/
def persisted : List Variables := (w.notices sid).filterMap Notice.delta?

/-- The queues that a session was transferred to. -/
def transferred : List (Option String) := (w.notices sid).filterMap Notice.queue?

/-- How often a session was closed. -/
def closings : Nat := (w.notices sid).count .close

end World

namespace Commit

variable (k : Commit)

theorem messages_dues : k.dues.filterMap Notice.message? = k.spoken := by
  have hspoken : (k.spoken.map Notice.append).filterMap Notice.message? = k.spoken := by
    rw [List.filterMap_map]
    exact List.filterMap_some
  have hrest : (k.persisted ++ k.parting).filterMap Notice.message? = [] := by
    unfold persisted parting
    cases k.delta.isEmpty <;> cases k.transfers <;> cases k.closes <;> rfl
  rw [dues, List.filterMap_append, hspoken, hrest, List.append_nil]

theorem silent_spoken {α : Type} {f : Notice → Option α} (hf : ∀ m, f (.append m) = none) :
    k.dues.filterMap f = (k.persisted ++ k.parting).filterMap f := by
  have hspoken : (k.spoken.map Notice.append).filterMap f = [] := by
    rw [List.filterMap_map, List.filterMap_eq_nil_iff]
    exact fun m _ => hf m
  rw [dues, List.filterMap_append, hspoken, List.nil_append]

theorem deltas_dues :
    k.dues.filterMap Notice.delta? = if !k.delta.isEmpty then [k.delta] else [] := by
  rw [k.silent_spoken fun _ => rfl]
  unfold persisted parting
  cases k.delta.isEmpty <;> cases k.transfers <;> cases k.closes <;> rfl

theorem queues_dues :
    k.dues.filterMap Notice.queue? = if k.transfers then [k.after.queue] else [] := by
  rw [k.silent_spoken fun _ => rfl]
  unfold persisted parting
  cases k.delta.isEmpty <;> cases k.transfers <;> cases k.closes <;> rfl

theorem count_dues (commits : List Commit) :
    (commits.flatMap dues).count .close = commits.countP closes := by
  have hone (k : Commit) : k.dues.count .close = if k.closes then 1 else 0 := by
    have hspoken : (k.spoken.map Notice.append).count .close = 0 :=
      List.count_eq_zero.mpr fun h => by simp at h
    rw [dues, List.count_append, hspoken, Nat.zero_add]
    unfold persisted parting
    cases k.delta.isEmpty <;> cases k.transfers <;> cases k.closes <;> simp
  induction commits with
  | nil => rfl
  | cons k rest ih =>
    rw [List.flatMap_cons, List.count_append, hone, ih, List.countP_cons, Nat.add_comm]

/-- What is told once for each commit of a sort. -/
theorem filterMap_dues {α : Type} {f : Notice → Option α} {p : Commit → Bool} {g : Commit → α}
    (h : ∀ k : Commit, k.dues.filterMap f = if p k then [g k] else []) (commits : List Commit) :
    (commits.flatMap dues).filterMap f = (commits.filter p).map g := by
  induction commits with
  | nil => rfl
  | cons k rest ih =>
    rw [List.flatMap_cons, List.filterMap_append, h, ih, List.filter_cons]
    split <;> rfl

end Commit

/-! ### The chronicle of a session -/

/-- What a session has gone through up to now, and the marks that it left. It is opened once and
started at most once. Every command is handled to its end, whatever others do meanwhile, whatever
the peers answer, and wherever its turn is told to stop. -/
inductive Chronicle (settings : Settings) (sid : String) (x : Session) :
    Bool → List Mark → World → Prop
  | opened {w : World} {c : Circumstance} {flow : String} {v : Nat} {now : Millis}
      (hx : x = .new sid flow v now) (hclock : FitsColumn w.clock) (hnone : w.notices sid = [])
      (h : (w.answer c (.createSession x)).2 = .ok ()) :
      Chronicle settings sid x false [] (w.answer c (.createSession x)).1
  | beside {started : Bool} {log : List Mark} {w w' : World}
      (h : Chronicle settings sid x started log w) (hb : w.Aside sid w') :
      Chronicle settings sid x started log w'
  | start {log log' : List Mark} {w w' : World} {res : Outcome Report}
      (h : Chronicle settings sid x false log w)
      (hl : Trail (World.Aside sid) sid (Command.handle settings sid .start).run w log'
        (.done res) w') :
      Chronicle settings sid x true (log ++ log') w'
  | command {started : Bool} {log log' : List Mark} {c : Command} {w w' : World}
      {res : Outcome Report} (h : Chronicle settings sid x started log w) (hc : c ≠ .start)
      (hl : Trail (World.Aside sid) sid (Command.handle settings sid c).run w log'
        (.done res) w') :
      Chronicle settings sid x started (log ++ log') w'

/-- The account of a session that was opened and then left marks. -/
def Account.ofLog (x : Session) (log : List Mark) : Account :=
  log.foldl take ⟨x, x, false, [], []⟩

/-- The commits are the sessions that were kept, in order. -/
theorem Account.after_commits (x : Session) (log : List Mark) :
    (ofLog x log).commits.map Commit.after = log.filterMap Mark.kept? := by
  have hfold (t : Account) : (log.foldl take t).commits.map Commit.after =
      t.commits.map Commit.after ++ log.filterMap Mark.kept? := by
    induction log generalizing t with
    | nil => exact (List.append_nil _).symm
    | cons m rest ih =>
      rw [List.foldl_cons, ih]
      cases m with
      | kept y =>
        rw [List.filterMap_cons_some (show (Mark.kept y).kept? = some y from rfl),
          List.append_cons]
        exact congrArg (· ++ rest.filterMap Mark.kept?) List.map_append
      | opened s => rfl
      | told d => rfl
      | turn => rfl
  exact hfold _

theorem Session.retrieved_new (sid flow : String) (v : Nat) (now : Millis) :
    (Session.new sid flow v now).Retrieved := by
  intro s hs
  have hempty : Decode.ofText .convert Decode.fields (Json.obj []).text = .ok [] := rfl
  exact Except.ok.inj ((SessionRow.texts_of_toSession hs).1.symm.trans hempty)

/-- Nothing is owed for a new session. -/
theorem Account.sound_new (sid flow : String) (v : Nat) (now : Millis) :
    (Account.ofLog (.new sid flow v now) []).Sound sid where
  fits _ hk := by cases hk
  ordered _ hk := by cases hk
  timely _ hm := by cases hm
  transcript := rfl
  messages := rfl
  sorted := List.Pairwise.nil
  vars _ := ⟨Session.retrieved_new sid flow v now, rfl, fun _ => .none⟩

namespace Chronicle

variable {settings : Settings} {sid : String} {x : Session} {started : Bool} {log : List Mark}
  {w w' : World}

/-- A chronicle tells a life. -/
theorem life (h : Chronicle settings sid x started log w) : Life settings sid started w := by
  have hbeside : ∀ w w' : World, w.Aside sid w' → w.Beside sid w' :=
    fun _ _ hb => ⟨hb.registered, hb.row⟩
  induction h with
  | opened hx _ _ h => subst hx; exact .opened h
  | beside _ hb ih => exact .beside ih (hbeside _ _ hb)
  | start _ hl ih => exact .start ih (hl.leads.among hbeside)
  | command _ hc hl ih => exact .command ih hc (hl.leads.among hbeside)

/-- A command can be given to the session. -/
theorem settles (h : Life settings sid started w) {t : Account} (ht : t.owed = [])
    (hw : t.Suits sid w) {c : Command} (hc : c = .start → started = false) :
    (Command.handle settings sid c).run.Settles sid (Leaves fun _ t => t.owed = []) t := by
  obtain ⟨r, hr, hshape, hunused⟩ := h.exists_row
  obtain rfl : SessionRow.ofSession t.stored = r := Option.some.inj (hw.row.symm.trans hr.2)
  exact Command.handle_settles c ht hshape fun he => hunused (hc he)

/-- After a command nothing is owed. -/
theorem account_handled (h : Life settings sid started w) (hw : (Account.ofLog x log).Suits sid w)
    (hs : (Account.ofLog x log).Sound sid) (ho : (Account.ofLog x log).owed = [])
    {c : Command} (hc : c = .start → started = false) {res : Outcome Report} {log' : List Mark}
    (hl : Trail (World.Aside sid) sid (Command.handle settings sid c).run w log' (.done res) w') :
    (Account.ofLog x (log ++ log')).Suits sid w' ∧ (Account.ofLog x (log ++ log')).Sound sid ∧
      (Account.ofLog x (log ++ log')).owed = [] := by
  obtain ⟨hdone, hw', hs'⟩ := hl.settles (settles h ho hw hc) hw hs
  rw [Account.ofLog, List.foldl_append]
  refine ⟨hw', hs', ?_⟩
  cases res with
  | ok rep => exact hdone
  | error f => exact hdone

/-- **What a session has gone through** is told by an account in which nothing is owed. -/
theorem account (h : Chronicle settings sid x started log w) :
    (Account.ofLog x log).Suits sid w ∧ (Account.ofLog x log).Sound sid ∧
      (Account.ofLog x log).owed = [] := by
  induction h with
  | @opened w c flow v now hx hclock hnone h =>
    subst hx
    refine ⟨?_, Account.sound_new sid flow v now, rfl⟩
    simp only [World.answer] at h ⊢
    cases hs : w.store.createSession (.new sid flow v now) with
    | error f => rw [hs] at h; cases h
    | ok store =>
      obtain ⟨hreg, sessions, rfl, -, hrow⟩ := Store.createSession_eq_ok hs
      refine ⟨hreg, (hrow sid).trans (if_pos rfl), ?_, hclock⟩
      show w.notices sid ++ [] = []
      rw [hnone, List.append_nil]
  | beside _ hb ih => exact ⟨ih.1.aside hb, ih.2⟩
  | start h hl ih => exact account_handled h.life ih.1 ih.2.1 ih.2.2 (fun _ => rfl) hl
  | command h hc hl ih =>
    exact account_handled h.life ih.1 ih.2.1 ih.2.2 (fun he => absurd he hc) hl

end Chronicle

/-! ### The mirror -/

/-- The chat backend was told what is stored. -/
structure Mirrors (sid : String) (stored : Session) (commits : List Commit) (w : World) : Prop where
  row : w.store.row? sid = some (.ofSession stored)
  /-- The messages that were passed on are the stored transcript, which is read as such. -/
  transcript : w.appended sid = stored.messages
  readable : ∀ s, (SessionRow.ofSession stored).toSession = .ok s → s.messages = stored.messages
  /-- If variables are read as they were kept, the deltas put on each other are the stored ones. -/
  vars : (∀ k ∈ commits, k.after.Retrieved) →
    (∀ s, (SessionRow.ofSession stored).toSession = .ok s → s.vars = stored.vars) ∧
      ∀ name, Option.Rel Json.Alike (stored.vars.get? name)
        ((Variables.merged (w.persisted sid)).get? name)
  /-- There was one call for each commit of a node that changed variables. -/
  deltas : w.persisted sid = (commits.map Commit.delta).filter fun delta => !delta.isEmpty
  /-- A delta has exactly the variables that the node changed. -/
  changes : ∀ k ∈ commits, ∀ name, k.delta.has name = true ↔
    k.byNode = true ∧ Variables.Changed k.before.vars k.after.vars name
  /-- Nothing else changes variables. -/
  unchanged : ∀ k ∈ commits, k.byNode = false → k.after.vars = k.before.vars
  /-- There was one call for each commit that put the session into the hands of a queue, with that
  queue. -/
  transfers : w.transferred sid = (commits.filter Commit.transfers).map fun k => k.after.queue
  /-- Outside of turns no session is put there. -/
  queued : ∀ k ∈ commits, k.turning = false → k.after.status = .waiting →
    k.before.status = .waiting
  /-- There was one call for each commit that closed the session. -/
  closings : w.closings sid = commits.countP Commit.closes
  alive : ∀ k ∈ commits, k.before.status ≠ .closed

/-- Deltas without variables make no difference. -/
theorem Variables.merged_filter (deltas : List Variables) :
    merged (deltas.filter fun delta => !delta.isEmpty) = merged deltas := by
  unfold merged
  generalize ([] : Variables) = acc
  induction deltas generalizing acc with
  | nil => rfl
  | cons delta rest ih =>
    cases delta with
    | nil => exact ih acc
    | cons f fs => exact ih _

namespace Account

variable {sid : String} {t : Account} {w : World}

/-- What the notices of the commits tell of the transcript. -/
theorem Sound.messages_notices (ht : t.Sound sid) :
    (t.commits.flatMap Commit.dues).filterMap Notice.message? = t.stored.messages := by
  rw [List.filterMap_flatMap, ← ht.transcript]
  exact congrArg (t.commits.flatMap ·) (funext Commit.messages_dues)

/-- The chat backend is not ahead of the transcript. -/
theorem Suits.appended_prefix (hw : t.Suits sid w) (ht : t.Sound sid) :
    w.appended sid <+: t.stored.messages := by
  refine ⟨t.owed.filterMap Notice.message?, ?_⟩
  rw [World.appended, ← List.filterMap_append, hw.notices, ht.messages_notices]

/-- A delta has exactly what a node changed. -/
theorem Sound.has_delta_iff (ht : t.Sound sid) {k : Commit} (hk : k ∈ t.commits) (name : String) :
    k.delta.has name = true ↔
      k.byNode = true ∧ Variables.Changed k.before.vars k.after.vars name := by
  rw [Commit.delta]
  split
  · rename_i hnode
    rw [(ht.fits k hk).grows.has_delta_iff (ht.ordered k hk)]
    exact ⟨fun h => ⟨hnode, h⟩, fun h => h.2⟩
  · rename_i hnode
    exact ⟨fun h => (by cases h), fun h => absurd h.1 hnode⟩

/-- **An account in which nothing is owed** is mirrored. -/
theorem Suits.mirror (hw : t.Suits sid w) (ht : t.Sound sid) (ho : t.owed = []) :
    Mirrors sid t.stored t.commits w := by
  have hn : w.notices sid = t.commits.flatMap Commit.dues := by
    rw [← hw.notices, ho, List.append_nil]
  have hdeltas : w.persisted sid =
      (t.commits.map Commit.delta).filter fun delta => !delta.isEmpty := by
    rw [World.persisted, hn, Commit.filterMap_dues Commit.deltas_dues, List.filter_map]
    rfl
  refine ⟨hw.row, ?_, fun s hs => SessionRow.messages_of_toSession hs ht.timely, fun hall => ?_,
    hdeltas, fun k hk name => ht.has_delta_iff hk name, fun k hk => (ht.fits k hk).vars, ?_,
    fun k hk => (ht.fits k hk).queued, ?_, fun k hk => (ht.fits k hk).alive⟩
  · rw [World.appended, hn, ht.messages_notices]
  · obtain ⟨hstored, -, halike⟩ := ht.vars hall
    refine ⟨hstored, ?_⟩
    rw [hdeltas, Variables.merged_filter]
    exact halike
  · rw [World.transferred, hn, Commit.filterMap_dues Commit.queues_dues]
  · rw [World.closings, hn, Commit.count_dues]

end Account

/-- **The mirror.** Whenever no command of a session is handled, the chat backend mirrors the store,
with all sessions that were kept as commits. While one is handled, it is not ahead of the stored
transcript. -/
theorem Chronicle.mirrors {settings : Settings} {sid : String} {x : Session} {started : Bool}
    {log : List Mark} {w : World} (h : Chronicle settings sid x started log w) :
    (Account.ofLog x log).commits.map Commit.after = log.filterMap Mark.kept? ∧
      (∃ stored, Mirrors sid stored (Account.ofLog x log).commits w) ∧
      ∀ (c : Command) (p : Program (Outcome Report)) (log' : List Mark) (w' : World),
        (c = .start → started = false) →
        Trail (World.Aside sid) sid (Command.handle settings sid c).run w log' p w' →
        ∃ stored, w'.store.row? sid = some (.ofSession stored) ∧
          (∀ s, (SessionRow.ofSession stored).toSession = .ok s → s.messages = stored.messages) ∧
          w'.appended sid <+: stored.messages := by
  obtain ⟨hw, hs, ho⟩ := h.account
  refine ⟨Account.after_commits x log, ⟨_, hw.mirror hs ho⟩, fun c p log' w' hc hl => ?_⟩
  obtain ⟨-, hw', hs'⟩ := hl.settles (settles h.life ho hw hc) hw hs
  exact ⟨_, hw'.row, fun s hs => SessionRow.messages_of_toSession hs hs'.timely,
    hw'.appended_prefix hs'⟩

/-! ### A session in the hands of a queue -/

namespace World

/-- A new session of a flow that keeps a value and hands the customer on. -/
def keeping (v : Json) : World := opening (.keeping v)

/-- The world after a command. -/
def handling (w : World) (c : Command) : World :=
  (run (calm .unreachable) 0 (Command.handle .default "s1" c).run w).2.1

/-- The session is started, and then the customer writes to the queue. -/
def written (v : Json) : World := ((keeping v).handling .start).handling (.text "Hello")

end World

theorem Chronicle.written (v : Json) :
    ∃ log, Chronicle .default "s1" (.new "s1" "f1" 1 0) true log (World.written v) := by
  have hclock : FitsColumn (World.new .empty 0).clock := by
    rw [World.clock_new, FitsColumn]
    decide
  have hopened : Chronicle .default "s1" (.new "s1" "f1" 1 0) false [] (World.keeping v) :=
    .opened (w := { World.new .empty 0 with compiled := Cache.empty.set "f1@1" (.keeping v) })
      (c := ⟨false, .unreachable⟩) rfl hclock rfl rfl
  have htrail (c : Command) (w : World) : ∃ log, Trail (World.Aside "s1") "s1"
      (Command.handle .default "s1" c).run w log _ (w.handling c) :=
    exists_trail (World.Aside.refl "s1") (World.calm .unreachable) 0 _ w
  obtain ⟨log, hl⟩ := htrail .start (World.keeping v)
  obtain ⟨log', hl'⟩ := htrail (.text "Hello") ((World.keeping v).handling .start)
  exact ⟨_, .command (c := .text "Hello") (.start hopened hl) (by nofun) hl'⟩

/-- A value that is read as it was kept. -/
theorem Chronicle.mirrors_written :
    let w := World.written (.str "gold")
    ∃ log stored, Chronicle .default "s1" (.new "s1" "f1" 1 0) true log w ∧
      Mirrors "s1" stored (Account.ofLog (.new "s1" "f1" 1 0) log).commits w ∧
      stored.messages.map (·.text) = [Settings.default.messages.handoff, "Hello"] ∧
      w.persisted "s1" = [[("x", .str "gold")]] ∧ w.transferred "s1" = [some "sales"] := by
  intro w
  have htexts : (w.appended "s1").map (·.text) =
      [Settings.default.messages.handoff, "Hello"] := by decide +kernel
  have hdeltas : w.persisted "s1" = [[("x", .str "gold")]] := by decide +kernel
  have hqueues : w.transferred "s1" = [some "sales"] := by decide +kernel
  obtain ⟨log, h⟩ := Chronicle.written (.str "gold")
  obtain ⟨-, ⟨stored, hmirrors⟩, -⟩ := h.mirrors
  exact ⟨log, stored, h, hmirrors, hmirrors.transcript ▸ htexts, hdeltas, hqueues⟩

/-- The variables that are read off the row of a session. -/
theorem World.exists_read {w : World} {sid name : String} {v : Json}
    (h : ((w.store.row? sid).bind fun r => r.toSession.toOption).map (·.vars.get? name) =
      some (some v)) :
    ∃ r s, w.store.row? sid = some r ∧ r.toSession = .ok s ∧ s.vars.get? name = some v := by
  obtain ⟨s, hs, hv⟩ := Option.map_eq_some_iff.mp h
  obtain ⟨r, hr, hs⟩ := Option.bind_eq_some_iff.mp hs
  cases hload : r.toSession with
  | error f => rw [hload] at hs; cases hs
  | ok s' =>
    rw [hload] at hs
    cases hs
    exact ⟨r, s, hr, hload, hv⟩

/-- **A value that is not mirrored**: when the customer writes, the session is kept with the number
that was read, of which the chat backend is not told. -/
theorem Chronicle.unmirrored_unsteady :
    let w := World.written (.float unsteady)
    ∃ log r s, Chronicle .default "s1" (.new "s1" "f1" 1 0) true log w ∧
      w.store.row? "s1" = some r ∧ r.toSession = .ok s ∧
      ¬ ∀ name, Option.Rel Json.Alike (s.vars.get? name)
        ((Variables.merged (w.persisted "s1")).get? name) := by
  intro w
  have htold : (Variables.merged (w.persisted "s1")).get? "x" = some (.float unsteady) := by
    decide +kernel
  have hread : ((w.store.row? "s1").bind fun r => r.toSession.toOption).map (·.vars.get? "x") =
      some (some (.float (.ofBits 4499096027743125506))) := by decide +kernel
  obtain ⟨r, s, hr, hs, hx⟩ := World.exists_read hread
  obtain ⟨log, h⟩ := Chronicle.written (.float unsteady)
  refine ⟨log, r, s, h, hr, hs, fun halike => ?_⟩
  have hname := halike "x"
  rw [hx, htold] at hname
  cases hname with
  | some hname =>
    rcases hname with hname | hname
    · exact absurd hname (by decide +kernel)
    · exact absurd hname (by decide +kernel)

end Dialogue
