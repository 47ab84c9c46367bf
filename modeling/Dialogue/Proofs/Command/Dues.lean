import Dialogue.Proofs.Session.Shape
import Dialogue.Proofs.Turn.Dues

/-! # A command pays what it owes

A command reads the session, may keep it at once, and may run a turn. However it ends, the chat
backend was told all that is owed for what was kept.

* `turn_settles`, `record_settles`: the parts of commands.
* `handle_settles`: the rule for all commands, from one rule for each of them. -/

namespace Dialogue

open Program Procedure Turn

/-! ### Looking up flows -/

theorem Registry.passes_version (flow : String) (v : Nat) (w : World) :
    (version flow v).run.Passes (fun _ => True) w := by
  unfold version
  refine passes_lift (passes_question (a := .cached (VersionRow.key flow v)) trivial)
    (fun cached w => ?_) w
  cases cached with
  | some f => exact trivial
  | none =>
    refine passes_tried (p := loadVersion flow v)
      (passes_question (a := .loadVersion flow v) trivial) (fun g w => ?_) w
    refine passes_tried (p := compile flow v g) (fun _ => trivial) (fun f w => ?_) w
    refine passes_lift (p := remember f) (fun _ _ _ => ⟨trivial, fun _ => trivial⟩)
      (fun _ _ => ?_) w
    exact trivial

theorem Registry.passes_published (flow : String) (w : World) :
    (published flow).run.Passes (fun _ => True) w := by
  unfold published
  refine passes_tried (p := loadFlow flow) (passes_question (a := .loadFlow flow) trivial)
    (fun d w => ?_) w
  show Passes _ (ExceptT.run (if d.version = 0 then _ else _)) w
  split
  · exact trivial
  · exact passes_version _ _ _

namespace Command

theorem passes_resumeFlow (settings : Settings) (s : Session) (node : String) (w : World) :
    (resumeFlow settings s node).run.Passes (fun _ => True) w := by
  unfold resumeFlow
  split
  · exact Registry.passes_version _ _ w
  · refine passes_tried (Registry.passes_published _) (fun f w => ?_) w
    split
    · exact trivial
    · exact Registry.passes_version _ _ w

variable {settings : Settings} {sid : String} {s y : Session} {t : Account}
  {spoken : List Message}

/-! ### Commits outside of turns -/

/-- The session in hand is the one that was last read or kept, no turn has begun, and nothing is
owed. -/
structure Read (sid : String) (s : Session) (t : Account) : Prop where
  id : s.id = sid
  known : t.known = s
  alive : s.status ≠ .closed
  turning : t.turning = false
  paid : t.owed = []

namespace Read

theorem fits (h : Read sid s t) (hid : y.id = s.id) (hm : y.messages = s.messages ++ spoken)
    (htimely : ∀ m ∈ spoken, FitsColumn m.timestamp) (hvars : y.vars = s.vars)
    (hqueued : y.status = .waiting → s.status = .waiting) : (t.commit y).Fits sid where
  id := hid.trans h.id
  alive := show t.known.status ≠ .closed from h.known ▸ h.alive
  said := ⟨spoken, by rw [show (t.commit y).before = s from h.known]; exact hm, htimely⟩
  grows := by
    rw [show (t.commit y).before = s from h.known, show (t.commit y).after.vars = s.vars from hvars]
    exact .refl _
  vars _ := by rw [show (t.commit y).before = s from h.known]; exact hvars
  queued _ := by rw [show (t.commit y).before = s from h.known]; exact hqueued

theorem dues_eq (h : Read sid s t) (hm : y.messages = s.messages ++ spoken) :
    (t.commit y).dues = spoken.map .append ++ if y.status = .closed then [.close] else [] := by
  have hspoken : (t.commit y).spoken = spoken :=
    Commit.spoken_eq (by rw [show (t.commit y).before = s from h.known]; exact hm)
  rw [Commit.dues, hspoken]
  simp [Commit.persisted, Commit.delta, Commit.byNode, Commit.parting, Commit.transfers,
    Commit.closes, Account.commit, h.turning]

end Read

/-- What the customer says is told. -/
theorem record_settles (h : Read sid s t) (text : String) :
    (record sid s text).run.Settles sid
      (Leaves fun y t' => Read sid y t' ∧ y.status = s.status) t := by
  unfold record
  refine settles_aside (passes_question (a := .fresh .message) trivial) fun mid _ => ?_
  refine settles_now fun now hnow => ?_
  have htimely : ∀ m ∈ [(⟨mid, .user, text, none, now⟩ : Message)], FitsColumn m.timestamp :=
    fun m hm => by rwa [List.mem_singleton.mp hm]
  have hm : (recorded s text mid now).messages = s.messages ++ [⟨mid, .user, text, none, now⟩] :=
    rfl
  refine settles_save (y := recorded s text mid now) h.paid (h.fits rfl hm htimely rfl id) ?_
  refine settles_lift (settles_deliver rfl ((h.dues_eq hm).trans rfl) ?_)
  exact ⟨⟨h.id, rfl, h.alive, h.turning, if_neg h.alive⟩, rfl⟩

/-! ### Turns -/

/-- A turn on a session that the flow has. -/
theorem turn_settles {x : Session} (h : Read sid s t) (hid : x.id = s.id) (hx : x.status = .bot)
    (hm : x.messages = s.messages) (hvars : x.vars = s.vars) (f : Flow) (st : Turn.Step) :
    (turn settings sid x f st).run.Settles sid (Leaves fun _ t => t.owed = []) t := by
  unfold turn
  have hhand : Holding sid (begun { x with flowVersion := f.version }) (t.take .turn) :=
    ⟨hid.trans h.id, hx, rfl, hm.trans (h.known ▸ rfl), hvars.trans (h.known ▸ rfl),
      show t.known.status ≠ .closed from h.known ▸ h.alive, rfl, h.paid⟩
  refine settles_lift fun w c _ => ⟨fun _ hm => (by cases hm; trivial), ?_⟩
  refine settles_lift ((Scene.walk_settles hhand _ _ st).imp fun o t ho => ?_)
  refine settles_aside (passes_question (a := .closeTurn) trivial) fun _ _ => ?_
  cases o with
  | ok rep => exact ho
  | error e => exact ho

/-- A text of the customer, and then a turn. -/
theorem said_settles (h : Read sid s t) (hs : s.status = .bot) (text node : String) (f : Flow)
    (st : Turn.Step) :
    ((record sid s text) >>= fun s => do
      emitSession sid node .resumed
      turn settings sid s f st).run.Settles sid (Leaves fun _ t => t.owed = []) t := by
  refine settles_tried ((record_settles h text).imp ?_)
  rintro (e | y) t hy
  · exact hy
  obtain ⟨hread, hstatus⟩ := hy
  refine settles_aside (passes_emit _ _ _) fun _ _ => ?_
  exact turn_settles hread rfl (hstatus.trans hs) rfl rfl f st

/-! ### One rule for each command -/

theorem close_settles (h : Read sid s t) :
    (closeSession sid s).run.Settles sid (Leaves fun _ t => t.owed = []) t := by
  unfold closeSession
  refine settles_now fun now _ => ?_
  let y : Session := { s with
    status := .closed, currentNode := none, pendingNode := none, updateTime := now }
  have hm : y.messages = s.messages ++ [] := (List.append_nil _).symm
  refine settles_save (y := y) h.paid (h.fits rfl hm nofun rfl nofun) ?_
  refine settles_lift (settles_deliver rfl ((h.dues_eq hm).trans rfl) ?_)
  exact settles_aside (passes_emit _ _ _) fun _ _ => rfl

theorem assign_settles (h : Read sid s t) (agent : String) :
    (assignAgent sid s agent).run.Settles sid (Leaves fun _ t => t.owed = []) t := by
  unfold assignAgent
  split
  · exact h.paid
  · refine settles_now fun now _ => ?_
    let y : Session := { s with status := .open, agentId := some agent, updateTime := now }
    have hm : y.messages = s.messages ++ [] := (List.append_nil _).symm
    exact settles_save (y := y) h.paid (h.fits rfl hm nofun rfl nofun)
      ((h.dues_eq hm).trans rfl)

theorem start_settles (h : Read sid s t) (hs : s.status = .bot) :
    (startSession settings sid s).run.Settles sid (Leaves fun _ t => t.owed = []) t := by
  unfold startSession
  refine settles_lookup (Registry.passes_version _ _) h.paid fun f _ => ?_
  exact settles_aside (passes_emit _ _ _) fun _ _ => turn_settles h rfl hs rfl rfl f _

theorem resume_settles (h : Read sid s t) (hs : s.status = .bot) (node text : String)
    (st : Turn.Step) :
    (resumeText settings sid s node text st).run.Settles sid (Leaves fun _ t => t.owed = []) t := by
  unfold resumeText
  exact settles_lookup (passes_resumeFlow _ _ _) h.paid fun f _ => said_settles h hs text node f st

theorem text_settles (h : Read sid s t) (text : String) :
    (submitText settings sid s text).run.Settles sid (Leaves fun _ t => t.owed = []) t := by
  unfold submitText
  cases hq : isQueued s with
  | true =>
    refine settles_tried ((record_settles h text).imp ?_)
    rintro (e | y) t hy
    · exact hy
    · exact hy.1.paid
  | false =>
    have hs : s.status = .bot :=
      status_of_not_queued (by simpa [Session.isClosed] using h.alive) hq
    cases s.currentNode with
    | some node => exact resume_settles h hs node text _
    | none =>
      cases s.halt with
      | none => exact h.paid
      | some x =>
        show Settles _ _ (ExceptT.run (if x.retryable = true then _ else _)) t
        split
        · exact resume_settles h hs x.nodeId text _
        · exact h.paid

theorem click_settles (h : Read sid s t) (id label : String) :
    (submitClick settings sid s id label).run.Settles sid (Leaves fun _ t => t.owed = []) t := by
  unfold submitClick
  cases hp : s.isPaused with
  | false =>
    have hnone : (s.currentNode.filter fun _ => false) = none := by cases s.currentNode <;> rfl
    rw [hnone]
    exact h.paid
  | true =>
    have hs : s.status = .bot := by
      simp only [Session.isPaused, Bool.and_eq_true, decide_eq_true_eq] at hp
      exact hp.1
    split
    · exact h.paid
    · refine settles_lookup (passes_resumeFlow _ _ _) h.paid fun f _ => ?_
      dsimp only
      split
      · exact h.paid
      · exact said_settles h hs label _ f _

theorem recover_settles (h : Read sid s t) (hs : s.pendingNode.isSome → s.status = .bot) :
    (recoverSession settings sid s).run.Settles sid (Leaves fun _ t => t.owed = []) t := by
  unfold recoverSession
  cases hn : s.pendingNode with
  | none => exact h.paid
  | some node =>
    refine settles_lookup (Registry.passes_version _ _) h.paid fun f _ => ?_
    exact turn_settles h rfl (hs (by rw [hn]; rfl)) rfl rfl f _

theorem giveBack_settles (h : Read sid s t) (node : Option String) :
    (returnToFlow settings sid s node).run.Settles sid (Leaves fun _ t => t.owed = []) t := by
  unfold returnToFlow
  split
  · exact h.paid
  · refine settles_lookup (Registry.passes_published _) h.paid fun f _ => ?_
    dsimp only
    split
    · exact h.paid
    · refine settles_aside (passes_emit _ _ _) fun _ _ => ?_
      exact turn_settles (x := givenBack s) h rfl rfl rfl rfl f _

/-- **A command** pays all it owes, however it ends. -/
theorem handle_settles (c : Command) (ht : t.owed = [])
    (hshape : (SessionRow.ofSession t.stored).InShape)
    (hstart : c = .start → (SessionRow.ofSession t.stored).Unused) :
    (handle settings sid c).run.Settles sid (Leaves fun _ t => t.owed = []) t := by
  unfold handle
  refine settles_tried fun w circ hw => ?_
  have hload : (w.answer circ (.loadSession sid)).2 = (SessionRow.ofSession t.stored).toSession :=
    Store.loadSession_eq hw.registered hw.row
  rw [hload]
  cases hs : (SessionRow.ofSession t.stored).toSession with
  | error f => exact ⟨fun _ hm => (by cases hm), ht⟩
  | ok s =>
    have hmark : (Ask.loadSession sid).mark? sid (.ok s) = some (.opened s) := if_pos rfl
    rw [hmark]
    refine ⟨fun m hm => (by cases hm; exact hs), ?_⟩
    show Settles _ _ (ExceptT.run (if s.isClosed = true then _ else _)) _
    split
    · exact ht
    · rename_i hopen
      have hopens : Opens (SessionRow.ofSession t.stored) s := ⟨hs, Bool.eq_false_iff.mpr hopen⟩
      have hid : s.id = sid := (SessionRow.toSession_eq_ok hs).1.trans (Store.id_of_row? hw.row)
      have hread : Read sid s (t.take (.opened s)) :=
        ⟨hid, rfl, by simpa [Session.isClosed] using hopen, rfl, ht⟩
      cases c with
      | start => exact start_settles hread (hopens.unused (hstart rfl)).1
      | text text => exact text_settles hread text
      | click id label => exact click_settles hread id label
      | close => exact close_settles hread
      | recover =>
        exact recover_settles hread (status_of_pending (inShape_toSession hs hshape))
      | assign agent => exact assign_settles hread agent
      | giveBack node => exact giveBack_settles hread node

end Command

end Dialogue
