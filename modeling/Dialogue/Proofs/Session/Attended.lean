import Dialogue.Proofs.Program.Concert
import Dialogue.Proofs.Session.Mirror
import Dialogue.Proofs.Turn.Values

/-! # Sessions in the hands of humans

A session that waits for an agent, or that an agent has, is out of the hands of the flow until it is
given back. Until then its commands ask nothing but to read and to keep its row, to pass a message
or the end on, and to tell the end. They pass texts of the customer on, let an agent take the
session, or close it; a click or a recovery is refused.

* `Command.handle_attended`: what a command asks and what it makes of the row.
* `SessionRow.Keeps`, `Minutes`: what stays of a row, and what a log of commands says of its status
  and of the texts of the customer.
* `Tenure.attended`: so it is with the row after any commands. -/

namespace Dialogue

open Program Procedure World Turn

/-! ### What is asked -/

/-- The question is one that any clerk may ask for the session: it begins no turn, looks up no flow,
runs no node, and writes nothing to the store. -/
def Ask.Clerical (sid : String) : Ask → Prop
  | .loadSession id | .deliver (.append id _) | .deliver (.close id) => id = sid
  | .emit (.event ⟨id, _, .session .closed⟩) => id = sid
  | .now | .fresh .message => True
  | _ => False

/-- The command neither begins the flow of the session nor gives the session back to it. -/
def Command.Outside : Command → Prop
  | .start | .giveBack _ => False
  | _ => True

/-- The row of the session, at a time that fits its column. -/
structure World.Stands (sid : String) (r : SessionRow) (w : World) : Prop where
  registered : w.store.registered = true
  row : w.store.row? sid = some r
  clock : FitsColumn w.clock

namespace Command

/-- What the command makes of the row. -/
inductive Tends (r : SessionRow) (c : Command) : Session → Prop
  | direct {s y : Session} {e : Ending} (hs : Opens r s) (h : Direct s c y e)
      (ht : FitsColumn y.updateTime) : Tends r c y

/-- The question is a clerical one, or keeps what the command makes of the row. -/
def Attends (sid : String) (r : SessionRow) (c : Command) (w : World) (a : Ask) : Prop :=
  a.Clerical sid ∨ ∃ y, a = .saveSession y ∧ w.store.row? sid = some r ∧ Tends r c y

/-- The command was carried out, or it was refused and the row is as it was. -/
def Attended (sid : String) (r : SessionRow) (c : Command) : Outcome Report → World → Prop :=
  Either (fun _ w => ∃ y, Tends r c y ∧ w.store.row? sid = some (.ofSession y))
    fun f w => w.store.row? sid = some r ∧ ∀ s, r.toSession = .ok s → f.isSession = true

end Command

namespace World.Stands

variable {sid : String} {r : SessionRow} {w w' : World} {a : Ask}

theorem aside (h : Stands sid r w) (hb : w.Aside sid w') : Stands sid r w' :=
  ⟨hb.registered.trans h.registered, hb.row.trans h.row, hb.clock h.clock⟩

theorem answer (h : Stands sid r w) (ha : a.Clerical sid) (circ : Circumstance) :
    Stands sid r (w.answer circ a).1 := by
  cases a with
  | loadSession | now | deliver => exact ⟨h.registered, h.row, h.clock⟩
  | fresh i => cases i <;> exact ⟨h.registered, h.row, h.clock⟩
  | emit e =>
    have hsame := alike_answer (a := .emit e) trivial w circ
    exact ⟨hsame.registered.trans h.registered, (row?_eq_of_alike hsame sid).trans h.row, h.clock⟩
  | _ => exact ha.elim

theorem save (h : Stands sid r w) {y : Session} (hy : y.id = sid) (circ : Circumstance) :
    (w.answer circ (.saveSession y)).2 = .ok () ∧
      Stands sid (.ofSession y) (w.answer circ (.saveSession y)).1 := by
  subst hy
  obtain ⟨sessions, hs, hr⟩ := Store.saveSession_eq h.registered h.row
  simp only [World.answer, hs, change]
  exact ⟨trivial, h.registered, (hr y.id).trans (if_pos rfl), h.clock⟩

end World.Stands

namespace Command

/-! ### One rule for each command -/

section
variable {settings : Settings} {sid : String} {r₀ r : SessionRow} {c : Command} {s y : Session}
  {w : World}

/-- A session that humans own has no place in the flow. -/
theorem Opens.unplaced (hs : Opens r s) (hr : r.InShape) (hbot : r.status ≠ Status.bot.name) :
    isQueued s = true ∧ s.currentNode = none ∧ s.pendingNode = none ∧ s.halt = none := by
  have hshape := inShape_toSession hs.1 hr
  rw [← hs.status_name] at hbot
  have hopen := hs.2
  cases hx : s.status with
  | bot => exact absurd (congrArg Status.name hx) hbot
  | closed =>
    rw [Session.isClosed, hx] at hopen
    cases hopen
  | waiting =>
    obtain ⟨-, -, hc, hp, hh⟩ := hshape.waiting (congrArg Status.name hx)
    exact ⟨by rw [isQueued, hx]; rfl, hc, hp,
      Option.not_isSome_iff_eq_none.mp (Bool.eq_false_iff.mp hh)⟩
  | «open» =>
    obtain ⟨-, -, hc, hp, hh⟩ := hshape.taken (congrArg Status.name hx)
    exact ⟨by rw [isQueued, hx]; rfl, hc, hp,
      Option.not_isSome_iff_eq_none.mp (Bool.eq_false_iff.mp hh)⟩

/-- A clerical question that keeps nothing, before the rest of a command. -/
theorem attends_aside {α : Type} {a : Ask} (ha : a.Clerical sid) (hw : Stands sid r w)
    {f : a.Answer → Procedure α} {post : Outcome α → World → Prop}
    (h : ∀ x w, Stands sid r w →
      (f x).run.Always (Aside sid) (Attends sid r₀ c) post w) :
    ((question a : Procedure a.Answer) >>= f).run.Always (Aside sid) (Attends sid r₀ c) post w := by
  refine always_lift (always_question fun w₁ hb => ⟨.inl ha, fun circ => ?_⟩)
  exact h _ _ ((hw.aside hb).answer ha circ)

/-- The time fits its column. -/
theorem attends_now {α : Type} (hw : Stands sid r w) {f : Millis → Procedure α}
    {post : Outcome α → World → Prop}
    (h : ∀ now w, FitsColumn now → Stands sid r w →
      (f now).run.Always (Aside sid) (Attends sid r₀ c) post w) :
    ((now : Procedure Millis) >>= f).run.Always (Aside sid) (Attends sid r₀ c) post w := by
  refine always_lift (p := now) fun w₁ hb => ⟨.inl trivial, fun circ => ?_⟩
  exact h _ _ (hw.aside hb).clock (hw.aside hb)

theorem Direct.id_eq {e : Ending} (h : Direct s c y e) : y.id = s.id := by
  cases h <;> rfl

theorem Tends.id_eq (h : Tends r c y) (hw : Stands sid r w) : y.id = sid := by
  obtain ⟨hs, hd, -⟩ := h
  exact hd.id_eq.trans ((SessionRow.toSession_eq_ok hs.1).1.trans (Store.id_of_row? hw.row))

/-- The row is put in place of the one that it was made of. -/
theorem attends_save {α : Type} (hw : Stands sid r w) (ht : Tends r c y)
    {f : Unit → Procedure α} {post : Outcome α → World → Prop}
    (h : ∀ w, Stands sid (.ofSession y) w →
      (f ()).run.Always (Aside sid) (Attends sid r c) post w) :
    (saveSession y >>= f).run.Always (Aside sid) (Attends sid r c) post w := by
  refine always_tried (p := saveSession y) fun w₁ hb => ?_
  have hw₁ := hw.aside hb
  refine ⟨.inr ⟨y, rfl, hw₁.row, ht⟩, fun circ => ?_⟩
  obtain ⟨hok, hw₂⟩ := hw₁.save (ht.id_eq hw) circ
  rw [hok]
  exact h _ hw₂

/-- The report of a command that was carried out. -/
theorem attends_done (ht : Tends r c y) (hw : Stands sid (.ofSession y) w) (rep : Report) :
    (pure rep : Procedure Report).run.Always (Aside sid) (Attends sid r c) (Attended sid r c) w :=
  ⟨y, ht, hw.row⟩

theorem attends_text {t : String} (hs : Opens r s) (hq : isQueued s = true)
    (hw : Stands sid r w) :
    (submitText settings sid s t).run.Always (Aside sid) (Attends sid r (.text t))
      (Attended sid r (.text t)) w := by
  unfold submitText
  rw [if_pos hq]
  have hrecord : (record sid s t).run.Always (Aside sid) (Attends sid r (.text t))
      (Either (fun _ w => ∃ y, Tends r (.text t) y ∧ w.store.row? sid = some (.ofSession y))
        fun _ _ => False) w := by
    unfold record
    refine attends_aside (a := .fresh .message) trivial hw fun id w hw => ?_
    refine attends_now hw fun now w hnow hw => ?_
    have ht : Tends r (.text t) (recorded s t id now) := .direct hs (.relay hq id now) hnow
    refine attends_save hw ht fun w hw => ?_
    have hdeliver : (Ask.deliver (.append sid ⟨id, .user, t, none, now⟩)).Clerical sid := rfl
    refine attends_aside hdeliver hw fun _ w hw => ?_
    show ∃ y, _
    exact ⟨_, ht, hw.row⟩
  refine always_tried (hrecord.imp_post ?_)
  rintro (f | s') w h
  · exact h.elim
  · exact h

theorem attends_assign {agent : String} (hs : Opens r s) (hq : isQueued s = true)
    (hw : Stands sid r w) :
    (assignAgent sid s agent).run.Always (Aside sid) (Attends sid r (.assign agent))
      (Attended sid r (.assign agent)) w := by
  unfold assignAgent
  rw [hq]
  refine attends_now hw fun now w hnow hw => ?_
  have ht : Tends r (.assign agent) _ := .direct hs (.assign hq now) hnow
  refine attends_save hw ht fun w hw => ?_
  exact attends_done ht hw _

theorem attends_close (hs : Opens r s) (hw : Stands sid r w) :
    (closeSession sid s).run.Always (Aside sid) (Attends sid r .close)
      (Attended sid r .close) w := by
  unfold closeSession
  refine attends_now hw fun now w hnow hw => ?_
  have ht : Tends r .close _ := .direct hs (.close now) hnow
  refine attends_save hw ht fun w₁ hw₁ => ?_
  have hdeliver : (Ask.deliver (.close sid)).Clerical sid := rfl
  have hemit : (Ask.emit (.event ⟨sid, "", .session .closed⟩)).Clerical sid := rfl
  refine attends_aside hdeliver hw₁ fun _ w₂ hw₂ => ?_
  refine attends_aside hemit hw₂ fun _ w₃ hw₃ => ?_
  exact attends_done ht hw₃ _

/-- **A command from outside the flow** asks only what a clerk may ask while a human owns the
session. It is carried out at once, or it fails and leaves the row as it is. -/
theorem handle_attended (settings : Settings) (hr : r.InShape) (hbot : r.status ≠ Status.bot.name)
    (hc : c.Outside) (hw : Stands sid r w) :
    (handle settings sid c).run.Always (Aside sid) (Attends sid r c) (Attended sid r c) w := by
  refine always_tried (p := loadSession sid) fun w₁ hb => ⟨.inl rfl, fun circ => ?_⟩
  have hw₁ := hw.aside hb
  show Either _ _ (w₁.store.loadSession sid) w₁
  rw [Store.loadSession_eq hw₁.registered hw₁.row]
  cases hload : r.toSession with
  | error f => exact ⟨hw₁.row, fun s hs => by rw [hload] at hs; cases hs⟩
  | ok s =>
    have hrefuse (ref : Refusal) : (refuse sid ref : Procedure Report).run.Always (Aside sid)
        (Attends sid r c) (Attended sid r c) w₁ := ⟨hw₁.row, fun _ _ => rfl⟩
    show Always _ _ _ (ExceptT.run (if s.isClosed = true then _ else _)) _
    split
    · exact hrefuse .closed
    · rename_i hopen
      have hs : Opens r s := ⟨hload, Bool.eq_false_iff.mpr hopen⟩
      obtain ⟨hq, hcurrent, hpending, -⟩ := hs.unplaced hr hbot
      cases c with
      | start | giveBack => exact hc.elim
      | text t => exact attends_text hs hq hw₁
      | assign agent => exact attends_assign hs hq hw₁
      | close => exact attends_close hs hw₁
      | recover =>
        show Always _ _ _ (recoverSession settings sid s).run _
        unfold recoverSession
        rw [hpending]
        exact hrefuse _
      | click id label =>
        show Always _ _ _ (submitClick settings sid s id label).run _
        unfold submitClick
        rw [hcurrent]
        exact hrefuse _

end

end Command

/-! ### What becomes of the row -/

/-- The texts that a command adds to a transcript. -/
def Command.texts : Command → List String
  | .text t => [t]
  | _ => []

/-- The status that a command brings about. -/
inductive Command.Shifts : Command → Status → Status → Prop
  | text (t : String) (x : Status) : Shifts (.text t) x x
  | assign (agent : String) (x : Status) : Shifts (.assign agent) x .open
  | close (x : Status) : Shifts .close x .closed

/-- What stays of a row while texts of the customer are added to it. The variables are read as they
were wherever their numbers are ones that a text holds. -/
structure SessionRow.Keeps (r : SessionRow) (texts : List String) (r' : SessionRow) : Prop where
  flow : r'.flowId = r.flowId
  version : ofSigned64 r'.flowVersion = ofSigned64 r.flowVersion
  queue : r'.queue = r.queue
  current : r'.currentNode = r.currentNode
  pending : r'.pendingNode = r.pendingNode
  halt : r'.halt = r.halt
  vars : ∀ s, r.toSession = .ok s → (∀ x ∈ (Json.obj s.vars).doubles, Json.ReadsBack x) →
    ∃ s', r'.toSession = .ok s' ∧ s'.vars = s.vars
  transcript : ∀ ms, r.transcript = .ok ms → ∃ new, r'.transcript = .ok (ms ++ new) ∧
    new.map Message.text = texts ∧ ∀ m ∈ new, m.sender = .user ∧ m.buttons = none

namespace SessionRow.Keeps

variable {r r' r'' : SessionRow} {texts texts' : List String}

theorem refl (r : SessionRow) : r.Keeps [] r :=
  ⟨rfl, rfl, rfl, rfl, rfl, rfl, fun s hs _ => ⟨s, hs, rfl⟩,
    fun ms hms => ⟨[], by rw [List.append_nil]; exact hms, rfl, nofun⟩⟩

theorem trans (h : r.Keeps texts r') (h' : r'.Keeps texts' r'') :
    r.Keeps (texts ++ texts') r'' where
  flow := h'.flow.trans h.flow
  version := h'.version.trans h.version
  queue := h'.queue.trans h.queue
  current := h'.current.trans h.current
  pending := h'.pending.trans h.pending
  halt := h'.halt.trans h.halt
  vars s hs hx := by
    obtain ⟨s', hs', hvars⟩ := h.vars s hs hx
    obtain ⟨s'', hs'', hvars'⟩ := h'.vars s' hs' (hvars ▸ hx)
    exact ⟨s'', hs'', hvars'.trans hvars⟩
  transcript ms hms := by
    obtain ⟨new, hnew, htexts, huser⟩ := h.transcript ms hms
    obtain ⟨new', hnew', htexts', huser'⟩ := h'.transcript _ hnew
    refine ⟨new ++ new', by rw [← List.append_assoc]; exact hnew', ?_, fun m hm => ?_⟩
    · rw [List.map_append, htexts, htexts']
    · exact (List.mem_append.mp hm).elim (huser m) (huser' m)

end SessionRow.Keeps

namespace Command

variable {r : SessionRow} {c : Command} {s y : Session}

/-- What a command that needs no turn changes: the transcript, and who has the session. -/
theorem Direct.keeps {e : Ending} (h : Direct s c y e) :
    y.flowId = s.flowId ∧ y.flowVersion = s.flowVersion ∧ y.queue = s.queue ∧ y.halt = s.halt ∧
      y.vars = s.vars ∧ (s.currentNode = none → y.currentNode = none) ∧
      (s.pendingNode = none → y.pendingNode = none) ∧
      ∃ new, y.messages = s.messages ++ new ∧ new.map Message.text = c.texts ∧
        ∀ m ∈ new, m.sender = .user ∧ m.buttons = none ∧ m.timestamp = y.updateTime := by
  cases h with
  | @relay t hq id now =>
    have hnew : ∀ m ∈ [(⟨id, .user, t, none, now⟩ : Message)],
        m.sender = .user ∧ m.buttons = none ∧ m.timestamp = now := by simp
    exact ⟨rfl, rfl, rfl, rfl, rfl, fun h => h, fun h => h, _, rfl, rfl, hnew⟩
  | close now =>
    exact ⟨rfl, rfl, rfl, rfl, rfl, fun _ => rfl, fun _ => rfl, [], (List.append_nil _).symm, rfl,
      nofun⟩
  | assign hq now =>
    exact ⟨rfl, rfl, rfl, rfl, rfl, id, id, [], (List.append_nil _).symm, rfl, nofun⟩

theorem Direct.shifts {e : Ending} (h : Direct s c y e) : c.Shifts s.status y.status := by
  cases h with
  | relay hq id now => exact .text _ _
  | close now => exact .close _
  | assign hq now => exact .assign _ _

/-- **What a command makes of a row** that humans own keeps all but the transcript. -/
theorem Tends.keeps (ht : Tends r c y) (hr : r.InShape) (hbot : r.status ≠ Status.bot.name)
    (hv : r.flowVersion < 0x8000000000000000) : r.Keeps c.texts (.ofSession y) := by
  obtain ⟨hs, hd, htime⟩ := ht
  rename_i s e
  obtain ⟨-, hsc, hsp, hsh⟩ := hs.unplaced hr hbot
  obtain ⟨-, hflow, hversion, -, hcurrent, hpending, hqueue, -⟩ := SessionRow.toSession_eq_ok hs.1
  obtain ⟨hyf, hyv, hyq, hyh, hyvars, hyc, hyp, new, hmessages, htexts, huser⟩ := hd.keeps
  obtain ⟨htimes, hvars⟩ := SessionRow.kempt_of_toSession hs.1
  have hytimes : ∀ m ∈ y.messages, FitsColumn m.timestamp := by
    rw [hmessages]
    intro m hm
    rcases List.mem_append.mp hm with hm | hm
    · exact htimes m hm
    · rw [(huser m hm).2.2]
      exact htime
  have hhalt : r.halt = none := by
    rw [← Option.not_isSome_iff_eq_none, ← SessionRow.isSome_halt hs.1, hsh]
    exact Bool.false_ne_true
  have hsmall : s.flowVersion < 0x8000000000000000 := by
    rw [hversion, ofSigned64]
    omega
  have hysmall : y.flowVersion < 0x8000000000000000 := hyv ▸ hsmall
  refine ⟨hyf.trans hflow, ?_, hyq.trans hqueue, (hyc hsc).trans (hsc.symm.trans hcurrent),
    (hyp hsp).trans (hsp.symm.trans hpending), ?_, fun s' hs' hx => ?_, fun ms hms => ?_⟩
  · rw [← hversion, ← hyv]
    simp only [SessionRow.ofSession, toSigned64_eq hysmall, ofSigned64_natCast]
  · show y.halt.map _ = _
    rw [hyh, hsh, hhalt]
    rfl
  · obtain rfl : s = s' := Except.ok.inj (hs.1.symm.trans hs')
    have hkempt : y.Kempt fun _ => False := ⟨hytimes, hyvars ▸ hvars⟩
    rcases hkempt.toSession hysmall (hyvars ▸ hx) with ⟨-, hread⟩ | ⟨-, m, -, -, hwhole⟩
    · exact ⟨y, hread, hyvars⟩
    · exact hwhole.elim
  · obtain rfl : ms = s.messages :=
      Except.ok.inj (hms.symm.trans (SessionRow.texts_of_toSession hs.1).2)
    refine ⟨new, ?_, htexts, fun m hm => ⟨(huser m hm).1, (huser m hm).2.1⟩⟩
    rw [← hmessages]
    exact Message.ofText_toJson hytimes

end Command

/-! ### A log of commands -/

/-- The commands to a session and their answers. One that was cut has none. -/
abbrev Log := List (Command × Option (Outcome Report))

/-- Commands from outside the flow, one after the other, from a world on. Any of them may be cut
anywhere, and others change what they like but the row of the session. -/
inductive Tenure (settings : Settings) (sid : String) (w : World) : Log → World → Prop
  | begun : Tenure settings sid w [] w
  | beside {log : Log} {w₁ w₂ : World} (h : Tenure settings sid w log w₁) (hb : w₁.Aside sid w₂) :
      Tenure settings sid w log w₂
  | command {log : Log} {c : Command} {w₁ w₂ : World} {p : Program (Outcome Report)}
      (h : Tenure settings sid w log w₁) (hc : c.Outside)
      (hl : Leads (Aside sid) (fun _ => True) (Command.handle settings sid c).run w₁ p w₂) :
      Tenure settings sid w (log ++ [(c, p.result?)]) w₂

/-- The texts and the status that a log of commands brings about, from a status on. What was
answered with a report was carried out, and what was answered with a failure was not; what was cut
was carried out or not. -/
inductive Minutes (x₀ : Status) : Log → List String → Status → Prop
  | begun : Minutes x₀ [] [] x₀
  | void {log : Log} {texts : List String} {x : Status} {c : Command}
      {o : Option (Outcome Report)} (h : Minutes x₀ log texts x) (ho : ∀ rep, o ≠ some (.ok rep)) :
      Minutes x₀ (log ++ [(c, o)]) texts x
  | done {log : Log} {texts : List String} {x x' : Status} {c : Command}
      {o : Option (Outcome Report)} (h : Minutes x₀ log texts x) (hx : x ≠ .closed)
      (hc : c.Shifts x x') (ho : ∀ f, o ≠ some (.error f)) :
      Minutes x₀ (log ++ [(c, o)]) (texts ++ c.texts) x'

/-- The texts that were taken. -/
def Log.taken (log : Log) : List String :=
  log.flatMap fun e => match e.2 with
    | some (.ok _) => e.1.texts
    | _ => []

namespace Minutes

variable {x₀ x : Status} {log : Log} {texts : List String}

/-- If every command was answered, the texts are those that were taken, once each and in order. -/
theorem texts_eq (h : Minutes x₀ log texts x) (hall : ∀ e ∈ log, e.2.isSome) :
    texts = log.taken := by
  induction h with
  | begun => rfl
  | @void log texts x c o _ ho ih =>
    have htexts := ih fun e he => hall e (List.mem_append_left _ he)
    rw [Log.taken, List.flatMap_append, ← Log.taken, ← htexts]
    cases o with
    | none => simp
    | some o =>
      cases o with
      | ok rep => exact absurd rfl (ho rep)
      | error f => simp
  | @done log texts x x' c o _ hx hc ho ih =>
    have htexts := ih fun e he => hall e (List.mem_append_left _ he)
    rw [Log.taken, List.flatMap_append, ← Log.taken, ← htexts]
    have ho' : o.isSome := hall (c, o) (List.mem_append_right _ List.mem_cons_self)
    cases o with
    | none => cases ho'
    | some o =>
      cases o with
      | ok rep => simp
      | error f => exact absurd rfl (ho f)

/-- Only a text, an agent and an end are taken. -/
theorem shifts_of_mem (h : Minutes x₀ log texts x) {c : Command} {rep : Report}
    (hc : (c, some (.ok rep)) ∈ log) : ∃ x x', c.Shifts x x' := by
  induction h with
  | begun => cases hc
  | @void log texts x c' o _ ho ih =>
    rcases List.mem_append.mp hc with hc | hc
    · exact ih hc
    · cases List.mem_singleton.mp hc
      exact absurd rfl (ho rep)
  | @done log texts x x' c' o _ hx hs ho ih =>
    rcases List.mem_append.mp hc with hc | hc
    · exact ih hc
    · cases List.mem_singleton.mp hc
      exact ⟨x, x', hs⟩

theorem ne_bot (h : Minutes x₀ log texts x) (hx : x₀ ≠ .bot) : x ≠ .bot := by
  induction h with
  | begun => exact hx
  | void _ _ ih => exact ih
  | done _ _ hc _ ih =>
    cases hc with
    | text => exact ih
    | assign => nofun
    | close => nofun

end Minutes

/-! ### Tenures -/

section
variable {settings : Settings} {sid : String} {started : Bool} {w w' : World} {r r' : SessionRow}
  {log : Log}

theorem SessionRow.version_ofSession_lt (y : Session) :
    (ofSession y).flowVersion < 0x8000000000000000 := by
  simp only [ofSession]
  exact toSigned64_lt _

/-- The version in the row of a session fits its column. -/
theorem Life.version_lt (h : Life settings sid started w) (hr : w.store.row? sid = some r) :
    r.flowVersion < 0x8000000000000000 := by
  have hB := ground_beside sid
  have hkept {c : Command} {w₁ w₂ : World} {p : Program (Outcome Report)} {b : Bool}
      (h₁ : Life settings sid b w₁)
      (ih : ∀ r, w₁.store.row? sid = some r → r.flowVersion < 0x8000000000000000)
      (hl : Leads (Beside sid) (fun _ => True) (Command.handle settings sid c).run w₁ p w₂)
      (r : SessionRow) (hr : w₂.store.row? sid = some r) : r.flowVersion < 0x8000000000000000 := by
    obtain ⟨r₁, hw₁, -⟩ := h₁.exists_row
    obtain ⟨r', hw', hr'⟩ := (always_handle _ c hw₁).holds_leads
      (P := fun r => r.flowVersion < 0x8000000000000000) hB hl
      (fun _ y _ => SessionRow.version_ofSession_lt y) hw₁ (ih _ hw₁.2)
    obtain rfl : r' = r := Option.some.inj (hw'.2.symm.trans hr)
    exact hr'
  induction h generalizing r with
  | opened h =>
    obtain rfl := Option.some.inj ((opened_row h).2.symm.trans hr)
    exact SessionRow.version_ofSession_lt _
  | beside _ hb ih => exact ih (hb.2 ▸ hr)
  | start h hl ih => exact hkept h (fun _ => ih) hl _ hr
  | command h _ hl ih => exact hkept h (fun _ => ih) hl _ hr

namespace Command

/-- Where a command has come that began with a row in the hands of humans. -/
theorem attended_leads {c : Command} {p : Program (Outcome Report)} (hr : r.InShape)
    (hbot : r.status ≠ Status.bot.name) (hc : c.Outside) (hw : Stands sid r w)
    (hl : Leads (Aside sid) (fun _ => True) (handle settings sid c).run w p w') :
    Stands sid r w' ∧ (∀ rep, p.result? ≠ some (.ok rep)) ∨
      ∃ y, Tends r c y ∧ Stands sid (.ofSession y) w' ∧ ∀ f, p.result? ≠ some (.error f) := by
  have hcourse := handle_attended settings hr hbot hc hw
  -- the row is the first one, or one that the command makes of that
  have hstands : ∃ r', Stands sid r' w' ∧ (r' = r ∨ ∃ y, Tends r c y ∧ r' = .ofSession y) := by
    refine hcourse.kept (I := fun w => ∃ r', Stands sid r' w ∧
      (r' = r ∨ ∃ y, Tends r c y ∧ r' = .ofSession y)) hl ?_ ?_ ⟨r, hw, .inl rfl⟩
    · rintro w₁ w₂ hb ⟨r', hw₁, hr'⟩
      exact ⟨r', hw₁.aside hb, hr'⟩
    · rintro w₁ a circ hguard ⟨r', hw₁, hr'⟩
      rcases hguard with ha | ⟨y, rfl, -, hy⟩
      · exact ⟨r', hw₁.answer ha circ, hr'⟩
      · exact ⟨_, (hw₁.save (hy.id_eq hw) circ).2, .inr ⟨y, hy, rfl⟩⟩
  obtain ⟨r', hw', hr'⟩ := hstands
  have hpost := hcourse.leads hl
  cases p with
  | ask a next =>
    rcases hr' with rfl | ⟨y, hy, rfl⟩
    · exact .inl ⟨hw', fun _ => by simp [Program.result?]⟩
    · exact .inr ⟨y, hy, hw', fun _ => by simp [Program.result?]⟩
  | done o =>
    cases o with
    | ok rep =>
      obtain ⟨y, hy, hrow⟩ := hpost
      obtain rfl : r' = .ofSession y := Option.some.inj (hw'.row.symm.trans hrow)
      exact .inr ⟨y, hy, hw', fun _ => by simp [Program.result?]⟩
    | error f =>
      obtain rfl : r' = r := Option.some.inj (hw'.row.symm.trans hpost.1)
      exact .inl ⟨hw', fun _ => by simp [Program.result?]⟩

end Command

namespace Tenure

theorem life (hl : Tenure settings sid w log w') (h : Life settings sid started w) :
    Life settings sid started w' := by
  have hbeside : ∀ w w' : World, w.Aside sid w' → w.Beside sid w' :=
    fun _ _ hb => ⟨hb.registered, hb.row⟩
  induction hl with
  | begun => exact h
  | beside _ hb ih => exact .beside ih (hbeside _ _ hb)
  | @command _ c _ _ _ _ hc hl ih =>
    exact .command ih (fun he => by rw [he] at hc; exact hc) (hl.among hbeside)

/-- **What commands make of a row** that humans own, one after the other. -/
theorem exists_minutes {x₀ : Status} (hl : Tenure settings sid w log w')
    (h : Life settings sid started w) (hw : Stands sid r w) (hx : r.status = x₀.name)
    (hbot : x₀ ≠ .bot) :
    ∃ r' texts x, Stands sid r' w' ∧ r'.status = x.name ∧ Minutes x₀ log texts x ∧
      r.Keeps texts r' := by
  induction hl with
  | begun => exact ⟨r, [], x₀, hw, hx, .begun, .refl r⟩
  | beside _ hb ih =>
    obtain ⟨r', texts, x, hw', hrest⟩ := ih
    exact ⟨r', texts, x, hw'.aside hb, hrest⟩
  | @command log c w₁ w₂ p hl hc hlead ih =>
    obtain ⟨r', texts, x, hw', hx', hminutes, hkeeps⟩ := ih
    have hlife := hl.life h
    obtain ⟨r'', hrow, hshape, -⟩ := hlife.exists_row
    obtain rfl : r' = r'' := Option.some.inj (hw'.row.symm.trans hrow.2)
    have hne : r'.status ≠ Status.bot.name := by
      rw [hx']
      exact fun he => hminutes.ne_bot hbot (Status.name_injective he)
    rcases Command.attended_leads hshape hne hc hw' hlead with ⟨hw₂, ho⟩ | ⟨y, hy, hw₂, ho⟩
    · exact ⟨r', texts, x, hw₂, hx', .void hminutes ho, hkeeps⟩
    · have hkept := hkeeps.trans (hy.keeps hshape hne (hlife.version_lt hw'.row))
      obtain ⟨hs, hd, -⟩ := hy
      have hstatus := Status.name_injective (hs.status_name.trans hx')
      have hopen : x ≠ .closed := fun he => by
        have hopen := hs.2
        rw [Session.isClosed, hstatus, he] at hopen
        cases hopen
      exact ⟨_, _, y.status, hw₂, rfl, .done hminutes hopen (hstatus ▸ hd.shifts) ho, hkept⟩

/-- **A session in the hands of humans.** It was started before. Commands from outside the flow
leave it in its place, with its variables; its status moves by an agent and by the end alone, and
each text that was taken stands once in the transcript, in order. At any time a command asks only
what a clerk may ask and is carried out, or it is refused and leaves the row as it is; clicks and
recoveries are refused. -/
theorem attended (hl : Tenure settings sid w log w') (h : Life settings sid started w)
    (hclock : FitsColumn w.clock) (hr : w.store.row? sid = some r) {x₀ : Status}
    (hx : r.status = x₀.name) (hhuman : x₀ = .waiting ∨ x₀ = .open) :
    started = true ∧ ∃ r' texts x, w'.store.row? sid = some r' ∧ r'.status = x.name ∧
      Minutes x₀ log texts x ∧ r.Keeps texts r' ∧
      ((∀ e ∈ log, e.2.isSome) → texts = log.taken) ∧
      (∀ c rep, (c, some (.ok rep)) ∈ log → ∃ x x', c.Shifts x x') ∧
      ∀ c : Command, c.Outside → (Command.handle settings sid c).run.Always (Aside sid)
        (Command.Attends sid r' c) (Command.Attended sid r' c) w' := by
  obtain ⟨r₀, hrow, -, hunused⟩ := h.exists_row
  obtain rfl : r₀ = r := Option.some.inj (hrow.2.symm.trans hr)
  have hbot : x₀ ≠ .bot := by rcases hhuman with rfl | rfl <;> nofun
  have hstarted : started = true := by
    rw [← Bool.not_eq_false]
    intro he
    have hstatus : x₀ = .closed ∨ x₀ = .bot :=
      (hunused he).imp (fun h => Status.name_injective (hx.symm.trans h))
        fun h => Status.name_injective (hx.symm.trans h.1)
    rcases hhuman with rfl | rfl <;> simp at hstatus
  have hw : Stands sid r₀ w := ⟨hrow.1, hrow.2, hclock⟩
  obtain ⟨r', texts, x, hw', hx', hminutes, hkeeps⟩ := hl.exists_minutes h hw hx hbot
  obtain ⟨r'', hrow', hshape, -⟩ := (hl.life h).exists_row
  obtain rfl : r' = r'' := Option.some.inj (hw'.row.symm.trans hrow'.2)
  have hne : r'.status ≠ Status.bot.name := by
    rw [hx']
    exact fun he => hminutes.ne_bot hbot (Status.name_injective he)
  exact ⟨hstarted, r', texts, x, hw'.row, hx', hminutes, hkeeps, hminutes.texts_eq,
    fun c rep => hminutes.shifts_of_mem,
    fun c hc => Command.handle_attended settings hshape hne hc hw'⟩

end Tenure

end

/-! ### A session that the flow has handed on -/

namespace World

/-- The session when the flow has handed the customer on. -/
def handed (v : Json) : World := (keeping v).handling .start

/-- What is logged of commands that run to their ends. -/
def logged (w : World) : List Command → Log
  | [] => []
  | c :: cs =>
    (c, some (run (calm .unreachable) 0 (Command.handle .default "s1" c).run w).2.2) ::
      logged (w.handling c) cs

end World

theorem Life.handed (v : Json) : Life .default "s1" true (World.handed v) :=
  .start (.opened rfl) (leads_run (fun _ => ⟨rfl, rfl⟩) (calm .unreachable) 0 _ (keeping v))

theorem Tenure.logged {w₀ w : World} {log : Log} (h : Tenure .default "s1" w₀ log w)
    {cs : List Command} (hcs : ∀ c ∈ cs, c.Outside) :
    Tenure .default "s1" w₀ (log ++ w.logged cs) (cs.foldl handling w) := by
  induction cs generalizing w log with
  | nil => rwa [World.logged, List.append_nil]
  | cons c cs ih =>
    have hlead : Leads (Aside "s1") (fun _ => True) (Command.handle .default "s1" c).run w _
        (w.handling c) := leads_run (Aside.refl "s1") (calm .unreachable) 0 _ w
    have hnext := ih (h.command (hcs c List.mem_cons_self) hlead) fun c hc =>
      hcs c (List.mem_cons_of_mem _ hc)
    rwa [List.append_assoc] at hnext

theorem World.isSome_logged (w : World) (cs : List Command) : ∀ e ∈ w.logged cs, e.2.isSome := by
  induction cs generalizing w with
  | nil => simp [World.logged]
  | cons c cs ih =>
    intro e he
    rw [World.logged, List.mem_cons] at he
    rcases he with he | he
    · rw [he, Option.isSome_some]
    · exact ih _ e he

/-- A click is lost, and a text and an agent reach the session. -/
theorem Tenure.attended_gold :
    let w := World.handed (.str "gold")
    let cs : List Command := [.click "b1" "Yes", .text "Hello", .assign "ann"]
    Tenure .default "s1" w (w.logged cs) (cs.foldl handling w) ∧
      ∃ r r', w.store.row? "s1" = some r ∧ r.status = Status.waiting.name ∧
        (cs.foldl handling w).store.row? "s1" = some r' ∧ r.Keeps ["Hello"] r' := by
  intro w cs
  have hcs : ∀ c ∈ cs, c.Outside := by simp [cs, Command.Outside]
  have hwaiting : (w.store.row? "s1").map (·.status) = some Status.waiting.name := by
    decide +kernel
  have htaken : (w.logged cs).taken = ["Hello"] := by decide +kernel
  have hclock : FitsColumn w.clock := by
    have h : w.clock = 0 := by decide +kernel
    rw [h]
    unfold FitsColumn
    decide
  obtain ⟨r, hr, hstatus⟩ := Option.map_eq_some_iff.mp hwaiting
  have htenure : Tenure .default "s1" w (w.logged cs) (cs.foldl handling w) :=
    Tenure.logged .begun hcs
  obtain ⟨-, r', texts, x, hr', -, -, hkeeps, htexts, -⟩ :=
    htenure.attended (Life.handed _) hclock hr hstatus (.inl rfl)
  have heq : texts = ["Hello"] := (htexts (w.isSome_logged cs)).trans htaken
  exact ⟨htenure, r, r', hr, hstatus, hr', heq ▸ hkeeps⟩

/-- **A variable that changes in the hands of a queue**: the customer writes, and the number is kept
that was read. -/
theorem Tenure.unattended_sliding :
    let w := World.handed (.float sliding)
    let w' := w.handling (.text "Hello")
    Life .default "s1" true w ∧ Tenure .default "s1" w (w.logged [.text "Hello"]) w' ∧
      ∃ r s r' s', w.store.row? "s1" = some r ∧ r.status = Status.waiting.name ∧
        r.toSession = .ok s ∧ w'.store.row? "s1" = some r' ∧ r'.toSession = .ok s' ∧
        s'.vars ≠ s.vars := by
  intro w w'
  have hbefore : ((w.store.row? "s1").bind fun r => r.toSession.toOption).map (·.vars.get? "x") =
      some (some (.float (.ofBits 4508054750025069344))) := by decide +kernel
  have hafter : ((w'.store.row? "s1").bind fun r => r.toSession.toOption).map (·.vars.get? "x") =
      some (some (.float (.ofBits 4508054750025069345))) := by decide +kernel
  have hwaiting : (w.store.row? "s1").map (·.status) = some Status.waiting.name := by
    decide +kernel
  obtain ⟨r, s, hr, hs, hx⟩ := exists_read hbefore
  obtain ⟨r', s', hr', hs', hx'⟩ := exists_read hafter
  rw [hr, Option.map_some] at hwaiting
  have houtside : ∀ c ∈ [Command.text "Hello"], c.Outside := by simp [Command.Outside]
  have htenure : Tenure .default "s1" w ([] ++ w.logged [.text "Hello"]) w' :=
    Tenure.logged .begun houtside
  refine ⟨Life.handed _, htenure, r, s, r', s', hr, Option.some.inj hwaiting, hs, hr', hs',
    fun he => ?_⟩
  rw [he, hx] at hx'
  exact absurd (Option.some.inj hx') (by decide +kernel)

end Dialogue
