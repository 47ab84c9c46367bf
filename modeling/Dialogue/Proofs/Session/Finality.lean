import Dialogue.Proofs.Command.Conserves
import Dialogue.Proofs.Session.Account
import Dialogue.Proofs.Session.Shape
import Dialogue.Proofs.Store.Lossless
import Mathlib.Logic.Relation

/-! # Closed sessions and growing transcripts

The process of a session takes one command after the other. A command may be cut anywhere, be it
because its turn was told to stop or because the next command is taken, and others may change
everything but the row of the session meanwhile.

Every write puts a whole session in place of the row, made from what was read or kept before. So it
is told here what every write keeps: the transcript in the row goes on, with what the customer says
by the commands, in their order, and a row that is closed is never written again.

* `handle_mayPut`: what a command writes.
* `Serving.Step.sound`: one step of a run.
* `Serving.final`: what is true between any two moments of a run. -/

namespace Dialogue

open Program Procedure World Turn

/-- What the customer said. -/
def Message.said? (m : Message) : Option String := if m.sender = .user then some m.text else none

/-- All that the customer said. -/
def customerTexts (ms : List Message) : List String := ms.filterMap Message.said?

theorem customerTexts_append (ms ms' : List Message) :
    customerTexts (ms ++ ms') = customerTexts ms ++ customerTexts ms' :=
  List.filterMap_append

theorem customerTexts_uttered {T : Millis → Prop} {ms : List Message}
    (h : ∀ m ∈ ms, Uttered T m) : customerTexts ms = [] := by
  refine List.filterMap_eq_nil_iff.mpr fun m hm => ?_
  have hbot : m.sender = .bot := (h m hm).1
  simp [Message.said?, hbot]

/-- The times of a transcript fit their column, and the customer said nothing but what is in the
list, in that order. -/
structure Faithful (said : List String) (ms : List Message) : Prop where
  timely : ∀ m ∈ ms, FitsColumn m.timestamp
  texts : (customerTexts ms).Sublist said

namespace Faithful

variable {said said' : List String} {ms : List Message}

theorem mono (h : Faithful said ms) (hs : said.Sublist said') : Faithful said' ms :=
  ⟨h.timely, h.texts.trans hs⟩

/-- The bot goes on. -/
theorem uttered (h : Faithful said ms) {spoken : List Message}
    (hs : ∀ m ∈ spoken, Uttered FitsColumn m) : Faithful said (ms ++ spoken) where
  timely := List.forall_mem_append.mpr ⟨h.timely, fun m hm => (hs m hm).2⟩
  texts := by
    rw [customerTexts_append, customerTexts_uttered hs, List.append_nil]
    exact h.texts

/-- The customer goes on. -/
theorem recorded (h : Faithful said ms) (id text : String) {now : Millis} (hnow : FitsColumn now) :
    Faithful (said ++ [text]) (ms ++ [⟨id, .user, text, none, now⟩]) where
  timely := List.forall_mem_append.mpr ⟨h.timely, List.forall_mem_singleton.mpr hnow⟩
  texts := by
    rw [customerTexts_append]
    exact h.texts.append (List.Sublist.refl _)

end Faithful

/-! ### What may be written -/

/-- The row of the session is that of `x`. -/
def World.Has (sid : String) (x : Session) (w : World) : Prop :=
  w.store.registered = true ∧ w.store.row? sid = some (.ofSession x)

/-- The row of the session is not closed. -/
def World.Alive (sid : String) (w : World) : Prop := ∃ x, Has sid x w ∧ x.status ≠ .closed

/-- The session goes on from the transcript in the row. -/
def Session.Continues (sid : String) (said : List String) (y : Session) (w : World) : Prop :=
  y.id = sid ∧ Faithful said y.messages ∧ ∃ x, Has sid x w ∧ x.messages <+: y.messages

/-- The session has the transcript in the row, which is not closed. -/
def Session.Matches (sid : String) (said : List String) (s : Session) (w : World) : Prop :=
  s.id = sid ∧ Faithful said s.messages ∧ ∃ x, Has sid x w ∧ x.status ≠ .closed ∧
    x.messages = s.messages

/-- Sessions are kept only in place of a row that is not closed, whose transcript they continue. -/
def Ask.MayPut (sid : String) (said : List String) (w : World) : Ask → Prop
  | .saveSession y => y.Continues sid said w ∧ Alive sid w
  | .createSession _ | .saveFlow _ | .saveVersion _ _ _ _ => False
  | _ => True

theorem World.Aside.trans {sid : String} {w w' w'' : World} (h : w.Aside sid w')
    (h' : w'.Aside sid w'') : w.Aside sid w'' :=
  ⟨h'.registered.trans h.registered, h'.row.trans h.row, h'.notices.trans h.notices,
    fun hw => h'.clock (h.clock hw)⟩

/-- What always holds of a program holds of it after others did something. -/
theorem Program.Always.onward {sid : String} {α : Type} {guard : World → Ask → Prop} {p : Program α}
    {w w' : World} (h : p.Always (Aside sid) guard (fun _ _ => True) w) (hb : w.Aside sid w') :
    p.Always (Aside sid) guard (fun _ _ => True) w' := by
  cases p with
  | done a => exact trivial
  | ask a next => exact fun w₁ hw₁ => h w₁ (hb.trans hw₁)

section
variable {sid : String} {x y : Session} {w w' : World} {said said' : List String}

theorem World.Has.unique (h : Has sid x w) (h' : Has sid y w) :
    SessionRow.ofSession x = SessionRow.ofSession y :=
  Option.some.inj (h.2.symm.trans h'.2)

/-- The status of a row is that of its session. -/
theorem Session.status_of_row (h : SessionRow.ofSession x = SessionRow.ofSession y) :
    x.status = y.status :=
  Status.name_injective (congrArg SessionRow.status h)

/-- So is its transcript, if the times in it fit their column. -/
theorem Session.messages_of_row (h : SessionRow.ofSession x = SessionRow.ofSession y)
    (hx : ∀ m ∈ x.messages, FitsColumn m.timestamp)
    (hy : ∀ m ∈ y.messages, FitsColumn m.timestamp) : x.messages = y.messages := by
  have htext : (Json.arr (x.messages.map Message.toJson)).text =
      (Json.arr (y.messages.map Message.toJson)).text := congrArg SessionRow.messages h
  have hread := Message.ofText_toJson hy
  rw [← htext, Message.ofText_toJson hx] at hread
  exact Except.ok.inj hread

theorem World.Has.aside (h : Has sid x w) (hb : w.Aside sid w') : Has sid x w' :=
  ⟨hb.registered.trans h.1, hb.row.trans h.2⟩

/-- Only a session that is kept or made changes the row. -/
theorem World.Has.answer (h : Has sid x w) (circ : Circumstance) {a : Ask}
    (hs : ∀ y, a ≠ .saveSession y) (hc : ∀ y, a ≠ .createSession y) :
    Has sid x (w.answer circ a).1 := by
  cases a with
  | createSession y => exact absurd rfl (hc y)
  | saveSession y => exact absurd rfl (hs y)
  | saveFlow d =>
    simp only [World.answer]
    cases ho : w.store.saveFlow d with
    | error e => exact h
    | ok s =>
      obtain rfl := Store.saveFlow_eq_ok ho
      exact h
  | saveVersion flow v g now =>
    simp only [World.answer]
    cases ho : w.store.saveVersion flow v g now with
    | error e => exact h
    | ok s =>
      obtain ⟨-, versions, rfl, -⟩ := Store.saveVersion_eq_ok ho
      exact h
  | remember key f => exact h
  | deliver d => exact h
  | _ =>
    refine ⟨(alike_answer ?_ w circ).registered.trans h.1,
      (row?_eq_of_alike (alike_answer ?_ w circ) sid).trans h.2⟩ <;> trivial

/-- A session that is kept has its row. -/
theorem World.Has.saved (h : Has sid x w) (hy : y.id = sid) (circ : Circumstance) :
    Has sid y (w.answer circ (.saveSession y)).1 := by
  subst hy
  obtain ⟨sessions, hs, hr⟩ := Store.saveSession_eq h.1 h.2
  simp only [World.answer, hs, change]
  exact ⟨h.1, (hr y.id).trans (if_pos rfl)⟩

theorem World.lasts_has (sid : String) (x : Session) : Lasts (Aside sid) (Has sid x) where
  others hb h := h.aside hb
  answer circ ha h := by
    refine h.answer circ (fun y he => ?_) (fun y he => ?_)
    · rw [he] at ha
      exact ha
    · rw [he] at ha
      exact ha

theorem World.lasts_alive (sid : String) : Lasts (Aside sid) (Alive sid) where
  others := by
    rintro w w' hb ⟨x, h, hx⟩
    exact ⟨x, (lasts_has sid x).others hb h, hx⟩
  answer := by
    rintro a w circ ha ⟨x, h, hx⟩
    exact ⟨x, (lasts_has sid x).answer circ ha h, hx⟩

theorem Session.lasts_continues (sid : String) (said : List String) (y : Session) :
    Lasts (Aside sid) (y.Continues sid said) where
  others := by
    rintro w w' hb ⟨hid, hf, x, h, hx⟩
    exact ⟨hid, hf, x, (lasts_has sid x).others hb h, hx⟩
  answer := by
    rintro a w circ ha ⟨hid, hf, x, h, hx⟩
    exact ⟨hid, hf, x, (lasts_has sid x).answer circ ha h, hx⟩

theorem Session.lasts_matches (sid : String) (said : List String) (s : Session) :
    Lasts (Aside sid) (s.Matches sid said) where
  others := by
    rintro w w' hb ⟨hid, hf, x, h, hx⟩
    exact ⟨hid, hf, x, (lasts_has sid x).others hb h, hx⟩
  answer := by
    rintro a w circ ha ⟨hid, hf, x, h, hx⟩
    exact ⟨hid, hf, x, (lasts_has sid x).answer circ ha h, hx⟩

/-- A session continues itself once it is kept. -/
theorem Session.Continues.saved (h : y.Continues sid said w) (circ : Circumstance) :
    y.Continues sid said (w.answer circ (.saveSession y)).1 := by
  obtain ⟨hid, hf, x, hx, -⟩ := h
  exact ⟨hid, hf, y, hx.saved hid circ, List.prefix_refl _⟩

/-- A session that goes on further continues the same row. -/
theorem Session.Continues.further {z : Session} (h : y.Continues sid said w) (hid : z.id = y.id)
    (hm : y.messages <+: z.messages) (hf : Faithful said z.messages) : z.Continues sid said w := by
  obtain ⟨hy, -, x, hx, hp⟩ := h
  exact ⟨hid.trans hy, hf, x, hx, hp.trans hm⟩

theorem Session.Matches.continues {s : Session} (h : s.Matches sid said w)
    (hs : said.Sublist said') : s.Continues sid said' w := by
  obtain ⟨hid, hf, x, hx, -, hm⟩ := h
  exact ⟨hid, hf.mono hs, x, hx, hm ▸ List.prefix_refl _⟩

theorem Session.Matches.alive {s : Session} (h : s.Matches sid said w) : Alive sid w := by
  obtain ⟨-, -, x, hx, hopen, -⟩ := h
  exact ⟨x, hx, hopen⟩

end

/-! ### Commands -/

/-- A turn goes on with what the bot says. -/
theorem Turn.Scene.conserves_continues (sc : Scene) (sid : String) (said : List String) :
    sc.Conserves (Aside sid) FitsColumn (Alive sid) fun s w => s.Continues sid said w where
  clock hb := hb.clock
  session s := Session.lasts_continues sid said s
  letting := lasts_alive sid
  live := by
    rintro s w x ⟨hid, -, y, hy, -⟩ hstatus hopen
    refine ⟨y, hy, fun hclosed => hopen ?_⟩
    rw [hid, Store.sessionStatus_eq hy.1 hy.2, SessionRow.status?_ofSession] at hstatus
    rw [← Except.ok.inj hstatus]
    exact hclosed
  node := by
    intro s w st o spoken h _ hspoken
    refine h.further (Scene.id_after _ _ _ _ _) ?_ ?_
    · cases o.transition.route sc.flow st.node <;> exact List.prefix_append _ _
    · have hf := h.2.1.uttered hspoken
      cases o.transition.route sc.flow st.node <;> exact hf
  halt := by
    intro s w m x h hm
    have hf := h.2.1.uttered (List.forall_mem_singleton.mpr hm)
    exact h.further rfl (List.prefix_append _ _) hf
  stamp h _ := h.further rfl (List.prefix_refl _) h.2.1
  saved circ h _ _ := h.saved circ

/-- What the customer says by a command, after what was said before. -/
def Command.saying (said : List String) (c : Command) : List String := said ++ c.said?.toList

theorem Command.sublist_saying (said : List String) (c : Command) :
    said.Sublist (c.saying said) :=
  List.sublist_append_left _ _

section
variable {settings : Settings} {sid : String} {c : Command} {said : List String} {w : World}

/-- What the registry answers leaves the row as it is. -/
theorem stable_matches (sid : String) (said : List String) (s : Session) :
    Stable (Aside sid) (fun _ _ => True) (Handy FitsColumn (fun s => s.Matches sid said) s) where
  others hb h := ⟨(Session.lasts_matches sid said s).others hb h.1, hb.clock h.2⟩
  quiet := by
    rintro a w circ ha ⟨⟨hid, hf, x, hx, hrest⟩, hclock⟩
    refine ⟨⟨hid, hf, x, hx.answer circ (fun y he => ?_) (fun y he => ?_), hrest⟩, ?_⟩
    · rw [he] at ha
      exact ha
    · rw [he] at ha
      exact ha
    · rwa [clock_answer]
  remembered := by
    rintro w key f - ⟨⟨hid, hf, x, hx, hrest⟩, hclock⟩
    exact ⟨⟨hid, hf, x, hx, hrest⟩, hclock⟩

/-- The registry keeps no sessions. -/
theorem Ask.Allowed.mayPut {a : Ask}
    (h : a.Allowed sid (fun _ _ => False) (fun _ _ => True) w) : a.MayPut sid said w := by
  cases a with
  | saveSession y =>
    obtain ⟨-, r, -, hno⟩ := h
    exact hno.elim
  | createSession | saveFlow | saveVersion => exact h
  | _ => exact trivial

/-- A command goes on from the transcript in the row with what the customer says by it. -/
theorem Command.conserves_continues (settings : Settings) (sid : String) (c : Command)
    (said : List String) :
    c.Conserves settings sid (Aside sid) (Ask.MayPut sid (c.saying said)) FitsColumn (Alive sid)
      (fun s => s.Matches sid said) (fun s => s.Continues sid (c.saying said)) (fun _ _ _ => True)
      (fun _ s => s.Continues sid (c.saying said)) where
  clock hb := hb.clock
  letting := lasts_alive sid
  loaded s := Session.lasts_matches sid said s
  kept s := Session.lasts_continues sid _ s
  found _ _ := lasts_true _
  load _ := trivial
  locals w a ha := by
    cases a with
    | saveSession | createSession | saveFlow | saveVersion => exact ha.elim
    | _ => exact trivial
  save hs hw := ⟨hs, hw⟩
  saveTurn hs hw := ⟨hs, hw⟩
  version {w s} hs := by
    have hserves := Library.serves_any (Aside sid) fun _ => True
    have hversion : (Registry.version s.flowId s.flowVersion).run.Always (Aside sid)
        (Ask.Allowed sid (fun _ _ => False) fun _ _ => True) _ w :=
      hserves.version (stable_matches sid said s) (fun _ _ => trivial) s.flowId s.flowVersion hs
    exact hversion.imp (fun _ _ ha => ha.mayPut) fun _ _ h => ⟨fun _ _ => trivial, h.2⟩
  live _ {w s} hs := by
    have hserves := Library.serves_any (Aside sid) fun _ => True
    have hlive : (Registry.published s.flowId).run.Always (Aside sid)
        (Ask.Allowed sid (fun _ _ => False) fun _ _ => True) _ w :=
      hserves.live (stable_matches sid said s) (fun _ _ => trivial) s.flowId hs
    exact hlive.imp (fun _ _ ha => ha.mayPut) fun _ _ h => ⟨fun _ _ => trivial, h.2⟩
  free hs := hs.alive
  keep hs := hs.continues (c.sublist_saying said)
  record {w s text now} hs ht hnow id := by
    have hcontinues := hs.continues (List.Sublist.refl said)
    have hf := hs.2.1.recorded id text hnow
    have hsaying : c.saying said = said ++ [text] := by rw [saying, ht, Option.toList_some]
    rw [hsaying]
    exact (hs.continues (List.sublist_append_left said [text])).further rfl
      (List.prefix_append _ _) hf
  close _ {w s now} hs _ :=
    have h := hs.continues (c.sublist_saying said)
    h.further rfl (List.prefix_refl _) h.2.1
  assign _ _ {w s now} hs _ :=
    have h := hs.continues (c.sublist_saying said)
    h.further rfl (List.prefix_refl _) h.2.1
  back {w s} hs :=
    have h := hs.continues (c.sublist_saying said)
    h.further rfl (List.prefix_refl _) h.2.1
  saved circ hs _ _ := hs.saved circ
  foundSaved _ _ _ := trivial
  begins {w s f} hs _ := hs.further rfl (List.prefix_refl _) hs.2.1
  scene f := Turn.Scene.conserves_continues ⟨sid, f, settings⟩ sid _

/-- **What a command writes**: it keeps the session only in place of a row that is not closed, with
the transcript that is in the row and what was said since. -/
theorem Command.handle_mayPut (settings : Settings) (c : Command) {x : Session}
    (hx : Has sid x w) (hf : Faithful said x.messages) (hclock : FitsColumn w.clock) :
    (handle settings sid c).run.Always (Aside sid) (Ask.MayPut sid (c.saying said))
      (fun _ _ => True) w := by
  refine handle_conserves (conserves_continues settings sid c said) fun w₁ s hb hs hopen => ?_
  have hx₁ := hx.aside hb
  rw [Store.loadSession_eq hx₁.1 hx₁.2] at hs
  have hm : s.messages = x.messages := SessionRow.messages_of_toSession hs hf.timely
  have hid : s.id = sid :=
    (SessionRow.toSession_eq_ok hs).1.trans (Store.id_of_row? hx₁.2)
  have hstatus : s.status = x.status := by
    have hread := (SessionRow.toSession_eq_ok hs).2.2.2.1
    rw [SessionRow.status?_ofSession] at hread
    exact (Except.ok.inj hread).symm
  refine ⟨⟨hid, hm ▸ hf, x, hx₁, fun hclosed => ?_, hm.symm⟩, hb.clock hclock⟩
  rw [Session.isClosed, hstatus, hclosed] at hopen
  simp at hopen

end

/-! ### Runs -/

/-- A session whose commands are taken one after the other. -/
structure Serving where
  world : World
  /-- What is left of the command that was taken last. -/
  work : Option (Program (Outcome Report))
  /-- All commands that were taken, in their order. -/
  taken : List Command

namespace Serving

variable {settings : Settings} {sid : String} {m m' : Serving}

/-- What the customer said by the commands that were taken. -/
def said (m : Serving) : List String := m.taken.filterMap Command.said?

/-- What can happen next: others do something, the command goes on, or another command is taken. If
the one before is not over yet it was cut there. -/
inductive Step (settings : Settings) (sid : String) : Serving → Serving → Prop
  | aside {m : Serving} {w : World} (h : m.world.Aside sid w) :
      Step settings sid m ⟨w, m.work, m.taken⟩
  | ask {m : Serving} {a : Ask} {next : a.Answer → Program (Outcome Report)}
      (h : m.work = some (.ask a next)) (circ : Circumstance) :
      Step settings sid m
        ⟨(m.world.answer circ a).1, some (next (m.world.answer circ a).2), m.taken⟩
  | take (m : Serving) (c : Command) :
      Step settings sid m ⟨m.world, some (Command.handle settings sid c).run, m.taken ++ [c]⟩

/-- A run of the session. -/
abbrev Run (settings : Settings) (sid : String) : Serving → Serving → Prop :=
  Relation.ReflTransGen (Step settings sid)

/-- The session was opened, and no command was taken yet. -/
def Opened (sid : String) (m : Serving) : Prop :=
  ∃ (w : World) (circ : Circumstance) (flow : String) (v : Nat) (now : Millis),
    FitsColumn w.clock ∧ (w.answer circ (.createSession (.new sid flow v now))).2 = .ok () ∧
      m = ⟨(w.answer circ (.createSession (.new sid flow v now))).1, none, []⟩

/-- The row is that of a session whose transcript is faithful, and the command that is handled
writes only what it may. -/
structure Sound (sid : String) (m : Serving) : Prop where
  row : ∃ x, Has sid x m.world ∧ Faithful m.said x.messages
  clock : FitsColumn m.world.clock
  work : ∀ p, m.work = some p →
    p.Always (Aside sid) (Ask.MayPut sid m.said) (fun _ _ => True) m.world

theorem said_take (m : Serving) (c : Command) :
    said ⟨m.world, some (Command.handle settings sid c).run, m.taken ++ [c]⟩ = c.saying m.said := by
  rw [said, List.filterMap_append, Command.saying]
  cases hc : c.said? <;> simp [said, hc]

/-- **A step** leaves a sound run sound, the transcript in the row goes on, and a row that is closed
stays as it is. -/
theorem Step.sound (h : Step settings sid m m') (hm : m.Sound sid) :
    m'.Sound sid ∧ ∀ x, Has sid x m.world → (∀ y ∈ x.messages, FitsColumn y.timestamp) →
      ∃ y, Has sid y m'.world ∧ (∀ z ∈ y.messages, FitsColumn z.timestamp) ∧
        x.messages <+: y.messages ∧ (x.status = .closed → y = x) := by
  have hsame (x : Session) (hx : Has sid x m'.world)
      (ht : ∀ y ∈ x.messages, FitsColumn y.timestamp) :
      ∃ y, Has sid y m'.world ∧ (∀ z ∈ y.messages, FitsColumn z.timestamp) ∧
        x.messages <+: y.messages ∧ (x.status = .closed → y = x) :=
    ⟨x, hx, ht, List.prefix_refl _, fun _ => rfl⟩
  obtain ⟨⟨x, hx, hf⟩, hclock, hwork⟩ := hm
  cases h with
  | aside hb =>
    refine ⟨⟨⟨x, hx.aside hb, hf⟩, hb.clock hclock, fun p hp => ?_⟩, fun y hy ht => ?_⟩
    · exact (hwork p hp).onward hb
    · exact hsame y (hy.aside hb) ht
  | take c =>
    refine ⟨⟨⟨x, hx, ?_⟩, hclock, fun p hp => ?_⟩, fun y hy ht => hsame y hy ht⟩
    · rw [said_take]
      exact hf.mono (c.sublist_saying _)
    · obtain rfl := Option.some.inj hp
      rw [said_take]
      exact Command.handle_mayPut settings c hx hf hclock
  | @ask a next hnext circ =>
    obtain ⟨hput, hrest⟩ := hwork _ hnext m.world (Aside.refl sid m.world)
    have hclock' : FitsColumn (m.world.answer circ a).1.clock := by rwa [clock_answer]
    have hwork' : ∀ p, some (next (m.world.answer circ a).2) = some p →
        p.Always (Aside sid) (Ask.MayPut sid m.said) (fun _ _ => True) (m.world.answer circ a).1 :=
      fun p hp => Option.some.inj hp ▸ hrest circ
    by_cases hsave : ∃ y, a = .saveSession y
    · obtain ⟨y, rfl⟩ := hsave
      obtain ⟨⟨hid, hfy, z, hz, hgrown⟩, v, hv, hopen⟩ := hput
      have hkept := hx.saved hid circ
      refine ⟨⟨⟨y, hkept, hfy⟩, hclock', hwork'⟩, fun x' hx' ht => ?_⟩
      have htimes : ∀ t ∈ z.messages, FitsColumn t.timestamp :=
        fun t ht => hfy.timely t (hgrown.subset ht)
      have hmessages := Session.messages_of_row (hx'.unique hz) ht htimes
      refine ⟨y, hkept, hfy.timely, hmessages ▸ hgrown, fun hclosed => ?_⟩
      -- the row is not closed where the session is kept
      exact absurd ((Session.status_of_row (hv.unique hx')).trans hclosed) hopen
    · have hne : ∀ y, a ≠ .saveSession y := fun y he => hsave ⟨y, he⟩
      have hnew : ∀ y, a ≠ .createSession y := fun y he => by
        rw [he] at hput
        exact hput
      have hstays (x : Session) (hx : Has sid x m.world) : Has sid x (m.world.answer circ a).1 :=
        hx.answer circ hne hnew
      exact ⟨⟨⟨x, hstays x hx, hf⟩, hclock', hwork'⟩, fun y hy ht => hsame y (hstays y hy) ht⟩

theorem Run.sound (h : Run settings sid m m') (hm : m.Sound sid) :
    m'.Sound sid ∧ ∀ x, Has sid x m.world → (∀ y ∈ x.messages, FitsColumn y.timestamp) →
      ∃ y, Has sid y m'.world ∧ (∀ z ∈ y.messages, FitsColumn z.timestamp) ∧
        x.messages <+: y.messages ∧ (x.status = .closed → y = x) := by
  induction h with
  | refl => exact ⟨hm, fun x hx ht => ⟨x, hx, ht, List.prefix_refl _, fun _ => rfl⟩⟩
  | tail _ hs ih =>
    obtain ⟨hm₁, hgoes⟩ := ih
    obtain ⟨hm₂, hstep⟩ := hs.sound hm₁
    refine ⟨hm₂, fun x hx ht => ?_⟩
    obtain ⟨y, hy, hty, hxy, hclosed⟩ := hgoes x hx ht
    obtain ⟨z, hz, htz, hyz, hclosed'⟩ := hstep y hy hty
    refine ⟨z, hz, htz, hxy.trans hyz, fun hc => ?_⟩
    have hyx := hclosed hc
    exact (hclosed' (hyx ▸ hc)).trans hyx

theorem Opened.sound (h : m.Opened sid) : m.Sound sid := by
  obtain ⟨w, circ, flow, v, now, hclock, hok, rfl⟩ := h
  refine ⟨⟨.new sid flow v now, ?_, nofun, List.Sublist.refl _⟩, ?_, nofun⟩
  · simp only [World.answer] at hok ⊢
    cases hs : w.store.createSession (.new sid flow v now) with
    | error f =>
      rw [hs] at hok
      cases hok
    | ok store =>
      obtain ⟨hreg, sessions, rfl, -, hrow⟩ := Store.createSession_eq_ok hs
      exact ⟨hreg, (hrow sid).trans (if_pos rfl)⟩
  · rwa [clock_answer]

end Serving

/-- The command reads the session and then fails, without anything else. -/
def Command.Rejects (settings : Settings) (sid : String) (c : Command) (w : World) (e : Failure) :
    Prop :=
  ∃ next, (handle settings sid c).run = .ask (.loadSession sid) next ∧
    ∀ circ, next (w.answer circ (.loadSession sid)).2 = .done (.error e)

/-- A command to a closed session is rejected: it is told so if the row can be read, and else why it
cannot. -/
theorem Command.rejects_closed (settings : Settings) (c : Command) {sid : String} {x : Session}
    {w : World} (hx : Has sid x w) (hc : x.status = .closed) :
    ∃ e, Rejects settings sid c w e ∧
      (∀ s, (SessionRow.ofSession x).toSession = .ok s →
        e = .plain .session (Refusal.closed.message sid)) ∧
      ∀ f, (SessionRow.ofSession x).toSession = .error f → e = f := by
  have hload : w.store.loadSession sid = (SessionRow.ofSession x).toSession :=
    Store.loadSession_eq hx.1 hx.2
  cases hread : (SessionRow.ofSession x).toSession with
  | error f =>
    have hasks : Rejects settings sid c w f := by
      refine ⟨_, rfl, fun circ => ?_⟩
      simp only [World.answer, hload, hread]
      rfl
    refine ⟨f, hasks, fun s hs => ?_, fun f' hf' => Except.error.inj hf'⟩
    cases hs
  | ok s =>
    have hclosed : s.isClosed = true := by
      have hstatus := (SessionRow.toSession_eq_ok hread).2.2.2.1
      rw [SessionRow.status?_ofSession, hc] at hstatus
      rw [Session.isClosed, ← Except.ok.inj hstatus]
      rfl
    have hasks : Rejects settings sid c w (.plain .session (Refusal.closed.message sid)) := by
      refine ⟨_, rfl, fun circ => ?_⟩
      simp only [World.answer, hload, hread]
      show ExceptT.run (if s.isClosed = true then _ else _) = _
      rw [if_pos hclosed]
      rfl
    refine ⟨_, hasks, fun _ _ => rfl, fun f hf => ?_⟩
    cases hf

/-- **Closed is final, and transcripts only grow.** Between two moments of a run the transcript in
the row goes on, and the customer's messages in it are what was said by commands, in the order in
which they were taken. Once the row is closed it stays as it is, and whatever others do, every
command that is taken then is rejected without a turn, a write or a word to the chat backend. -/
theorem Serving.final {settings : Settings} {sid : String} {m₀ m m' : Serving}
    (h₀ : m₀.Opened sid) (h : Run settings sid m₀ m) (h' : Run settings sid m m') :
    ∃ r r' ms ms', m.world.store.row? sid = some r ∧ m'.world.store.row? sid = some r' ∧
      r.transcript = .ok ms ∧ r'.transcript = .ok ms' ∧ ms <+: ms' ∧
      (customerTexts ms').Sublist m'.said ∧
      (r.status = Status.closed.name → r' = r ∧
        ∀ (c : Command) (w : World), m'.world.Aside sid w →
          ∃ e, c.Rejects settings sid w e ∧
            (∀ s, r.toSession = .ok s → e = .plain .session (Command.Refusal.closed.message sid)) ∧
            ∀ f, r.toSession = .error f → e = f) := by
  obtain ⟨hm, -⟩ := h.sound h₀.sound
  obtain ⟨x, hx, hf⟩ := hm.row
  obtain ⟨hm', hgoes⟩ := h'.sound hm
  obtain ⟨y, hy, hty, hgrown, hclosed⟩ := hgoes x hx hf.timely
  obtain ⟨z, hz, hfz⟩ := hm'.row
  have hyz : y.messages = z.messages := Session.messages_of_row (hy.unique hz) hty hfz.timely
  refine ⟨.ofSession x, .ofSession y, x.messages, y.messages, hx.2, hy.2,
    Message.ofText_toJson hf.timely, Message.ofText_toJson hty, hgrown, hyz ▸ hfz.texts,
    fun hstatus => ?_⟩
  have hc : x.status = .closed := Status.name_injective hstatus
  obtain rfl := hclosed hc
  exact ⟨rfl, fun c w hb => Command.rejects_closed settings c (hy.aside hb) hc⟩

/-! ### Sessions that were closed -/

/-- A flow that keeps the answer of a peer in a variable. -/
def Flow.hoarding : Flow :=
  ⟨"f1", 1,
    [⟨"start", .start, .null, .start none⟩,
      ⟨"call", .httpRequest, .null,
        .request ⟨"http://peer/", .none, .get, [], [], none, none, [], some "r"⟩⟩,
      ⟨"end", .finish, .null, .finish none⟩],
    [⟨"e1", "start", "call", .plain⟩, ⟨"e2", "call", "end", .fixed .success⟩], [], [], "start"⟩

/-- A flow that hands the customer on with a word. -/
def Flow.handing : Flow :=
  ⟨"f1", 1, [⟨"start", .start, .null, .start none⟩,
      ⟨"desk", .queue, .null, .queue "sales" (some "Hi") none⟩],
    [⟨"e1", "start", "desk", .plain⟩], [], [], "start"⟩

namespace Serving

/-- A new session of a flow that is at hand. -/
def newcomer (f : Flow) : Serving := ⟨opening f, none, []⟩

/-- Takes a command, which runs to its end; all peers answer alike. -/
def handling (m : Serving) (peer : Http.Attempt) (c : Command) : Serving :=
  let ended := m.world.run (calm peer) 0 (Command.handle .default "s1" c).run
  ⟨ended.2.1, some (.done ended.2.2), m.taken ++ [c]⟩

theorem opened_newcomer (f : Flow) : (newcomer f).Opened "s1" := by
  have hclock : FitsColumn (new .empty 0).clock := by
    rw [clock_new, FitsColumn]
    decide
  exact ⟨{ new .empty 0 with compiled := Cache.empty.set "f1@1" f }, ⟨false, .unreachable⟩, "f1",
    1, 0, hclock, rfl, rfl⟩

theorem run_handling (m : Serving) (peer : Http.Attempt) (c : Command) :
    Run .default "s1" m (m.handling peer c) := by
  have hends (n : Nat) (p : Program (Outcome Report)) (w : World) (taken : List Command) :
      Run .default "s1" ⟨w, some p, taken⟩
        ⟨(w.run (calm peer) n p).2.1, some (.done (w.run (calm peer) n p).2.2), taken⟩ := by
    induction p generalizing n w with
    | done o => exact .refl
    | ask a next ih => exact .head (.ask rfl (calm peer n)) (ih _ _ _)
  exact .head (.take m c) (hends 0 _ _ _)

/-- A session is greeted and handed to a queue, where the customer writes to it. Then it is closed
by force, and the customer writes once more. -/
theorem final_left :
    let m₀ := newcomer .handing
    let m := m₀.handling .unreachable .start
    let m₁ := (m.handling .unreachable (.text "Hello")).handling .unreachable .close
    let m₂ := m₁.handling .unreachable (.text "Late")
    let ms : List Message := [⟨"m1", .bot, "Hi", none, 0⟩]
    let ms₁ := ms ++ [⟨"m2", .user, "Hello", none, 0⟩]
    m₀.Opened "s1" ∧ Run .default "s1" m₀ m ∧ Run .default "s1" m m₁ ∧ Run .default "s1" m₁ m₂ ∧
      ∃ r r₁, m.world.store.row? "s1" = some r ∧ r.transcript = .ok ms ∧
        m₁.world.store.row? "s1" = some r₁ ∧ r₁.status = Status.closed.name ∧
        r₁.transcript = .ok ms₁ ∧ ms <+: ms₁ ∧ customerTexts ms₁ = ["Hello"] ∧
        (customerTexts ms₁).Sublist m₁.said ∧ m₂.world.store.row? "s1" = some r₁ := by
  intro m₀ m m₁ m₂ ms ms₁
  have h₀ : m₀.Opened "s1" := opened_newcomer _
  have h : Run .default "s1" m₀ m := run_handling _ _ _
  have h₁ : Run .default "s1" m m₁ := (run_handling _ _ _).trans (run_handling _ _ _)
  have h₂ : Run .default "s1" m₁ m₂ := run_handling _ _ _
  have hqueued : m.world.store.row? "s1" = some (.ofSession { Session.new "s1" "f1" 1 0 with
      status := .waiting, queue := some "sales", messages := ms }) := by decide +kernel
  have hended : m₁.world.store.row? "s1" = some (.ofSession { Session.new "s1" "f1" 1 0 with
      status := .closed, queue := some "sales", messages := ms₁ }) := by decide +kernel
  have hread (l : List Message) (hl : ∀ m ∈ l, m.timestamp = 0) : Decode.ofText .convert
      (Decode.list Message.decode) (Json.arr (l.map Message.toJson)).text = .ok l :=
    Message.ofText_toJson fun m hm => by rw [hl m hm, FitsColumn]; decide
  obtain ⟨r, r₁, l, l₁, hr, hr₁, hl, hl₁, hgrown, hsaid, -⟩ := final h₀ h h₁
  obtain ⟨r', r₂, -, -, hr', hr₂, -, -, -, -, hclosed⟩ := final h₀ (h.trans h₁) h₂
  obtain rfl := Option.some.inj (hr.symm.trans hqueued)
  obtain rfl := Option.some.inj (hr₁.symm.trans hended)
  obtain rfl := Option.some.inj (hr₁.symm.trans hr')
  obtain rfl : l = ms := Except.ok.inj (hl.symm.trans (hread ms (by simp [ms])))
  obtain rfl : l₁ = ms₁ := Except.ok.inj (hl₁.symm.trans (hread ms₁ (by simp [ms₁, ms])))
  obtain ⟨rfl, -⟩ := hclosed rfl
  exact ⟨h₀, h, h₁, h₂, _, _, hr, hl, hr₁, rfl, hl₁, hgrown, rfl, hsaid, hr₂⟩

/-- A session that is closed after a peer answered with null inside 127 lists. -/
def hoarded : Serving := (newcomer .hoarding).handling (.reply 200 (Json.nested 127).text) .start

theorem row_hoarded : hoarded.world.store.row? "s1" =
    some (.ofSession { Session.new "s1" "f1" 1 0 with
      status := .closed, vars := [("r", .nested 127)],
      messages := [⟨"m1", .bot, Settings.default.messages.closing, none, 0⟩] }) := by
  decide +kernel

/-- **A closed session that is not called closed**: its row cannot be read, so that is what every
command to it is told. -/
theorem unsaid_hoarded :
    (newcomer .hoarding).Opened "s1" ∧ Run .default "s1" (newcomer .hoarding) hoarded ∧
      ((hoarded.world.store.row? "s1").map (·.status) = some Status.closed.name) ∧
      ∀ c : Command, ∃ e, c.Rejects .default "s1" hoarded.world e ∧ e.isSession = false := by
  have hrow := row_hoarded
  have hopened := opened_newcomer .hoarding
  have hrun : Run .default "s1" (newcomer .hoarding) hoarded := run_handling _ _ _
  obtain ⟨x, ⟨hregistered, -⟩, -⟩ := (hrun.sound hopened.sound).1.row
  have hstatus : (hoarded.world.store.row? "s1").map (·.status) = some Status.closed.name := by
    rw [hrow]
    rfl
  refine ⟨hopened, hrun, hstatus, fun c => ?_⟩
  obtain ⟨e, hrejects, -, he⟩ := Command.rejects_closed .default c ⟨hregistered, hrow⟩ rfl
  have hdeep : 127 < (Json.obj [("r", .nested 127)]).depth := by
    simp [Json.depth, Json.depthFields, Json.depth_nested]
  have hlegible : (Json.obj [("r", .nested 127)]).Legible := by
    simp [Json.Legible, Json.LegibleFields, Json.legible_nested]
  have hfails := he _ (SessionRow.toSession_of_deep hlegible hdeep)
  exact ⟨e, hrejects, hfails ▸ rfl⟩

end Serving

end Dialogue
