import Dialogue.Proofs.Session.Mirror
import Dialogue.Proofs.Session.Welcome
import Dialogue.Proofs.Turn.Telling

/-! # What a command tells

The journal of a command is well-bracketed, with two exceptions. A reply that does not fit its node
is found out only after the node began to run, and then the command fails and the node is left
running; so it is with every such reply. And where the store fails to keep what came of a node, that
node is left running too. How the command ended is told once and last, and whatever gives the
session away is told.

* `resumeFlow_unfolds`: the flow on which a session goes on is told by what the registry gave.
* `plan_unfolds`: the turns that commands plan.
* `handle_unfolds`: the rule for all commands, from one rule for each of them.
* `Life.tells`: the journals of all commands to a session. -/

namespace Dialogue

open Program Procedure Turn World

/-! ### What the registry gave -/

/-- The versions that the registry gave, each with its key. -/
def Library.found (l : List (String × Flow)) : Library where
  version flow n o := ∃ f, o = .ok f ∧ (VersionRow.key flow n, f) ∈ l
  live flow o := ∃ n f, o = .ok f ∧ (VersionRow.key flow n, f) ∈ l

/-- On that flow a session goes on that waits at a node, and on no other one that has the node. -/
structure Library.Picks (L : Library) (b : Settings.Binding) (s : Session) (node : String)
    (f : Flow) : Prop where
  resumes : L.Resumes b s node (.ok f)
  only : ∀ g, L.Resumes b s node (.ok g) → (g.node? node).isSome = true → g = f

/-- A session goes on only on what was found. -/
theorem Library.Resumes.exists_mem {l : List (String × Flow)} {b : Settings.Binding} {s : Session}
    {node : String} {g : Flow} (h : (found l).Resumes b s node (.ok g)) : ∃ key, (key, g) ∈ l := by
  cases h with
  | pinned hb h =>
    obtain ⟨_, ⟨⟩, hg⟩ := h
    exact ⟨_, hg⟩
  | live hb h hn =>
    obtain ⟨_, _, ⟨⟩, hg⟩ := h
    exact ⟨_, hg⟩
  | older hb h hn hv =>
    obtain ⟨_, ⟨⟩, hg⟩ := hv
    exact ⟨_, hg⟩

namespace Command

/-- The command is a reply for the node at which the session waits, and the flow that the registry
gave has there a node which does not await it. -/
def Unfit (settings : Settings) (c : Command) (r : SessionRow) (l : List (String × Flow))
    (node : String) : Prop :=
  ∃ s p reply n, Opens r s ∧ Plans settings (.found l) s c p ∧ p.step = .resume node reply ∧
    p.flow.node? node = some n ∧ ¬ Awaits n.action reply

/-- What comes of a command: it is over with all told, or it has failed and may have left a node
running, because this one does not await the reply or because the store has failed. -/
structure Over (settings : Settings) (c : Command) (r : SessionRow) (o : Outcome Report)
    (ph : Phase) : Prop where
  owed : ph.owed = none
  told : ∀ rep, o = .ok rep → Closed rep ph
  failed : ∀ f, o = .error f → ph.ended = none
  running : ∀ node, ph.running = some node → ∃ f, o = .error f ∧
    (f.isSession = true ∧ Unfit settings c r ph.found node ∨ f ∈ ph.faults)
  unfit : ∀ node, Unfit settings c r ph.found node →
    (∃ f, o = .error f ∧ f ∈ ph.faults ∧ ph.nodes = []) ∨
      Scene.Balks settings.engine.maxSteps node o ph

/-- The session was read, or a text of the customer was recorded in it, and no turn has begun. -/
structure Loaded (sid : String) (s : Session) (ph : Phase) : Prop where
  id : s.id = sid
  status : ph.row.status? = .ok s.status
  turning : ph.turning = false
  nodes : ph.nodes = []
  even : ph.Even

variable {settings : Settings} {sid : String} {s x : Session} {c : Command} {r : SessionRow}
  {l : List (String × Flow)} {node : String} {ph ph' : Phase}

theorem Loaded.finding (h : Loaded sid s ph) (key : String) (f : Flow) :
    Loaded sid s (ph.finding key f) :=
  ⟨h.id, h.status, h.turning, h.nodes, h.even.running, h.even.owed, h.even.ended⟩

theorem Loaded.failing (h : Loaded sid s ph) (f : Failure) : Loaded sid s (ph.failing f) :=
  ⟨h.id, h.status, h.turning, h.nodes, h.even.running, h.even.owed, h.even.ended⟩

/-- Without a turn the session is not given away as long as its status is the same. -/
theorem Loaded.not_givenAway (h : Loaded sid s ph) {y : Session} (hy : y.status = s.status) :
    ¬ y.GivenAway (ph.turning = true) ph.row := by
  rintro ⟨-, ht | hs⟩
  · rw [h.turning] at ht
    cases ht
  · exact hs (by rw [hy, SessionRow.status_of_status? h.status])

/-! ### Commands that are no reply -/

theorem Opens.eq (hs : Opens r s) (hx : Opens r x) : x = s :=
  Except.ok.inj (hx.1.symm.trans hs.1)

/-- What the customer sends to the node that waits. -/
def reply? : Command → Option Reply
  | .text t => some (.text t)
  | .click id label => some (.click id label)
  | _ => none

/-- Only a text or a click for a session that waits at the node may be unfit, and that on a version
that was found. -/
theorem Unfit.reply (h : Unfit settings c r l node) (hs : Opens r s) :
    s.currentNode = some node ∧ ∃ reply g n, c.reply? = some reply ∧
      (Library.found l).Resumes settings.engine.binding s node (.ok g) ∧
      g.node? node = some n ∧ ¬ Awaits n.action reply := by
  obtain ⟨x, p, reply, n, hx, hp, hst, hn, ha⟩ := h
  obtain rfl := hs.eq hx
  cases hp with
  | reply hq hc hf =>
    cases hst
    exact ⟨hc, _, _, n, rfl, hf, hn, ha⟩
  | click hp hc hf =>
    cases hst
    exact ⟨hc, _, _, n, rfl, hf, hn, ha⟩
  | start | retry | recover | giveBack => cases hst

variable (settings) in
theorem not_unfit_of_reply? (hs : Opens r s) (hc : c.reply? = none) (l : List (String × Flow))
    (node : String) : ¬ Unfit settings c r l node := by
  intro hu
  obtain ⟨-, reply, _, _, hreply, -⟩ := hu.reply hs
  rw [hc] at hreply
  cases hreply

variable (settings) in
theorem not_unfit_of_currentNode (hs : Opens r s) (hn : s.currentNode = none)
    (l : List (String × Flow)) (node : String) : ¬ Unfit settings c r l node := by
  intro hu
  have hwaits := (hu.reply hs).1
  rw [hn] at hwaits
  cases hwaits

/-- A session cannot go on at a node that is in no version that was found. -/
theorem not_unfit_of_resumes (hs : Opens r s) (hn : s.currentNode = some node)
    (hf : ∀ g, (Library.found l).Resumes settings.engine.binding s node (.ok g) →
      (g.node? node).isSome = false) (other : String) : ¬ Unfit settings c r l other := by
  intro hu
  obtain ⟨hc, _, g, n, -, hg, hn', -⟩ := hu.reply hs
  obtain rfl := Option.some.inj (hn.symm.trans hc)
  have hnone := hf g hg
  rw [hn'] at hnone
  cases hnone

theorem not_unfit_nil (node : String) : ¬ Unfit settings c r [] node := by
  intro hu
  obtain ⟨s, _, _, _, hs, -⟩ := id hu
  obtain ⟨-, _, g, _, -, hg, -⟩ := hu.reply hs
  obtain ⟨key, hg⟩ := hg.exists_mem
  cases hg

/-- A command fails where no node runs. -/
theorem over_error (h : ph.Even) (hu : ∀ node, ¬ Unfit settings c r ph.found node) (f : Failure) :
    Over settings c r (.error f) ph where
  owed := h.owed
  told _ ho := nomatch ho
  failed _ _ := h.ended
  running node hr := by rw [h.running] at hr; cases hr
  unfit node hn := absurd hn (hu node)

/-- The store fails before a turn has begun. -/
theorem Loaded.over_failing (h : Loaded sid s ph) (f : Failure) :
    Over settings c r (.error f) (ph.failing f) where
  owed := h.even.owed
  told _ ho := nomatch ho
  failed _ _ := h.even.ended
  running node hr := by rw [(h.failing f).even.running] at hr; cases hr
  unfit _ _ := .inl ⟨f, rfl, ph.mem_failing f, h.nodes⟩

/-- A command without a turn. -/
theorem over_report {rep : Report} (h : Closed rep ph)
    (hu : ∀ node, ¬ Unfit settings c r ph.found node) : Over settings c r (.ok rep) ph where
  owed := h.owed
  told := by rintro _ ⟨⟩; exact h
  failed _ ho := nomatch ho
  running node hr := by rw [h.running] at hr; cases hr
  unfit node hn := absurd hn (hu node)

/-- What comes of a turn whose reply fits. -/
theorem over_of_came {o : Outcome Report} (h : Phase.Either Closed Breaks o ph)
    (hu : ∀ node, ¬ Unfit settings c r ph.found node) : Over settings c r o ph := by
  cases o with
  | ok rep => exact over_report h hu
  | error f =>
    have h : Breaks f ph := h
    exact {
      owed := h.owed
      told _ ho := nomatch ho
      failed _ _ := h.ended
      running _ _ := ⟨f, rfl, .inr h.fault⟩
      unfit node hn := absurd hn (hu node) }

/-- What comes of a turn whose reply does not fit. -/
theorem over_of_balks {o : Outcome Report} (h : Scene.Balks settings.engine.maxSteps node o ph)
    (hu : Unfit settings c r ph.found node)
    (hsame : ∀ other, Unfit settings c r ph.found other → other = node) :
    Over settings c r o ph := by
  have hunfit (other : String) (ho : Unfit settings c r ph.found other) :
      (∃ f, o = .error f ∧ f ∈ ph.faults ∧ ph.nodes = []) ∨
        Scene.Balks settings.engine.maxSteps other o ph := by
    rw [hsame other ho]
    exact .inr h
  have hclosed {rep : Report} (ho : o = .ok rep) (hc : Closed rep ph) : Over settings c r o ph := by
    subst ho
    exact {
      owed := hc.owed
      told := by rintro _ ⟨⟩; exact hc
      failed _ ho := nomatch ho
      running other hr := by rw [hc.running] at hr; cases hr
      unfit := hunfit }
  rcases h with ⟨-, -, hcame⟩ | hrebuffed
  · cases o with
    | ok rep => exact hclosed rfl hcame
    | error f =>
      have hcame : Breaks f ph := hcame
      exact {
        owed := hcame.owed
        told _ ho := nomatch ho
        failed _ _ := hcame.ended
        running _ _ := ⟨f, rfl, .inr hcame.fault⟩
        unfit := hunfit }
  · cases hrebuffed with
    | cut time time' h he hn => exact hclosed rfl h
    | left time hf hr howed hended hn =>
      exact {
        owed := howed
        told _ ho := nomatch ho
        failed _ _ := hended
        running other hother := ⟨_, rfl, .inl ⟨hf, by cases hr.symm.trans hother; exact hu⟩⟩
        unfit := hunfit }

/-! ### Looking flows up -/

/-- What comes of a look-up: the version is told by its key, or nothing was found. -/
theorem version_unfolds (h : Loaded sid s ph) (flow : String) (n : Nat) :
    (Registry.version flow n).run.Unfolds sid (Phase.Either
      (fun f ph' => Loaded sid s ph' ∧ ph'.found = ph.found ++ [(VersionRow.key flow n, f)])
      fun _ ph' => Loaded sid s ph' ∧ ph'.found = ph.found) ph := by
  unfold Registry.version
  refine unfolds_lift (p := question (.cached (VersionRow.key flow n)))
    ⟨trivial, fun w c _ => ?_, nofun⟩
  cases (w.answer c (.cached (VersionRow.key flow n))).2 with
  | some f => exact ⟨_, .found h.even.ended _ f, h.finding _ f, rfl⟩
  | none =>
    refine ⟨ph, rfl, ?_⟩
    refine unfolds_tried (p := loadVersion flow n) ⟨trivial, fun w c _ => ⟨ph, rfl, ?_⟩, ?_⟩
    · cases (w.answer c (.loadVersion flow n)).2 with
      | error e => exact ⟨h, rfl⟩
      | ok g =>
        refine unfolds_tried (p := Registry.compile flow n g) ?_
        show Phase.Either _ _ ((Flow.compile flow n g).mapError Flow.Defect.toFailure) ph
        cases hf : Flow.compile flow n g with
        | error e => exact ⟨h, rfl⟩
        | ok f =>
          obtain ⟨rfl, rfl, -⟩ := Flow.compile_sound hf
          refine unfolds_lift (p := Registry.remember f) ⟨trivial, fun w c _ => ?_, nofun⟩
          exact ⟨_, .found h.even.ended _ f, h.finding _ f, rfl⟩
    · rintro e _ - ⟨⟩
      exact ⟨h.even.ended, h.failing e, rfl⟩

theorem published_unfolds (h : Loaded sid s ph) (flow : String) :
    (Registry.published flow).run.Unfolds sid (Phase.Either
      (fun f ph' => Loaded sid s ph' ∧ ∃ n, ph'.found = ph.found ++ [(VersionRow.key flow n, f)])
      fun _ ph' => Loaded sid s ph' ∧ ph'.found = ph.found) ph := by
  unfold Registry.published
  refine unfolds_tried (p := loadFlow flow) ⟨trivial, fun w c _ => ⟨ph, rfl, ?_⟩, ?_⟩
  · cases (w.answer c (.loadFlow flow)).2 with
    | error e => exact ⟨h, rfl⟩
    | ok d =>
      show Unfolds _ _ (ExceptT.run (if d.version = 0 then _ else _)) ph
      split
      · exact ⟨h, rfl⟩
      · refine (version_unfolds h flow d.version).imp ?_
        rintro (e | f) ph' hph
        · exact hph
        · exact ⟨hph.1, d.version, hph.2⟩
  · rintro e _ - ⟨⟩
    exact ⟨h.even.ended, h.failing e, rfl⟩

/-- **The flow on which a session goes on** is told by what was found, and so is that there is
none. -/
theorem resumeFlow_unfolds (h : Loaded sid s ph) (hl : ph.found = []) (node : String) :
    (resumeFlow settings s node).run.Unfolds sid (Phase.Either
      (fun f ph' => Loaded sid s ph' ∧
        (Library.found ph'.found).Picks settings.engine.binding s node f)
      fun _ ph' => Loaded sid s ph' ∧
        ∀ g, (Library.found ph'.found).Resumes settings.engine.binding s node (.ok g) →
          (g.node? node).isSome = false) ph := by
  have hnone {ph' : Phase} (hsame : ph'.found = ph.found) (g : Flow)
      (hg : (Library.found ph'.found).Resumes settings.engine.binding s node (.ok g)) :
      (g.node? node).isSome = false := by
    obtain ⟨key, hg⟩ := hg.exists_mem
    rw [hsame, hl] at hg
    cases hg
  unfold resumeFlow
  cases hb : settings.engine.binding with
  | pinned =>
    rw [hb] at hnone
    refine (version_unfolds h s.flowId s.flowVersion).imp ?_
    rintro (e | f) ph' ⟨hloaded, hfound⟩
    · exact ⟨hloaded, hnone hfound⟩
    · rw [hl, List.nil_append] at hfound
      refine ⟨hloaded, .pinned rfl ⟨f, rfl, by simp [hfound]⟩, fun g hg _ => ?_⟩
      obtain ⟨key, hg⟩ := hg.exists_mem
      rw [hfound, List.mem_singleton] at hg
      exact congrArg Prod.snd hg
  | latest =>
    rw [hb] at hnone
    refine unfolds_tried ((published_unfolds h s.flowId).imp ?_)
    rintro (e | f) ph' hph
    · exact ⟨hph.1, hnone hph.2⟩
    obtain ⟨hloaded, n, hfound⟩ := hph
    rw [hl, List.nil_append] at hfound
    have hlive : (Library.found ph'.found).live s.flowId (.ok f) := ⟨n, f, rfl, by simp [hfound]⟩
    show Unfolds _ _ (ExceptT.run (if (f.node? node).isSome = true then _ else _)) ph'
    split
    · rename_i hn
      refine ⟨hloaded, .live rfl hlive hn, fun g hg _ => ?_⟩
      obtain ⟨key, hg⟩ := hg.exists_mem
      rw [hfound, List.mem_singleton] at hg
      exact congrArg Prod.snd hg
    · rename_i hn
      have hn : (f.node? node).isSome = false := by simpa using hn
      refine (version_unfolds hloaded s.flowId s.flowVersion).imp ?_
      rintro (e | f') ph'' ⟨hloaded', hfound'⟩ <;> refine ⟨hloaded', ?_⟩
      · rintro g hg
        obtain ⟨key, hg⟩ := hg.exists_mem
        rw [hfound', hfound, List.mem_singleton] at hg
        rwa [show g = f from congrArg Prod.snd hg]
      · rw [hfound] at hfound'
        refine ⟨.older rfl ⟨n, f, rfl, by simp [hfound']⟩ hn ⟨f', rfl, by simp [hfound']⟩, ?_⟩
        intro g hg hsome
        obtain ⟨key, hg⟩ := hg.exists_mem
        rw [hfound', List.mem_append, List.mem_singleton, List.mem_singleton] at hg
        rcases hg with hg | hg
        · rw [show g = f from congrArg Prod.snd hg, hn] at hsome
          cases hsome
        · exact congrArg Prod.snd hg

/-! ### Parts of commands -/

theorem record_unfolds (h : Loaded sid s ph) (text : String) :
    (record sid s text).run.Unfolds sid (Phase.Either (fun y ph' =>
      ∃ id now, y = recorded s text id now ∧ Loaded sid y ph' ∧ ph'.found = ph.found)
      fun e ph' => ph' = ph.failing e) ph := by
  unfold record
  refine unfolds_aside (p := fresh .message) ⟨trivial, fun id => ?_⟩
  refine unfolds_aside (p := now) ⟨trivial, fun t => ?_⟩
  have hstays := Phase.Takes.stays h.even.owed h.even.ended
    (h.not_givenAway (y := recorded s text id t.millis) rfl)
  refine unfolds_save (y := recorded s text id t.millis) h.id h.even.ended hstays (fun _ => rfl) ?_
  refine unfolds_aside (p := deliver _) ⟨trivial, fun _ => ?_⟩
  have hstatus := SessionRow.status?_ofSession (recorded s text id t.millis)
  exact ⟨id, t.millis, rfl,
    ⟨h.id, hstatus, h.turning, h.nodes, h.even.running, rfl, h.even.ended⟩, rfl⟩

/-- **A turn** of a session that the flow has, if the command is unfit exactly where its step
is. -/
theorem plan_unfolds {f : Flow} {st : Turn.Step} (h : Loaded sid s ph) (hx : x.status = .bot)
    (hid : x.id = sid)
    (hu : ∀ node, Unfit settings c r ph.found node ↔ Scene.Misfits ⟨sid, f, settings⟩ st node) :
    (turn settings sid x f st).run.Unfolds sid (Over settings c r) ph := by
  unfold turn
  refine unfolds_lift ⟨trivial, fun w circ _ => ⟨_, .turn h.even, ?_⟩, nofun⟩
  let sc : Scene := ⟨sid, f, settings⟩
  let y : Session := { x with flowVersion := f.version }
  have hunderway : Ongoing sc.session (begun y) none { ph with turning := true } :=
    ⟨hid, hx, rfl, ⟨_, h.status⟩, h.even.running, h.even.owed, h.even.ended⟩
  have hasks : (sc.turn y st).run.Asks (Ask.Private sid) fun _ => True :=
    Scene.asks_turn (s := y) hid st
  have hover : (sc.turn y st).run.Unfolds sid (Over settings c r) { ph with turning := true } := by
    by_cases hst : ∃ node, sc.Misfits st node
    · obtain ⟨node, hst⟩ := hst
      refine ((Scene.walk_balks hunderway h.nodes _ 0 hst).found_eq hasks).imp ?_
      rintro o ph' ⟨hbalks, hfound⟩
      have hunfit : Unfit settings c r ph'.found node := by rw [hfound]; exact (hu node).mpr hst
      have hsame (other : String) (ho : Unfit settings c r ph'.found other) : other = node := by
        rw [hfound] at ho
        obtain ⟨_, _, hr, -⟩ := hst
        obtain ⟨_, _, hr', -⟩ := (hu other).mp ho
        cases hr.symm.trans hr'
        rfl
      exact over_of_balks hbalks hunfit hsame
    · rw [not_exists] at hst
      refine ((Scene.walk_unfolds hunderway _ 0 hst).found_eq hasks).imp ?_
      rintro o ph' ⟨hcame, hfound⟩
      refine over_of_came hcame fun node hunfit => ?_
      rw [hfound] at hunfit
      exact hst node ((hu node).mp hunfit)
  refine unfolds_lift (hover.imp fun o ph' ho => ?_)
  refine unfolds_aside (p := question .closeTurn) ⟨trivial, fun _ => ?_⟩
  cases o with
  | ok rep => exact ho
  | error f => exact ho

/-! ### One rule for each command -/

theorem start_unfolds (hs : Opens r s) (h : Loaded sid s ph) (hx : s.status = .bot) :
    (startSession settings sid s).run.Unfolds sid (Over settings .start r) ph := by
  have hnot := not_unfit_of_reply? settings (c := .start) hs rfl
  unfold startSession
  refine unfolds_tried ((version_unfolds h _ _).imp ?_)
  rintro (e | f) ph' ⟨hloaded, -⟩
  · exact over_error hloaded.even (hnot _) e
  · refine unfolds_emit (.opening hloaded.even rfl) (plan_unfolds hloaded hx h.id fun node => ?_)
    exact iff_of_false (hnot _ node) (Scene.not_misfits_run _ _ node)

/-- A text of the customer, and then the turn for it. -/
theorem said_unfolds {text : String} {f : Flow} {st : Turn.Step} (h : Loaded sid s ph)
    (hx : s.status = .bot)
    (hu : ∀ node, Unfit settings c r ph.found node ↔ Scene.Misfits ⟨sid, f, settings⟩ st node) :
    (do
      let s ← record sid s text
      emitSession sid node .resumed
      turn settings sid s f st : Procedure Report).run.Unfolds sid (Over settings c r) ph := by
  refine unfolds_tried ((record_unfolds h text).imp ?_)
  rintro (e | y) ph' hph
  · cases hph
    exact h.over_failing e
  · obtain ⟨id, now, rfl, hloaded, hfound⟩ := hph
    refine unfolds_emit (.opening hloaded.even rfl) (plan_unfolds hloaded hx hloaded.id ?_)
    rw [hfound]
    exact hu

/-- A reply is unfit exactly if it does not fit the node of the version on which the session goes
on. -/
theorem unfit_iff {f : Flow} {reply : Reply} (hs : Opens r s) (hn : s.currentNode = some node)
    (hf : (Library.found l).Picks settings.engine.binding s node f)
    (hc : c.reply? = some reply)
    (hplan : ∀ n, f.node? node = some n → ∃ said,
      Plans settings (.found l) s c ⟨said, s, f, .resume node reply⟩)
    (other : String) :
    Unfit settings c r l other ↔ Scene.Misfits ⟨sid, f, settings⟩ (.resume node reply) other := by
  constructor
  · intro hu
    obtain ⟨hcurrent, reply', g, n, hreply, hg, hn', ha⟩ := hu.reply hs
    obtain rfl := Option.some.inj (hn.symm.trans hcurrent)
    obtain rfl := Option.some.inj (hc.symm.trans hreply)
    obtain rfl := hf.only g hg (by rw [hn']; rfl)
    exact ⟨_, n, rfl, hn', ha⟩
  · rintro ⟨reply', n, hst, hn', ha⟩
    cases hst
    obtain ⟨said, hp⟩ := hplan n hn'
    exact ⟨s, _, _, n, hs, hp, rfl, hn', ha⟩

theorem text_unfolds (hs : Opens r s) (h : Loaded sid s ph) (hl : ph.found = []) (text : String) :
    (submitText settings sid s text).run.Unfolds sid (Over settings (.text text) r) ph := by
  have hempty (node : String) : ¬ Unfit settings (.text text) r ph.found node := by
    rw [hl]
    exact not_unfit_nil node
  unfold submitText
  cases hq : isQueued s with
  | true =>
    refine unfolds_tried ((record_unfolds h text).imp ?_)
    rintro (e | y) ph' hph
    · cases hph
      exact h.over_failing e
    · obtain ⟨id, now, rfl, hloaded, hfound⟩ := hph
      refine over_report ⟨hloaded.even.running, hloaded.even.owed, hloaded.even.ended ▸ trivial⟩ ?_
      rw [hfound]
      exact hempty
  | false =>
    have hx := status_of_not_queued hs.2 hq
    cases hn : s.currentNode with
    | some node =>
      refine unfolds_tried ((resumeFlow_unfolds h hl node).imp ?_)
      rintro (e | f) ph' ⟨hloaded, hf⟩
      · exact over_error hloaded.even (not_unfit_of_resumes hs hn hf) e
      · refine said_unfolds hloaded hx fun other => ?_
        exact unfit_iff hs hn hf rfl (fun n _ => ⟨_, .reply hq hn hf.resumes⟩) other
    | none =>
      have hnot := not_unfit_of_currentNode settings (c := .text text) hs hn
      cases hh : s.halt with
      | none => exact over_error h.even hempty _
      | some x =>
        show Unfolds _ _ (ExceptT.run (if x.retryable = true then _ else _)) ph
        split
        · refine unfolds_tried ((resumeFlow_unfolds h hl _).imp ?_)
          rintro (e | f) ph' ⟨hloaded, -⟩
          · exact over_error hloaded.even (hnot _) e
          · refine said_unfolds hloaded hx fun other => ?_
            exact iff_of_false (hnot _ other) (Scene.not_misfits_run _ _ other)
        · exact over_error h.even hempty _

theorem click_unfolds (hs : Opens r s) (h : Loaded sid s ph) (hl : ph.found = [])
    (id label : String) :
    (submitClick settings sid s id label).run.Unfolds sid (Over settings (.click id label) r)
      ph := by
  have hempty (node : String) : ¬ Unfit settings (.click id label) r ph.found node := by
    rw [hl]
    exact not_unfit_nil node
  unfold submitClick
  cases hp : s.isPaused with
  | false =>
    have hnone : (s.currentNode.filter fun _ => false) = none := by cases s.currentNode <;> rfl
    rw [hnone]
    exact over_error h.even hempty _
  | true =>
    have hx : s.status = .bot := by
      simp only [Session.isPaused, Bool.and_eq_true, decide_eq_true_eq] at hp
      exact hp.1
    cases hn : s.currentNode with
    | none => exact over_error h.even hempty _
    | some node =>
      show Unfolds _ _ (resumeFlow settings s node >>= _ : Procedure Report).run ph
      refine unfolds_tried ((resumeFlow_unfolds h hl node).imp ?_)
      rintro (e | f) ph' ⟨hloaded, hf⟩
      · exact over_error hloaded.even (not_unfit_of_resumes hs hn hf) e
      · show Unfolds _ _ _ ph'
        dsimp only
        split
        · rename_i hk
          -- the node that is there offers no buttons, so no click is planned for it
          refine over_error hloaded.even (fun other hu => ?_) _
          obtain ⟨x, p, reply, n, hx, hplan, hst, hn', -⟩ := hu
          obtain rfl := hs.eq hx
          cases hplan with
          | click hp' hc hg ha hkind =>
            obtain rfl := Option.some.inj (hn.symm.trans hc)
            obtain rfl := hf.only _ hg (by rw [ha]; rfl)
            simp [ha, hkind] at hk
        · rename_i hk
          refine said_unfolds hloaded hx fun other => ?_
          refine unfit_iff hs hn hf rfl (fun n hn' => ⟨some label, ?_⟩) other
          have hkind : n.kind = .template := by simpa [hn'] using hk
          exact .click hp hn hf.resumes hn' hkind

theorem close_unfolds (h : Loaded sid s ph) (hl : ph.found = []) :
    (closeSession sid s).run.Unfolds sid (Over settings .close r) ph := by
  unfold closeSession
  refine unfolds_aside (p := now) ⟨trivial, fun t => ?_⟩
  let y : Session := { s with
    status := .closed, currentNode := none, pendingNode := none, updateTime := t.millis }
  refine unfolds_save (y := y) h.id h.even.ended
    (.leaves h.even.owed h.even.ended (.closed rfl)) h.over_failing ?_
  refine unfolds_aside (p := deliver _) ⟨trivial, fun _ => ?_⟩
  refine unfolds_emit (.ending h.even.running h.even.ended rfl rfl) ?_
  refine over_report ⟨h.even.running, rfl, .closed⟩ ?_
  rw [show Phase.found _ = [] from hl]
  exact not_unfit_nil

theorem recover_unfolds (hs : Opens r s) (h : Loaded sid s ph)
    (hx : s.pendingNode.isSome → s.status = .bot) :
    (recoverSession settings sid s).run.Unfolds sid (Over settings .recover r) ph := by
  have hnot := not_unfit_of_reply? settings (c := .recover) hs rfl
  unfold recoverSession
  cases hn : s.pendingNode with
  | none => exact over_error h.even (hnot _) _
  | some node =>
    refine unfolds_tried ((version_unfolds h _ _).imp ?_)
    rintro (e | f) ph' ⟨hloaded, -⟩
    · exact over_error hloaded.even (hnot _) e
    · refine plan_unfolds hloaded (hx (by rw [hn]; rfl)) h.id fun other => ?_
      exact iff_of_false (hnot _ other) (Scene.not_misfits_run _ _ other)

theorem assign_unfolds (h : Loaded sid s ph) (hl : ph.found = []) (agent : String) :
    (assignAgent sid s agent).run.Unfolds sid (Over settings (.assign agent) r) ph := by
  have hempty (node : String) : ¬ Unfit settings (.assign agent) r ph.found node := by
    rw [hl]
    exact not_unfit_nil node
  unfold assignAgent
  split
  · exact over_error h.even hempty _
  · refine unfolds_aside (p := now) ⟨trivial, fun t => ?_⟩
    let y : Session := { s with status := .open, agentId := some agent, updateTime := t.millis }
    have hopen : ¬ y.GivenAway (ph.turning = true) ph.row := fun hy => nomatch hy.1
    refine unfolds_save (y := y) h.id h.even.ended (.stays h.even.owed h.even.ended hopen)
      h.over_failing ?_
    refine over_report ⟨h.even.running, rfl, ?_⟩ hempty
    rw [show Phase.ended _ = none from h.even.ended]
    exact trivial

theorem giveBack_unfolds (hs : Opens r s) (h : Loaded sid s ph) (node : Option String) :
    (returnToFlow settings sid s node).run.Unfolds sid (Over settings (.giveBack node) r) ph := by
  have hnot := not_unfit_of_reply? settings (c := .giveBack node) hs rfl
  unfold returnToFlow
  cases hq : isQueued s with
  | false => exact over_error h.even (hnot _) _
  | true =>
    refine unfolds_tried ((published_unfolds h _).imp ?_)
    rintro (e | f) ph' ⟨hloaded, -⟩
    · exact over_error hloaded.even (hnot _) e
    show Unfolds _ _ _ ph'
    dsimp only
    split
    · exact over_error hloaded.even (hnot _) _
    · refine unfolds_emit (.opening hloaded.even rfl) ?_
      refine plan_unfolds (x := givenBack s) hloaded rfl h.id fun other => ?_
      exact iff_of_false (hnot _ other) (Scene.not_misfits_run _ _ other)

/-- The phase in which a command begins. -/
def opening (r : SessionRow) : Phase := ⟨r, [], [], false, [], none, none, none⟩

/-- **A command** that begins with a row in shape. -/
theorem handle_unfolds (c : Command) (hshape : r.InShape) (hid : r.id = sid)
    (hstart : c = .start → r.Unused) :
    (handle settings sid c).run.Unfolds sid (Over settings c r) (opening r) := by
  have hfailed (faults : List Failure) (f : Failure) :
      Over settings c r (.error f) { opening r with faults } :=
    over_error ⟨rfl, rfl, rfl⟩ not_unfit_nil f
  unfold handle
  refine unfolds_tried ⟨trivial, fun w circ hw => ⟨opening r, rfl, ?_⟩, ?_⟩
  · show Phase.Either _ _ (w.store.loadSession sid) (opening r)
    rw [Store.loadSession_eq hw.1 hw.2]
    show Phase.Either _ _ r.toSession (opening r)
    cases hread : r.toSession with
    | error f => exact hfailed [] f
    | ok s =>
      obtain ⟨hs, -, -, hstatus, -⟩ := SessionRow.toSession_eq_ok hread
      have h : Loaded sid s (opening r) := ⟨hs.trans hid, hstatus, rfl, rfl, rfl, rfl, rfl⟩
      show Unfolds _ _ (ExceptT.run (if s.isClosed = true then _ else _)) _
      split
      · exact hfailed [] _
      · rename_i hopen
        have hopens : Opens r s := ⟨hread, Bool.eq_false_iff.mpr hopen⟩
        cases c with
        | start => exact start_unfolds hopens h (hopens.unused (hstart rfl)).1
        | text text => exact text_unfolds hopens h rfl text
        | click id label => exact click_unfolds hopens h rfl id label
        | close => exact close_unfolds h rfl
        | recover =>
          exact recover_unfolds hopens h (status_of_pending (inShape_toSession hread hshape))
        | assign agent => exact assign_unfolds h rfl agent
        | giveBack node => exact giveBack_unfolds hopens h node
  · rintro e _ - ⟨⟩
    exact ⟨rfl, hfailed [e] e⟩

/-- What the journal has of nodes when a reply does not fit the node at which the session waits:
that this one runs, and nothing else, unless the turn was cut, or no node could run at all. -/
inductive Balks (settings : Settings) (node : String) (o : Outcome Report) (log : List Entry) : Prop
  | left (time : Millis) {f : Failure} (ho : o = .error f) (hf : f.isSession = true)
      (hn : log.filterMap Entry.node? = [(node, .running time)])
  | cut (time time' : Millis) {rep : Report} (ho : o = .ok rep) (he : rep.ending = .aborted)
      (hn : log.filterMap Entry.node? = [(node, .running time), (node, .stopped time')])
  /-- There is no budget for nodes. -/
  | unrun (hb : settings.engine.maxSteps = 0) (hn : log.filterMap Entry.node? = [])
  /-- The store has failed before the turn. -/
  | broken {f : Failure} (ho : o = .error f) (hf : .fault f ∈ log)
      (hn : log.filterMap Entry.node? = [])

/-- The journal of a command is well-bracketed. A node is left running only if the command failed,
because the node does not await the reply or because the store has failed; and every node that does
not await the reply is left running. -/
structure Tells (settings : Settings) (c : Command) (r : SessionRow) (o : Outcome Report)
    (log : List Entry) : Prop where
  /-- Every node that runs is followed by how it ended, before another one runs. -/
  nodes : Bracketed (log.filterMap Entry.node?) ∨
    ∃ closed node time f, log.filterMap Entry.node? = closed ++ [(node, .running time)] ∧
      Bracketed closed ∧ o = .error f ∧
      (f.isSession = true ∧ Unfit settings c r (log.filterMap Entry.found?) node ∨ .fault f ∈ log)
  /-- A reply that does not fit is refused by its node once that one runs. -/
  unfit : ∀ node, Unfit settings c r (log.filterMap Entry.found?) node →
    Balks settings node o log
  /-- How the command ended is told once and last. -/
  ending : ∀ rep, o = .ok rep → ¬ rep.ending.IsSilent →
    ∃ before node e, log = before ++ [.event node (.session e)] ∧
      rep.ending.ToldBy rep.session e ∧
      log.filterMap (Entry.session? SessionEvent.isEnding) = [e]
  /-- Nothing is told of the end if the turn was cut, if there was none, or if the command
  failed. -/
  silent : (∀ rep, o = .ok rep → rep.ending.IsSilent) →
    log.filterMap (Entry.session? SessionEvent.isEnding) = []
  settled : Settled log

/-- What is told by a journal that goes on as it may. -/
theorem Over.tells_of_leads {o : Outcome Report} {log : List Entry} (h : Over settings c r o ph)
    (hl : (opening r).Leads log ph) : Tells settings c r o log := by
  obtain ⟨hends, -⟩ := hl.ends rfl
  have hfound : ph.found = log.filterMap Entry.found? := hl.found_eq
  have hnodes : ph.nodes = log.filterMap Entry.node? := hl.nodes_eq
  have hfault {f : Failure} (hf : f ∈ ph.faults) : .fault f ∈ log := by
    rw [hl.faults_eq] at hf
    exact Entry.mem_fault?.mp hf
  refine ⟨?_, fun node hu => ?_, ?_, fun hsilent => ?_, hl.settled rfl h.owed⟩
  · cases hrunning : ph.running with
    | none => exact .inl (hl.bracketed hrunning)
    | some node =>
      obtain ⟨f, ho, hstop⟩ := h.running node hrunning
      rcases hl.brackets.exists_last hrunning with ⟨hnode, -⟩ | ⟨closed, time, hlog, hclosed⟩
      · nomatch hnode
      · refine .inr ⟨closed, node, time, f, hlog, hclosed.bracketed rfl, ho, ?_⟩
        rw [hfound] at hstop
        exact hstop.imp_right hfault
  · rw [← hfound] at hu
    rcases h.unfit node hu with ⟨f, ho, hf, hn⟩ | hbalks
    · exact .broken ho (hfault hf) (hnodes.symm.trans hn)
    rcases hbalks with ⟨hb, hn, -⟩ | hrebuffed
    · exact .unrun hb (hnodes.symm.trans hn)
    · cases hrebuffed with
      | cut time time' _ he hn => exact .cut time time' rfl he (hnodes.symm.trans hn)
      | left time hf _ _ _ hn => exact .left time rfl hf (hnodes.symm.trans hn)
  · rintro rep rfl hnot
    exact (h.told rep rfl).told_last hl rfl hnot
  · rw [hends]
    cases o with
    | ok rep => rw [(h.told rep rfl).ended_of_isSilent (hsilent rep rfl)]; rfl
    | error f => rw [h.failed f rfl]; rfl

end Command

/-! ### All commands to a session -/

/-- **Journals are well-bracketed**, wherever a session has come, whatever is done beside the
command and wherever the store fails, but for nodes that do not await the reply and for those that
run when the store fails. -/
theorem Life.tells {settings : Settings} {sid : String} {started : Bool} {w w' : World}
    {c : Command} {o : Outcome Report} {log : List Entry} (h : Life settings sid started w)
    (hc : c = .start → started = false)
    (hl : Journal (Beside sid) sid (Command.handle settings sid c).run w log (.done o) w') :
    ∃ r, w.store.row? sid = some r ∧ Command.Tells settings c r o log := by
  obtain ⟨r, hw, hshape, hunused⟩ := h.exists_row
  have hun : (Command.handle settings sid c).run.Unfolds sid (Command.Over settings c r) _ :=
    Command.handle_unfolds c hshape (Store.id_of_row? hw.2) fun hstart => hunused (hc hstart)
  have hsuits : (Command.opening r).Suits sid w := hw
  obtain ⟨ph, hleads, hover⟩ := hl.unfolds (ground_beside sid) hun hsuits
  have hover : Command.Over settings c r o ph := hover
  exact ⟨r, hw.2, hover.tells_of_leads hleads⟩

/-- A session is handed to a queue by its first turn. -/
theorem Life.tells_handed :
    let w := keeping (.str "gold")
    let log := entries "s1" (calm .unreachable) 0 (Command.handle .default "s1" .start).run w
    Life .default "s1" false w ∧ ∃ r o, w.store.row? "s1" = some r ∧
      Journal (Beside "s1") "s1" (Command.handle .default "s1" .start).run w log (.done o)
        (w.handling .start) ∧ Command.Tells .default .start r o log ∧
      log.filterMap Entry.node? = [("start", .running 0), ("start", .succeeded 0),
        ("set", .running 0), ("set", .succeeded 0), ("desk", .running 0), ("desk", .succeeded 0)] ∧
      log.filterMap (Entry.session? SessionEvent.isEnding) = [.handoff "sales"] := by
  intro w log
  have hlife : Life .default "s1" false w := .opened rfl
  have hl : Journal (Beside "s1") "s1" (Command.handle .default "s1" .start).run w log _
      (w.handling .start) := journal_run (fun _ => ⟨rfl, rfl⟩) "s1" (calm .unreachable) 0 _ w
  obtain ⟨r, hr, htells⟩ := hlife.tells (fun _ => rfl) hl
  exact ⟨hlife, r, _, hr, hl, htells, by decide +kernel, by decide +kernel⟩

/-- Drawing and publishing a flow is done beside all sessions. -/
theorem World.beside_offering (w : World) (sid : String) (d d' : Definition) (f : Flow) :
    Beside sid w ((w.withFlow d).offering d' f) := ⟨rfl, rfl⟩

/-- The life of the session whose flow was drawn anew. -/
theorem World.life_retold : Life .default "s1" true retold := by
  have hopened : Life .default "s1" false (begun asking asking) :=
    .opened (w := ((issued asking asking).fresh .session).1) (c := ⟨false, .unreachable⟩) rfl
  have hstarted : Life .default "s1" true
      ((begun asking asking).doing (Command.handle .default "s1" .start).run) :=
    .start hopened (leads_run (fun _ => ⟨rfl, rfl⟩) (calm .unreachable) 0 _ _)
  rw [retold_eq]
  exact .beside hstarted (beside_offering _ _ _ _ _)

/-- **A node that is left running**: the flow was drawn anew while the session waited, with a node
that says something in the place of the one that asks, and the customer replies. -/
theorem Life.untold_retold :
    let log := entries "s1" (calm .unreachable) 0 (Command.handle .default "s1" (.text "x")).run
      retold
    Life .default "s1" true retold ∧ Reached retold ∧
      (∃ o w', Journal (Beside "s1") "s1" (Command.handle .default "s1" (.text "x")).run retold log
        (.done o) w') ∧
      ¬ Bracketed (log.filterMap Entry.node?) := by
  intro log
  have hnodes : log.filterMap Entry.node? = [("n", .running 0)] := by
    show (entries "s1" _ 0 _ retold).filterMap Entry.node? = _
    rw [retold_eq]
    decide +kernel
  have hl : Journal (Beside "s1") "s1" (Command.handle .default "s1" (.text "x")).run retold log
      _ _ :=
    journal_run (fun _ => ⟨rfl, rfl⟩) "s1" (calm .unreachable) 0 _ retold
  refine ⟨life_retold, reached_retold, ⟨_, _, hl⟩, fun hbracketed => ?_⟩
  obtain ⟨e, he⟩ := hbracketed [] "n" 0 [] hnodes
  cases he

end Dialogue
