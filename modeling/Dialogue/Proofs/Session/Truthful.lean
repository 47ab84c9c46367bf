import Dialogue.Proofs.Session.Mirror

/-! # Reports and stored sessions

What a command reports is what is stored then. The reported session is the one that was kept last,
and how the command ended can be read off that session: from its status, from the node at which it
waits, from its halt. Only a turn that was cut reports a session that nobody kept.

* `Ends.fits`: the ending of a report fits the session of the report.
* `Life.reports_truly`: reports of all commands, wherever a session has come. -/

namespace Dialogue

open Turn World Program

/-- What an ending says of the session that is kept then. Nothing is said where a turn was cut. -/
def Turn.Ending.Fits (c : Command) (s : Session) : Ending → Prop
  | .paused => s.status = .bot ∧ s.currentNode.isSome
  | .handoff => s.status = .waiting ∧ s.queue.isSome
  | .closed => s.status = .closed
  | .halted => s.status = .bot ∧ s.halt.isSome
  | .ended => s.status = .bot ∧ s.currentNode = none ∧ s.pendingNode = none ∧ s.halt = none
  | .relayed => (s.status = .waiting ∨ s.status = .open) ∧
      ∃ m, s.messages.getLast? = some m ∧ m.sender = .user ∧ c = .text m.text
  | .assigned => s.status = .open ∧ ∃ agent, c = .assign agent ∧ s.agentId = some agent
  | .aborted => True

/-- The ending of a report and its session tell the same. -/
structure Turn.Report.Truthful (c : Command) (rep : Report) : Prop where
  paused : rep.ending = .paused ↔ rep.session.status = .bot ∧ rep.session.currentNode.isSome
  handoff : rep.ending = .handoff → rep.session.status = .waiting ∧ rep.session.queue.isSome
  closed : rep.ending = .closed ↔ rep.session.status = .closed
  halted : rep.ending = .halted ↔ rep.session.status = .bot ∧ rep.session.halt.isSome
  ended : rep.ending = .ended ↔ rep.session.status = .bot ∧ rep.session.currentNode = none ∧
    rep.session.pendingNode = none ∧ rep.session.halt = none
  relayed : rep.ending = .relayed →
    (rep.session.status = .waiting ∨ rep.session.status = .open) ∧
      ∃ m, rep.session.messages.getLast? = some m ∧ m.sender = .user ∧ c = .text m.text
  assigned : rep.ending = .assigned → rep.session.status = .open ∧
    ∃ agent, c = .assign agent ∧ rep.session.agentId = some agent

/-! ### From the ending to the session and back -/

section
variable {c : Command} {s : Session} {e : Ending}

/-- No session waits for a reply and has halted. -/
theorem Session.InShape.halt_of_current (h : s.InShape) (hc : s.currentNode.isSome = true) :
    s.halt = none := by
  have hone := h.one
  rw [hc] at hone
  rw [← Option.not_isSome_iff_eq_none]
  intro hh
  rw [hh] at hone
  revert hone
  cases s.pendingNode.isSome <;> decide

/-- **A session in shape** tells by which of the four endings it was kept that are not those of a
session in other hands. -/
theorem Turn.Ending.Fits.truthful {steps : Nat} (h : e.Fits c s) (hs : s.InShape)
    (he : e ≠ .aborted) : Report.Truthful c ⟨s, e, steps⟩ := by
  cases e with
  | aborted => exact absurd rfl he
  | paused =>
    have hhalt := hs.halt_of_current h.2
    have hcurrent : s.currentNode ≠ none := Option.isSome_iff_ne_none.mp h.2
    constructor <;> simp [h.1, h.2, hhalt, hcurrent]
  | halted =>
    obtain ⟨hstatus, hhalt⟩ := h
    have hcurrent : s.currentNode = none := by
      rw [← Option.not_isSome_iff_eq_none]
      intro hc
      rw [hs.halt_of_current hc] at hhalt
      cases hhalt
    have hne : s.halt ≠ none := Option.isSome_iff_ne_none.mp hhalt
    constructor <;> simp [hstatus, hhalt, hcurrent, hne]
  | ended =>
    obtain ⟨hstatus, hcurrent, hpending, hhalt⟩ := h
    constructor <;> simp [hstatus, hcurrent, hpending, hhalt]
  | handoff => constructor <;> simp [h.1, h.2]
  | closed =>
    have hstatus : s.status = .closed := h
    constructor <;> simp [hstatus]
  | relayed =>
    obtain ⟨hstatus | hstatus, hm⟩ := h
    · constructor <;> simp [hstatus, hm]
    · constructor <;> simp [hstatus, hm]
  | assigned =>
    obtain ⟨hstatus, ha⟩ := h
    constructor <;> simp [hstatus, ha]

end

/-! ### Turns and commands -/

namespace Turn.Scene

variable {sc : Scene} {start stand : Stand} {r₀ r : SessionRow} {s y : Session} {e : Ending}

/-- The last write of a turn keeps what its ending says. -/
theorem Writes.fits (h : sc.Writes stand y (.over s e)) (hs : stand.Afoot) (c : Command) :
    e.Fits c s := by
  generalize hn : Stand.over s e = next at h
  cases h with
  | halt x h diagnosis now =>
    cases hn
    exact ⟨hs.status, rfl⟩
  | @node x st o route ho hr spoken now =>
    cases route with
    | go next => nomatch hn
    | halt kind text again => nomatch hn
    | finish => cases hn; exact ⟨hs.status, hs.current, rfl, hs.halt⟩
    | pause => cases hn; exact ⟨hs.status, rfl⟩
    | handoff queue reason => cases hn; exact ⟨rfl, rfl⟩
    | close => cases hn; exact rfl

/-- **A turn that is over** has kept its session last, which is in shape and as the ending says. -/
theorem Comes.fits (h : sc.Comes start r₀ (.over s e) r) (hne : ∀ s e, start ≠ .over s e)
    (hs : start.Afoot) (c : Command) : r = .ofSession s ∧ s.InShape ∧ e.Fits c s := by
  cases h with
  | begun => exact absurd rfl (hne s e)
  | wrote hc hw =>
    have hafoot := hc.afoot hs
    obtain rfl := hw.session_eq
    exact ⟨rfl, (hw.inShape hafoot).1, hw.fits hafoot c⟩

end Turn.Scene

namespace Command

variable {settings : Settings} {L : Library} {sid : String} {c : Command} {s y : Session}
  {r₀ r : SessionRow} {e : Ending} {rep : Report}

/-- A change at once keeps what its ending says. -/
theorem Direct.fits (h : Direct s c y e) : e.Fits c y := by
  cases h with
  | relay hq id now =>
    have hstatus : s.status = .waiting ∨ s.status = .open := by simpa [isQueued] using hq
    exact ⟨hstatus, _, List.getLast?_concat, rfl, rfl⟩
  | close now => exact rfl
  | assign hq now => exact ⟨rfl, _, rfl, rfl⟩

/-- **A report** of a command that was not cut gives the session that is kept then, and its ending
fits the session. -/
theorem Ends.fits (h : Ends settings L sid c r₀ rep r) (h₀ : r₀.InShape)
    (hstart : ∀ s, c = .start → Opens r₀ s → s.status = .bot) (he : rep.ending ≠ .aborted) :
    r = .ofSession rep.session ∧ rep.Truthful c := by
  cases h with
  | direct hs hd =>
    have hshape := hd.inShape (inShape_toSession hs.1 h₀)
    exact ⟨rfl, hd.fits.truthful hshape he⟩
  | @turn s s' p stand r r' told rep hs hp hb hcomes hover =>
    have hbot := hp.status (inShape_toSession hs.1 h₀) hs.2 fun hc => hstart s hc hs
    rw [hover he] at hcomes
    obtain ⟨hr, hshape, hfits⟩ := hcomes.fits (fun _ _ => p.start_ne_over _ _) (hb.afoot hbot) c
    exact ⟨hr, hfits.truthful hshape he⟩

end Command

/-! ### All commands to a session -/

namespace Life

variable {settings : Settings} {sid : String} {started : Bool} {w w' : World} {c : Command}
  {rep : Report}

/-- **Reports tell what is stored.** When a command to a session is answered otherwise than by a cut
turn, the row of the session is that of the reported session, the session that is loaded from then
on is the reported one if its row is read as it was written, and the reported ending fits it. -/
theorem reports_truly (h : Life settings sid started w) (hc : c = .start → started = false)
    (hl : Leads (Beside sid) (fun _ => True) (Command.handle settings sid c).run w
      (.done (.ok rep)) w')
    (he : rep.ending ≠ .aborted) :
    w'.store.row? sid = some (.ofSession rep.session) ∧
      ((SessionRow.ofSession rep.session).toSession = .ok rep.session →
        ∀ w'', Beside sid w' w'' → w''.store.loadSession sid = .ok rep.session) ∧
      rep.Truthful c := by
  obtain ⟨r, hw, hr, hu⟩ := h.exists_row
  obtain ⟨r', hends, hw'⟩ : ∃ r', Command.Ends settings .any sid c r rep r' ∧
      Holds (fun w => w.store.registered = true) sid r' w' := (always_handle _ c hw).leads hl
  have hstart (s : Session) (hs : c = .start) (ho : Command.Opens r s) : s.status = .bot :=
    (ho.unused (hu (hc hs))).1
  obtain ⟨rfl, htrue⟩ := hends.fits hr hstart he
  refine ⟨hw'.2, fun hback w'' hb => ?_, htrue⟩
  rw [Store.loadSession_eq (hb.1.trans hw'.1) (hb.2.trans hw'.2), hback]

/-- A session that is handed to a queue by its first turn. -/
theorem reports_truly_handed :
    let w := keeping (.str "gold")
    let rep : Report := ⟨{ Session.new "s1" "f1" 1 0 with
      status := .waiting, vars := [("x", .str "gold")], queue := some "sales",
      messages := [⟨"m1", .bot, Settings.default.messages.handoff, none, 0⟩] }, .handoff, 3⟩
    Life .default "s1" false w ∧
      Leads (Beside "s1") (fun _ => True) (Command.handle .default "s1" .start).run w
        (.done (.ok rep)) (w.handling .start) ∧
      (w.handling .start).store.row? "s1" = some (.ofSession rep.session) ∧
      (w.handling .start).store.loadSession "s1" = .ok rep.session ∧ rep.Truthful .start := by
  intro w rep
  have hlife : Life .default "s1" false w := .opened rfl
  have hback := Outcome.eq_ok_of_toOption (a := rep.session)
    (o := (SessionRow.ofSession rep.session).toSession) (by decide +kernel)
  have hrun := Outcome.eq_ok_of_toOption (a := rep)
    (o := (w.run (calm .unreachable) 0 (Command.handle .default "s1" .start).run).2.2)
    (by decide +kernel)
  have hl : Leads (Beside "s1") (fun _ => True) (Command.handle .default "s1" .start).run w
      (.done (.ok rep)) (w.handling .start) := by
    rw [← hrun]
    exact leads_run (fun _ => ⟨rfl, rfl⟩) (calm .unreachable) 0 _ w
  obtain ⟨hrow, hload, htrue⟩ := hlife.reports_truly (fun _ => rfl) hl (by nofun)
  exact ⟨hlife, hl, hrow, hload hback _ ⟨rfl, rfl⟩, htrue⟩

end Life

end Dialogue
