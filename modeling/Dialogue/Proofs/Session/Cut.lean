import Dialogue.Proofs.Session.Shape

/-! # Cut turns

A turn may be cut between any two of its questions, and then the session is carried on from the row
that is stored. That is possible but for two places: before a session was started at all, and
between the row of a node that leads to a halt and the row of that halt.

* `Comes.midway`: the row that is stored where a turn stands.
* `Life.resumable_iff`: wherever a turn is cut before it keeps a session, the row can be carried on
  if it is in neither of these places. -/

namespace Dialogue

open Turn World Program

/-- The flow can carry on a session from the row: a node waits for a reply or is pending, or a text
tries a node again. -/
def SessionRow.Resumable (r : SessionRow) : Prop :=
  r.currentNode.isSome ∨ r.pendingNode.isSome ∨
    ∃ t x, r.halt = some t ∧ Decode.ofText .convert Halt.decode t = .ok x ∧ x.retryable = true

/-- The command may run a turn. -/
def Command.RunsTurn : Command → Prop
  | .close | .assign _ => False
  | _ => True

/-- The row is that of a node that leads to a halt, and the session is the one of that halt. -/
inductive Turn.Unhalted : SessionRow → Session → Prop
  | mk {s : Session} (hs : s.Afoot) (node : String) (vars : Variables) (spoken : List Message)
      (kind : Halt.Kind) (text : String) (again : Bool) (diagnosis : Message)
      (now now' : Millis) :
      Unhalted (.ofSession (stamped (after s node vars spoken (.halt kind text again)) now))
        (stamped (haltedBy (stamped (after s node vars spoken (.halt kind text again)) now)
          ⟨node, kind, text, again⟩ diagnosis) now')

/-- A turn that is about to keep a session is where nobody can carry on from the row: the session
was not started yet, or the halt after a node is not kept yet. -/
inductive Stranded (c : Command) (r₀ r : SessionRow) (y : Session) : Prop
  | unstarted (hc : c = .start) (hr : r = r₀)
  | unhalted (h : Unhalted r y)

/-! ### Rows -/

namespace SessionRow

variable {s : Session} {r : SessionRow}

theorem resumable_of_halt {x : Halt} (h : s.halt = some x) (hr : x.retryable = true) :
    (ofSession s).Resumable :=
  .inr (.inr ⟨x.toJson.text, x, by rw [ofSession, h]; rfl, x.ofText_toJson, hr⟩)

theorem Unused.not_resumable (h : r.Unused) (hb : r.status = Status.bot.name) :
    ¬ r.Resumable := by
  rcases h with h | ⟨-, hc, hp, hh⟩
  · rw [hb] at h
    exact absurd (Status.name_injective h) (by decide)
  · rintro (h | h | ⟨t, x, h, -⟩)
    · rw [hc] at h; cases h
    · rw [hp] at h; cases h
    · rw [hh] at h; cases h

end SessionRow

namespace Turn

variable {r r₀ : SessionRow} {s y : Session}

theorem Unhalted.not_resumable (h : Unhalted r y) : ¬ r.Resumable := by
  cases h with
  | @mk s hs node vars spoken kind text again diagnosis now now' =>
    rintro (h | h | ⟨t, x, h, -⟩)
    · have h : s.currentNode.isSome := h
      rw [hs.current] at h
      cases h
    · cases h
    · have h : (s.halt.map fun x => x.toJson.text) = some t := h
      rw [hs.halt] at h
      cases h

/-- The row that is stored where a turn stands: that with which it began, one with a pending node,
or that of the node that leads to the halt. -/
def Stand.Midway (r₀ : SessionRow) : Stand → SessionRow → Prop
  | .before _ _, r => r = r₀ ∨ r.pendingNode.isSome
  | .halting s x, r => r = r₀ ∨ r.pendingNode.isSome ∨
      ∀ diagnosis now, Unhalted r (stamped (haltedBy s x diagnosis) now)
  | .over _ _, _ => True

namespace Scene

variable {sc : Scene} {start stand next : Stand}

theorem Writes.midway (h : sc.Writes stand y next) (hs : stand.Afoot) :
    next.Midway r₀ (.ofSession y) := by
  cases h with
  | halt s x diagnosis now => exact trivial
  | @node s st o route ho hr spoken now =>
    cases route with
    | go next => exact .inr rfl
    | halt kind text again =>
      exact .inr <| .inr fun diagnosis now' =>
        .mk hs st.node o.vars spoken kind text again diagnosis now now'
    | finish | pause | handoff | close => exact trivial

/-- **The row where a turn stands.** -/
theorem Comes.midway (h : sc.Comes start r₀ stand r) (hs : start.Afoot)
    (h₀ : start.Midway r₀ r₀) : stand.Midway r₀ r := by
  induction h with
  | begun => exact h₀
  | fault hc hf ih => exact ih.imp_right .inl
  | wrote hc hw _ => exact hw.midway (hc.afoot hs)

/-- A turn that keeps a session has the row with which it began, or one with a pending node, or
that of the node that leads to the halt. -/
theorem Turns.midway (h : sc.Turns start r₀ r y) (hs : start.Afoot) (h₀ : start.Midway r₀ r₀) :
    r = r₀ ∨ r.pendingNode.isSome ∨ Unhalted r y := by
  obtain ⟨stand, next, hc, hw⟩ := h
  have hm := hc.midway hs h₀
  cases hw with
  | node => exact hm.imp_right .inl
  | halt s x diagnosis now => exact hm.imp_right fun hm => hm.imp_right fun hm => hm diagnosis now

end Scene

end Turn

/-! ### Commands -/

namespace Command

variable {settings : Settings} {L : Library} {sid : String} {c : Command} {r r₀ : SessionRow}
  {s y : Session}

/-- A session for which a turn is planned can be carried on, unless it is about to be started or in
the hands of humans. -/
theorem Plans.resumable {p : Plan} (h : Plans settings L s c p) (hc : c ≠ .start)
    (hq : isQueued s = false) : (SessionRow.ofSession s).Resumable := by
  cases h with
  | start hf => exact absurd rfl hc
  | reply _ hn hf => exact .inl (Option.isSome_iff_exists.mpr ⟨_, hn⟩)
  | retry _ hn hh hr hf => exact SessionRow.resumable_of_halt hh hr
  | click hp hn hf ha hk => exact .inl (Option.isSome_iff_exists.mpr ⟨_, hn⟩)
  | recover hn hf => exact .inr (.inl (Option.isSome_iff_exists.mpr ⟨_, hn⟩))
  | giveBack hq' hf ha => rw [hq] at hq'; cases hq'

theorem resumable_toSession (h : r.toSession = .ok s) (hs : (SessionRow.ofSession s).Resumable) :
    r.Resumable := by
  obtain ⟨-, -, -, -, hc, hp, -⟩ := SessionRow.toSession_eq_ok h
  rcases hs with hs | hs | ⟨t, x, hs, hx, hr⟩
  · exact .inl (hc ▸ hs)
  · exact .inr (.inl (hp ▸ hs))
  · rcases SessionRow.halt_cases h with ⟨-, hh⟩ | ⟨t', x', ht', hh, hx'⟩
    · rw [SessionRow.ofSession, hh] at hs
      cases hs
    · rw [SessionRow.ofSession, hh] at hs
      obtain rfl : x'.toJson.text = t := Option.some.inj hs
      obtain rfl : x' = x := Except.ok.inj (x'.ofText_toJson.symm.trans hx)
      exact .inr (.inr ⟨t', x', ht', hx', hr⟩)

theorem isQueued_of_bot (h : s.status.name = Status.bot.name) : isQueued s = false := by
  rw [isQueued, Status.name_injective h]
  rfl

/-- **Where a command keeps a session** of the flow, the row can be carried on or nobody can. -/
theorem Writes.resumable_or_stranded (h : Writes settings L sid c r₀ r y) (hc : c.RunsTurn)
    (h₀ : r₀.InShape) (hstart : c = .start → r₀.Unused) (hb : r.status = Status.bot.name) :
    r.Resumable ∨ Stranded c r₀ r y := by
  cases h with
  | direct hs hd =>
    have hq := isQueued_of_bot (hs.status_name.trans hb)
    cases hd with
    | relay hq' id now => rw [hq] at hq'; cases hq'
    | close now => exact hc.elim
    | assign hq' now => exact hc.elim
  | record hs hp ht id now =>
    have hne : c ≠ .start := by
      rintro rfl
      cases hp
      nomatch ht
    have hq := isQueued_of_bot (hs.status_name.trans hb)
    exact .inl (resumable_toSession hs.1 (hp.resumable hne hq))
  | @turn s s' y p r r' told hs hp hbegin ht =>
    have hbot := hp.status (inShape_toSession hs.1 h₀) hs.2 fun hc => (hs.unused (hstart hc)).1
    rcases ht.midway (hbegin.afoot hbot) (.inl rfl) with rfl | hpending | hunhalted
    · cases hbegin with
      | silent _ =>
        by_cases hne : c = .start
        · exact .inr (.unstarted hne rfl)
        · have hq := isQueued_of_bot (hs.status_name.trans hb)
          exact .inl (resumable_toSession hs.1 (hp.resumable hne hq))
      | said hsaid id now =>
        rw [hp.session_of_said hsaid] at hb ⊢
        have hne : c ≠ .start := by
          rintro rfl
          cases hp
          nomatch hsaid
        have hs' : (SessionRow.ofSession s).Resumable := hp.resumable hne (isQueued_of_bot hb)
        exact .inl hs'
    · exact .inl (.inr (.inl hpending))
    · exact .inr (.unhalted hunhalted)

end Command

/-! ### Where a turn is cut -/

/-- A flow whose start does not know where to go on. -/
def Flow.forked : Flow :=
  ⟨"f1", 1, [⟨"start", .start, .null, .start none⟩],
    [⟨"e1", "start", "start", .plain⟩, ⟨"e2", "start", "start", .plain⟩], [], [], "start"⟩

/-- A new session of that flow. -/
def World.forked : World :=
  (World.answer { World.new .empty 0 with compiled := Cache.empty.set "f1@1" .forked }
    ⟨false, .unreachable⟩ (.createSession (.new "s1" "f1" 1 0))).1

namespace Life

variable {settings : Settings} {sid : String} {started : Bool} {c : Command}
  {w w' w'' : World} {p : Program (Outcome Report)} {y : Session}
  {next : (Ask.saveSession y).Answer → Program (Outcome Report)}

/-- **Cut turns.** Wherever a turn is cut that is about to keep a session, the stored session can be
carried on exactly if it was started and no halt is missing from it. -/
theorem resumable_iff (h : Life settings sid started w) (hc : c.RunsTurn)
    (hs : c = .start → started = false)
    (hl : Leads (Beside sid) (fun _ => True) (Command.handle settings sid c).run w p w')
    (hn : Leads (Beside sid) Ask.Keepless p w' (.ask (.saveSession y) next) w'') :
    ∃ r₀ r, w.store.row? sid = some r₀ ∧ w'.store.row? sid = some r ∧
      (r.status = Status.bot.name → (r.Resumable ↔ ¬ Stranded c r₀ r y)) := by
  obtain ⟨r₀, hw, hshape, hunused⟩ := h.exists_row
  have hB := ground_beside sid
  have halways := (always_handle settings c hw).leads hl
  obtain ⟨r, hw', -⟩ := (always_handle settings c hw).holds_leads (P := fun _ => True)
    hB hl (fun _ _ _ => trivial) hw trivial
  have hw'' := halways.holds_keepless hB hn hw'
  obtain ⟨-, r', hr', hwrites⟩ := (halways.leads hn w'' ⟨rfl, rfl⟩).1
  obtain rfl : r = r' := Option.some.inj (hw''.2.symm.trans hr')
  refine ⟨r₀, r, hw.2, hw'.2, fun hb => ⟨fun hr hst => ?_, fun hst => ?_⟩⟩
  · cases hst with
    | unstarted hc hr₀ =>
      subst hr₀
      exact (hunused (hs hc)).not_resumable hb hr
    | unhalted hu => exact hu.not_resumable hr
  · exact (hwrites.resumable_or_stranded hc hshape (fun hc => hunused (hs hc)) hb).resolve_right hst

/-- **A session that nobody can carry on.** It is cut between the row of a node and that of the halt
to which the node leads. -/
theorem stranded_forked :
    let start := (Command.handle .default "s1" .start).run
    let rest := cut ⟨false, .unreachable⟩ 18 start World.forked
    Life .default "s1" false World.forked ∧
      Leads (Beside "s1") (fun _ => True) start World.forked rest.1 rest.2 ∧
      (∃ y next, rest.1 = .ask (.saveSession y) next) ∧
      ∃ r, rest.2.store.row? "s1" = some r ∧ r.status = Status.bot.name ∧ ¬ r.Resumable := by
  refine ⟨.opened rfl, leads_cut (fun _ => ⟨rfl, rfl⟩) _ _ _ _, ⟨_, _, rfl⟩, _, rfl, rfl, ?_⟩
  rintro (h | h | ⟨t, x, h, -⟩)
  · cases h
  · cases h
  · cases h

/-- The same session where it is started, before its first row. -/
theorem resumable_iff_forked :
    let rest := cut ⟨false, .unreachable⟩ 10 (Command.handle .default "s1" .start).run World.forked
    ∃ y r₀ r, World.forked.store.row? "s1" = some r₀ ∧ rest.2.store.row? "s1" = some r ∧
      (r.status = Status.bot.name → (r.Resumable ↔ ¬ Stranded .start r₀ r y)) := by
  intro rest
  have hl : Leads (Beside "s1") (fun _ => True) (Command.handle .default "s1" .start).run
      World.forked rest.1 rest.2 := leads_cut (fun _ => ⟨rfl, rfl⟩) _ _ _ _
  have hlife : Life .default "s1" false World.forked := .opened rfl
  obtain ⟨y, next, hrest⟩ : ∃ y next, rest.1 = .ask (.saveSession y) next := ⟨_, _, rfl⟩
  have hn : Leads (Beside "s1") Ask.Keepless rest.1 rest.2 (.ask (.saveSession y) next) rest.2 := by
    rw [hrest]
    exact .refl _ _
  exact ⟨y, hlife.resumable_iff trivial (fun _ => rfl) hl hn⟩

end Life

end Dialogue
