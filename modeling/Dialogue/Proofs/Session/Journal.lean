import Dialogue.Proofs.Turn.Writes

/-! # The journal of a session

While a command works on a session, events are told of it and its row is replaced. The journal of a
run has both in their order, with the flows that the registry gave and the failures of the store. It
is well-bracketed if every node that began to run was followed by how it ended, if how the command
ended was told once and last, and if the event that gives a session away follows the row that does.

A phase is what has to be known of a journal to say how it may go on, and `Phase.Takes` says it.

* `journal_run`: a program that is run to its end has a journal.
* `Phase.Leads.bracketed`, `Phase.Leads.ends`, `Phase.Leads.settled`: what is true of journals that
  go on as they may. -/

namespace Dialogue

open Program Turn

/-- What is seen of the work on a session. -/
inductive Entry where
  /-- An event was told. -/
  | event (node : String) (e : Event.Content)
  /-- The row was replaced by that of a session. -/
  | kept (r : SessionRow) (y : Session)
  /-- A turn has begun. -/
  | turn
  /-- The registry gave a compiled version: it was at hand, or it was compiled from its row. -/
  | found (key : String) (f : Flow)
  /-- The store has failed. -/
  | fault (f : Failure)

/-- The node begins to run; all other events of a node tell how it ended. -/
def NodeEvent.isRunning : NodeEvent → Bool
  | .running _ => true
  | _ => false

/-- The event tells how a turn ended. -/
def SessionEvent.isEnding : SessionEvent → Bool
  | .started | .resumed => false
  | _ => true

/-- The event gives the session away. -/
def SessionEvent.isParting (e : SessionEvent) : Bool := (Event.Content.session e).isComplete

namespace Entry

/-- The event of a node. -/
def node? : Entry → Option (String × NodeEvent)
  | .event node (.node e) => some (node, e)
  | _ => none

/-- The event of the session, if it is of a sort. -/
def session? (sort : SessionEvent → Bool) : Entry → Option SessionEvent
  | .event _ (.session e) => if sort e then some e else none
  | _ => none

/-- The version that the registry gave, with its key. -/
def found? : Entry → Option (String × Flow)
  | .found key f => some (key, f)
  | _ => none

/-- The failure of the store. -/
def fault? : Entry → Option Failure
  | .fault f => some f
  | _ => none

theorem mem_fault? {f : Failure} {log : List Entry} :
    f ∈ log.filterMap fault? ↔ .fault f ∈ log := by
  simp only [List.mem_filterMap]
  refine ⟨?_, fun h => ⟨_, h, rfl⟩⟩
  rintro ⟨x, hx, hf⟩
  cases x with
  | fault g => cases hf; exact hx
  | _ => cases hf

end Entry

/-- The entry of an answered question. -/
def Ask.record? (sid : String) (w : World) : (a : Ask) → a.Answer → Option Entry
  | .emit (.event e), () => if e.session = sid then some (.event e.node e.content) else none
  | .saveSession y, .ok () => if y.id = sid then (w.store.row? sid).map (.kept · y) else none
  | .openTurn, () => some .turn
  | .cached key, some f => some (.found key f)
  | .remember key f, () => some (.found key f)
  | _, _ => none

/-- The answer of a store that fails; the other questions do not need the store. -/
def Ask.failing? (f : Failure) : (a : Ask) → Option a.Answer
  | .loadSession _ | .sessionStatus _ | .createSession _ | .saveSession _ | .loadFlow _
  | .saveFlow _ | .loadVersion _ _ | .saveVersion _ _ _ _ | .loadSchedule _ => some (.error f)
  | _ => none

namespace Program

variable {α : Type}

/-- A program in a world leads to another program in another world, with a journal of what happens
to a session in between. At any question that needs it the store may fail, and then nothing of it
has changed. -/
inductive Journal (beside : World → World → Prop) (sid : String) :
    Program α → World → List Entry → Program α → World → Prop
  | refl (p : Program α) (w : World) : Journal beside sid p w [] p w
  | ask {a : Ask} {next : a.Answer → Program α} {q : Program α} {w w₁ w' : World}
      {log : List Entry} (c : Circumstance) (hb : beside w w₁)
      (h : Journal beside sid (next (w₁.answer c a).2) (w₁.answer c a).1 log q w') :
      Journal beside sid (.ask a next) w ((a.record? sid w₁ (w₁.answer c a).2).toList ++ log) q w'
  | fault {a : Ask} {next : a.Answer → Program α} {q : Program α} {w w₁ w' : World}
      {log : List Entry} {f : Failure} {x : a.Answer} (hb : beside w w₁)
      (hf : f.isSession = false) (hx : a.failing? f = some x)
      (h : Journal beside sid (next x) w₁ log q w') :
      Journal beside sid (.ask a next) w (.fault f :: log) q w'

/-- The journal of a program that is run to its end. -/
def entries (sid : String) (c : Nat → Circumstance) (n : Nat) : Program α → World → List Entry
  | .done _, _ => []
  | .ask a next, w => (a.record? sid w (w.answer (c n) a).2).toList ++
      entries sid c (n + 1) (next (w.answer (c n) a).2) (w.answer (c n) a).1

theorem journal_run {beside : World → World → Prop} (hb : ∀ w, beside w w) (sid : String)
    (c : Nat → Circumstance) (n : Nat) (p : Program α) (w : World) :
    Journal beside sid p w (entries sid c n p w) (.done (w.run c n p).2.2) (w.run c n p).2.1 := by
  induction p generalizing n w with
  | done a => exact .refl _ _
  | ask a next ih => exact .ask (c n) (hb w) (ih _ _ _)

end Program

/-! ### Well-bracketed journals -/

/-- Behind a node that begins to run, what is told next of a node is how that one ended, and nothing
else is told of nodes before another one begins to run. -/
def Bracketed (es : List (String × NodeEvent)) : Prop :=
  ∀ a node time b, es = a ++ (node, .running time) :: b →
    ∃ e, b.takeWhile (fun x => !x.2.isRunning) = [(node, e)]

/-- The session is given away when it is kept in place of a row: a turn or another status puts it
into the hands of a queue, or closes it. -/
def Session.GivenAway (y : Session) (turning : Prop) (r : SessionRow) : Prop :=
  (y.status = .waiting ∨ y.status = .closed) ∧ (turning ∨ r.status ≠ y.status.name)

/-- The event that tells of a session that is given away. -/
inductive Session.LeavesBy (y : Session) : SessionEvent → Prop
  | handoff {queue : String} (hs : y.status = .waiting) (hq : y.queue = some queue) :
      LeavesBy y (.handoff queue)
  | closed (hs : y.status = .closed) : LeavesBy y .closed

/-- Behind every row that gives the session away one event tells of that, and no other one. -/
def Settled (log : List Entry) : Prop :=
  ∀ a r y b, log = a ++ .kept r y :: b → y.GivenAway (.turn ∈ a) r →
    ∃ e, y.LeavesBy e ∧ b.filterMap (Entry.session? SessionEvent.isParting) = [e]

/-! ### Nodes one after the other -/

/-- Events of nodes, between two moments in which a node may run: one node runs after the other. -/
inductive Brackets : Option String → List (String × NodeEvent) → Option String → Prop
  | nil (running : Option String) : Brackets running [] running
  | running {node : String} {time : Millis} {es : List (String × NodeEvent)}
      {running : Option String} (h : Brackets (some node) es running) :
      Brackets none ((node, .running time) :: es) running
  | ended {node : String} {e : NodeEvent} {es : List (String × NodeEvent)}
      {running : Option String} (he : e.isRunning = false) (h : Brackets none es running) :
      Brackets (some node) ((node, e) :: es) running

namespace Brackets

variable {running after : Option String} {es : List (String × NodeEvent)} {node : String}

/-- While no node runs, nothing is told of nodes before one begins to run. -/
theorem takeWhile_of_none (h : Brackets none es after) :
    (es.takeWhile fun x => !x.2.isRunning) = [] := by
  cases h with
  | nil => rfl
  | running h => rfl

/-- While a node runs, it is told how that one ended. -/
theorem takeWhile_of_some (h : Brackets (some node) es none) :
    ∃ e, (es.takeWhile fun x => !x.2.isRunning) = [(node, e)] := by
  cases h with
  | @ended _ e es _ he h =>
    exact ⟨e, by rw [List.takeWhile_cons_of_pos (by rw [he]; rfl), h.takeWhile_of_none]⟩

/-- **Nodes that run one after the other** are bracketed if none is left that runs. -/
theorem bracketed (h : Brackets running es after) (ha : after = none) : Bracketed es := by
  induction h with
  | nil => intro a node time b he; simp at he
  | @running node time es after h ih =>
    intro a node' time' b he
    subst ha
    cases a with
    | nil =>
      obtain ⟨hx, rfl⟩ := List.cons.inj he
      cases hx
      exact h.takeWhile_of_some
    | cons x a => exact ih rfl a node' time' b (List.cons.inj he).2
  | @ended node e es after he h ih =>
    intro a node' time b heq
    cases a with
    | nil =>
      cases (List.cons.inj heq).1
      cases he
    | cons x a => exact ih ha a node' time b (List.cons.inj heq).2

/-- A node that is left running is the last one of which something is told, or ran before. -/
theorem exists_last (h : Brackets running es after) (ha : after = some node) :
    running = some node ∧ es = [] ∨
      ∃ closed time, es = closed ++ [(node, .running time)] ∧ Brackets running closed none := by
  induction h with
  | nil running => exact .inl ⟨ha, rfl⟩
  | @running node' time es after h ih =>
    rcases ih ha with ⟨hnode, rfl⟩ | ⟨closed, time', rfl, hclosed⟩
    · obtain rfl : node' = node := Option.some.inj hnode
      exact .inr ⟨[], time, rfl, .nil none⟩
    · exact .inr ⟨_ :: closed, time', rfl, .running hclosed⟩
  | @ended node' e es after he h ih =>
    rcases ih ha with ⟨hnode, -⟩ | ⟨closed, time, rfl, hclosed⟩
    · nomatch hnode
    · exact .inr ⟨_ :: closed, time, rfl, .ended he hclosed⟩

end Brackets

/-! ### Phases -/

/-- How far the work on a session has come, as far as its journal tells. -/
structure Phase where
  row : SessionRow
  /-- The versions that the registry gave. -/
  found : List (String × Flow)
  /-- The failures of the store. -/
  faults : List Failure
  /-- A turn has begun. -/
  turning : Bool
  /-- What was told of nodes. -/
  nodes : List (String × NodeEvent)
  /-- The node that runs. -/
  running : Option String
  /-- The event that is still to tell that the session was given away. -/
  owed : Option SessionEvent
  /-- The event that told how the work ended. -/
  ended : Option SessionEvent

namespace Phase

/-- No node runs, all was told of the session that is stored, and the work goes on. -/
structure Even (p : Phase) : Prop where
  running : p.running = none
  owed : p.owed = none
  ended : p.ended = none

/-- The registry has given a version. -/
def finding (p : Phase) (key : String) (f : Flow) : Phase :=
  { p with found := p.found ++ [(key, f)] }

/-- The store has failed. -/
def failing (p : Phase) (f : Failure) : Phase := { p with faults := p.faults ++ [f] }

theorem mem_failing (p : Phase) (f : Failure) : f ∈ (p.failing f).faults :=
  List.mem_append_right _ (List.mem_singleton_self f)

/-- How a journal goes on. -/
inductive Takes : Phase → Entry → Phase → Prop
  | turn {p : Phase} (h : p.Even) : Takes p .turn { p with turning := true }
  | opening {p : Phase} {node : String} {e : SessionEvent} (h : p.Even) (he : e.isEnding = false) :
      Takes p (.event node (.session e)) p
  | running {p : Phase} {node : String} {time : Millis} (h : p.Even) :
      Takes p (.event node (.node (.running time)))
        { p with nodes := p.nodes ++ [(node, .running time)], running := some node }
  | closing {p : Phase} {node : String} {e : NodeEvent} (hr : p.running = some node)
      (hu : p.ended = none) (he : e.isRunning = false) :
      Takes p (.event node (.node e)) { p with nodes := p.nodes ++ [(node, e)], running := none }
  | stays {p : Phase} {y : Session} (ho : p.owed = none) (hu : p.ended = none)
      (hy : ¬ y.GivenAway (p.turning = true) p.row) :
      Takes p (.kept p.row y) { p with row := .ofSession y, owed := none }
  | leaves {p : Phase} {y : Session} {e : SessionEvent} (ho : p.owed = none) (hu : p.ended = none)
      (hy : y.LeavesBy e) :
      Takes p (.kept p.row y) { p with row := .ofSession y, owed := some e }
  | ending {p : Phase} {node : String} {e : SessionEvent} (hr : p.running = none)
      (hu : p.ended = none) (he : e.isEnding = true)
      (ho : p.owed = if e.isParting then some e else none) :
      Takes p (.event node (.session e)) { p with owed := none, ended := some e }
  | found {p : Phase} (hu : p.ended = none) (key : String) (f : Flow) :
      Takes p (.found key f) (p.finding key f)
  | fault {p : Phase} (hu : p.ended = none) (f : Failure) : Takes p (.fault f) (p.failing f)

/-- How a whole journal goes on. -/
inductive Leads : Phase → List Entry → Phase → Prop
  | refl (p : Phase) : Leads p [] p
  | cons {p p₁ p' : Phase} {x : Entry} {log : List Entry} (hx : p.Takes x p₁)
      (h : Leads p₁ log p') : Leads p (x :: log) p'

variable {p p' : Phase} {log : List Entry} {e : SessionEvent}

namespace Leads

/-- Nodes run one after the other. -/
theorem brackets (h : Leads p log p') :
    Brackets p.running (log.filterMap Entry.node?) p'.running := by
  induction h with
  | refl => exact .nil _
  | cons hx _ ih =>
    cases hx with
    | turn h => exact ih
    | opening h he => exact ih
    | running h => rw [h.running]; exact .running ih
    | closing hr hu he => rw [hr]; exact .ended he ih
    | stays ho hu hy => exact ih
    | leaves ho hu hy => exact ih
    | ending hr hu he ho => exact ih
    | found hu key f => exact ih
    | fault hu f => exact ih

/-- **Nodes are bracketed** in a journal behind which no node runs. -/
theorem bracketed (h : Leads p log p') (hr : p'.running = none) :
    Bracketed (log.filterMap Entry.node?) :=
  h.brackets.bracketed hr

/-- Once the end was told, nothing more happens. -/
theorem eq_nil_of_ended (h : Leads p log p') (he : p.ended = some e) : log = [] ∧ p' = p := by
  cases h with
  | refl => exact ⟨rfl, rfl⟩
  | cons hx _ =>
    have hnone : p.ended = none := by
      cases hx with
      | turn h | opening h | running h => exact h.ended
      | closing _ hu | stays _ hu | leaves _ hu | ending _ hu | found hu | fault hu => exact hu
    rw [he] at hnone
    cases hnone

/-- The end is told once and last, if it is told. -/
theorem ends (h : Leads p log p') (hp : p.ended = none) :
    log.filterMap (Entry.session? SessionEvent.isEnding) = p'.ended.toList ∧
      ∀ e ∈ p'.ended, ∃ node before, log = before ++ [.event node (.session e)] := by
  induction h with
  | refl p => rw [hp]; exact ⟨rfl, nofun⟩
  | @cons p p₁ p' x log hx h ih =>
    -- whatever comes before the end is not told at it
    have hon (hx : x.session? SessionEvent.isEnding = none) (hp₁ : p₁.ended = none) :
        (x :: log).filterMap (Entry.session? SessionEvent.isEnding) = p'.ended.toList ∧
          ∀ e ∈ p'.ended, ∃ node before, x :: log = before ++ [.event node (.session e)] := by
      obtain ⟨hsame, hlast⟩ := ih hp₁
      refine ⟨by rw [List.filterMap_cons_none hx, hsame], fun e he => ?_⟩
      obtain ⟨node, before, rfl⟩ := hlast e he
      exact ⟨node, x :: before, rfl⟩
    cases hx with
    | turn _ => exact hon rfl hp
    | opening _ he => exact hon (by simp [Entry.session?, he]) hp
    | running _ => exact hon rfl hp
    | closing _ _ _ => exact hon rfl hp
    | stays _ _ _ => exact hon rfl hp
    | leaves _ _ _ => exact hon rfl hp
    | found _ _ _ => exact hon rfl hp
    | fault _ _ => exact hon rfl hp
    | @ending node e _ _ he _ =>
      obtain ⟨rfl, rfl⟩ := h.eq_nil_of_ended rfl
      exact ⟨by simp [Entry.session?, he], fun e' he' => ⟨node, [], by cases he'; rfl⟩⟩

/-- What is owed is told once, if nothing is owed any more. -/
theorem pays (h : Leads p log p') (hp : p.owed = some e) (hp' : p'.owed = none) :
    log.filterMap (Entry.session? SessionEvent.isParting) = [e] := by
  induction h with
  | refl => rw [hp] at hp'; cases hp'
  | @cons p p₁ p' x log hx h ih =>
    cases hx with
    | turn hx | opening hx | running hx => rw [hx.owed] at hp; cases hp
    | stays ho | leaves ho => rw [ho] at hp; cases hp
    | closing _ _ _ => exact ih hp hp'
    | found _ _ _ => exact ih hp hp'
    | fault _ _ => exact ih hp hp'
    | @ending node e' _ _ _ ho =>
      obtain ⟨rfl, -⟩ := h.eq_nil_of_ended rfl
      rw [hp] at ho
      split at ho
      · rename_i hparting
        cases ho
        simp [Entry.session?, hparting]
      · cases ho

/-- A turn has begun if it had before, or if its beginning is in the journal. -/
theorem turning (h : Leads p log p') :
    p'.turning = true ↔ p.turning = true ∨ Entry.turn ∈ log := by
  induction h with
  | refl p => simp
  | cons hx _ ih => cases hx <;> simp [ih, finding, failing]

theorem nodes_eq (h : Leads p log p') : p'.nodes = p.nodes ++ log.filterMap Entry.node? := by
  induction h with
  | refl p => simp
  | cons hx _ ih => cases hx <;> simp [ih, List.filterMap_cons, Entry.node?, finding, failing]

theorem found_eq (h : Leads p log p') : p'.found = p.found ++ log.filterMap Entry.found? := by
  induction h with
  | refl p => simp
  | cons hx _ ih => cases hx <;> simp [ih, List.filterMap_cons, Entry.found?, finding, failing]

theorem faults_eq (h : Leads p log p') : p'.faults = p.faults ++ log.filterMap Entry.fault? := by
  induction h with
  | refl p => simp
  | cons hx _ ih => cases hx <;> simp [ih, List.filterMap_cons, Entry.fault?, finding, failing]

theorem split {a b : List Entry} (h : Leads p (a ++ b) p') :
    ∃ p₁, Leads p a p₁ ∧ Leads p₁ b p' := by
  induction a generalizing p with
  | nil => exact ⟨p, .refl p, h⟩
  | cons x a ih =>
    cases h with
    | cons hx h =>
      obtain ⟨p₁, ha, hb⟩ := ih h
      exact ⟨p₁, .cons hx ha, hb⟩

/-- **Whatever gives the session away is told** in a journal behind which nothing is owed. -/
theorem settled (h : Leads p log p') (hp : p.turning = false) (ho : p'.owed = none) :
    Settled log := by
  rintro a r y b rfl hy
  obtain ⟨p₁, ha, hb⟩ := h.split
  have hturning : p₁.turning = true ↔ .turn ∈ a := by simp [ha.turning, hp]
  cases hb with
  | cons hx hb =>
    cases hx with
    | stays _ _ hnot => exact absurd (by simpa [Session.GivenAway, hturning] using hy) hnot
    | leaves _ _ hleaves => exact ⟨_, hleaves, hb.pays rfl ho⟩

end Leads

end Phase

end Dialogue
