import Dialogue.Cache
import Dialogue.Program.Basic

/-! # The world of a program

What programs ask and change: the store, the compiled flows at hand, the clock, and what was told to
the chat backend and to listeners. Every event and every line of the log is also kept in the store.

* `run_bind`: a program behind another one runs in the world that the first one leaves. -/

namespace Dialogue

/-- What programs ask and change. -/
structure World where
  store : Store
  /-- Compiled versions by their identity. -/
  compiled : Cache Flow
  /-- What the clock shows. -/
  instant : Instant
  /-- What the chat backend was told, the oldest first. -/
  deliveries : List Delivery
  /-- What listeners could hear, the oldest first. -/
  signals : List Signal
  /-- How many identities of each sort were given. -/
  flows : Nat
  sessions : Nat
  messages : Nat

/-- The circumstances in which a question is asked. -/
structure Circumstance where
  /-- The program was told to stop. -/
  aborted : Bool
  /-- What comes of a request if one is sent. -/
  peer : Http.Attempt

namespace World

/-- A world with a store in which nothing has happened. -/
def new (store : Store) (clock : Millis) : World :=
  ⟨store, .empty, .ofMillis clock, [], [], 0, 0, 0⟩

/-- How many compiled versions are kept at hand. -/
def capacity : Nat := 256

/-- The world with no more compiled versions at hand than are kept. Which ones are given up is up to
the cache; here it is the oldest. -/
def pruned (w : World) : World := { w with compiled := w.compiled.newest capacity }

/-- The time by the clock. -/
abbrev clock (w : World) : Millis := w.instant.millis

theorem clock_new (store : Store) (time : Millis) : (new store time).clock = time :=
  Instant.millis_ofMillis time

/-- The row of an event; events are stamped by their number. -/
def eventRow (number : Nat) (e : Event) : EventRow :=
  ⟨"e" ++ toString number, e.session, e.node, e.content.name, e.content.shown, number⟩

/-- The row of a line of the log. -/
def logRow (number : Nat) (l : LogLine) : LogRow :=
  ⟨"l" ++ toString number, l.session, l.node, l.text, l.time⟩

/-- The store with what was heard; where a row cannot be kept nothing changes. -/
def keep (s : Store) : Signal → Store
  | .event e =>
    match s.events.create (eventRow s.events.rows.length e) with
    | .ok events => { s with events }
    | .error _ => s
  | .log l =>
    match s.logs.create (logRow s.logs.rows.length l) with
    | .ok logs => { s with logs }
    | .error _ => s

/-- Gives a new identity. -/
def fresh (w : World) : Identity → World × String
  | .flow => ({ w with flows := w.flows + 1 }, "f" ++ toString (w.flows + 1))
  | .session => ({ w with sessions := w.sessions + 1 }, "s" ++ toString (w.sessions + 1))
  | .message => ({ w with messages := w.messages + 1 }, "m" ++ toString (w.messages + 1))

/-- Changes the store, or tells why it does not change. -/
def change (w : World) (r : Outcome Store) : World × Outcome Unit :=
  match r with
  | .ok store => ({ w with store }, .ok ())
  | .error f => (w, .error f)

/-- The answer to a question, and the world after it. -/
def answer (w : World) (c : Circumstance) : (a : Ask) → World × a.Answer
  | .loadSession id => (w, w.store.loadSession id)
  | .sessionStatus id => (w, w.store.sessionStatus id)
  | .createSession s => w.change (w.store.createSession s)
  | .saveSession s => w.change (w.store.saveSession s)
  | .loadFlow id => (w, w.store.loadFlow id)
  | .saveFlow d => w.change (w.store.saveFlow d)
  | .loadVersion flow version => (w, w.store.loadVersion flow version)
  | .saveVersion flow version g now => w.change (w.store.saveVersion flow version g now)
  | .loadSchedule id => (w, w.store.loadSchedule id)
  | .cached key => (w, w.compiled.get? key)
  | .remember key f => ({ w with compiled := w.compiled.set key f }, ())
  | .now => (w, w.instant)
  | .fresh i => w.fresh i
  | .deliver d => ({ w with deliveries := w.deliveries ++ [d] }, ())
  | .emit s => ({ w with store := keep w.store s, signals := w.signals ++ [s] }, ())
  | .openTurn => (w, ())
  | .closeTurn => (w, ())
  | .isAborted => (w, c.aborted)
  | .wait _ => (w, !c.aborted)
  | .exchange _ => (w, if c.aborted then none else some c.peer)

variable {α β : Type}

/-- Runs a program to its end; question number `n` is asked under circumstance number `n`. Comes
with the number of the question that would be next. -/
def run (c : Nat → Circumstance) (n : Nat) : Program α → World → Nat × World × α
  | .done a, w => (n, w, a)
  | .ask a next, w =>
    let (w, x) := w.answer (c n) a
    run c (n + 1) (next x) w

/-- Nothing tells a program to stop, and all peers are alike. -/
def calm (peer : Http.Attempt) : Nat → Circumstance := fun _ => ⟨false, peer⟩

/-- Runs a program to its end without interruption. -/
def perform (w : World) (peer : Http.Attempt) (p : Program α) : World × α :=
  (run (calm peer) 0 p w).2

theorem run_done (c : Nat → Circumstance) (n : Nat) (a : α) (w : World) :
    run c n (.done a) w = (n, w, a) := rfl

theorem run_bind (c : Nat → Circumstance) (n : Nat) (p : Program α) (f : α → Program β)
    (w : World) :
    run c n (p.bind f) w =
      run c (run c n p w).1 (f (run c n p w).2.2) (run c n p w).2.1 := by
  induction p generalizing n w with
  | done => rfl
  | ask a next ih => exact ih _ _ _

end World

end Dialogue
