import Dialogue.Event.Subscription
import Dialogue.Flow.Basic
import Dialogue.Http.Request
import Dialogue.Store.Basic

/-! # Programs

What the engine does for a session is written as a program: a tree that asks the world one question
after the other and goes on by the answers. So a program can be answered step by step, be cut
between two questions, and take turns with other programs.

* `Program.bind_assoc`, `Program.bind_done`: programs are put behind each other as lists are. -/

namespace Dialogue

/-- What the chat backend is told. -/
inductive Delivery where
  | append (session : String) (m : Message)
  /-- The variables that a node changed. -/
  | persist (session : String) (delta : Variables)
  | transfer (session queue : String) (reason : Option String)
  | close (session : String)
deriving DecidableEq

/-- What a program can wait for. -/
inductive Wait where
  | delay (duration : Nat)
  /-- The end of a script. -/
  | script
deriving DecidableEq, Repr

/-- The sorts of things that are given identities. -/
inductive Identity where
  | flow | session | message
deriving DecidableEq, Repr

/-- A question to the world. -/
inductive Ask where
  | loadSession (id : String)
  | sessionStatus (id : String)
  | createSession (s : Session)
  | saveSession (s : Session)
  | loadFlow (id : String)
  | saveFlow (d : Definition)
  | loadVersion (flow : String) (version : Nat)
  | saveVersion (flow : String) (version : Nat) (g : Graph) (now : Millis)
  | loadSchedule (id : String)
  /-- A compiled version that is at hand. -/
  | cached (key : String)
  | remember (key : String) (f : Flow)
  | now
  /-- An identity that nothing has yet. -/
  | fresh (i : Identity)
  | deliver (d : Delivery)
  | emit (s : Signal)
  /-- From here on the program can be told to stop. -/
  | openTurn
  | closeTurn
  /-- The program was told to stop. -/
  | isAborted
  /-- Waits; the answer is whether the wait went to its end. -/
  | wait (w : Wait)
  /-- Sends a request; there is no answer if the program was told to stop meanwhile. -/
  | exchange (r : Http.Request)

namespace Ask

/-- The answers to a question. -/
abbrev Answer : Ask → Type
  | loadSession _ => Outcome Session
  | sessionStatus _ => Outcome Status
  | createSession _ | saveSession _ | saveFlow _ | saveVersion _ _ _ _ => Outcome Unit
  | loadFlow _ => Outcome Definition
  | loadVersion _ _ => Outcome Graph
  | loadSchedule _ => Outcome Schedule
  | cached _ => Option Flow
  | remember _ _ | deliver _ | emit _ | openTurn | closeTurn => Unit
  | now => Instant
  | fresh _ => String
  | isAborted | wait _ => Bool
  | exchange _ => Option Http.Attempt

end Ask

/-- A program with its result. -/
inductive Program (α : Type) where
  | done (a : α)
  | ask (a : Ask) (next : a.Answer → Program α)

namespace Program

variable {α β γ : Type}

/-- The program that goes on as another one that depends on the result. -/
def bind : Program α → (α → Program β) → Program β
  | .done a, f => f a
  | .ask a next, f => .ask a fun x => (next x).bind f

instance : Monad Program where
  pure := .done
  bind := bind

/-- Asks one question. -/
def question (a : Ask) : Program a.Answer := .ask a .done

theorem bind_done (p : Program α) : p.bind .done = p := by
  induction p with
  | done => rfl
  | ask a next ih => simp only [bind, ih]

theorem bind_assoc (p : Program α) (f : α → Program β) (g : β → Program γ) :
    (p.bind f).bind g = p.bind fun a => (f a).bind g := by
  induction p with
  | done => rfl
  | ask a next ih => simp only [bind, ih]

instance : LawfulMonad Program :=
  LawfulMonad.mk' Program bind_done (fun _ _ => rfl) bind_assoc

end Program

/-- A program that may fail. -/
abbrev Procedure (α : Type) := ExceptT Failure Program α

namespace Procedure

/-- Asks a question whose answer may be a failure. -/
def tried {α : Type} (p : Program (Outcome α)) : Procedure α := ExceptT.mk p

/-- The session of that identity. -/
def loadSession (id : String) : Procedure Session := tried (.question (.loadSession id))

/-- The status of a session. -/
def sessionStatus (id : String) : Procedure Status := tried (.question (.sessionStatus id))

/-- Keeps a new session. -/
def createSession (s : Session) : Procedure Unit := tried (.question (.createSession s))

/-- Keeps a session. -/
def saveSession (s : Session) : Procedure Unit := tried (.question (.saveSession s))

/-- The flow of that identity. -/
def loadFlow (id : String) : Procedure Definition := tried (.question (.loadFlow id))

/-- Keeps a flow. -/
def saveFlow (d : Definition) : Procedure Unit := tried (.question (.saveFlow d))

/-- The graph of a published version. -/
def loadVersion (flow : String) (version : Nat) : Procedure Graph :=
  tried (.question (.loadVersion flow version))

/-- Keeps a graph as a new version. -/
def saveVersion (flow : String) (version : Nat) (g : Graph) (now : Millis) : Procedure Unit :=
  tried (.question (.saveVersion flow version g now))

/-- The schedule of that identity. -/
def loadSchedule (id : String) : Procedure Schedule := tried (.question (.loadSchedule id))

end Procedure

namespace Program

/-- The time to the nanosecond. -/
def instant : Program Instant := question .now

/-- The time. -/
def now : Program Millis := .ask .now fun t => .done t.millis

/-- A new identity. -/
def fresh (i : Identity) : Program String := question (.fresh i)

/-- Tells the chat backend. -/
def deliver (d : Delivery) : Program Unit := question (.deliver d)

/-- Tells an event. -/
def emit (session node : String) (c : Event.Content) : Program Unit :=
  question (.emit (.event ⟨session, node, c⟩))

/-- Tells an event of a session. -/
def emitSession (session node : String) (e : SessionEvent) : Program Unit :=
  emit session node (.session e)

/-- Tells an event of a node with the time. -/
def emitNode (session node : String) (e : Millis → NodeEvent) : Program Unit := do
  emit session node (.node (e (← now)))

/-- Writes a line to the log. -/
def log (session node text : String) : Program Unit := do
  question (.emit (.log ⟨session, node, text, ← now⟩))

/-- Whether the program was told to stop. -/
def isAborted : Program Bool := question .isAborted

/-- Waits; the answer is whether the wait went to its end. -/
def wait (w : Wait) : Program Bool := question (.wait w)

end Program

end Dialogue
