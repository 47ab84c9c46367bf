import Dialogue.Command
import Dialogue.Engine.World
import Dialogue.Queue

/-! # Processes

The process of a session takes its commands one after the other out of a bounded queue. Once it has
answered a command and no other one waits it retires. A process that is told to stop takes no more
commands and refuses those that wait. -/

namespace Dialogue

/-- A command with the number of the call that waits for its answer. -/
structure Pending where
  call : Nat
  command : Command
deriving DecidableEq

/-- What a process does. -/
inductive Process.Work where
  /-- It waits for a command, or for the word to stop. -/
  | idle
  /-- It works on the command of a call; this is what is left to do. -/
  | busy (call : Nat) (rest : Program (Outcome Turn.Report))
  /-- It has answered and is about to see whether it can retire. -/
  | answered
  /-- It was told to stop and refuses what waits. -/
  | draining
  | finished

/-- The process of a session. -/
structure Process where
  session : String
  queue : BoundedQueue Pending
  work : Process.Work
  /-- It takes no more commands. -/
  retired : Bool
  /-- It was told to stop. -/
  stopped : Bool
  /-- While a turn runs: whether the turn was told to stop. -/
  abort : Option Bool
  /-- The time at which the wait ends in which the program is. -/
  wake : Option Nat

namespace Process

/-- The number of commands that may wait. -/
def queueSize : Nat := 100

/-- What a call is told if too many commands wait. -/
def crowded (session : String) : Failure :=
  .plain .queue ("too many pending events for session '" ++ session ++ "'")

/-- What the commands are told that wait when the process stops. -/
def stopping : Failure := .plain .engine "engine is shutting down"

/-- A new process. -/
def new (session : String) : Process :=
  ⟨session, .empty queueSize, .idle, false, false, none, none⟩

/-- Tells the turn that runs to stop, if there is one. -/
def abortTurn (p : Process) : Process := { p with abort := p.abort.map fun _ => true }

/-- Tells the process to stop, and the turn that runs. -/
def stop (p : Process) : Process := { p.abortTurn with stopped := true }

/-- The turn that runs was told to stop. -/
def isAborted (p : Process) : Bool := p.abort = some true

/-- What taking a command comes to. -/
inductive Intake where
  /-- The process has retired. -/
  | gone
  /-- Too many commands wait. -/
  | full
  | accepted (p : Process)

/-- Lets a command wait. -/
def enqueue (p : Process) (x : Pending) : Intake :=
  if p.retired then .gone
  else match p.queue.send? x with
    | none => .full
    | some queue => .accepted { p with queue }

/-- Retires unless a command waits. -/
def retireIfIdle (p : Process) : Process :=
  if p.queue.isEmpty then { p with work := .finished, retired := true }
  else { p with work := .idle }

/-- What a step of a process leads to. -/
structure Effect where
  process : Process
  world : World
  /-- The call that is answered, with the answer. -/
  reply : Option (Nat × Outcome Turn.Report)
  /-- The process has retired by itself, of which the engine is told. -/
  retires : Bool

/-- An effect on the process and the world alone. -/
def Effect.quiet (process : Process) (world : World) : Effect := ⟨process, world, none, false⟩

/-- Puts one question of its program, and goes on by the answer. There is no step while a wait
lasts. -/
def ask (p : Process) (w : World) (time : Nat) (peer : Http.Attempt) (call : Nat) :
    (a : Ask) → (a.Answer → Program (Outcome Turn.Report)) → Option Effect
  | .openTurn, next => some (.quiet { p with abort := some false, work := .busy call (next ()) } w)
  | .closeTurn, next => some (.quiet { p with abort := none, work := .busy call (next ()) } w)
  | .wait (.delay d), next =>
    match p.wake with
    | none => some (.quiet { p with wake := some (time + d) } w)
    | some wake =>
      if p.isAborted || wake ≤ time then
        some (.quiet { p with wake := none, work := .busy call (next !p.isAborted) } w)
      else none
  | a, next =>
    let (w, x) := w.answer ⟨p.isAborted, peer⟩ a
    some (.quiet { p with work := .busy call (next x) } w)

/-- A step of the process, if it can make one: at a time, with a peer that comes up with an answer.
Where it was told to stop and a command waits it may `heed` the one or the other. -/
def step (p : Process) (settings : Settings) (w : World) (time : Nat) (peer : Http.Attempt)
    (heed : Bool) : Option Effect :=
  match p.work with
  | .idle =>
    if p.stopped && heed then some (.quiet { p with work := .draining, retired := true } w)
    else p.queue.next?.map fun (x, queue) =>
      .quiet { p with queue, work := .busy x.call (Command.handle settings p.session x.command) } w
  | .busy call (.done r) => some ⟨{ p with work := .answered }, w, some (call, r), false⟩
  | .busy call (.ask a next) => p.ask w time peer call a next
  | .answered => some ⟨p.retireIfIdle, w, none, p.queue.isEmpty⟩
  | .draining =>
    match p.queue.next? with
    | some (x, queue) => some ⟨{ p with queue }, w, some (x.call, .error stopping), false⟩
    | none => some (.quiet { p with work := .finished } w)
  | .finished => none

end Process

end Dialogue
