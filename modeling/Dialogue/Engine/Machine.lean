import Dialogue.Engine.Process

/-! # The engine at work

The state of an engine with its sessions' processes and the calls that users have made, and the
single steps by which it changes. Which step comes next is chosen from outside, so every order in
which calls, processes and the sweeper can take turns is a list of choices. -/

namespace Dialogue

/-- A command for a session. -/
structure Order where
  session : String
  command : Command
deriving DecidableEq

/-- What a user asks for. -/
inductive Request where
  /-- A new session on the live version of a flow. -/
  | start (flow : String)
  | order (o : Order)

/-- How far a call has come. -/
inductive Call where
  /-- It asks for a new session. -/
  | starting (flow : String)
  /-- The session is being opened. -/
  | opening (rest : Program (Outcome String))
  | arriving (o : Order)
  /-- It is about to look for the process of the session. -/
  | seeking (o : Order)
  /-- The engine runs; the process is looked up, or started. -/
  | finding (o : Order)
  /-- It is about to hand its command to the process of that number. -/
  | posting (o : Order) (process : Nat)
  /-- Its command was taken. -/
  | waiting
  | answered (r : Outcome Turn.Report)

/-- The state of an engine. -/
structure Machine where
  settings : Settings
  world : World
  /-- All processes that were ever started, by number. -/
  processes : List Process
  /-- The numbers of the processes at hand, by session. -/
  atHand : List (String × Nat)
  /-- The sessions whose processes have retired and wait to be dropped. -/
  notices : BoundedQueue String
  /-- All calls that were ever made, by number. -/
  calls : List Call
  running : Bool
  /-- It was shut down before, which the sweeper is told, also after another launch. -/
  wasShut : Bool
  time : Nat

/-- Which step the engine makes next. -/
inductive Choice where
  /-- The call of that number goes on. -/
  | call (n : Nat)
  /-- The process of that number goes on: see `Process.step`. -/
  | process (n : Nat) (peer : Http.Attempt) (heed : Bool)
  /-- The sweeper drops a process that has retired. Where the engine was shut down it may `heed`
  that or a notice. -/
  | sweep (heed : Bool)

namespace Machine

/-- The number of notices that may wait. -/
def noticeSize : Nat := 1024

/-- An engine that was not launched yet. -/
def new (settings : Settings) (w : World) : Machine :=
  ⟨settings, w, [], [], .empty noticeSize, [], false, false, 0⟩

/-- What is told to those who need a running engine. -/
def notRunning : Failure := .plain .engine "Engine is not running"

/-- What is told of a session that does not exist. -/
def noSession (id : String) : Failure := .plain .session ("session '" ++ id ++ "' not found")

/-! ### Calls -/

/-- A new call. -/
def submit (m : Machine) (r : Request) : Machine :=
  let call : Call := match r with
    | .start flow => .starting flow
    | .order o => .arriving o
  { m with calls := m.calls ++ [call] }

/-- The machine with a call that has come further. -/
def setCall (m : Machine) (n : Nat) (c : Call) : Machine := { m with calls := m.calls.set n c }

/-- The machine with another state of a process. -/
def setProcess (m : Machine) (n : Nat) (p : Process) : Machine :=
  { m with processes := m.processes.set n p }

/-- The process at hand for a session, with its number. -/
def process? (m : Machine) (session : String) : Option (Nat × Process) := do
  let n ← m.atHand.lookup session
  return (n, ← m.processes[n]?)

/-- Tells the turn of a session to stop, if one runs. -/
def abortTurn (m : Machine) (session : String) : Machine :=
  match m.process? session with
  | some (n, p) => m.setProcess n p.abortTurn
  | none => m

/-- Starts a process for a session. -/
def startProcess (m : Machine) (session : String) : Machine :=
  { m with
    processes := m.processes ++ [.new session]
    atHand := (session, m.processes.length) :: m.atHand.filter (·.1 ≠ session) }

/-- Lets a call go on to its next stage if the engine runs. -/
def ifRunning (m : Machine) (n : Nat) (next : Call) : Machine :=
  m.setCall n (if m.running then next else .answered (.error notRunning))

/-- A call whose command arrives; a command to close stops the turn that runs. -/
def arrive (m : Machine) (n : Nat) (o : Order) : Machine :=
  let m := if o.command = .close then m.abortTurn o.session else m
  match m.world.store.access m.world.store.sessions with
  | .error f => m.ifRunning n (.answered (.error f))
  | .ok sessions =>
    m.ifRunning n <|
      if sessions.exists? o.session then .seeking o else .answered (.error (noSession o.session))

/-- A call that finds the process of its session, or starts one. -/
def findProcess (m : Machine) (n : Nat) (o : Order) : Machine :=
  match m.process? o.session with
  | some (k, p) =>
    if p.retired then (m.startProcess o.session).setCall n (.posting o m.processes.length)
    else m.setCall n (.posting o k)
  | none => (m.startProcess o.session).setCall n (.posting o m.processes.length)

/-- A call that hands its command to a process. -/
def post (m : Machine) (n : Nat) (o : Order) (k : Nat) : Option Machine := do
  let p ← m.processes[k]?
  match p.enqueue ⟨n, o.command⟩ with
  | .gone => return m.setCall n (.seeking o)
  | .full => return m.setCall n (.answered (.error (Process.crowded o.session)))
  | .accepted p => return (m.setProcess k p).setCall n .waiting

/-- The next step of a call. -/
def stepCall (m : Machine) (n : Nat) : Option Machine := do
  match ← m.calls[n]? with
  | .starting flow => return m.ifRunning n (.opening (Command.openSession flow).run)
  | .opening (.ask a next) =>
    let (world, x) := m.world.answer ⟨false, .unreachable⟩ a
    return { m with world }.setCall n (.opening (next x))
  | .opening (.done (.ok session)) => return m.setCall n (.arriving ⟨session, .start⟩)
  | .opening (.done (.error f)) => return m.setCall n (.answered (.error f))
  | .arriving o => return m.arrive n o
  | .seeking o => return m.ifRunning n (.finding o)
  | .finding o => return m.findProcess n o
  | .posting o k => m.post n o k
  | .waiting | .answered _ => none

/-! ### Processes -/

/-- Gives a call its answer. -/
def reply (m : Machine) (r : Option (Nat × Outcome Turn.Report)) : Machine :=
  match r with
  | some (n, r) => m.setCall n (.answered r)
  | none => m

/-- Leaves a notice that the process of a session has retired, if there is room for it. -/
def notice (m : Machine) (session : String) : Machine :=
  match m.notices.send? session with
  | some notices => { m with notices }
  | none => m

/-- The next step of a process. -/
def stepProcess (m : Machine) (n : Nat) (peer : Http.Attempt) (heed : Bool) : Option Machine := do
  let p ← m.processes[n]?
  let e ← p.step m.settings m.world m.time peer heed
  let m := ({ m with world := e.world }.setProcess n e.process).reply e.reply
  return if e.retires then m.notice p.session else m

/-- Takes a notice and drops the process of the session from those at hand, if it has retired. -/
def sweep (m : Machine) (heed : Bool) : Option Machine := do
  if m.wasShut && heed then none
  let (session, notices) ← m.notices.next?
  let m := { m with notices }
  match m.process? session with
  | some (_, p) =>
    return if p.retired then { m with atHand := m.atHand.filter (·.1 ≠ session) } else m
  | none => return m

/-! ### Steps -/

/-- The machine after a step, if the step can be made. -/
def step (m : Machine) : Choice → Option Machine
  | .call n => m.stepCall n
  | .process n peer heed => m.stepProcess n peer heed
  | .sweep heed => m.sweep heed

/-- Tells a process to stop. -/
def stop (m : Machine) (n : Nat) : Machine :=
  match m.processes[n]? with
  | some p => m.setProcess n p.stop
  | none => m

/-- Starts to take commands. -/
def launch (m : Machine) : Machine := { m with running := true }

/-- Takes no more commands and stops the processes at hand. -/
def shutDown (m : Machine) : Machine :=
  if m.running then
    m.atHand.foldl (fun m e => m.stop e.2) { m with running := false, wasShut := true }
  else m

/-- Lets time pass. -/
def pass (m : Machine) (duration : Nat) : Machine := { m with time := m.time + duration }

end Machine

end Dialogue
