import Dialogue.Registry
import Dialogue.Turn.Basic

/-! # Commands

What can be asked of a session, and what it does then. A command to a closed session is refused, and
a command that does not suit the state of the session changes nothing. -/

namespace Dialogue

open Program Procedure Turn

/-- A request to one session. -/
inductive Command where
  /-- Run the flow from its start. -/
  | start
  /-- The customer wrote a text. -/
  | text (s : String)
  /-- The customer clicked a button. -/
  | click (id label : String)
  /-- End the session, whatever it does. -/
  | close
  /-- Run the node again that a turn was about to run when it was cut. -/
  | recover
  /-- An agent takes the session. -/
  | assign (agent : String)
  /-- The flow gets the session back, at a node or at its start. -/
  | giveBack (node : Option String)
deriving DecidableEq, Repr

namespace Command

/-- Why a session refuses a command. -/
inductive Refusal where
  | closed
  /-- No human owns it. -/
  | notQueued
  /-- It waits for nothing. -/
  | notWaiting
  /-- No turn of it was cut. -/
  | notInterrupted
  /-- The node that waits has no buttons. -/
  | noButtons (node : String)
  /-- There is no such node to go to. -/
  | noNode (node flow : String)
deriving DecidableEq, Repr

/-- The text that tells the refusal. -/
def Refusal.message (session : String) : Refusal → String
  | .closed => "session '" ++ session ++ "' is closed"
  | .notQueued => "session '" ++ session ++ "' is not queued"
  | .notWaiting => "session '" ++ session ++ "' is not waiting for a reply"
  | .notInterrupted => "session '" ++ session ++ "' has no interrupted turn"
  | .noButtons node => "node '" ++ node ++ "' does not offer buttons"
  | .noNode node flow => missingText node flow

/-- Refuses a command. -/
def refuse {α : Type} (session : String) (r : Refusal) : Procedure α :=
  throw (.plain .session (r.message session))

/-- The session is in the hands of humans. -/
def isQueued (s : Session) : Bool := s.status = .waiting || s.status = .open

/-! ### Parts of commands -/

variable (settings : Settings) (sid : String)

/-- Runs a turn on a flow. While it runs it can be told to stop. -/
def turn (s : Session) (f : Flow) (st : Turn.Step) : Procedure Report := do
  question .openTurn
  let sc : Scene := ⟨sid, f, settings⟩
  let report : Outcome Report ← (sc.turn { s with flowVersion := f.version } st).run
  question .closeTurn
  ExceptT.mk (pure report)

/-- Keeps what the customer wrote. -/
def record (s : Session) (text : String) : Procedure Session := do
  let m : Message := ⟨← fresh .message, .user, text, none, ← now⟩
  let s := { s with messages := s.messages ++ [m], updateTime := m.timestamp }
  saveSession s
  deliver (.append sid m)
  return s

/-- The flow on which a session goes on that waits at a node. -/
def resumeFlow (s : Session) (node : String) : Procedure Flow := do
  match settings.engine.binding with
  | .pinned => Registry.version s.flowId s.flowVersion
  | .latest =>
    let latest ← Registry.published s.flowId
    if (latest.node? node).isSome then return latest
    else Registry.version s.flowId s.flowVersion

/-! ### Commands -/

/-- Opens a session on the live version of a flow and tells its identity. -/
def openSession (flow : String) : Procedure String := do
  let f ← Registry.published flow
  let id ← fresh .session
  createSession (.new id flow f.version (← now))
  return id

/-- Runs the flow from its start. -/
def startSession (s : Session) : Procedure Report := do
  let f ← Registry.version s.flowId s.flowVersion
  emitSession sid f.start .started
  turn settings sid s f (.run f.start)

/-- Takes up the turn with a text of the customer: a reply, or a word to try again. -/
def resumeText (s : Session) (node text : String) (st : Turn.Step) : Procedure Report := do
  let f ← resumeFlow settings s node
  let s ← record sid s text
  emitSession sid node .resumed
  turn settings sid s f st

/-- Passes a text of the customer on. -/
def submitText (s : Session) (text : String) : Procedure Report := do
  if isQueued s then
    return ⟨← record sid s text, .relayed, 0⟩
  match s.currentNode, s.halt with
  | some node, _ => resumeText settings sid s node text (.resume node (.text text))
  | none, some h =>
    if h.retryable then resumeText settings sid s h.nodeId text (.run h.nodeId)
    else refuse sid .notWaiting
  | none, none => refuse sid .notWaiting

/-- Passes a click of the customer on. -/
def submitClick (s : Session) (id label : String) : Procedure Report := do
  match s.currentNode.filter fun _ => s.isPaused with
  | none => refuse sid .notWaiting
  | some node =>
    let f ← resumeFlow settings s node
    if (f.node? node).all (·.kind ≠ .template) then refuse sid (.noButtons node)
    let s ← record sid s label
    emitSession sid node .resumed
    turn settings sid s f (.resume node (.click id label))

/-- Ends the session. -/
def closeSession (s : Session) : Procedure Report := do
  let s := { s with
    status := .closed, currentNode := none, pendingNode := none, updateTime := ← now }
  saveSession s
  deliver (.close sid)
  emitSession sid "" .closed
  return ⟨s, .closed, 0⟩

/-- Runs the node again that a cut turn was about to run. -/
def recoverSession (s : Session) : Procedure Report := do
  match s.pendingNode with
  | none => refuse sid .notInterrupted
  | some node =>
    let f ← Registry.version s.flowId s.flowVersion
    turn settings sid s f (.run node)

/-- Gives the session to an agent. -/
def assignAgent (s : Session) (agent : String) : Procedure Report := do
  if !isQueued s then refuse sid .notQueued
  let s := { s with status := .open, agentId := some agent, updateTime := ← now }
  saveSession s
  return ⟨s, .assigned, 0⟩

/-- Gives the session back to the live flow. -/
def returnToFlow (s : Session) (node : Option String) : Procedure Report := do
  if !isQueued s then refuse sid .notQueued
  let f ← Registry.published s.flowId
  let target := node.getD f.start
  if (f.node? target).isNone then refuse sid (.noNode target s.flowId)
  let s := { s with status := .bot, queue := none, agentId := none }
  emitSession sid target .resumed
  turn settings sid s f (.run target)

/-- What a session does by a command. -/
def handle (c : Command) : Procedure Report := do
  let s ← loadSession sid
  if s.isClosed then refuse sid .closed
  match c with
  | .start => startSession settings sid s
  | .text t => submitText settings sid s t
  | .click id label => submitClick settings sid s id label
  | .close => closeSession sid s
  | .recover => recoverSession settings sid s
  | .assign agent => assignAgent sid s agent
  | .giveBack node => returnToFlow settings sid s node

end Command

end Dialogue
