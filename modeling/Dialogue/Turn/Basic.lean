import Dialogue.Turn.Visit

/-! # Turns

A turn runs one node after the other, from where it begins until the session pauses, leaves the
graph, halts or runs out of edges. After each node the session is kept and the chat backend is told.
What goes wrong in a node becomes a halt of the session with a diagnosis for the customer; only a
reply that does not fit the node, or a failing store, makes the turn itself fail.

* `walk_succ`: with a node left in the budget a turn is the step of that node, and then either over
  or a turn with one node less. -/

namespace Dialogue.Turn

open Program Procedure

/-- How a command ended. -/
inductive Ending where
  /-- A node waits for the customer. -/
  | paused
  /-- A queue owns the session now. -/
  | handoff
  | closed
  /-- The turn stopped on a diagnosis. -/
  | halted
  /-- The turn came to a node without a way on. -/
  | ended
  /-- The turn was cut; nothing was kept after that. -/
  | aborted
  /-- A text was passed to the human who owns the session. -/
  | relayed
  /-- An agent took the session. -/
  | assigned
deriving DecidableEq, Repr

/-- What a command came to. -/
structure Report where
  session : Session
  ending : Ending
  /-- The number of nodes that ran. -/
  steps : Nat
deriving DecidableEq

/-- Where a turn begins. -/
inductive Step where
  /-- The node runs from scratch. -/
  | run (node : String)
  /-- The node that waits gets a reply. -/
  | resume (node : String) (reply : Reply)
deriving DecidableEq, Repr

/-- The node of a step. -/
def Step.node : Step → String
  | .run node | .resume node _ => node

/-- What one node makes of a turn. -/
inductive Progress where
  /-- The turn goes on at a node. -/
  | on (s : Session) (next : String)
  | done (r : Report)

/-! ### Changes of the session -/

/-- The session as a turn takes it up: it waits for nothing any more. -/
def begun (s : Session) : Session := { s with halt := none, currentNode := none }

/-- The session after a node, which said something, left variables and leads on by a route. -/
def after (s : Session) (node : String) (vars : Variables) (spoken : List Message) (r : Route) :
    Session :=
  let s := { s with vars, messages := s.messages ++ spoken, pendingNode := none }
  match r with
  | .go next => { s with pendingNode := some next }
  | .pause => { s with currentNode := some node }
  | .handoff queue _ => { s with status := .waiting, queue := some queue }
  | .close => { s with status := .closed }
  | .finish | .halt _ _ _ => s

/-- The session after a halt, of which the customer is told. -/
def haltedBy (s : Session) (h : Halt) (diagnosis : Message) : Session :=
  { s with
    messages := s.messages ++ [diagnosis], halt := some h, pendingNode := none,
    currentNode := none }

/-- The text of a halt because the budget is used up. -/
def budgetText (budget : Nat) : String :=
  "turn stopped after " ++ toString budget ++ " nodes without waiting for the customer"

/-- The text of a halt because there is no such node. -/
def missingText (node flow : String) : String :=
  "node '" ++ node ++ "' not found in flow '" ++ flow ++ "'"

/-- The kind of halt that a failure of a node leads to. -/
def haltKind : Failure → Halt.Kind
  | .plain .script _ => .script
  | _ => .graphIntegrity

/-! ### Keeping and telling -/

/-- A message of the bot. -/
def botMessage (u : Utterance) : Program Message := do
  return ⟨← fresh .message, .bot, u.text, u.buttons, ← now⟩

/-- Keeps the session and tells the chat backend, and gives the session as it is kept. Nothing
happens if the turn was told to stop or the session was closed meanwhile. -/
def commit (s : Session) (spoken : List Message) (delta : Variables) :
    Procedure (Option Session) := do
  if ← isAborted then return none
  if (← sessionStatus s.id) = .closed then return none
  let s := { s with updateTime := ← now }
  saveSession s
  (spoken.forM fun m => deliver (.append s.id m) : Program Unit)
  unless delta.isEmpty do deliver (.persist s.id delta)
  return some s

namespace Scene

variable (sc : Scene)

/-- Ends the turn with a halt. -/
def stop (s : Session) (h : Halt) (steps : Nat) : Procedure Report := do
  let diagnosis ← botMessage ⟨sc.settings.messages.diagnosticPrefix ++ " " ++ h.message, none⟩
  let s := haltedBy s h diagnosis
  match ← commit s [diagnosis] [] with
  | none => return ⟨s, .aborted, steps⟩
  | some s =>
    emitSession sc.session h.nodeId (.halted h.message)
    return ⟨s, .halted, steps⟩

/-- Goes where a node leads, once its changes are kept. -/
def follow (s : Session) (node : String) (r : Route) (steps : Nat) : Procedure Progress := do
  match r with
  | .go next => return .on s next
  | .finish =>
    emitSession sc.session node .ended
    return .done ⟨s, .ended, steps⟩
  | .pause =>
    emitSession sc.session node .paused
    return .done ⟨s, .paused, steps⟩
  | .handoff queue reason =>
    deliver (.transfer s.id queue reason)
    emitSession sc.session node (.handoff queue)
    return .done ⟨s, .handoff, steps⟩
  | .close =>
    deliver (.close s.id)
    emitSession sc.session node .closed
    return .done ⟨s, .closed, steps⟩
  | .halt kind text retryable =>
    return .done (← sc.stop s ⟨node, kind, text, retryable⟩ steps)

/-- Keeps what a node gave and goes where it leads. -/
def conclude (s : Session) (node : String) (o : Output) (steps : Nat) : Procedure Progress := do
  let route := o.transition.route sc.flow node
  let spoken ← (o.utterances.mapM botMessage : Program (List Message))
  let delta := Variables.delta s.vars o.vars
  let s := after s node o.vars spoken route
  match ← commit s spoken delta with
  | none =>
    emitNode sc.session node .stopped
    return .done ⟨s, .aborted, steps⟩
  | some s =>
    emitNode sc.session node .succeeded
    sc.follow s node route steps

/-- What the node does in this step. -/
def visit (n : Flow.Node) (st : Step) (vars : Variables) : Program Visit := do
  if ← isAborted then return .cut
  match st with
  | .run node => sc.run node n.action vars
  | .resume node reply => sc.resume node n.action reply vars

/-- Runs the node of a step; it is the node number `steps` of the turn. -/
def advance (s : Session) (st : Step) (steps : Nat) : Procedure Progress := do
  let node := st.node
  match sc.flow.node? node with
  | none =>
    return .done (← sc.stop s ⟨node, .graphIntegrity, missingText node sc.flow.id, false⟩ steps)
  | some n =>
    emitNode sc.session node .running
    match ← (sc.visit n st s.vars : Program Visit) with
    | .cut =>
      emitNode sc.session node .stopped
      return .done ⟨s, .aborted, steps⟩
    | .failed f =>
      if f.isSession then throw f
      emit sc.session node (.node (.error f.message))
      return .done (← sc.stop s ⟨node, haltKind f, f.message, true⟩ steps)
    | .finished o => sc.conclude s node o steps

/-- Walks the graph from a step with a budget of nodes, after as many as `steps`. -/
def walk : Nat → Nat → Session → Step → Procedure Report
  | 0, steps, s, st =>
    sc.stop s ⟨st.node, .stepBudget, budgetText sc.settings.engine.maxSteps, false⟩ steps
  | budget + 1, steps, s, st => do
    match ← sc.advance s st (steps + 1) with
    | .on s next => walk budget (steps + 1) s (.run next)
    | .done r => return r

/-- A turn of a session. -/
def turn (s : Session) (st : Step) : Procedure Report :=
  sc.walk sc.settings.engine.maxSteps 0 (begun s) st

theorem walk_succ (budget steps : Nat) (s : Session) (st : Step) :
    sc.walk (budget + 1) steps s st = (do
      match ← sc.advance s st (steps + 1) with
      | .on s next => sc.walk budget (steps + 1) s (.run next)
      | .done r => return r) := rfl

end Scene

end Dialogue.Turn
