import Dialogue.Flow.Basic
import Dialogue.Session

/-! # Transitions

What a node gives when it has run: what the bot says, where to go on, and the variables; and what
a customer sends to a node that waits. -/

namespace Dialogue.Turn

/-- What the customer sends to a node that waits. -/
inductive Reply where
  | text (s : String)
  | click (id label : String)
deriving DecidableEq, Repr

/-- Where a node goes on. -/
inductive Transition where
  /-- By a handle; the turn ends where no edge leaves by it. -/
  | next (h : Handle)
  /-- By a handle that has to have an edge. -/
  | branch (h : Handle)
  /-- By the plain edge or else the only one. -/
  | only
  /-- At a node, wherever it is. -/
  | jump (node : String)
  /-- Nowhere before the customer replies. -/
  | pause
  | handoff (queue : String) (reason : Option String)
  | close
  /-- Nowhere: no rule holds. -/
  | unmatched (text : String)
deriving DecidableEq, Repr

/-- What the bot says. -/
structure Utterance where
  text : String
  buttons : Option (List Button)
deriving DecidableEq, Repr

/-- What a node gives. -/
structure Output where
  utterances : List Utterance
  transition : Transition
  vars : Variables

/-- How the run of a node ends. -/
inductive Visit where
  /-- The turn was told to stop. -/
  | cut
  | failed (f : Failure)
  | finished (o : Output)

/-- The rest of the turn after a node, as far as the graph decides. -/
inductive Route where
  | go (node : String)
  | finish
  | pause
  | handoff (queue : String) (reason : Option String)
  | close
  | halt (kind : Halt.Kind) (text : String) (retryable : Bool)
deriving DecidableEq, Repr

/-- The route of a fault in the graph. -/
def Route.ofFault (f : Flow.Fault) : Route := .halt .graphIntegrity f.toFailure.message true

/-- The fault of a branch without an edge. -/
def missingRoute (node : String) (h : Handle) : Failure :=
  .plain .graph ("node '" ++ node ++ "' has no '" ++ h.key ++ "' route")

/-- Where the flow leads from a node by a transition. -/
def Transition.route (f : Flow) (node : String) : Transition → Route
  | .next h =>
    match f.next node h with
    | .ok (some target) => .go target
    | .ok none => .finish
    | .error e => .ofFault e
  | .branch h =>
    match f.next node h with
    | .ok (some target) => .go target
    | .ok none => .halt .graphIntegrity (missingRoute node h).message true
    | .error e => .ofFault e
  | .only =>
    match f.nextSingle node with
    | .ok (some target) => .go target
    | .ok none => .finish
    | .error e => .ofFault e
  | .jump target => .go target
  | .pause => .pause
  | .handoff queue reason => .handoff queue reason
  | .close => .close
  | .unmatched text => .halt .unmatched text false

end Dialogue.Turn
