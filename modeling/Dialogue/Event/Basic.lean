import Dialogue.Calendar
import Dialogue.Text.Quoted

/-! # Events

What the engine tells about a session while it works on it: events of the session, events of a
node, and lines of the log. -/

namespace Dialogue

/-- Something that happened to a session. -/
inductive SessionEvent where
  | started
  /-- It waits for the customer. -/
  | paused
  | resumed
  /-- It was handed to a queue. -/
  | handoff (queue : String)
  | closed
  /-- Its turn stopped on a diagnosis. -/
  | halted (diagnosis : String)
  /-- It came to a node without a way on. -/
  | ended
deriving DecidableEq, Repr

/-- Something that happened to a node, with the time where there is no text. -/
inductive NodeEvent where
  | running (time : Millis)
  | succeeded (time : Millis)
  /-- The turn was cut while the node ran. -/
  | stopped (time : Millis)
  | error (text : String)
deriving DecidableEq, Repr

/-- What an event tells. -/
inductive Event.Content where
  | session (e : SessionEvent)
  | node (e : NodeEvent)
deriving DecidableEq, Repr

/-- An event of a session at one of its nodes; some have no node. -/
structure Event where
  session : String
  node : String
  content : Event.Content
deriving DecidableEq, Repr

/-- A line that a node writes to the log. -/
structure LogLine where
  session : String
  node : String
  text : String
  time : Millis
deriving DecidableEq, Repr

namespace SessionEvent

/-- The name of the event. -/
def name : SessionEvent → String
  | .started => "Started"
  | .paused => "Paused"
  | .resumed => "Resumed"
  | .handoff _ => "Handoff"
  | .closed => "Closed"
  | .halted _ => "Halted"
  | .ended => "Ended"

/-- The event with what it carries. -/
def shown : SessionEvent → String
  | .handoff s => "Handoff(" ++ Text.quoted s ++ ")"
  | .halted s => "Halted(" ++ Text.quoted s ++ ")"
  | e => e.name

end SessionEvent

namespace NodeEvent

/-- The name of the event. -/
def name : NodeEvent → String
  | .running _ => "Running"
  | .succeeded _ => "Succeeded"
  | .stopped _ => "Stopped"
  | .error _ => "Error"

/-- The event with what it carries. -/
def shown (e : NodeEvent) : String :=
  match e with
  | .running t | .succeeded t | .stopped t => e.name ++ "(" ++ toString t ++ ")"
  | .error s => e.name ++ "(" ++ Text.quoted s ++ ")"

end NodeEvent

namespace Event.Content

/-- The name of the event, as it is stored. -/
def name : Content → String
  | .session e => "Session" ++ e.name
  | .node e => "Node" ++ e.name

/-- The event with what it carries, as it is stored. -/
def shown : Content → String
  | .session e => "Session(" ++ e.shown ++ ")"
  | .node e => "Node(" ++ e.shown ++ ")"

/-- The graph no longer owns the session. -/
def isComplete : Content → Bool
  | .session (.handoff _) | .session .closed => true
  | _ => false

/-- The turn stopped on a diagnosis. -/
def isHalt : Content → Bool
  | .session (.halted _) => true
  | _ => false

end Event.Content

end Dialogue
