import Dialogue.Event.Basic
import Dialogue.Failure
import Dialogue.Glob

/-! # Subscriptions

Listeners to events or log lines of the sessions and nodes that two patterns pick. -/

namespace Dialogue

/-- What a listener wants to hear. -/
inductive Subscription.Topic where
  /-- All events. -/
  | events
  /-- That the graph gave a session away. -/
  | completions
  /-- That a turn stopped on a diagnosis. -/
  | halts
  /-- All lines of the log. -/
  | logs
deriving DecidableEq, Repr

/-- A listener. -/
structure Subscription where
  topic : Subscription.Topic
  session : Glob
  node : Glob

/-- Something that a listener may hear. -/
inductive Signal where
  | event (e : Event)
  | log (l : LogLine)
deriving DecidableEq, Repr

namespace Subscription

/-- The pattern that a text writes, or the engine's complaint about it. -/
def pattern (s : String) : Outcome Glob :=
  (Glob.ofText s).mapError fun d =>
    .plain .engine ("invalid channel pattern '" ++ s ++ "': error parsing glob '" ++ s ++ "': " ++
      d.message)

/-- A listener to a topic, for the sessions and nodes that two patterns pick. -/
def new (topic : Topic) (session node : String) : Outcome Subscription := do
  return ⟨topic, ← pattern session, ← pattern node⟩

/-- Both patterns pick the pair. -/
def picks (s : Subscription) (session node : String) : Bool :=
  s.session.accepts session && s.node.accepts node

/-- The listener hears the signal. -/
def hears (s : Subscription) : Signal → Bool
  | .event e =>
    s.picks e.session e.node &&
      match s.topic with
      | .events => true
      | .completions => e.content.isComplete
      | .halts => e.content.isHalt
      | .logs => false
  | .log l => s.topic = .logs && s.picks l.session l.node

/-- The signals that the listener hears, in their order. -/
def heard (s : Subscription) (signals : List Signal) : List Signal := signals.filter s.hears

end Subscription

end Dialogue
