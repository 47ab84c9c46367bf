import Dialogue.Command
import Dialogue.Proofs.Turn.Course

/-! # What commands set out to do

A command to a session that is not closed either changes the session at once, or it plans a turn,
for which what the customer said may be recorded first, or it is refused. Here this is said of the
session and of what the registry answers, without a world.

* `Plans`, `Direct`, `Refuses`: the turns that a command plans, its changes at once, its refusals.
* `Writes`, `Ends`, `Fails`: what is kept, how a report and how a failure come about. -/

namespace Dialogue

open Turn

/-- What the registry may answer for the versions of flows and for their live versions. -/
structure Library where
  version : String → Nat → Outcome Flow → Prop
  live : String → Outcome Flow → Prop

/-- What the library answers for the flow on which a session goes on that waits at a node. -/
inductive Library.Resumes (L : Library) (b : Settings.Binding) (s : Session) (node : String) :
    Outcome Flow → Prop
  | pinned {o : Outcome Flow} (hb : b = .pinned) (h : L.version s.flowId s.flowVersion o) :
      Resumes L b s node o
  | live {f : Flow} (hb : b = .latest) (h : L.live s.flowId (.ok f))
      (hn : (f.node? node).isSome = true) : Resumes L b s node (.ok f)
  | lost {e : Failure} (hb : b = .latest) (h : L.live s.flowId (.error e)) :
      Resumes L b s node (.error e)
  /-- The live version has no such node any more. -/
  | older {f : Flow} {o : Outcome Flow} (hb : b = .latest) (h : L.live s.flowId (.ok f))
      (hn : (f.node? node).isSome = false) (hv : L.version s.flowId s.flowVersion o) :
      Resumes L b s node o

namespace Command

/-- The session with a text of the customer. -/
def recorded (s : Session) (text id : String) (now : Millis) : Session :=
  { s with messages := s.messages ++ [⟨id, .user, text, none, now⟩], updateTime := now }

/-- The session that the flow has again. -/
def givenBack (s : Session) : Session := { s with status := .bot, queue := none, agentId := none }

/-- A turn that a command plans. -/
structure Plan where
  /-- What the customer said, which is recorded before the turn. -/
  said : Option String
  session : Session
  flow : Flow
  step : Turn.Step

/-- Where the turn of a plan begins, with a session in hand. -/
def Plan.start (p : Plan) (s : Session) : Stand :=
  .before (begun { s with flowVersion := p.flow.version }) p.step

theorem Plan.start_ne_over (p : Plan) {s : Session} (x : Session) (e : Ending) :
    p.start s ≠ .over x e := by
  unfold start
  exact Stand.noConfusion

/-- The session with which the turn of a plan begins, the row that is stored then, and what the
chat backend was told. -/
inductive Plan.Begins (p : Plan) (r₀ : SessionRow) : Session → SessionRow → List Delivery → Prop
  | silent (h : p.said = none) : Begins p r₀ p.session r₀ []
  | said {text : String} (h : p.said = some text) (id : String) (now : Millis) :
      Begins p r₀ (recorded p.session text id now) (.ofSession (recorded p.session text id now))
        [.append p.session.id ⟨id, .user, text, none, now⟩]

section
variable (settings : Settings) (L : Library)

/-- The turns that a command to a session plans. -/
inductive Plans (s : Session) : Command → Plan → Prop
  | start {f : Flow} (hf : L.version s.flowId s.flowVersion (.ok f)) :
      Plans s .start ⟨none, s, f, .run f.start⟩
  | reply {f : Flow} {node t : String} (hq : isQueued s = false) (hn : s.currentNode = some node)
      (hf : L.Resumes settings.engine.binding s node (.ok f)) :
      Plans s (.text t) ⟨some t, s, f, .resume node (.text t)⟩
  | retry {f : Flow} {h : Halt} {t : String} (hq : isQueued s = false)
      (hn : s.currentNode = none) (hh : s.halt = some h) (hr : h.retryable = true)
      (hf : L.Resumes settings.engine.binding s h.nodeId (.ok f)) :
      Plans s (.text t) ⟨some t, s, f, .run h.nodeId⟩
  | click {f : Flow} {n : Flow.Node} {node id label : String} (hp : s.isPaused = true)
      (hn : s.currentNode = some node) (hf : L.Resumes settings.engine.binding s node (.ok f))
      (ha : f.node? node = some n) (hk : n.kind = .template) :
      Plans s (.click id label) ⟨some label, s, f, .resume node (.click id label)⟩
  | recover {f : Flow} {node : String} (hn : s.pendingNode = some node)
      (hf : L.version s.flowId s.flowVersion (.ok f)) :
      Plans s .recover ⟨none, s, f, .run node⟩
  | giveBack {f : Flow} {node : Option String} (hq : isQueued s = true)
      (hf : L.live s.flowId (.ok f)) (ha : (f.node? (node.getD f.start)).isSome = true) :
      Plans s (.giveBack node) ⟨none, givenBack s, f, .run (node.getD f.start)⟩

/-- The changes that a command makes at once, and how it ends. -/
inductive Direct (s : Session) : Command → Session → Ending → Prop
  | relay {t : String} (hq : isQueued s = true) (id : String) (now : Millis) :
      Direct s (.text t) (recorded s t id now) .relayed
  | close (now : Millis) :
      Direct s .close
        { s with status := .closed, currentNode := none, pendingNode := none, updateTime := now }
        .closed
  | assign {agent : String} (hq : isQueued s = true) (now : Millis) :
      Direct s (.assign agent) { s with status := .open, agentId := some agent, updateTime := now }
        .assigned

/-- Why a command to a session is refused. -/
inductive Refuses (s : Session) : Command → Refusal → Prop
  | closed {c : Command} (h : s.isClosed = true) : Refuses s c .closed
  | text {t : String} (hq : isQueued s = false) (hn : s.currentNode = none)
      (hh : ∀ h, s.halt = some h → h.retryable = false) : Refuses s (.text t) .notWaiting
  | click {id label : String} (hp : s.isPaused = false) : Refuses s (.click id label) .notWaiting
  | noButtons {f : Flow} {node id label : String} (hp : s.isPaused = true)
      (hn : s.currentNode = some node) (hf : L.Resumes settings.engine.binding s node (.ok f))
      (ha : (f.node? node).all (·.kind ≠ .template) = true) :
      Refuses s (.click id label) (.noButtons node)
  | recover (hn : s.pendingNode = none) : Refuses s .recover .notInterrupted
  | assign {agent : String} (hq : isQueued s = false) : Refuses s (.assign agent) .notQueued
  | giveBack {node : Option String} (hq : isQueued s = false) :
      Refuses s (.giveBack node) .notQueued
  | noNode {f : Flow} {node : Option String} (hq : isQueued s = true)
      (hf : L.live s.flowId (.ok f)) (ha : (f.node? (node.getD f.start)).isNone = true) :
      Refuses s (.giveBack node) (.noNode (node.getD f.start) s.flowId)

/-- The flow for a command is not to be had. -/
inductive Lacks (s : Session) : Command → Failure → Prop
  | start {e : Failure} (h : L.version s.flowId s.flowVersion (.error e)) : Lacks s .start e
  | reply {node t : String} {e : Failure} (hq : isQueued s = false)
      (hn : s.currentNode = some node)
      (h : L.Resumes settings.engine.binding s node (.error e)) : Lacks s (.text t) e
  | retry {h : Halt} {t : String} {e : Failure} (hq : isQueued s = false)
      (hn : s.currentNode = none) (hh : s.halt = some h) (hr : h.retryable = true)
      (he : L.Resumes settings.engine.binding s h.nodeId (.error e)) : Lacks s (.text t) e
  | click {node id label : String} {e : Failure} (hp : s.isPaused = true)
      (hn : s.currentNode = some node)
      (h : L.Resumes settings.engine.binding s node (.error e)) : Lacks s (.click id label) e
  | recover {node : String} {e : Failure} (hn : s.pendingNode = some node)
      (h : L.version s.flowId s.flowVersion (.error e)) : Lacks s .recover e
  | giveBack {node : Option String} {e : Failure} (hq : isQueued s = true)
      (h : L.live s.flowId (.error e)) : Lacks s (.giveBack node) e

variable (sid : String) (c : Command) (r₀ : SessionRow)

/-- The row is that of a session that is not closed. -/
def Opens (r : SessionRow) (s : Session) : Prop := r.toSession = .ok s ∧ s.isClosed = false

/-- The session that a command may keep in place of a row; it began with the row `r₀`. -/
inductive Writes : SessionRow → Session → Prop
  | direct {s y : Session} {e : Ending} (hs : Opens r₀ s) (h : Direct s c y e) : Writes r₀ y
  | record {s : Session} {p : Plan} {text : String} (hs : Opens r₀ s)
      (h : Plans settings L s c p) (ht : p.said = some text) (id : String) (now : Millis) :
      Writes r₀ (recorded p.session text id now)
  | turn {s s' y : Session} {p : Plan} {r r' : SessionRow} {told : List Delivery}
      (hs : Opens r₀ s) (h : Plans settings L s c p) (hb : p.Begins r₀ s' r' told)
      (ht : Scene.Turns ⟨sid, p.flow, settings⟩ (p.start s') r' r y) : Writes r y

/-- How a command comes to a report, and the row that it leaves. -/
inductive Ends : Report → SessionRow → Prop
  | direct {s y : Session} {e : Ending} (hs : Opens r₀ s) (h : Direct s c y e) :
      Ends ⟨y, e, 0⟩ (.ofSession y)
  | turn {s s' : Session} {p : Plan} {stand : Stand} {r r' : SessionRow} {told : List Delivery}
      {rep : Report} (hs : Opens r₀ s) (h : Plans settings L s c p)
      (hb : p.Begins r₀ s' r' told)
      (hc : Scene.Comes ⟨sid, p.flow, settings⟩ (p.start s') r' stand r)
      (he : rep.ending ≠ .aborted → stand = .over rep.session rep.ending) : Ends rep r

/-- How a command fails, the row that it leaves and what the chat backend was told of it. -/
inductive Fails : Failure → SessionRow → List Delivery → Prop
  | unreadable {f : Failure} (h : r₀.toSession = .error f) : Fails f r₀ []
  | refused {s : Session} {ref : Refusal} (hs : r₀.toSession = .ok s)
      (h : Refuses settings L s c ref) : Fails (.plain .session (ref.message sid)) r₀ []
  | lacking {s : Session} {f : Failure} (hs : Opens r₀ s) (h : Lacks settings L s c f) :
      Fails f r₀ []
  /-- The node does not await the reply. -/
  | misfit {s s' : Session} {p : Plan} {r : SessionRow} {told : List Delivery} {f : Failure}
      {node : String} {reply : Reply} {n : Flow.Node} (hs : Opens r₀ s)
      (h : Plans settings L s c p) (hb : p.Begins r₀ s' r told) (hst : p.step = .resume node reply)
      (hn : p.flow.node? node = some n) (ha : ¬ Awaits n.action reply)
      (hf : f.isSession = true) : Fails f r told

end

end Command

end Dialogue
