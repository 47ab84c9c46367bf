import Dialogue.Flow.Compile
import Dialogue.Program.Basic

/-! # The registry of flows

Drafts, their publication, and the compiled versions that sessions run on. A published version
never changes, so its compiled form is kept at hand once it was needed. -/

namespace Dialogue.Registry

open Program Procedure

/-- A new flow, whose draft is a start node. -/
def createFlow (name : String) : Procedure Definition := do
  let now ← now
  let id ← fresh .flow
  let d : Definition := ⟨id, name, .initial, none, 0, now, now⟩
  saveFlow d
  return d

/-- The identity of the start node, if the graph has one. -/
def startId? (g : Graph) : Option String := g.starts.head?.map (·.id)

/-- The flow with another draft, which has to have the same start node. -/
def withDraft (d : Definition) (draft : Graph) (now : Millis) : Outcome Definition :=
  if draft.starts.length ≠ 1 then
    .error (.plain .flow "a draft must have exactly one start node")
  else if d.draft.starts.length = 1 ∧ startId? d.draft ≠ startId? draft then
    .error (.plain .flow "the start node cannot be replaced")
  else .ok { d with draft, updateTime := now }

/-- Replaces the draft of a flow. -/
def saveDraft (flow : String) (draft : Graph) : Procedure Definition := do
  let now ← now
  let d ← loadFlow flow
  let d ← ExceptT.mk (pure (withDraft d draft now))
  saveFlow d
  return d

/-- The compiled form of a graph, or the failure to compile it. -/
def compile (flow : String) (version : Nat) (g : Graph) : Procedure Flow :=
  ExceptT.mk (pure ((Flow.compile flow version g).mapError Flow.Defect.toFailure))

/-- Keeps a compiled version at hand. -/
def remember (f : Flow) : Program Unit := .question (.remember (VersionRow.key f.id f.version) f)

/-- Makes the draft of a flow live as its next version. A draft that does not compile changes
nothing. -/
def publish (flow : String) : Procedure Definition := do
  let now ← now
  let d ← loadFlow flow
  let version := d.version + 1
  let compiled ← compile flow version d.draft
  saveVersion flow version d.draft now
  let d := { d with published := some d.draft, version, updateTime := now }
  saveFlow d
  remember compiled
  return d

/-- A published version, compiled. -/
def version (flow : String) (version : Nat) : Procedure Flow := do
  match ← (Program.question (.cached (VersionRow.key flow version)) : Program (Option Flow)) with
  | some f => return f
  | none =>
    let f ← compile flow version (← loadVersion flow version)
    remember f
    return f

/-- The version that is live, compiled. -/
def published (flow : String) : Procedure Flow := do
  let d ← loadFlow flow
  if d.version = 0 then throw (.plain .flow ("flow '" ++ flow ++ "' is not published"))
  version flow d.version

end Dialogue.Registry
