import Dialogue.Program.Basic
import Dialogue.Script.Basic
import Dialogue.Settings
import Dialogue.Text.Lower
import Dialogue.Turn.Transition

/-! # Visits of nodes

What each kind of node does when the turn comes to it, and what the nodes that wait for the customer
do with a reply. A node changes variables only if its visit finishes. -/

namespace Dialogue.Turn

open Program

/-- What a turn knows wherever it is. -/
structure Scene where
  session : String
  flow : Flow
  settings : Settings

namespace Visit

/-- Goes on by a transition, with nothing said and no variable changed. -/
def via (vars : Variables) (t : Transition) : Visit := .finished ⟨[], t, vars⟩

/-- Says one thing and goes on by a transition. -/
def saying (vars : Variables) (text : String) (t : Transition) : Visit :=
  .finished ⟨[⟨text, none⟩], t, vars⟩

end Visit

/-- Texts of a start node that say nothing to the customer. -/
def placeholders : List String := ["", "start", "início", "inicio"]

/-- The text with the variables put in, or another one if it is missing or blank. -/
def textOr (vars : Variables) (text : Option String) (otherwise : String) : String :=
  match text with
  | some t => if Text.isBlankText t then otherwise else vars.interpolate t
  | none => otherwise

/-- The name of a variable to keep something in, if it is not blank. -/
def keptIn (name : Option String) : Option String :=
  name.bind fun n => if Text.isBlankText n then none else some (Text.trim n)

/-- The text in small letters without outer blanks. -/
def folded (s : String) : String := Text.lower (Text.trim s)

/-- The schedule of a node: a stored one or its own. -/
def scheduleOf (id : Option String) (days : Days) (offset : Option Int) : Procedure Schedule :=
  match id.filter (!·.isEmpty) with
  | some id => Procedure.loadSchedule id
  | none => return ⟨"", "", offset, days⟩

/-- Seconds in whole milliseconds: first to the nearest nanosecond, then up. -/
def toMillis (seconds : Float) : Nat :=
  ((seconds * 1000000000.0).round.toUInt64.toNat + 999999) / 1000000

/-- The buttons as shown to the customer. -/
def shownButtons (buttons : List Button) (vars : Variables) : List Button :=
  buttons.map fun b => ⟨b.id, vars.interpolate b.label⟩

/-- Shows the buttons and waits. -/
def prompt (text : String) (buttons : List Button) (vars : Variables) : Visit :=
  .finished ⟨[⟨vars.interpolate text, some (shownButtons buttons vars)⟩], .pause, vars⟩

/-- The first button whose shown label is the text, apart from case and outer blanks. -/
def buttonFor? (text : String) (buttons : List Button) (vars : Variables) : Option Button :=
  buttons.find? fun b => folded (vars.interpolate b.label) = folded text

namespace Scene

variable (sc : Scene)

/-- Writes a line to the log of a node. -/
def log (node text : String) : Program Unit := Program.log sc.session node text

/-! ### Nodes that decide -/

/-- Takes the branch of the first rule that holds. -/
def visitCondition (node : String) (rules : List Condition) (hasElse : Bool) (vars : Variables) :
    Program Visit := do
  match Condition.first? rules vars with
  | some rule =>
    sc.log node ("matched rule '" ++ rule.id ++ "'")
    return .via vars (.branch (.branch rule.id))
  | none =>
    let otherwise := Handle.fixed .otherwise
    if hasElse && sc.flow.hasRoute node otherwise then
      sc.log node "no rule matched, taking else"
      return .via vars (.branch otherwise)
    else
      return .via vars <| .unmatched <|
        "condition '" ++ node ++ "' matched no rule and has no else route"

/-- Takes a branch by the opening hours. -/
def visitSchedule (node : String) (id : Option String) (days : Days) (offset : Option Int)
    (vars : Variables) : Program Visit := do
  match ← (scheduleOf id days offset).run with
  | .error f => return .failed f
  | .ok schedule =>
    let isOpen := schedule.isOpen (← instant) sc.settings.engine.offset
    sc.log node ("schedule '" ++ schedule.id ++ "' is " ++ if isOpen then "open" else "closed")
    return .via vars (.branch (.fixed (if isOpen then .inside else .outside)))

/-! ### Nodes that take their time -/

/-- How long a delay lasts: its seconds, cut to the most that is allowed, and whether they were
cut. -/
def delaySeconds (amount : Json) : Except Action.Defect (Float × Bool) := do
  let wanted ← Action.seconds amount
  let most := Float.ofNat sc.settings.engine.maxDelay
  return if most < wanted then (most, true) else (wanted, false)

/-- Waits for some seconds. -/
def visitDelay (node : String) (amount : Json) (vars : Variables) : Program Visit := do
  match sc.delaySeconds amount with
  | .error d => return .failed (.plain .node d.message)
  | .ok (seconds, cut) =>
    let text := Decimal.Layout.plain.text seconds
    if cut then
      sc.log node ("delay exceeds max_delay_secs, waiting " ++ text ++ "s instead")
    sc.log node ("waiting " ++ text ++ "s")
    if ← wait (.delay (toMillis seconds)) then return .via vars (.next .plain) else return .cut

/-- Runs a script on the variables. -/
def visitScript (node body : String) (vars : Variables) : Program Visit := do
  if ← wait .script then
    match Script.run body vars with
    | .error f => return .failed f
    | .ok delta =>
      sc.log node ("script changed " ++ toString delta.length ++ " variable(s)")
      return .via (Fields.merge vars delta) (.next .plain)
  else return .cut

/-- What a failed call makes of the turn: the way for errors if there is one, or a failure. -/
def callFailed (node : String) (fault : Http.Fault) (vars : Variables) : Program Visit := do
  sc.log node fault.message
  let way := Handle.fixed .error
  if sc.flow.hasRoute node way then return .via vars (.branch way)
  else return .failed (.plain .external fault.message)

/-- What an answer makes of the turn. -/
def callAnswered (node : String) (call : Http.Call) (body : Json) (vars : Variables) :
    Program Visit := do
  sc.log node "request succeeded"
  (call.misses body).forM fun m => sc.log node ("mapping '" ++ m.path ++ "' found nothing")
  return .via (call.store vars body) (.next (.fixed .success))

/-- Calls another system. -/
def visitCall (node : String) (call : Http.Call) (vars : Variables) : Program Visit := do
  match call.request vars sc.settings.engine.httpTimeout with
  | .error fault => sc.callFailed node fault vars
  | .ok request =>
    match ← (question (.exchange request) : Program (Option Http.Attempt)) with
    | none => return .cut
    | some attempt =>
      match call.read vars request attempt with
      | .error fault => sc.callFailed node fault vars
      | .ok body => sc.callAnswered node call body vars

/-! ### Nodes with buttons -/

/-- Takes the way of a button, and keeps its label. -/
def clicked (node : String) (name : Option String) (id label : String) (vars : Variables) :
    Program Visit := do
  let vars := match keptIn name with
    | some name => vars.set name (.str label)
    | none => vars
  sc.log node ("clicked '" ++ label ++ "' (" ++ id ++ ")")
  let way := Handle.branch id
  return .via vars (if sc.flow.hasRoute node way then .branch way else .only)

/-! ### All nodes -/

/-- What the node does when the turn comes to it. -/
def run (node : String) (a : Action) (vars : Variables) : Program Visit :=
  match a with
  | .start text =>
    return match text with
      | some t =>
        if placeholders.contains (folded t) then .via vars .only
        else .saying vars (vars.interpolate t) .only
      | none => .via vars .only
  | .message text => return .saying vars (vars.interpolate text) (.next .plain)
  | .input text _ =>
    return match text.filter (!Text.isBlankText ·) with
      | some t => .saying vars (vars.interpolate t) .pause
      | none => .via vars .pause
  | .setValue name value => do
    let value := vars.interpolateJson value
    sc.log node (name ++ " = " ++ value.text)
    return .via (vars.set (Text.trim name) value) (.next .plain)
  | .condition rules hasElse => sc.visitCondition node rules hasElse vars
  | .script body => sc.visitScript node body vars
  | .request call => sc.visitCall node call vars
  | .delay amount => sc.visitDelay node amount vars
  | .anchor _ => return .via vars (.next .plain)
  | .goto name =>
    return match sc.flow.anchor? name with
      | some target => .via vars (.jump target)
      | none => .failed (Flow.Fault.noAnchor name).toFailure
  | .queue name text reason =>
    return .saying vars (textOr vars text sc.settings.messages.handoff) <|
      .handoff (vars.interpolate name) (reason.map (vars.interpolate ·))
  | .schedule id days offset => sc.visitSchedule node id days offset vars
  | .template text buttons _ => return prompt text buttons vars
  | .finish text => return .saying vars (textOr vars text sc.settings.messages.closing) .close

/-- What the node does with a reply. -/
def resume (node : String) (a : Action) (reply : Reply) (vars : Variables) : Program Visit :=
  match a, reply with
  | .input _ name, .text s => return .via (vars.set (Text.trim name) (.str s)) .only
  | .input _ _, .click _ _ =>
    return .failed (.plain .session ("node '" ++ node ++ "' waits for text, not a button"))
  | .template _ _ name, .click id label => sc.clicked node name id label vars
  | .template text buttons name, .text s =>
    match buttonFor? s buttons vars with
    | some b => sc.clicked node name b.id b.label vars
    | none => return prompt text buttons vars
  | a, _ =>
    return .failed <| .plain .session <|
      "node '" ++ node ++ "' (" ++ a.kind.name ++ ") does not wait for a reply"

end Scene

end Dialogue.Turn
