import Dialogue.Proofs.Program.Live
import Dialogue.Proofs.Turn.Revises

/-! # Variables that are shared

The variables of a turn are shared: a node could write some of them and fail then, and what it has
written would be there. Here the nodes write at once, each in the order in which it does its work.
Every node has done all that may fail before it writes. So a visit on shared variables comes to the
same as one that gives its variables at the end, and one that stops has written nothing.

* `on_vars`, `on_ask`: what is read and what is asked.
* `apply_on`: the mappings of an answer, one after the other.
* `runShared_on`, `resumeShared_on`: both sorts of visits come to the same.
* `visitShared_on`, `vars_of_stopped`: so a visit that stops has written nothing. -/

namespace Dialogue.Turn

open Program

/-- Why a visit stops before it is finished. -/
inductive Stop where
  | cut
  | failed (f : Failure)

/-- What a visit says and where it goes on. -/
abbrev Reaction := List Utterance × Transition

/-- A program on shared variables. What it has written stays there if it stops. -/
abbrev Shared (α : Type) := ExceptT Stop (StateT Variables Program) α

namespace Shared

variable {α β : Type}

/-- The variables as they are. -/
def vars : Shared Variables := ExceptT.lift get

/-- Changes the variables. -/
def change (f : Variables → Variables) : Shared Unit := ExceptT.lift (modify f)

/-- Gives a variable a value. -/
def write (name : String) (value : Json) : Shared Unit := change fun vars => vars.set name value

/-- Asks the questions of a program. -/
def ask (p : Program α) : Shared α := ExceptT.lift (StateT.lift p)

/-- Stops. -/
def quit (x : Stop) : Shared α := throw x

/-- Runs on variables, to the result and the variables as they are then. -/
def on (p : Shared α) (vars : Variables) : Program (Except Stop α × Variables) :=
  StateT.run (ExceptT.run p) vars

theorem on_vars (f : Variables → Shared α) (v : Variables) : on (vars >>= f) v = on (f v) v := rfl

theorem on_ask (p : Program β) (f : β → Shared α) (v : Variables) :
    on (ask p >>= f) v = p.bind fun b => on (f b) v := by
  show ((p.bind _).bind _).bind _ = _
  rw [bind_assoc, bind_assoc]
  rfl

end Shared

open Shared

/-- What comes of a visit, and the variables behind it. -/
def Visit.settled (vars : Variables) : Visit → Except Stop Reaction × Variables
  | .cut => (.error .cut, vars)
  | .failed f => (.error (.failed f), vars)
  | .finished o => (.ok (o.utterances, o.transition), o.vars)

/-- The visit of a node that reads the variables only. -/
def reading (visit : Variables → Program Visit) : Shared Reaction := do
  match ← ask (visit (← vars)) with
  | .cut => quit .cut
  | .failed f => quit (.failed f)
  | .finished o => return (o.utterances, o.transition)

namespace Scene

variable (sc : Scene)

/-- Writes a line to the log of a node. -/
def note (node text : String) : Shared Unit := ask (sc.log node text)

/-! ### Nodes that write -/

/-- Runs a script, and then writes what it has changed. -/
def runScript (node body : String) : Shared Reaction := do
  let before ← vars
  if ← ask (wait .script) then
    match Script.run body before with
    | .error f => quit (.failed f)
    | .ok delta =>
      sc.note node ("script changed " ++ toString delta.length ++ " variable(s)")
      change fun vars => Fields.merge vars delta
      return ([], .next .plain)
  else quit .cut

/-- Writes what a mapping finds in an answer. -/
def apply (node : String) (body : Json) (m : Http.Mapping) : Shared Unit :=
  match Http.Call.find? m body with
  | some v => write (Text.trim m.name) v
  | none => sc.note node ("mapping '" ++ m.path ++ "' found nothing")

/-- Writes what the mappings find, and then the whole answer. -/
def applyAll (node : String) (call : Http.Call) (body : Json) : Shared Unit := do
  call.mappings.forM (sc.apply node body)
  match call.responseVariable with
  | some name => unless (Text.trim name).isEmpty do write (Text.trim name) body
  | none => return

/-- Calls another system, and writes what is kept of the answer. -/
def runCall (node : String) (call : Http.Call) : Shared Reaction := do
  match call.request (← vars) sc.settings.engine.httpTimeout with
  | .error fault => reading (sc.callFailed node fault)
  | .ok request =>
    match ← ask (question (.exchange request) : Program (Option Http.Attempt)) with
    | none => quit .cut
    | some attempt =>
      match call.read (← vars) request attempt with
      | .error fault => reading (sc.callFailed node fault)
      | .ok body =>
        sc.note node "request succeeded"
        sc.applyAll node call body
        return ([], .next (.fixed .success))

/-- Writes the label of a button, and takes its way. -/
def click (node : String) (name : Option String) (id label : String) : Shared Reaction := do
  if let some name := keptIn name then write name (.str label)
  sc.note node ("clicked '" ++ label ++ "' (" ++ id ++ ")")
  let way := Handle.branch id
  return ([], if sc.flow.hasRoute node way then .branch way else .only)

/-! ### All nodes -/

/-- What the node does when the turn comes to it. -/
def runShared (node : String) : Action → Shared Reaction
  | .setValue name value => do
    let value := (← vars).interpolateJson value
    sc.note node (name ++ " = " ++ value.text)
    write (Text.trim name) value
    return ([], .next .plain)
  | .script body => sc.runScript node body
  | .request call => sc.runCall node call
  | a => reading (sc.run node a)

/-- What the node does with a reply. -/
def resumeShared (node : String) (a : Action) (reply : Reply) : Shared Reaction :=
  match a, reply with
  | .input _ name, .text s => do
    write (Text.trim name) (.str s)
    return ([], .only)
  | .template _ _ name, .click id label => sc.click node name id label
  | .template text buttons name, .text s => do
    match buttonFor? s buttons (← vars) with
    | some b => sc.click node name b.id b.label
    | none => reading fun vars => return prompt text buttons vars
  | a, reply => reading (sc.resume node a reply)

/-- What the node does in a step. -/
def visitShared (n : Flow.Node) (st : Turn.Step) : Shared Reaction := do
  if ← ask isAborted then quit .cut
  match st with
  | .run node => sc.runShared node n.action
  | .resume node reply => sc.resumeShared node n.action reply

end Scene

/-! ### Both sorts of visits -/

/-- Programs that go on alike from all results that there are. -/
theorem bind_congr_of_asks {α β : Type} {ok : Ask → Prop} {p : Program α} {f g : α → Program β}
    (h : p.Asks ok fun a => f a = g a) : p.bind f = p.bind g := by
  induction p with
  | done a => exact h
  | ask a next ih => exact congrArg (Program.ask a) (funext fun x => ih x (h.2 x))

/-- The program on shared variables comes to the same as the visit. -/
def Matches (p : Shared Reaction) (vars : Variables) (q : Program Visit) : Prop :=
  on p vars = q.bind fun v => .done (v.settled vars)

/-- A visit leaves the variables alone if it is finished. -/
def Visit.Spares (vars : Variables) : Visit → Prop
  | .finished o => o.vars = vars
  | _ => True

section
variable {sc : Scene} {node : String} {vars : Variables}

theorem matches_ask {α : Type} {p : Program α} {f : α → Shared Reaction} {g : α → Program Visit}
    (h : ∀ a, Matches (f a) vars (g a)) : Matches (ask p >>= f) vars (p >>= g) := by
  show on _ _ = (p.bind g).bind _
  rw [on_ask, bind_assoc]
  exact congrArg p.bind (funext h)

theorem reading_matches {visit : Variables → Program Visit} {ok : Ask → Prop}
    (h : (visit vars).Asks ok (Visit.Spares vars)) :
    Matches (reading visit) vars (visit vars) := by
  unfold Matches reading
  rw [on_vars, on_ask]
  refine bind_congr_of_asks (h.imp fun v hv => ?_)
  cases v with
  | cut | failed => rfl
  | finished o =>
    have hv : o.vars = vars := hv
    rw [Visit.settled, hv]
    rfl

end

namespace Scene

variable {sc : Scene} {node : String} {vars : Variables}

theorem callFailed_spares (fault : Http.Fault) :
    (sc.callFailed node fault vars).Asks Ask.Visiting (Visit.Spares vars) := by
  refine (asks_callFailed (a := .anchor "") fault).imp fun v hv => ?_
  cases v with
  | cut | failed => exact trivial
  | finished o => cases hv; exact rfl

theorem script_matches (body : String) :
    Matches (sc.runScript node body) vars (sc.visitScript node body vars) := by
  unfold Matches runScript visitScript
  rw [on_vars]
  refine matches_ask fun went => ?_
  cases went with
  | false => rfl
  | true =>
    rw [if_pos rfl, if_pos rfl]
    cases Script.run body vars <;> rfl

theorem setValue_matches (name : String) (value : Json) :
    Matches (sc.runShared node (.setValue name value)) vars
      (sc.run node (.setValue name value) vars) := rfl

theorem click_matches (name : Option String) (id label : String) :
    Matches (sc.click node name id label) vars (sc.clicked node name id label vars) := by
  unfold click clicked
  cases keptIn name <;> rfl

/-- The mappings of an answer are written one after the other, and those that find nothing are told
of in between. -/
theorem apply_on (body : Json) (ms : List Http.Mapping) {α : Type} (f : Unit → Shared α)
    (vars : Variables) :
    on (ms.forM (sc.apply node body) >>= f) vars =
      ((ms.filter fun m => (Http.Call.find? m body).isNone).forM fun m =>
          sc.log node ("mapping '" ++ m.path ++ "' found nothing")).bind fun _ =>
        on (f ()) (ms.foldl (Http.Call.keep body) vars) := by
  induction ms generalizing vars with
  | nil => rfl
  | cons m rest ih =>
    show on ((sc.apply node body m >>= fun _ => rest.forM _) >>= f) vars = _
    rw [LawfulMonad.bind_assoc, List.foldl_cons, List.filter_cons]
    cases hfind : Http.Call.find? m body with
    | some v =>
      rw [apply, Http.Call.keep, hfind]
      exact ih (vars.set (Text.trim m.name) v)
    | none =>
      rw [apply, Http.Call.keep, hfind, Option.isNone_none, if_pos rfl]
      show on (ask (sc.log node _) >>= _) vars = Program.bind (Program.bind _ _) _
      rw [on_ask, Program.bind_assoc]
      exact congrArg _ (funext fun _ => ih vars)

theorem answered_matches (call : Http.Call) (body : Json) :
    Matches (do
        sc.note node "request succeeded"
        sc.applyAll node call body
        return ([], .next (.fixed .success))) vars
      (sc.callAnswered node call body vars) := by
  refine matches_ask fun _ => ?_
  unfold applyAll Matches
  rw [LawfulMonad.bind_assoc, apply_on]
  show _ = Program.bind (Program.bind _ _) _
  rw [Program.bind_assoc]
  refine congrArg _ (funext fun _ => ?_)
  unfold Http.Call.store
  cases call.responseVariable with
  | none => rfl
  | some name =>
    dsimp only
    cases (Text.trim name).isEmpty <;> rfl

theorem call_matches (call : Http.Call) :
    Matches (sc.runCall node call) vars (sc.visitCall node call vars) := by
  unfold Matches runCall visitCall
  rw [on_vars]
  cases call.request vars sc.settings.engine.httpTimeout with
  | error fault => exact reading_matches (callFailed_spares fault)
  | ok request =>
    refine matches_ask fun attempt => ?_
    cases attempt with
    | none => rfl
    | some attempt =>
      unfold Matches
      dsimp only
      rw [on_vars]
      cases call.read vars request attempt with
      | error fault => exact reading_matches (callFailed_spares fault)
      | ok body => exact answered_matches call body

/-- A node that can leave the variables only as they are. -/
theorem reading_run {a : Action} (h : ∀ after, a.Revises vars after → after = vars) :
    Matches (reading (sc.run node a)) vars (sc.run node a vars) := by
  refine reading_matches ((asks_run a).imp fun v hv => ?_)
  cases v with
  | cut | failed => exact trivial
  | finished o => exact h _ hv

/-- **Runs.** What a node does on shared variables is what it does. -/
theorem runShared_on (a : Action) : Matches (sc.runShared node a) vars (sc.run node a vars) := by
  cases a with
  | setValue name value => exact setValue_matches name value
  | script body => exact script_matches body
  | request call => exact call_matches call
  | input text name =>
    refine reading_matches (show Asks Ask.Visiting _ (.done _) from ?_)
    show Visit.Spares vars (match text.filter _ with | some t => _ | none => _)
    cases text.filter (!Text.isBlankText ·) <;> exact rfl
  | template text buttons name => rfl
  | _ => exact reading_run fun _ h => by cases h; rfl

/-- **Replies.** What a node does with a reply on shared variables is what it does. -/
theorem resumeShared_on (a : Action) (reply : Reply) :
    Matches (sc.resumeShared node a reply) vars (sc.resume node a reply vars) := by
  cases a with
  | input text name => cases reply <;> rfl
  | template text buttons name =>
    cases reply with
    | click id label => exact click_matches name id label
    | text s =>
      show on (Shared.vars >>= _) vars =
        Program.bind (match buttonFor? s buttons vars with | some b => _ | none => _) _
      rw [on_vars]
      cases buttonFor? s buttons vars with
      | some b => exact click_matches name b.id b.label
      | none => rfl
  | _ => rfl

/-- A step on shared variables comes to what its visit comes to. -/
theorem visitShared_on (n : Flow.Node) (st : Turn.Step) :
    Matches (sc.visitShared n st) vars (sc.visit n st vars) := by
  unfold visitShared visit
  refine matches_ask fun aborted => ?_
  cases aborted with
  | true => rfl
  | false =>
    cases st with
    | run node => exact runShared_on n.action
    | resume node reply => exact resumeShared_on n.action reply

/-- The same in time. -/
theorem live_visitShared (n : Flow.Node) (st : Turn.Step) (e : Nat → Moment) (w : World) :
    w.live e (on (sc.visitShared n st) vars) =
      ((w.live e (sc.visit n st vars)).1, (w.live e (sc.visit n st vars)).2.1,
        (w.live e (sc.visit n st vars)).2.2.settled vars) := by
  rw [visitShared_on, World.live_bind]
  rfl

/-- **A visit that stops** has written nothing, whatever the node, the variables and the reply. -/
theorem vars_of_stopped {n : Flow.Node} {st : Turn.Step} {e : Nat → Moment} {w : World} {x : Stop}
    {left : Variables} (h : (w.live e (on (sc.visitShared n st) vars)).2.2 = (.error x, left)) :
    left = vars := by
  rw [live_visitShared] at h
  cases hv : (w.live e (sc.visit n st vars)).2.2 <;> rw [hv] at h <;> cases h <;> rfl

end Scene

end Dialogue.Turn
