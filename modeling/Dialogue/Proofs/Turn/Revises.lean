import Dialogue.Proofs.Program.Always
import Dialogue.Turn.Basic
import Mathlib.Tactic.SplitIfs

/-! # What nodes ask, and what they change

A node looks nothing up in the registry, keeps no session and tells no event, whatever kind of node
it is and whatever is answered. `Action.Revises` says how each kind of node can change the
variables.

* `asks_visit`: what comes of the visit of a node. -/

namespace Dialogue

/-- The question concerns neither flows nor their versions, and neither reads nor keeps a
session. -/
def Ask.Local : Ask → Prop
  | .loadSession _ | .createSession _ | .saveSession _ | .loadFlow _ | .saveFlow _
  | .loadVersion _ _ | .saveVersion _ _ _ _ | .cached _ | .remember _ _ => False
  | _ => True

/-- The visit of a node may ask it: for a schedule, for the time, what comes of a wait or of a
request, whether to stop, or to write a line to the log. -/
def Ask.Visiting : Ask → Prop
  | .loadSchedule _ | .now | .emit (.log _) | .isAborted | .wait _ | .exchange _ => True
  | _ => False

theorem Ask.Visiting.local {a : Ask} (h : a.Visiting) : a.Local := by
  cases a with
  | loadSchedule | now | emit | isAborted | wait | exchange => exact trivial
  | _ => exact h.elim

namespace Program

variable {α β : Type} {ok ok' : Ask → Prop} {P Q : α → Prop}

/-- All questions of the program are of a sort and every result satisfies a condition, whatever is
answered. -/
def Asks (ok : Ask → Prop) (P : α → Prop) : Program α → Prop
  | .done a => P a
  | .ask a next => ok a ∧ ∀ x, (next x).Asks ok P

theorem asks_bind {p : Program β} {f : β → Program α} (h : p.Asks ok fun b => (f b).Asks ok P) :
    (p.bind f).Asks ok P := by
  induction p with
  | done b => exact h
  | ask a next ih => exact ⟨h.1, fun x => ih x (h.2 x)⟩

theorem Asks.imp {p : Program α} (h : p.Asks ok P) (hi : ∀ a, P a → Q a) : p.Asks ok Q := by
  induction p with
  | done a => exact hi a h
  | ask a next ih => exact ⟨h.1, fun x => ih x (h.2 x)⟩

theorem Asks.mono {p : Program α} (h : p.Asks ok P) (ho : ∀ a, ok a → ok' a) : p.Asks ok' P := by
  induction p with
  | done a => exact h
  | ask a next ih => exact ⟨ho a h.1, fun x => ih x (h.2 x)⟩

theorem asks_lift {p : Program β} {f : β → Procedure α} {P : Outcome α → Prop}
    (h : p.Asks ok fun b => (f b).run.Asks ok P) : ((p : Procedure β) >>= f).run.Asks ok P := by
  show (ExceptT.lift p >>= f).run.Asks ok P
  rw [ExceptT.run_bind_lift]
  exact asks_bind h

/-- A program that may fail, before another one. -/
theorem asks_tried {p : Procedure β} {f : β → Procedure α} {P : Outcome α → Prop}
    (hfail : ∀ e, P (.error e))
    (h : p.run.Asks ok fun o => ∀ b, o = .ok b → (f b).run.Asks ok P) :
    (p >>= f).run.Asks ok P := by
  rw [ExceptT.run_bind]
  refine asks_bind (h.imp fun o ho => ?_)
  cases o with
  | ok b => exact ho b rfl
  | error e => exact hfail e

/-- A program that may fail, before another one of whose results something is said. -/
theorem asks_then {p : Procedure β} {f : β → Procedure α}
    (h : p.run.Asks ok fun o => ∀ b, o = .ok b → (f b).run.Asks ok fun o => ∀ a, o = .ok a → P a) :
    (p >>= f).run.Asks ok fun o => ∀ a, o = .ok a → P a :=
  asks_tried (fun _ => nofun) h

/-- What is asked under a guard and is of a sort. -/
theorem Always.asks {beside : World → World → Prop} {guard : World → Ask → Prop}
    {post : α → World → Prop} {p : Program α} {w : World} (h : p.Always beside guard post w)
    (hp : p.Asks ok P) : p.Always beside (fun w a => guard w a ∧ ok a) post w := by
  induction p generalizing w with
  | done a => exact h
  | ask a next ih =>
    intro w₁ hb
    obtain ⟨hg, hnext⟩ := h w₁ hb
    exact ⟨⟨hg, hp.1⟩, fun c => ih _ (hnext c) (hp.2 _)⟩

/-- Every result is one that worlds bring about, so it satisfies the condition. -/
theorem Asks.of_mayEnd {p : Program α} (h : p.Asks ok P) {a : α} (ha : p.MayEnd a) : P a := by
  induction p with
  | done b => exact ha ▸ h
  | ask q next ih =>
    obtain ⟨w, c, hx⟩ := ha
    exact ih _ (h.2 _) hx

/-- The results of a program are those to which it may come. -/
theorem Always.mayEnd {beside : World → World → Prop} {guard : World → Ask → Prop}
    {post : α → World → Prop} {p : Program α} {w : World} (h : p.Always beside guard post w) :
    p.Always beside guard (fun a w => p.MayEnd a ∧ post a w) w := by
  -- the results are those of the whole program, so the induction is on what is left of it
  suffices ∀ q : Program α, (∀ a, q.MayEnd a → p.MayEnd a) → ∀ w, q.Always beside guard post w →
      q.Always beside guard (fun a w => p.MayEnd a ∧ post a w) w from this p (fun _ => id) w h
  intro q
  induction q with
  | done a => exact fun hm w hw => ⟨hm a rfl, hw⟩
  | ask a next ih =>
    intro hm w hw w₁ hb
    obtain ⟨hg, hnext⟩ := hw w₁ hb
    exact ⟨hg, fun c => ih _ (fun b hb => hm b ⟨w₁, c, hb⟩) _ (hnext c)⟩

end Program

/-- How a node that does this can change the variables. -/
inductive Action.Revises (vars : Variables) : Action → Variables → Prop
  | same (a : Action) : Revises vars a vars
  | value (name : String) (value : Json) :
      Revises vars (.setValue name value) (vars.set (Text.trim name) (vars.interpolateJson value))
  | text (ask : Option String) (name text : String) :
      Revises vars (.input ask name) (vars.set (Text.trim name) (.str text))
  | label (text : String) (buttons : List Button) {name : Option String} {kept : String}
      (h : Turn.keptIn name = some kept) (label : String) :
      Revises vars (.template text buttons name) (vars.set kept (.str label))
  | script {body : String} {delta : Variables} (h : Script.run body vars = .ok delta) :
      Revises vars (.script body) (Fields.merge vars delta)
  /-- The answer of a peer. -/
  | answer (call : Http.Call) (text : String) :
      Revises vars (.request call) (call.store vars (Http.Call.bodyOf text))

namespace Turn

/-- A node that has finished leaves variables as it may. -/
def Visit.Revised (a : Action) (vars : Variables) : Visit → Prop
  | .finished o => a.Revises vars o.vars
  | .cut | .failed _ => True

namespace Scene

open Program

variable {sc : Scene} {node : String} {vars : Variables} {a : Action}

theorem asks_log {α : Type} {P : α → Prop} {text : String} {f : Unit → Program α}
    (h : (f ()).Asks Ask.Visiting P) : (sc.log node text >>= f).Asks Ask.Visiting P :=
  ⟨trivial, fun _ => ⟨trivial, fun _ => h⟩⟩

theorem asks_condition (rules : List Condition) (hasElse : Bool) :
    (sc.visitCondition node rules hasElse vars).Asks Ask.Visiting (Visit.Revised a vars) := by
  unfold visitCondition
  split
  · exact asks_log (.same a)
  · dsimp only
    split_ifs
    · exact asks_log (.same a)
    · exact .same a

theorem asks_schedule (id : Option String) (days : Days) (offset : Option Int) :
    (sc.visitSchedule node id days offset vars).Asks Ask.Visiting (Visit.Revised a vars) := by
  have hdone (s : Schedule) : (do
      let isOpen := s.isOpen (← instant) sc.settings.engine.offset
      sc.log node ("schedule '" ++ s.id ++ "' is " ++ if isOpen then "open" else "closed")
      return Visit.via vars (.branch (.fixed (if isOpen then .inside else .outside)))).Asks
        Ask.Visiting (Visit.Revised a vars) :=
    ⟨trivial, fun _ => asks_log (.same a)⟩
  unfold visitSchedule scheduleOf
  split
  · refine ⟨trivial, fun o => ?_⟩
    cases o with
    | error e => exact trivial
    | ok s => exact hdone s
  · exact hdone _

theorem asks_delay (amount : Json) :
    (sc.visitDelay node amount vars).Asks Ask.Visiting (Visit.Revised a vars) := by
  have hwait (t : Nat) : (do
      if ← wait (.delay t) then return Visit.via vars (.next .plain)
      else return Visit.cut).Asks Ask.Visiting (Visit.Revised a vars) := by
    refine ⟨trivial, fun went => ?_⟩
    cases went with
    | true => exact .same a
    | false => exact trivial
  unfold visitDelay
  split
  · exact trivial
  · dsimp only
    split_ifs
    · exact asks_log (asks_log (hwait _))
    · exact asks_log (hwait _)

theorem asks_script (body : String) :
    (sc.visitScript node body vars).Asks Ask.Visiting (Visit.Revised (.script body) vars) := by
  unfold visitScript
  refine ⟨trivial, fun went => ?_⟩
  cases went with
  | false => exact trivial
  | true =>
    cases h : Script.run body vars with
    | error f => exact trivial
    | ok delta => exact asks_log (.script h)

theorem asks_callFailed (fault : Http.Fault) :
    (sc.callFailed node fault vars).Asks Ask.Visiting (Visit.Revised a vars) := by
  unfold callFailed
  refine asks_log ?_
  dsimp only
  split_ifs
  · exact .same a
  · exact trivial

/-- An answer is logged, and what comes of it is said on the variables that keep it. -/
theorem asks_answered {P : Visit → Prop} (call : Http.Call) (body : Json)
    (h : P (.via (call.store vars body) (.next (.fixed .success)))) :
    (sc.callAnswered node call body vars).Asks Ask.Visiting P := by
  have hlogs (l : List Http.Mapping) :
      (l.forM fun m => sc.log node ("mapping '" ++ m.path ++ "' found nothing")).Asks
        Ask.Visiting fun _ => True := by
    induction l with
    | nil => exact trivial
    | cons m rest ih => exact asks_log ih
  exact asks_log (asks_bind ((hlogs _).imp fun _ _ => h))

theorem asks_callAnswered (call : Http.Call) (text : String) :
    (sc.callAnswered node call (Http.Call.bodyOf text) vars).Asks Ask.Visiting
      (Visit.Revised (.request call) vars) :=
  asks_answered call _ (.answer call text)

/-- Only the text of a reply counts as an answer. -/
theorem exists_text_of_read {call : Http.Call} {request : Http.Request} {attempt : Http.Attempt}
    {body : Json} (h : call.read vars request attempt = .ok body) :
    ∃ text, body = Http.Call.bodyOf text := by
  unfold Http.Call.read at h
  cases attempt with
  | reply status text =>
    dsimp only at h
    split_ifs at h
    cases h
    exact ⟨text, rfl⟩
  | broken reason => cases h
  | timedOut => cases h
  | unreachable => cases h

theorem asks_call (call : Http.Call) :
    (sc.visitCall node call vars).Asks Ask.Visiting (Visit.Revised (.request call) vars) := by
  unfold visitCall
  split
  · exact asks_callFailed _
  · rename_i request _
    refine ⟨trivial, fun answered => ?_⟩
    cases answered with
    | none => exact trivial
    | some attempt =>
      dsimp only [Program.bind]
      cases h : call.read vars request attempt with
      | error fault => exact asks_callFailed _
      | ok body =>
        obtain ⟨text, rfl⟩ := exists_text_of_read h
        exact asks_callAnswered call text

theorem asks_clicked (text : String) (buttons : List Button) (name : Option String)
    (id label : String) :
    (sc.clicked node name id label vars).Asks Ask.Visiting
      (Visit.Revised (.template text buttons name) vars) := by
  unfold clicked
  cases h : keptIn name with
  | none => exact asks_log (.same _)
  | some kept => exact asks_log (.label text buttons h label)

theorem asks_run (a : Action) :
    (sc.run node a vars).Asks Ask.Visiting (Visit.Revised a vars) := by
  unfold run
  split
  · split
    · rename_i t
      generalize placeholders.contains (folded t) = silent
      cases silent <;> exact .same _
    · exact .same _
  · exact .same _
  · split <;> exact .same _
  · exact asks_log (.value _ _)
  · exact asks_condition _ _
  · exact asks_script _
  · exact asks_call _
  · exact asks_delay _
  · exact .same _
  · split
    · exact .same _
    · exact trivial
  · exact .same _
  · exact asks_schedule _ _ _
  · exact .same _
  · exact .same _

theorem asks_resume (a : Action) (reply : Reply) :
    (sc.resume node a reply vars).Asks Ask.Visiting (Visit.Revised a vars) := by
  unfold resume
  split
  · exact .text _ _ _
  · exact trivial
  · exact asks_clicked _ _ _ _ _
  · split
    · exact asks_clicked _ _ _ _ _
    · exact .same _
  · exact trivial

/-- **The visit of a node** asks only what it may, and it changes the variables as the action of the
node may. -/
theorem asks_visit (n : Flow.Node) (st : Step) :
    (sc.visit n st vars).Asks Ask.Visiting (Visit.Revised n.action vars) := by
  refine ⟨trivial, fun aborted => ?_⟩
  cases aborted with
  | true => cases st <;> exact trivial
  | false =>
    cases st with
    | run node => exact asks_run n.action
    | resume node reply => exact asks_resume n.action reply

end Scene

end Turn

end Dialogue
