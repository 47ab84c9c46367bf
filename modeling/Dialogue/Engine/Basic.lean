import Dialogue.Engine.Machine

/-! # Running an engine

An engine is run by making the steps that can be made, in a fixed order: calls before processes,
processes before the sweeper, and the lower number first. Time passes only when nothing else can
happen, and then up to the end of the earliest wait. -/

namespace Dialogue.Machine

/-- The machine after the next step in the fixed order. -/
def next? (peer : Http.Attempt) (m : Machine) : Option Machine :=
  ((List.range m.calls.length).findSome? m.stepCall).or <|
    ((List.range m.processes.length).findSome? fun n => m.stepProcess n peer true).or (m.sweep true)

/-- The machine after as many steps as can be made without time passing, `fuel` at the most. -/
def settle (peer : Http.Attempt) : (fuel : Nat) → Machine → Machine
  | 0, m => m
  | fuel + 1, m =>
    match m.next? peer with
    | some m => settle peer fuel m
    | none => m

/-- The time at which the earliest wait ends. -/
def wake? (m : Machine) : Option Nat := (m.processes.filterMap (·.wake)).min?

/-- The answer to a call. -/
def answer? (m : Machine) (call : Nat) : Option (Outcome Turn.Report) :=
  match m.calls[call]? with
  | some (.answered r) => some r
  | _ => none

/-- The machine when it has answered a call; time passes as needed. -/
def await (peer : Http.Attempt) (call : Nat) : (fuel : Nat) → Machine → Machine
  | 0, m => m
  | fuel + 1, m =>
    let m := m.settle peer (fuel + 1)
    match m.answer? call, m.wake? with
    | none, some wake => await peer call fuel (m.pass (wake - m.time))
    | _, _ => m

/-- Changes the flows of the engine or asks for them. -/
def perform {α : Type} (m : Machine) (p : Procedure α) : Machine × Outcome α :=
  let (world, r) := m.world.perform .unreachable p.run
  ({ m with world }, r)

/-- Changes the store of the engine, or tells why it does not change. -/
def change (m : Machine) (r : Outcome Store) : Machine × Outcome Unit :=
  let (world, r) := m.world.change r
  ({ m with world }, r)

end Dialogue.Machine
