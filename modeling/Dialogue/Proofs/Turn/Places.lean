import Dialogue.Proofs.Flow.Compile
import Dialogue.Proofs.Turn.Course

/-! # Where a turn may stand

A turn on a sound flow stands before nodes of that flow only, and so every session that it keeps
points to nodes of that flow. In particular no turn comes to a node that is missing.

* `Transition.route_go`: from a node the turn goes on at an executable node.
* `Writes.placed`, `Comes.placed`: what a turn keeps, and where it stands. -/

namespace Dialogue

open Turn

/-- The node is one that waits for the customer. -/
def NodeKind.IsWaiting (k : NodeKind) : Prop := k = .input ∨ k = .template

/-- What waits, what is pending and what was halted are nodes of the flow, of kinds that may be so.
No node was missing where a turn halted. -/
structure Flow.Places (f : Flow) (current pending : Option String) (halt : Option Halt) : Prop where
  current : ∀ node, current = some node → ∃ n, f.node? node = some n ∧ n.kind.IsWaiting
  pending : ∀ node, pending = some node → f.Executes node
  halt : ∀ h, halt = some h → f.Executes h.nodeId ∧
    (h.kind = .graphIntegrity → h.retryable = true)

/-- The session runs on the flow and points to nodes of it. -/
structure Session.Placed (s : Session) (f : Flow) : Prop where
  flow : s.flowId = f.id
  version : s.flowVersion = f.version
  places : f.Places s.currentNode s.pendingNode s.halt

theorem Flow.Places.none (f : Flow) : f.Places none none none := by
  constructor <;> nofun

theorem Flow.Sound.isWaiting {f : Flow} (hf : f.Sound) {node : String} {n : Flow.Node}
    (hn : f.node? node = some n) (h : n.action.kind.IsWaiting) : n.kind.IsWaiting := by
  have ha := (hf.of_node? hn).action
  unfold NodeKind.IsWaiting at h ⊢
  rw [ha] at h
  cases hk : n.kind <;> rw [hk] at h <;> simp_all [Action.actualKind]

namespace Turn

/-- A session in hand that waits for nothing, on the flow. -/
structure InHand (f : Flow) (s : Session) : Prop where
  flow : s.flowId = f.id
  version : s.flowVersion = f.version
  current : s.currentNode = none
  halt : s.halt = none

/-- Before its end a turn stands before a node of the flow, or before a halt at one. -/
def Stand.Placed (f : Flow) : Stand → Prop
  | .before s st => InHand f s ∧ f.Executes st.node
  | .halting s h => InHand f s ∧ f.Executes h.nodeId ∧
      (h.kind = .graphIntegrity → h.retryable = true)
  | .over _ _ => True

/-! ### Routes -/

namespace Transition

variable {f : Flow} {node next : String} {t : Transition}

/-- From a node the turn goes on at an executable node. -/
theorem route_go (hf : f.Sound) (h : t.route f node = .go next)
    (hj : ∀ target, t = .jump target → ∃ name, f.anchor? name = some target) : f.Executes next := by
  cases t with
  | next way | branch way =>
    simp only [route] at h
    split at h
    · rename_i target hn
      cases h
      exact hf.next hn
    · cases h
    · cases h
  | only =>
    simp only [route] at h
    split at h
    · rename_i target hn
      cases h
      exact hf.nextSingle hn
    · cases h
    · cases h
  | jump target =>
    obtain ⟨name, hname⟩ := hj target rfl
    cases h
    exact hf.anchor hname
  | pause | handoff | close | unmatched => cases h

/-- Where the graph does not say where to go on the node can be tried again. -/
theorem route_halt {kind : Halt.Kind} {text : String} {again : Bool}
    (h : t.route f node = .halt kind text again) : kind = .graphIntegrity → again = true := by
  cases t with
  | next way | branch way | only =>
    simp only [route] at h
    split at h <;> cases h <;> exact fun _ => rfl
  | unmatched => cases h; nofun
  | jump | pause | handoff | close => cases h

theorem route_pause (h : t.route f node = .pause) : t = .pause := by
  cases t with
  | next way | branch way | only =>
    simp only [route] at h
    split at h <;> cases h
  | pause => rfl
  | jump | handoff | close | unmatched => cases h

end Transition

/-! ### Steps of a turn -/

namespace Scene

variable {sc : Scene} {start stand next : Stand} {r₀ r : SessionRow} {s y : Session} {st : Step}
  {h : Halt}

/-- A step that comes to nothing halts at its node, which is not missing. -/
theorem Faults.placed (hf : sc.Faults s st h) (hs : sc.flow.Executes st.node) :
    h.nodeId = st.node ∧ (h.kind = .graphIntegrity → h.retryable = true) := by
  cases hf with
  | budget => exact ⟨rfl, nofun⟩
  | missing hn =>
    obtain ⟨n, hn', -⟩ := hs
    rw [hn] at hn'
    cases hn'
  | failed => exact ⟨rfl, fun _ => rfl⟩

/-- **A write** points to nodes of the flow, and leads to one. -/
theorem Writes.placed (hf : sc.flow.Sound) (h : sc.Writes stand y next)
    (hs : stand.Placed sc.flow) : y.Placed sc.flow ∧ next.Placed sc.flow := by
  cases h with
  | halt s h diagnosis now =>
    obtain ⟨⟨hid, hv, -, -⟩, hx⟩ := hs
    refine ⟨⟨hid, hv, nofun, nofun, ?_⟩, trivial⟩
    rintro _ ⟨⟩
    exact hx
  | @node s st o route ho hr spoken now =>
    obtain ⟨⟨hid, hv, hc, hh⟩, hx⟩ := hs
    obtain ⟨n, hn, hfits⟩ := ho.fits
    have hcurrent (node : String) (h : s.currentNode = some node) :
        ∃ n, sc.flow.node? node = some n ∧ n.kind.IsWaiting := by rw [hc] at h; cases h
    have hhalt (x : Halt) (h : s.halt = some x) : sc.flow.Executes x.nodeId ∧
        (x.kind = .graphIntegrity → x.retryable = true) := by rw [hh] at h; cases h
    cases route with
    | go next =>
      have hnext := Transition.route_go hf hr hfits.jump
      refine ⟨⟨hid, hv, hcurrent, ?_, hhalt⟩, ⟨hid, hv, hc, hh⟩, hnext⟩
      rintro _ ⟨⟩
      exact hnext
    | pause =>
      refine ⟨⟨hid, hv, ?_, nofun, hhalt⟩, trivial⟩
      rintro _ ⟨⟩
      exact ⟨n, hn, hf.isWaiting hn (hfits.pause (Transition.route_pause hr))⟩
    | halt kind text again =>
      exact ⟨⟨hid, hv, hcurrent, nofun, hhalt⟩, ⟨hid, hv, hc, hh⟩, hx, Transition.route_halt hr⟩
    | finish | handoff | close => exact ⟨⟨hid, hv, hcurrent, nofun, hhalt⟩, trivial⟩

/-- **A turn** stands before nodes of its flow. -/
theorem Comes.placed (hf : sc.flow.Sound) (h : sc.Comes start r₀ stand r)
    (hs : start.Placed sc.flow) : stand.Placed sc.flow := by
  induction h with
  | begun => exact hs
  | fault _ hx ih =>
    obtain ⟨hid, hkind⟩ := hx.placed ih.2
    exact ⟨ih.1, hid ▸ ih.2, hkind⟩
  | wrote _ hw ih => exact (hw.placed hf ih).2

theorem Turns.placed (hf : sc.flow.Sound) (h : sc.Turns start r₀ r y)
    (hs : start.Placed sc.flow) : y.Placed sc.flow := by
  obtain ⟨stand, next, hc, hw⟩ := h
  exact (hw.placed hf (hc.placed hf hs)).1

end Scene

end Turn

end Dialogue
