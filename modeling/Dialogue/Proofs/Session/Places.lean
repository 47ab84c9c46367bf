import Dialogue.Proofs.Registry.Shelves
import Dialogue.Proofs.Turn.Places

/-! # Where stored sessions stand

A stored session runs on a stored version of its flow and points to nodes of that version. A command
keeps this up, whether it goes on with the version of the session or takes up the live one: it goes
on with the live version only if the node is there as well.

* `Plans.placed`: the turn that a command plans begins before a node of its flow.
* `Writes.placed`: every session that a command keeps points to nodes of its version.
* `Lacks.live`: a command never lacks the version of its session. -/

namespace Dialogue

open Turn World Program

/-- The flow is a stored version, of a number that fits its column. -/
structure Store.Keeps (s : Store) (f : Flow) : Prop where
  flow : (s.flows.row? f.id).isSome
  version : s.versionFlow f.id f.version = .ok f
  small : f.version < 0x8000000000000000

/-- The live versions of all flows are stored versions. -/
def Store.KeepsLive (s : Store) : Prop := ∀ flow f, s.liveFlow flow = .ok f → s.Keeps f

/-- The row is that of a session on a stored version, and points to nodes of it. -/
def SessionRow.Placed (s : Store) (r : SessionRow) : Prop :=
  ∃ f halt, s.Keeps f ∧ r.flowId = f.id ∧ r.flowVersion = f.version ∧
    r.halt.mapM (Decode.ofText .convert Halt.decode) = .ok halt ∧
    f.Places r.currentNode r.pendingNode halt

variable {s : Store} {r r₀ : SessionRow} {x y : Session} {f g : Flow}

/-! ### Rows and sessions -/

theorem SessionRow.Placed.session (h : r.Placed s) (hx : r.toSession = .ok x) :
    ∃ f, s.Keeps f ∧ x.Placed f := by
  obtain ⟨f, halt, hf, hid, hv, hhalt, hplaces⟩ := h
  obtain ⟨-, hxid, hxv, -, hxc, hxp, -, -, hxh⟩ := SessionRow.toSession_eq_ok hx
  refine ⟨f, hf, hxid.trans hid, ?_, ?_⟩
  · rw [hxv, hv, ofSigned64_natCast]
  · obtain rfl : halt = x.halt := Except.ok.inj (hhalt.symm.trans hxh)
    rw [hxc, hxp]
    exact hplaces

theorem Halt.mapM_ofText (h : Option Halt) :
    (h.map fun x => x.toJson.text).mapM (Decode.ofText .convert decode) = .ok h := by
  cases h with
  | none => rfl
  | some x =>
    rw [Option.map_some, Option.mapM_some, x.ofText_toJson]
    rfl

theorem Session.Placed.row (h : x.Placed f) (hf : s.Keeps f) :
    (SessionRow.ofSession x).Placed s := by
  obtain ⟨hid, hv, hplaces⟩ := h
  refine ⟨f, x.halt, hf, hid, ?_, Halt.mapM_ofText x.halt, hplaces⟩
  simp only [SessionRow.ofSession]
  rw [hv, toSigned64_eq hf.small]

/-! ### Flows -/

theorem Store.Keeps.sound (h : s.Keeps f) : f.Sound := (Store.versionFlow_sound h.version).2.2

theorem Store.liveFlow_id {flow : String} (h : s.liveFlow flow = .ok f) : f.id = flow := by
  obtain ⟨d, -, -, hv⟩ := Store.liveFlow_eq_ok h
  exact (Store.versionFlow_sound hv).1

/-- The version of a session is the flow on which it stands. -/
theorem Session.Placed.versionFlow (h : x.Placed f) (hf : s.Keeps f) :
    s.versionFlow x.flowId x.flowVersion = .ok f := by
  rw [h.flow, h.version]
  exact hf.version

/-- A session waits at a node of the flow on which it stands. -/
theorem Session.Placed.executes_current {node : String} (h : x.Placed f) (hf : s.Keeps f)
    (hn : x.currentNode = some node) : f.Executes node := by
  obtain ⟨n, hnode, -⟩ := h.places.current node hn
  exact ⟨n, hnode, (hf.sound.of_node? hnode).kind⟩

/-- A session goes on with its own version, or with the live one if the node is there. -/
theorem Library.Resumes.own_or_live {b : Settings.Binding} {node : String}
    (h : (ofStore s).Resumes b x node (.ok g)) (hx : x.Placed f) (hf : s.Keeps f) :
    g = f ∨ b = .latest ∧ s.liveFlow x.flowId = .ok g ∧ (g.node? node).isSome = true := by
  have hown (h : (ofStore s).version x.flowId x.flowVersion (.ok g)) : g = f :=
    Except.ok.inj (h.trans (hx.versionFlow hf))
  cases h with
  | pinned hb h => exact .inl (hown h)
  | older hb h hn hv => exact .inl (hown hv)
  | live hb h hn => exact .inr ⟨hb, h.symm, hn⟩

/-- A session goes on at a node of the flow that it takes up. -/
theorem Library.Resumes.placed {b : Settings.Binding} {node : String}
    (h : (ofStore s).Resumes b x node (.ok g)) (hx : x.Placed f) (hf : s.Keeps f)
    (hlive : s.KeepsLive) (hnode : f.Executes node) :
    s.Keeps g ∧ x.flowId = g.id ∧ g.Executes node := by
  rcases h.own_or_live hx hf with rfl | ⟨-, hg, hn⟩
  · exact ⟨hf, hx.flow, hnode⟩
  · obtain ⟨n, hn⟩ := Option.isSome_iff_exists.mp hn
    have hkeeps := hlive _ g hg
    exact ⟨hkeeps, (Store.liveFlow_id hg).symm, n, hn, (hkeeps.sound.of_node? hn).kind⟩

/-- A session takes up a flow unless there is no live one. -/
theorem Library.Resumes.live_of_error {b : Settings.Binding} {node : String} {e : Failure}
    (h : (ofStore s).Resumes b x node (.error e)) (hx : x.Placed f) (hf : s.Keeps f) :
    s.liveFlow x.flowId = .error e := by
  have hown (h : (ofStore s).version x.flowId x.flowVersion (.error e)) : False := by
    have h := h.trans (hx.versionFlow hf)
    cases h
  cases h with
  | pinned hb h => exact (hown h).elim
  | older hb h hn hv => exact (hown hv).elim
  | lost hb h => exact h.symm

namespace Command

variable {settings : Settings} {sid : String} {c : Command} {p : Plan} {told : List Delivery}

/-- **The turn that a command plans** begins before a node of its flow. -/
theorem Plans.placed (h : Plans settings (.ofStore s) x c p) (hx : x.Placed f) (hf : s.Keeps f)
    (hlive : s.KeepsLive) :
    s.Keeps p.flow ∧ p.session.flowId = p.flow.id ∧ p.flow.Executes p.step.node := by
  have hown {g : Flow} (h : (Library.ofStore s).version x.flowId x.flowVersion (.ok g)) :
      f = g :=
    (Except.ok.inj (h.trans (hx.versionFlow hf))).symm
  cases h with
  | start h =>
    obtain rfl := hown h
    exact ⟨hf, hx.flow, hf.sound.executes_start⟩
  | recover hn h =>
    obtain rfl := hown h
    exact ⟨hf, hx.flow, hx.places.pending _ hn⟩
  | reply hq hn h | click hp hn h ha hk =>
    exact h.placed hx hf hlive (hx.executes_current hf hn)
  | retry hq hn hh hr h => exact h.placed hx hf hlive (hx.places.halt _ hh).1
  | @giveBack g node hq h ha =>
    have hg : s.liveFlow x.flowId = .ok g := h.symm
    obtain ⟨n, hn⟩ := Option.isSome_iff_exists.mp ha
    have hkeeps := hlive _ g hg
    exact ⟨hkeeps, (Store.liveFlow_id hg).symm, n, hn, (hkeeps.sound.of_node? hn).kind⟩

theorem Plan.Begins.placed (hb : p.Begins r₀ y r told) (hid : p.session.flowId = p.flow.id)
    (hx : p.flow.Executes p.step.node) : (p.start y).Placed p.flow := by
  cases hb with
  | silent _ => exact ⟨⟨hid, rfl, rfl, rfl⟩, hx⟩
  | said _ id now => exact ⟨⟨hid, rfl, rfl, rfl⟩, hx⟩

theorem Direct.placed {e : Ending} (h : Direct x c y e) (hx : x.Placed f) : y.Placed f := by
  cases h with
  | relay hq id now => exact ⟨hx.flow, hx.version, hx.places⟩
  | close now => exact ⟨hx.flow, hx.version, nofun, nofun, hx.places.halt⟩
  | assign hq now => exact ⟨hx.flow, hx.version, hx.places⟩

/-- **Every session that a command keeps** points to nodes of its version. -/
theorem Writes.placed (h : Writes settings (.ofStore s) sid c r₀ r y) (h₀ : r₀.Placed s)
    (hlive : s.KeepsLive) : (SessionRow.ofSession y).Placed s := by
  cases h with
  | direct hs hd =>
    obtain ⟨f, hf, hx⟩ := h₀.session hs.1
    exact (hd.placed hx).row hf
  | @record x p text hs hp ht id now =>
    obtain ⟨f, hf, hx⟩ := h₀.session hs.1
    have hrecorded : (recorded p.session text id now).Placed f := by
      rw [hp.session_of_said ht]
      exact ⟨hx.flow, hx.version, hx.places⟩
    exact hrecorded.row hf
  | turn hs hp hb ht =>
    obtain ⟨f, hf, hx⟩ := h₀.session hs.1
    obtain ⟨hkeeps, hid, hnode⟩ := hp.placed hx hf hlive
    exact (ht.placed hkeeps.sound (hb.placed hid hnode)).row hkeeps

/-- A command never lacks the version of its session, only a live one. -/
theorem Lacks.live {e : Failure} (h : Lacks settings (.ofStore s) x c e) (hx : x.Placed f)
    (hf : s.Keeps f) : s.liveFlow x.flowId = .error e := by
  have hown (h : (Library.ofStore s).version x.flowId x.flowVersion (.error e)) : False := by
    have h := h.trans (hx.versionFlow hf)
    cases h
  cases h with
  | start h => exact (hown h).elim
  | recover hn h => exact (hown h).elim
  | reply hq hn h => exact h.live_of_error hx hf
  | retry hq hn hh hr h => exact h.live_of_error hx hf
  | click hp hn h => exact h.live_of_error hx hf
  | giveBack hq h => exact h.symm

end Command

end Dialogue
