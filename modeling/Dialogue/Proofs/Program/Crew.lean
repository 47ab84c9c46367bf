import Dialogue.Proofs.Program.Always
import Mathlib.Logic.Relation

/-! # Programs side by side

A crew is a number of programs that work in one world at the same time. At every step one of them
asks its next question, or a program joins, or others change the world. So the questions of the
members are interleaved in every way there is.

What a member can rely on is a relation between worlds. If every question asked under its guard
leads on along that relation, then what always holds of a member alone holds of it in a crew.

* `Step.onward`, `Step.member`, `Step.sound`: one step of a crew.
* `Course.onward`, `Course.member`: a whole course.
* `Course.runs`, `Course.cuts`, `Course.does`, `Course.turns`: courses that are told step by
  step. -/

namespace Dialogue

open Program

/-- Programs that work in one world, each with what it was called for. -/
structure Crew {ι : Type} (α : ι → Type) where
  world : World
  members : List (Σ i, Program (α i))

namespace Crew

variable {ι : Type} {α : ι → Type}

/-- What can happen to a crew: others change the world, a program joins, or a member asks its next
question, which has to be asked as it may be. -/
inductive Step (others : World → World → Prop) (joins : (i : ι) → Program (α i) → Prop)
    (asks : World → ι → Ask → Prop) : Crew α → Crew α → Prop
  | aside {c : Crew α} {w : World} (h : others c.world w) :
      Step others joins asks c ⟨w, c.members⟩
  | join {c : Crew α} {i : ι} {p : Program (α i)} (h : joins i p) :
      Step others joins asks c ⟨c.world, c.members ++ [⟨i, p⟩]⟩
  | ask {c : Crew α} {k : Nat} {i : ι} {a : Ask} {next : a.Answer → Program (α i)}
      (h : c.members[k]? = some ⟨i, .ask a next⟩) (ha : asks c.world i a) (circ : Circumstance) :
      Step others joins asks c ⟨(c.world.answer circ a).1,
        c.members.set k ⟨i, next (c.world.answer circ a).2⟩⟩

/-- What a crew comes to in the course of time. -/
abbrev Course (others : World → World → Prop) (joins : (i : ι) → Program (α i) → Prop)
    (asks : World → ι → Ask → Prop) : Crew α → Crew α → Prop :=
  Relation.ReflTransGen (Step others joins asks)

/-- The crew when a program has joined. -/
def joined (c : Crew α) (i : ι) (p : Program (α i)) : Crew α := ⟨c.world, c.members ++ [⟨i, p⟩]⟩

/-- What the members of a crew can rely on: the relation leads on from every world that is kept,
whatever others do and whatever is asked under its guard. -/
structure Relies (others rely : World → World → Prop) (guard : World → Ask → Prop)
    (kept : World → Prop) : Prop where
  refl : ∀ w, rely w w
  trans : ∀ {u v w : World}, rely u v → rely v w → rely u w
  others : ∀ {w w' : World}, others w w' → rely w w'
  answer : ∀ {w : World} {a : Ask} (c : Circumstance), kept w → guard w a →
    rely w (w.answer c a).1
  kept : ∀ {w w' : World}, rely w w' → kept w → kept w'

/-- What holds of a program in a world holds in every world that can be relied on, and of what is
left of it after a question, which it asks under its guard. -/
structure Conduct {β : Type} (rely : World → World → Prop) (guard : World → Ask → Prop)
    (Q : Program β → World → Prop) : Prop where
  onward : ∀ {p : Program β} {w w' : World}, rely w w' → Q p w → Q p w'
  ask : ∀ {a : Ask} {next : a.Answer → Program β} {w : World}, Q (.ask a next) w →
    guard w a ∧ ∀ c, Q (next (w.answer c a).2) (w.answer c a).1

/-- The world is kept, and every member does as it should. -/
structure Sound (P : (i : ι) → Program (α i) → World → Prop) (kept : World → Prop) (c : Crew α) :
    Prop where
  world : kept c.world
  members : ∀ m ∈ c.members, P m.1 m.2 c.world

variable {others rely : World → World → Prop} {guard : World → Ask → Prop} {kept : World → Prop}
  {joins : (i : ι) → Program (α i) → Prop} {asks : World → ι → Ask → Prop}
  {P : (i : ι) → Program (α i) → World → Prop}
  {c c' : Crew α} {k : Nat} {i : ι} {p : Program (α i)} {Q : Program (α i) → World → Prop}

/-- What always holds of a program is such conduct, if its condition for the end holds on. -/
theorem Relies.always {β : Type} {post : β → World → Prop} (hr : Relies others rely guard kept)
    (hpost : ∀ {a u v}, rely u v → post a u → post a v) :
    Conduct rely guard fun p w => p.Always rely guard post w where
  onward {p w w'} hw h := by
    cases p with
    | done a => exact hpost hw h
    | ask a next => exact fun w₁ hb => h w₁ (hr.trans hw hb)
  ask h := h _ (hr.refl _)

/-- A program that asks under the guard ends in a world on which it could rely. -/
theorem Relies.reaches {β : Type} {post : β → World → Prop} {q : Program β} {w : World}
    (hr : Relies others rely guard kept) (hw : kept w) (h : q.Always rely guard post w) :
    q.Always rely guard (fun a w' => post a w' ∧ rely w w' ∧ kept w') w := by
  have hand := h.and (I := fun w' => rely w w' ∧ kept w')
    (fun _ _ hb h => ⟨hr.trans h.1 hb, hr.kept hb h.2⟩)
    (fun _ _ c ha h => ⟨hr.trans h.1 (hr.answer c h.2 ha), hr.kept (hr.answer c h.2 ha) h.2⟩)
    ⟨hr.refl w, hw⟩
  exact hand.imp (fun _ _ h => h.1) fun _ _ h => h

/-- A crew without members. -/
theorem sound_nil {w : World} (h : kept w) : Sound P kept ⟨w, []⟩ := ⟨h, nofun⟩

/-- Every member of a sound crew does as it should. -/
theorem Sound.member (h : Sound P kept c) (hk : c.members[k]? = some ⟨i, p⟩) : P i p c.world :=
  h.members _ (List.mem_of_getElem? hk)

/-- A member that has joined is the last one. -/
theorem getElem?_joined (c : Crew α) (i : ι) (p : Program (α i)) :
    (c.joined i p).members[c.members.length]? = some ⟨i, p⟩ := by
  rw [joined, List.getElem?_append_right (Nat.le_refl _), Nat.sub_self]
  rfl

/-- **A member comes to its end** if it goes on alone and may ask everything. -/
theorem Course.runs (circ : Nat → Circumstance) (n : Nat) (hk : c.members[k]? = some ⟨i, p⟩)
    (hasks : ∀ w a, asks w i a) :
    Course others joins asks c ⟨(World.run circ n p c.world).2.1,
      c.members.set k ⟨i, .done (World.run circ n p c.world).2.2⟩⟩ := by
  induction p generalizing c n with
  | done a =>
    obtain ⟨hlt, hk⟩ := List.getElem?_eq_some_iff.mp hk
    rw [World.run_done]
    dsimp only
    rw [← hk, List.set_getElem_self]
  | ask a next ih =>
    refine .head (.ask hk (hasks _ _) (circ n)) ?_
    have hlt : k < c.members.length := (List.getElem?_eq_some_iff.mp hk).1
    have hrest := ih (c.world.answer (circ n) a).2 (n + 1)
      (c := ⟨(c.world.answer (circ n) a).1,
        c.members.set k ⟨i, next (c.world.answer (circ n) a).2⟩⟩)
      (List.getElem?_set_self hlt)
    rw [List.set_set] at hrest
    exact hrest

/-- **A member comes to its next question but some** if it goes on alone and may ask everything. -/
theorem Course.cuts (circ : Circumstance) (n : Nat) (hk : c.members[k]? = some ⟨i, p⟩)
    (hasks : ∀ w a, asks w i a) :
    Course others joins asks c ⟨(cut circ n p c.world).2,
      c.members.set k ⟨i, (cut circ n p c.world).1⟩⟩ := by
  have hsame {p : Program (α i)} {c : Crew α} (hk : c.members[k]? = some ⟨i, p⟩) :
      Course others joins asks c ⟨c.world, c.members.set k ⟨i, p⟩⟩ := by
    obtain ⟨hlt, hk⟩ := List.getElem?_eq_some_iff.mp hk
    rw [← hk, List.set_getElem_self]
  induction n generalizing c p with
  | zero => cases p <;> exact hsame hk
  | succ n ih =>
    cases p with
    | done a => exact hsame hk
    | ask a next =>
      refine .head (.ask hk (hasks _ _) circ) ?_
      have hlt : k < c.members.length := (List.getElem?_eq_some_iff.mp hk).1
      have hrest := ih (p := next (c.world.answer circ a).2)
        (c := ⟨(c.world.answer circ a).1, c.members.set k ⟨i, next (c.world.answer circ a).2⟩⟩)
        (List.getElem?_set_self hlt)
      rw [List.set_set] at hrest
      exact hrest

/-- **A program may join and come to its end** while nothing else happens. -/
theorem Course.does (circ : Nat → Circumstance) (hj : joins i p) (hasks : ∀ w a, asks w i a)
    (c : Crew α) : ∃ c', Course others joins asks c c' ∧
      c'.world = (World.run circ 0 p c.world).2.1 := by
  have hjoined : Course others joins asks c (c.joined i p) := .single (.join hj)
  have hruns : Course others joins asks (c.joined i p) _ :=
    runs circ 0 (getElem?_joined c i p) hasks
  exact ⟨_, hjoined.trans hruns, rfl⟩

/-- Members ask one question each, in the order of the numbers; it has to be asked as it may be. -/
def turns (asks : World → ι → Ask → Prop) [∀ w i a, Decidable (asks w i a)] (circ : Circumstance) :
    List Nat → Crew α → Option (Crew α)
  | [], c => some c
  | k :: ks, c =>
    match c.members[k]? with
    | some ⟨i, .ask a next⟩ =>
      if asks c.world i a then
        turns asks circ ks ⟨(c.world.answer circ a).1,
          c.members.set k ⟨i, next (c.world.answer circ a).2⟩⟩
      else none
    | _ => none

/-- **Members that take turns** are one of the courses. -/
theorem Course.turns [∀ w i a, Decidable (asks w i a)] {circ : Circumstance} {ks : List Nat}
    (h : c.turns asks circ ks = some c') : Course others joins asks c c' := by
  induction ks generalizing c with
  | nil =>
    obtain rfl := Option.some.inj h
    exact .refl
  | cons k ks ih =>
    unfold Crew.turns at h
    split at h
    · rename_i i a next hk
      split at h
      · rename_i ha
        exact .head (.ask hk ha circ) (ih h)
      · cases h
    · cases h

/-- A program joins that does as it should. -/
theorem Sound.join (hc : Sound P kept c) (h : P i p c.world) : Sound P kept (c.joined i p) := by
  refine ⟨hc.world, fun m hm => ?_⟩
  rcases List.mem_append.mp hm with hm | hm
  · exact hc.members m hm
  · obtain rfl := List.mem_singleton.mp hm
    exact h

section
variable (hr : Relies others rely guard kept) (hP : ∀ i, Conduct rely guard (P i))
include hr hP

/-- **A step** leads on along the relation. -/
theorem Step.onward (hc : Sound P kept c) (hs : Step others joins asks c c') :
    rely c.world c'.world := by
  cases hs with
  | aside h => exact hr.others h
  | join h => exact hr.refl _
  | ask h ha circ => exact hr.answer circ hc.world ((hP _).ask (hc.member h)).1

/-- A member keeps its conduct. -/
theorem Step.member (hQ : Conduct rely guard Q) (hc : Sound P kept c)
    (hs : Step others joins asks c c')
    (hk : c.members[k]? = some ⟨i, p⟩) (hp : Q p c.world) :
    ∃ p', c'.members[k]? = some ⟨i, p'⟩ ∧ Q p' c'.world := by
  have hstays : Q p c'.world := hQ.onward (hs.onward hr hP hc) hp
  have hlt : k < c.members.length := (List.getElem?_eq_some_iff.mp hk).1
  cases hs with
  | aside h => exact ⟨p, hk, hstays⟩
  | join h => exact ⟨p, (List.getElem?_append_left hlt).trans hk, hstays⟩
  | @ask k' i' a next h ha circ =>
    by_cases hkk : k' = k
    · subst hkk
      -- it is the member that asks
      obtain ⟨rfl, hp'⟩ := Sigma.mk.inj (Option.some.inj (hk.symm.trans h))
      cases hp'
      exact ⟨_, List.getElem?_set_self hlt, (hQ.ask hp).2 circ⟩
    · exact ⟨p, (List.getElem?_set_ne hkk).trans hk, hstays⟩

variable (hjoin : ∀ {w i p}, kept w → joins i p → P i p w)
include hjoin

/-- **A sound crew** stays sound, if the programs that join do as they should. -/
theorem Step.sound (hc : Sound P kept c) (hs : Step others joins asks c c') : Sound P kept c' := by
  have hw := hs.onward hr hP hc
  have hstays (m : Σ i, Program (α i)) (hm : m ∈ c.members) : P m.1 m.2 c'.world :=
    (hP _).onward hw (hc.members m hm)
  have hkept := hr.kept hw hc.world
  cases hs with
  | aside h => exact ⟨hkept, hstays⟩
  | join h => exact hc.join (hjoin hc.world h)
  | @ask k i a next h ha circ =>
    refine ⟨hkept, fun m hm => ?_⟩
    rcases List.mem_or_eq_of_mem_set hm with hm | rfl
    · exact hstays m hm
    · exact ((hP i).ask (hc.member h)).2 circ

/-- **A course** leads on along the relation, and leaves a sound crew sound. -/
theorem Course.onward (hc : Sound P kept c) (h : Course others joins asks c c') :
    rely c.world c'.world ∧ Sound P kept c' := by
  induction h with
  | refl => exact ⟨hr.refl _, hc⟩
  | tail _ hs ih => exact ⟨hr.trans ih.1 (hs.onward hr hP ih.2), hs.sound hr hP hjoin ih.2⟩

/-- A member keeps its conduct in the course of time. -/
theorem Course.member (hQ : Conduct rely guard Q) (hc : Sound P kept c)
    (h : Course others joins asks c c') (hk : c.members[k]? = some ⟨i, p⟩) (hp : Q p c.world) :
    ∃ p', c'.members[k]? = some ⟨i, p'⟩ ∧ Q p' c'.world := by
  induction h with
  | refl => exact ⟨p, hk, hp⟩
  | tail hcourse hs ih =>
    obtain ⟨p', hk', hp'⟩ := ih
    exact hs.member hr hP hQ (Course.onward hr hP hjoin hc hcourse).2 hk' hp'

end

end Crew

end Dialogue
