import Dialogue.Proofs.Engine.Serial
import Mathlib.Data.Nat.Pairing

/-! # Every command is answered

As long as every process gets its turn again and again and time goes on, each command that a process
has accepted is answered.

* `Process.exists_step`: a process that has commands can go on, at the latest when its wait is over.
* `Fair.lively`: where it gets its turn it does go on.
* `Lively.nearer`: each command gets nearer to its answer: it is answered, or fewer commands are
  before it.
* `serializes`: what becomes of the commands of a session. -/

namespace Dialogue

namespace Process

variable {settings : Settings} {p p' p'' : Process} {n d : Nat}

/-- The wait of the process is over by that time, if it is in one. -/
def IsDue (p : Process) (time : Nat) : Prop := ∀ wake, p.wake = some wake → wake ≤ time

theorem exists_ask {time : Nat} (hd : p.IsDue time) (w : World) (peer : Http.Attempt) (call : Nat)
    (a : Ask) (next : a.Answer → Program (Outcome Turn.Report)) :
    ∃ e, p.ask w time peer call a next = some e := by
  unfold ask
  split
  · exact ⟨_, rfl⟩
  · exact ⟨_, rfl⟩
  · split
    · exact ⟨_, rfl⟩
    · have hwake := hd _ ‹_›
      rw [if_pos (Bool.or_eq_true_iff.mpr (.inr (decide_eq_true hwake)))]
      exact ⟨_, rfl⟩
  · exact ⟨_, rfl⟩

theorem items_ne_nil_of_held (hn : n ∈ p.held) (hw : ∀ call rest, p.work ≠ .busy call rest) :
    p.queue.items ≠ [] := by
  intro hnil
  unfold held at hn
  rw [hnil, List.map_nil, List.append_nil] at hn
  split at hn
  · exact hw _ _ ‹_›
  · cases hn

/-- A process that has commands can go on once its wait is over. -/
theorem exists_step {time : Nat} (hs : p.Sound) (hn : n ∈ p.held) (hd : p.IsDue time)
    (settings : Settings) (w : World) (peer : Http.Attempt) (heed : Bool) :
    ∃ e, p.step settings w time peer heed = some e := by
  unfold step
  split
  · rename_i hw
    split
    · exact ⟨_, rfl⟩
    · obtain ⟨hnil, -⟩ | ⟨x, rest, -, hq⟩ := next?_cases p.queue
      · exact absurd hnil (items_ne_nil_of_held hn fun _ _ h => nomatch hw.symm.trans h)
      · rw [hq]
        exact ⟨_, rfl⟩
  · exact ⟨_, rfl⟩
  · exact exists_ask hd w peer _ _ _
  · exact ⟨_, rfl⟩
  · split <;> exact ⟨_, rfl⟩
  · rename_i hw
    have hnil := hs.finished hw
    exact absurd hnil (items_ne_nil_of_held hn fun _ _ h => nomatch hw.symm.trans h)

/-- The process has not done anything since, but commands may have come in. -/
structure Gains (p p' : Process) : Prop where
  work : p'.work = p.work
  wake : p'.wake = p.wake
  items : ∃ more, p'.queue.items = p.queue.items ++ more

theorem Gains.refl (p : Process) : p.Gains p := ⟨rfl, rfl, [], (List.append_nil _).symm⟩

theorem Gains.trans (h : p.Gains p') (h' : p'.Gains p'') : p.Gains p'' := by
  obtain ⟨more, hmore⟩ := h.items
  obtain ⟨more', hmore'⟩ := h'.items
  refine ⟨h'.work.trans h.work, h'.wake.trans h.wake, more ++ more', ?_⟩
  rw [hmore', hmore, List.append_assoc]

/-- The process has the command of the call, with that many others before it. -/
def Owes (p : Process) (n d : Nat) : Prop := n ∈ p.held ∧ p.held.idxOf n = d

theorem Gains.owes (h : p.Gains p') (hn : p.Owes n d) : p'.Owes n d := by
  obtain ⟨more, hmore⟩ := h.items
  have hheld : p'.held = p.held ++ more.map (·.call) := by
    unfold held
    rw [h.work, hmore, List.map_append, List.append_assoc]
  unfold Owes
  rw [hheld]
  exact ⟨List.mem_append_left _ hn.1, (List.idxOf_append_of_mem hn.1).trans hn.2⟩

/-- A step answers the call, or another one that is before it, or none. -/
theorem Does.owes {e : Effect} (h : p.Does settings e) (hn : p.Owes n d) :
    (∃ r, e.reply = some (n, r)) ∨ (∃ d', d' < d ∧ e.process.Owes n d') ∨
      e.reply = none ∧ e.process.Owes n d := by
  obtain ⟨hn, rfl⟩ := hn
  have hheld := h.held_eq
  cases hreply : e.reply with
  | none =>
    rw [hreply] at hheld
    change p.held = e.process.held at hheld
    exact .inr (.inr ⟨rfl, hheld ▸ hn, by rw [hheld]⟩)
  | some x =>
    obtain ⟨c, r⟩ := x
    rw [hreply] at hheld
    change p.held = c :: e.process.held at hheld
    by_cases hc : c = n
    · exact .inl ⟨r, by rw [hc]⟩
    · rw [hheld] at hn ⊢
      rw [List.idxOf_cons_ne _ hc]
      have hn' := (List.mem_cons.mp hn).resolve_left (Ne.symm hc)
      exact .inr (.inl ⟨_, Nat.lt_succ_self _, hn', rfl⟩)

end Process

namespace Machine

open Process

variable {m m' : Machine} {n k : Nat} {p p' : Process}

theorem Turns.gains_or_does (h : m.Turns m' p p') : p.Gains p' ∨
    ∃ e, p.Does m.settings e ∧ p' = e.process ∧ m'.calls = answering m.calls e.reply := by
  cases h with
  | alike ha => exact .inl ⟨ha.work, ha.wake, [], by rw [ha.queue, List.append_nil]⟩
  | gets x => exact .inl ⟨rfl, rfl, [x], rfl⟩
  | does he hc => exact .inr ⟨_, he, rfl, hc⟩

/-! ### Processes get their turn -/

/-- Every process gets its turn again and again, and time goes on. -/
structure Fair (what : Nat → Happening) : Prop where
  turns : ∀ k i, ∃ j peer heed, i ≤ j ∧ what j = .step (.process k peer heed)
  time : ∀ i, ∃ j d, i ≤ j ∧ 0 < d ∧ what j = .pass d

/-- At that moment the process of that number does something. -/
structure Acts (run : Nat → Machine) (i k : Nat) (p : Process) (e : Effect) : Prop where
  before : (run i).processes[k]? = some p
  does : p.Does (run i).settings e
  after : (run (i + 1)).processes[k]? = some e.process
  calls : (run (i + 1)).calls = answering (run i).calls e.reply

/-- The call is answered, or the process has its command with fewer others before it. -/
def Nearer (m : Machine) (k n d : Nat) : Prop :=
  (∃ r, m.calls[n]? = some (.answered r)) ∨
    ∃ p d', m.processes[k]? = some p ∧ p.Owes n d' ∧ d' < d

theorem Acts.nearer {run : Nat → Machine} (hrun : Proceeds run) {i d : Nat} {e : Effect}
    (h : Acts run i k p e) (hn : p.Owes n d) :
    (run (i + 1)).Nearer k n d ∨ e.reply = none ∧ e.process.Owes n d := by
  obtain ⟨r, hr⟩ | ⟨d', hd', hn'⟩ | hquiet := h.does.owes hn
  · refine .inl (.inl ⟨r, ?_⟩)
    rw [h.calls, hr]
    exact set_self ((hrun.orderly i).waits h.before hn.1)
  · exact .inl (.inr ⟨_, d', h.after, hn', hd'⟩)
  · exact .inr hquiet

/-- Until a moment a process has done nothing, or it did something before. -/
theorem Proceeds.gains_or_acts {run : Nat → Machine} (hrun : Proceeds run) {i j : Nat}
    (hp : (run i).processes[k]? = some p) (hij : i ≤ j) :
    (∃ p', (run j).processes[k]? = some p' ∧ p.Gains p') ∨
      ∃ t q e, i ≤ t ∧ p.Gains q ∧ Acts run t k q e := by
  induction hij with
  | refl => exact .inl ⟨p, hp, .refl p⟩
  | @step j hij ih =>
    rcases ih with ⟨q, hq, hg⟩ | h
    · obtain ⟨q', hq', ht⟩ := (hrun.moves j).process hq
      obtain hg' | ⟨e, he, rfl, hc⟩ := ht.gains_or_does
      · exact .inl ⟨q', hq', hg.trans hg'⟩
      · exact .inr ⟨j, q, e, hij, hg, hq, he, hq', hc⟩
    · exact .inr h

/-- A run in which a process that has commands does something in the end. -/
structure Lively (run : Nat → Machine) : Prop extends Proceeds run where
  acts : ∀ {i k n : Nat} {p : Process}, (run i).processes[k]? = some p → n ∈ p.held →
    ∃ j q e, i ≤ j ∧ p.Gains q ∧ Acts run j k q e

section
variable {what : Nat → Happening} (hfair : Fair what)

theorem time_course_le {i j : Nat} (hij : i ≤ j) :
    (m.course what i).time ≤ (m.course what j).time := by
  induction hij with
  | refl => exact Nat.le_refl _
  | step _ ih => exact Nat.le_trans ih (time_after _ _)

include hfair

/-- It gets later and later. -/
theorem Fair.late (m : Machine) (t i : Nat) : ∃ j, i ≤ j ∧ t ≤ (m.course what j).time := by
  induction t with
  | zero => exact ⟨i, Nat.le_refl i, Nat.zero_le _⟩
  | succ t ih =>
    obtain ⟨j, hij, ht⟩ := ih
    obtain ⟨l, d, hjl, hd, hwhat⟩ := hfair.time j
    refine ⟨l + 1, by omega, ?_⟩
    have hl : t ≤ (m.course what l).time := Nat.le_trans ht (time_course_le hjl)
    show t + 1 ≤ ((m.course what l).after (what l)).time
    rw [hwhat]
    show t + 1 ≤ (m.course what l).time + d
    omega

/-- Where processes get their turn they do something. -/
theorem Fair.lively (hrun : Proceeds (m.course what)) : Lively (m.course what) where
  toProceeds := hrun
  acts {i k n p} hp hn := by
    obtain ⟨t, hit, ht⟩ := hfair.late m (p.wake.getD 0) i
    obtain ⟨j, peer, heed, htj, hwhat⟩ := hfair.turns k t
    have hij := Nat.le_trans hit htj
    obtain ⟨q, hq, hg⟩ | ⟨l, q, e, hil, hg, hacts⟩ := hrun.gains_or_acts hp hij
    · have hd : q.IsDue (m.course what j).time := by
        intro wake hwake
        rw [hg.wake] at hwake
        rw [hwake] at ht
        exact Nat.le_trans ht (time_course_le htj)
      obtain ⟨hn', -⟩ := hg.owes ⟨hn, rfl⟩
      obtain ⟨e, he⟩ := exists_step ((hrun.orderly j).sound hq) hn' hd (m.course what j).settings
        (m.course what j).world peer heed
      have hstep := stepProcess_eq hq he
      have hafter : m.course what (j + 1) =
          ((m.course what j).stepProcess k peer heed).getD (m.course what j) :=
        congrArg (m.course what j).after hwhat
      rw [hstep] at hafter
      refine ⟨j, q, e, hij, hg, hq, does_of_step he, ?_, ?_⟩ <;> rw [hafter]
      · exact set_self hq
      · rfl
    · exact ⟨l, q, e, hil, hg, hacts⟩

end

/-! ### Commands get their answers -/

/-- From that moment on there comes one at which this is so. -/
def Eventually (run : Nat → Machine) (i : Nat) (P : Machine → Prop) : Prop := ∃ j, i ≤ j ∧ P (run j)

theorem Eventually.of_le {run : Nat → Machine} {i j : Nat} {P : Machine → Prop}
    (h : Eventually run j P) (hij : i ≤ j) : Eventually run i P := by
  obtain ⟨l, hjl, hl⟩ := h
  exact ⟨l, Nat.le_trans hij hjl, hl⟩

section
variable {run : Nat → Machine} (hrun : Lively run) {i d : Nat}
include hrun

/-- A process that owes an answer comes nearer to it, or does something without an answer. -/
theorem Lively.goes (hp : (run i).processes[k]? = some p) (hn : p.Owes n d) :
    Eventually run i (·.Nearer k n d) ∨
      ∃ j q e settings, i ≤ j ∧ p.Gains q ∧ q.Does settings e ∧ e.reply = none ∧
        (run j).processes[k]? = some e.process ∧ e.process.Owes n d := by
  obtain ⟨j, q, e, hij, hg, hacts⟩ := hrun.acts hp hn.1
  rcases hacts.nearer hrun.toProceeds (hg.owes hn) with h | ⟨hquiet, hn'⟩
  · exact .inl ⟨j + 1, Nat.le_succ_of_le hij, h⟩
  · exact .inr ⟨j + 1, q, e, _, Nat.le_succ_of_le hij, hg, hacts.does, hquiet, hacts.after, hn'⟩

theorem Lively.nearer_draining (hp : (run i).processes[k]? = some p) (hn : p.Owes n d)
    (hw : p.work = .draining) : Eventually run i (·.Nearer k n d) := by
  obtain h | ⟨j, q, e, settings, hij, hg, he, hquiet, hq, hn'⟩ := hrun.goes hp hn
  · exact h
  · have hw' := hg.work.trans hw
    cases he with
    | heeds _ h | takes _ h | asks _ h | answers _ h | retires _ h | stays _ h =>
      cases hw'.symm.trans h
    | dismisses => cases hquiet
    | finishes _ _ hnil =>
      exact absurd hnil (items_ne_nil_of_held (hg.owes hn).1 fun _ _ h => nomatch hw'.symm.trans h)

/-- A process comes to the end of its work: by induction on what is left to do, where a delay takes
two turns, one to begin it and one to end it. -/
theorem Lively.nearer_busy {call : Nat} {rest : Program (Outcome Turn.Report)}
    (hp : (run i).processes[k]? = some p) (hn : p.Owes n d) (hw : p.work = .busy call rest) :
    Eventually run i (·.Nearer k n d) := by
  induction rest generalizing i p with
  | done r =>
    obtain h | ⟨j, q, e, settings, hij, hg, he, hquiet, hq, hn'⟩ := hrun.goes hp hn
    · exact h
    · have hw' := hg.work.trans hw
      cases he with
      | heeds _ h | takes _ h | asks _ h | retires _ h | stays _ h | dismisses _ h | finishes _ h =>
        cases hw'.symm.trans h
      | answers => cases hquiet
  | ask a next ih =>
    -- it goes on by the answer, or begins to wait
    have hgo {i : Nat} {p : Process} (hp : (run i).processes[k]? = some p) (hn : p.Owes n d)
        (hw : p.work = .busy call (.ask a next)) : Eventually run i (·.Nearer k n d) ∨
          p.wake = none ∧ ∃ j p', i ≤ j ∧ (run j).processes[k]? = some p' ∧ p'.Owes n d ∧
            p'.work = .busy call (.ask a next) ∧ p'.wake.isSome = true := by
      obtain h | ⟨j, q, e, settings, hij, hg, he, hquiet, hq, hn'⟩ := hrun.goes hp hn
      · exact .inl h
      · have hw' := hg.work.trans hw
        cases he with
        | heeds _ h | takes _ h | answers _ h | retires _ h | stays _ h | dismisses _ h
          | finishes _ h => cases hw'.symm.trans h
        | asks _ h _ _ _ hnext =>
          cases hw'.symm.trans h
          obtain ⟨x, hx⟩ | ⟨hwake, hsame, hwake'⟩ := hnext
          · exact .inl ((ih x hq hn' hx).of_le hij)
          · exact .inr ⟨hg.wake.symm.trans hwake, j, _, hij, hq, hn', hsame.trans hw', hwake'⟩
    rcases hgo hp hn hw with h | ⟨-, j, p', hij, hp', hn', hw', hwake⟩
    · exact h
    · rcases hgo hp' hn' hw' with h | ⟨hnone, -⟩
      · exact h.of_le hij
      · rw [hnone] at hwake
        cases hwake

theorem Lively.nearer_idle (hp : (run i).processes[k]? = some p) (hn : p.Owes n d)
    (hw : p.work = .idle) : Eventually run i (·.Nearer k n d) := by
  obtain h | ⟨j, q, e, settings, hij, hg, he, hquiet, hq, hn'⟩ := hrun.goes hp hn
  · exact h
  · have hw' := hg.work.trans hw
    cases he with
    | asks _ h | answers _ h | retires _ h | stays _ h | dismisses _ h | finishes _ h =>
      cases hw'.symm.trans h
    | heeds => exact (hrun.nearer_draining hq hn' rfl).of_le hij
    | takes => exact (hrun.nearer_busy hq hn' rfl).of_le hij

theorem Lively.nearer_answered (hp : (run i).processes[k]? = some p) (hn : p.Owes n d)
    (hw : p.work = .answered) : Eventually run i (·.Nearer k n d) := by
  obtain h | ⟨j, q, e, settings, hij, hg, he, hquiet, hq, hn'⟩ := hrun.goes hp hn
  · exact h
  · have hw' := hg.work.trans hw
    cases he with
    | heeds _ h | takes _ h | asks _ h | answers _ h | dismisses _ h | finishes _ h =>
      cases hw'.symm.trans h
    | retires _ _ hnil =>
      exact absurd hnil (items_ne_nil_of_held (hg.owes hn).1 fun _ _ h => nomatch hw'.symm.trans h)
    | stays => exact (hrun.nearer_idle hq hn' rfl).of_le hij

/-- **Progress.** A command gets nearer to its answer. -/
theorem Lively.nearer (hp : (run i).processes[k]? = some p) (hn : p.Owes n d) :
    Eventually run i (·.Nearer k n d) := by
  cases hw : p.work with
  | idle => exact hrun.nearer_idle hp hn hw
  | busy call rest => exact hrun.nearer_busy hp hn hw
  | answered => exact hrun.nearer_answered hp hn hw
  | draining => exact hrun.nearer_draining hp hn hw
  | finished =>
    have hnil := ((hrun.orderly i).sound hp).finished hw
    exact absurd hnil (items_ne_nil_of_held hn.1 fun _ _ h => nomatch hw.symm.trans h)

/-- A command that a process has is answered in the end. -/
theorem Lively.answered_of_owes (hp : (run i).processes[k]? = some p) (hn : p.Owes n d) :
    Eventually run i fun m => ∃ r, m.calls[n]? = some (.answered r) := by
  induction d using Nat.strongRecOn generalizing i p with
  | ind d ih =>
    obtain ⟨j, hij, hr | ⟨p', d', hp', hn', hlt⟩⟩ := hrun.nearer hp hn
    · exact ⟨j, hij, hr⟩
    · exact (ih d' hlt hp' hn').of_le hij

/-- A call that waits is answered in the end. -/
theorem Lively.answers (hn : (run i).calls[n]? = some Call.waiting) :
    ∃ j r, Answers run j n r := by
  obtain ⟨k, p, hp, hheld⟩ := (hrun.orderly i).holder hn
  obtain ⟨j, hij, r, hr⟩ := hrun.answered_of_owes hp ⟨hheld, rfl⟩
  by_contra hnever
  -- it would wait for ever
  have hwaits {j : Nat} (hij : i ≤ j) : (run j).calls[n]? = some Call.waiting := by
    induction hij with
    | refl => exact hn
    | @step j _ ih =>
      refine ((hrun.moves j).waiting ih).resolve_right ?_
      rintro ⟨r', hr'⟩
      exact hnever ⟨j, r', ih, hr'⟩
  cases (hwaits hij).symm.trans hr

end

/-! ### Commands of a session -/

/-- The commands of a session come one after the other, and none is lost. -/
structure Serial (run : Nat → Machine) : Prop where
  /-- One process of a session works on a command at a time, and on one. -/
  alone : ∀ {i k k' n n' : Nat} {s : String}, (run i).WorksOn k n s → (run i).WorksOn k' n' s →
    k = k' ∧ n = n'
  /-- A command that was accepted waits, is worked on, or is answered. -/
  kept : ∀ {i j n k : Nat} {o : Order}, Accepts run i n o k → i < j →
    (run j).Queued k o.session ⟨n, o.command⟩ ∨ (run j).WorksOn k n o.session ∨
      ∃ r, (run j).calls[n]? = some (.answered r)
  /-- A command is worked on once. -/
  once : ∀ {t t' k k' n : Nat} {rest rest' : Program (Outcome Turn.Report)},
    Takes run t k n rest → Takes run t' k' n rest' → t = t' ∧ k = k'
  /-- The answer is what the work has come to, or that the process was told to stop. -/
  fate : ∀ {i j n k : Nat} {o : Order} {r : Outcome Turn.Report}, Accepts run i n o k →
    Answers run j n r → i < j ∧ Fate run i n o k j r
  /-- A command is answered once. -/
  final : ∀ {j t n : Nat} {r r' : Outcome Turn.Report}, Answers run j n r → Answers run t n r' →
    j = t
  /-- A command that was refused is not worked on at any time. -/
  refused : ∀ {i n k : Nat} {o : Order}, Refuses run i n o k →
    ∀ t k' s, ¬ (run t).WorksOn k' n s
  /-- Commands are worked on in the order in which they were accepted. -/
  ordered : ∀ {i j n n' k k' t t' l l' : Nat} {o o' : Order}
    {rest rest' : Program (Outcome Turn.Report)}, Accepts run i n o k → Accepts run j n' o' k' →
    o.session = o'.session → i < j → Takes run t l n rest → Takes run t' l' n' rest' → t < t'
  /-- A process stays at hand until it has retired. -/
  dropped : ∀ {i k : Nat} {s : String}, (run i).atHand.lookup s = some k →
    (run (i + 1)).atHand.lookup s ≠ some k → ∃ p, (run i).processes[k]? = some p ∧ p.retired = true

/-- Each command that a process accepts is answered in the end. -/
def Serves (run : Nat → Machine) : Prop :=
  ∀ {i n k : Nat} {o : Order}, Accepts run i n o k → ∃ j r, Answers run j n r

theorem proceeds_course (settings : Settings) (w : World) (what : Nat → Happening) :
    Proceeds ((new settings w).course what) where
  orderly := orderly_course settings w what
  moves i := after_moves _ (what i)

theorem Proceeds.serial {run : Nat → Machine} (hrun : Proceeds run) : Serial run where
  alone h h' := h.unique h' (hrun.orderly _)
  kept h := hrun.kept h
  once h h' := hrun.takes_unique h h'
  fate h h' := hrun.fate h h'
  final h h' := hrun.answers_unique h h'
  refused h _ _ _ := hrun.refused h
  ordered h h' hs hij ht ht' := hrun.ordered h h' hs hij ht ht'
  dropped h h' := (hrun.moves _).dropped (hrun.orderly _) h h'

/-- **Serialization without loss.** Whatever happens to an engine, the commands of a session come
one after the other and none is lost; where every process gets its turn each one is answered. -/
theorem serializes (settings : Settings) (w : World) (what : Nat → Happening) :
    Serial ((new settings w).course what) ∧
      (Fair what → Serves ((new settings w).course what)) := by
  have hrun := proceeds_course settings w what
  exact ⟨hrun.serial, fun hfair _ _ _ _ h => (hfair.lively hrun).answers h.2⟩

/-- Time goes on, and the processes get their turns in rounds. -/
def rounds (i : Nat) : Happening :=
  if i % 2 = 0 then .pass 1 else .step (.process (i / 2).unpair.1 .unreachable false)

/-- The engine is launched, users send two commands to one session and one to another, in turns, and
then the processes have their rounds. -/
def visit : Nat → Happening
  | 0 => .launch
  | 1 => .submit (.order ⟨"s1", .start⟩)
  | 2 => .submit (.order ⟨"s2", .start⟩)
  | 3 => .submit (.order ⟨"s1", .text "Hello"⟩)
  | 4 | 6 | 7 | 8 => .step (.call 0)
  | 5 | 9 | 10 | 11 => .step (.call 1)
  | 12 | 13 | 14 | 15 => .step (.call 2)
  | i + 16 => rounds i

theorem fair_visit : Fair visit where
  turns k i := by
    refine ⟨2 * Nat.pair k i + 1 + 16, .unreachable, false, ?_, ?_⟩
    · have := Nat.right_le_pair k i
      omega
    · show rounds (2 * Nat.pair k i + 1) = _
      have hodd : ¬ (2 * Nat.pair k i + 1) % 2 = 0 := by omega
      have hhalf : (2 * Nat.pair k i + 1) / 2 = Nat.pair k i := by omega
      rw [rounds, if_neg hodd, hhalf, Nat.unpair_pair]
  time i := ⟨2 * i + 16, 1, by omega, Nat.one_pos, if_pos (Nat.mul_mod_right 2 i)⟩

/-- A flow that asks for a text. -/
def visitedFlow : Graph :=
  ⟨[⟨"start", "start", .null, none⟩, ⟨"n", "input", .obj [("variable", .str "x")], none⟩],
    [⟨"e", "start", "n", none⟩]⟩

/-- The flow is stored with its live version, and two sessions of it are. -/
def visitedWorld : World :=
  let c : Circumstance := ⟨false, .unreachable⟩
  let drawn := ((World.new .empty 0).answer c
    (.saveFlow ⟨"f1", "", visitedFlow, some visitedFlow, 1, 0, 0⟩)).1
  let live := (drawn.answer c (.saveVersion "f1" 1 visitedFlow 0)).1
  let opened := (live.answer c (.createSession (.new "s1" "f1" 1 0))).1
  (opened.answer c (.createSession (.new "s2" "f1" 1 0))).1

/-- An engine at which users call. -/
def visited : Nat → Machine := (new .default visitedWorld).course visit

/-- All three commands are answered, and the session that gets two of them has them in order. -/
theorem serializes_visited :
    let start₁ : Order := ⟨"s1", .start⟩
    let start₂ : Order := ⟨"s2", .start⟩
    let text : Order := ⟨"s1", .text "Hello"⟩
    Fair visit ∧ Accepts visited 8 0 start₁ 0 ∧ Accepts visited 11 1 start₂ 1 ∧
      Accepts visited 15 2 text 0 ∧
      (∃ j r, Answers visited j 0 r ∧ Fate visited 8 0 start₁ 0 j r) ∧
      (∃ j r, Answers visited j 1 r ∧ Fate visited 11 1 start₂ 1 j r) ∧
      (∃ j r, Answers visited j 2 r ∧ Fate visited 15 2 text 0 j r) ∧
      ∀ {t t' k k' : Nat} {rest rest' : Program (Outcome Turn.Report)},
        Takes visited t k 0 rest → Takes visited t' k' 2 rest' → t < t' := by
  intro start₁ start₂ text
  have h₁ : Accepts visited 8 0 start₁ 0 := ⟨rfl, rfl⟩
  have h₂ : Accepts visited 11 1 start₂ 1 := ⟨rfl, rfl⟩
  have h₃ : Accepts visited 15 2 text 0 := ⟨rfl, rfl⟩
  obtain ⟨hserial, hserves⟩ := serializes .default visitedWorld visit
  have hanswered {i n k : Nat} {o : Order} (h : Accepts visited i n o k) :
      ∃ j r, Answers visited j n r ∧ Fate visited i n o k j r := by
    obtain ⟨j, r, ha⟩ := hserves fair_visit h
    exact ⟨j, r, ha, (hserial.fate h ha).2⟩
  exact ⟨fair_visit, h₁, h₂, h₃, hanswered h₁, hanswered h₂, hanswered h₃,
    hserial.ordered h₁ h₃ rfl (by decide)⟩

end Machine

end Dialogue
