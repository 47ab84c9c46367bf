import Dialogue.Proofs.Engine.Custody

/-! # One command after the other

A command that a process has accepted waits in its queue, is worked on there, and is answered; or it
is answered from the queue because the process was told to stop. Nothing else ever happens to it,
and the commands of a session are worked on in the order in which they were accepted, whichever
processes accepted them.

* `Moves.queued`, `Moves.worked`, `Moves.working`: what a move does to a command that waits or is
  worked on.
* `Proceeds.kept`, `Proceeds.takes_after`, `Proceeds.takes_unique`: where a command is in the course
  of time.
* `Proceeds.fate`: how a command comes to its answer.
* `Proceeds.ordered`: commands of a session are worked on in order. -/

namespace Dialogue.Machine

open Process

variable {m m' : Machine} {n k : Nat} {p p' : Process} {x : Pending}

/-! ### Single moves -/

/-- A process that was not there before is new. -/
theorem Moves.back (h : m.Moves m') (hp' : m'.processes[k]? = some p') :
    (∃ p, m.processes[k]? = some p ∧ m.Turns m' p p') ∨ ∃ s, p' = .new s := by
  cases hp : m.processes[k]? with
  | some p =>
    obtain ⟨q, hq, ht⟩ := h.process hp
    cases hq.symm.trans hp'
    exact .inl ⟨p, rfl, ht⟩
  | none =>
    have hnone {processes : List Process} {j : Nat} {q : Process}
        (hps : processes = m.processes.set j q) : processes[k]? = none := by
      rw [hps, List.getElem?_eq_none_iff, List.length_set]
      exact List.getElem?_eq_none_iff.mp hp
    have hstill (hs : m.Still m') : False := by
      have hk := hs k
      rw [hp, hp'] at hk
      cases hk
    cases h with
    | rests hs | submits _ hs | goes _ _ _ hs => exact (hstill hs).elim
    | finds | returns | refuses => cases hp.symm.trans hp'
    | starts =>
      rcases processes_start_cases hp' with h | ⟨-, rfl⟩
      · cases hp.symm.trans h
      · exact .inr ⟨_, rfl⟩
    | accepts => cases (hnone rfl).symm.trans hp'
    | works _ _ hps => cases (hnone hps).symm.trans hp'
    | drops _ _ _ hps =>
      rw [hps] at hp'
      cases hp.symm.trans hp'

theorem Turns.session_eq (h : m.Turns m' p p') : p'.session = p.session := by
  cases h with
  | alike ha => exact ha.session
  | gets => rfl
  | does he => exact he.session_eq

theorem Turns.retired (h : m.Turns m' p p') (hr : p.retired = true) : p'.retired = true := by
  cases h with
  | alike ha => exact ha.retired.trans hr
  | gets => exact hr
  | does he => exact he.retired hr

/-- A queue gets one more command, or loses the first one. -/
theorem Turns.items (h : m.Turns m' p p') : p'.queue.items = p.queue.items ∨
    (∃ y, p'.queue.items = p.queue.items ++ [y]) ∨ ∃ y, p.queue.items = y :: p'.queue.items := by
  cases h with
  | alike ha => exact .inl (congrArg _ ha.queue)
  | gets y => exact .inr (.inl ⟨y, rfl⟩)
  | does he =>
    cases he with
    | heeds | answers | retires | stays | finishes => exact .inl rfl
    | asks w hw hs hq => exact .inl (congrArg _ hq)
    | takes w hw hq | dismisses w hw hq => exact .inr (.inr ⟨_, hq⟩)

/-- What becomes of a command that waits in a queue. -/
theorem Moves.queued (h : m.Moves m') (hm : m.Orderly) (hp : m.processes[k]? = some p)
    (hx : x ∈ p.queue.items) : ∃ p', m'.processes[k]? = some p' ∧ p'.session = p.session ∧
      (x ∈ p'.queue.items ∨
        p.work = .idle ∧
          p'.work = .busy x.call (Command.handle m.settings p.session x.command).run ∨
        p.work = .draining ∧ m'.calls[x.call]? = some (.answered (.error stopping))) := by
  obtain ⟨p', hp', ht⟩ := h.process hp
  refine ⟨p', hp', ht.session_eq, ?_⟩
  cases ht with
  | alike ha => exact .inl (ha.queue ▸ hx)
  | gets y hr => exact .inl (List.mem_append_left _ hx)
  | does he hc =>
    cases he with
    | heeds | answers | stays | finishes => exact .inl hx
    | asks w hw hs hq => exact .inl (hq ▸ hx)
    | retires w hw hq => exact .inl hx
    | takes w hw hq =>
      rw [hq] at hx
      rcases List.mem_cons.mp hx with rfl | hx
      · exact .inr (.inl ⟨hw, rfl⟩)
      · exact .inl hx
    | @dismisses w y rest hw hq =>
      have hwaits := hm.waits hp (mem_held_of_mem hx)
      rw [hq] at hx
      rcases List.mem_cons.mp hx with rfl | hx
      · exact .inr (.inr ⟨hw, hc ▸ set_self hwaits⟩)
      · exact .inl hx

/-- What becomes of a command that is worked on. -/
theorem Moves.worked (h : m.Moves m') (hm : m.Orderly) (hp : m.processes[k]? = some p)
    {rest : Program (Outcome Turn.Report)} (hw : p.work = .busy n rest) :
    ∃ p', m'.processes[k]? = some p' ∧ p'.session = p.session ∧
      ((∃ rest', p'.work = .busy n rest') ∨
        ∃ r, rest = .done r ∧ m'.calls[n]? = some (.answered r)) := by
  obtain ⟨p', hp', ht⟩ := h.process hp
  refine ⟨p', hp', ht.session_eq, ?_⟩
  cases ht with
  | alike ha => exact .inl ⟨rest, ha.work.trans hw⟩
  | gets y hr => exact .inl ⟨rest, hw⟩
  | does he hc =>
    cases he with
    | heeds w hw' | takes w hw' | retires w hw' | stays w hw' | dismisses w hw' | finishes w hw' =>
      cases hw.symm.trans hw'
    | asks w hw' hs hq hr hnext =>
      cases hw.symm.trans hw'
      obtain ⟨y, hy⟩ | ⟨-, hy, -⟩ := hnext
      · exact .inl ⟨_, hy⟩
      · exact .inl ⟨_, hy.trans hw⟩
    | answers w hw' =>
      cases hw.symm.trans hw'
      exact .inr ⟨_, rfl, hc ▸ set_self (hm.waits hp (mem_held_of_busy hw))⟩

/-- How a process came to work on a command. -/
theorem Moves.working (h : m.Moves m') (hp' : m'.processes[k]? = some p')
    {rest : Program (Outcome Turn.Report)} (hw' : p'.work = .busy n rest) :
    ∃ p, m.processes[k]? = some p ∧ p'.session = p.session ∧
      ((∃ rest', p.work = .busy n rest') ∨
        p.work = .idle ∧ ∃ x tail, p.queue.items = x :: tail ∧ x.call = n ∧
          rest = (Command.handle m.settings p.session x.command).run) := by
  obtain ⟨p, hp, ht⟩ | ⟨s, rfl⟩ := h.back hp'
  · refine ⟨p, hp, ht.session_eq, ?_⟩
    cases ht with
    | alike ha => exact .inl ⟨rest, ha.work.symm.trans hw'⟩
    | gets y hr => exact .inl ⟨rest, hw'⟩
    | does he hc =>
      cases he with
      | heeds | answers | retires | stays | finishes => cases hw'
      | takes w hw hq =>
        cases hw'
        exact .inr ⟨hw, _, _, hq, rfl, rfl⟩
      | @asks w call a next q hw hs hq hr hnext =>
        obtain ⟨y, hy⟩ | ⟨-, hy, -⟩ := hnext
        · cases hy.symm.trans hw'
          exact .inl ⟨_, hw⟩
        · exact .inl ⟨rest, hy.symm.trans hw'⟩
      | dismisses w hw => cases hw.symm.trans hw'
  · cases hw'

/-- A call that waits goes on to wait, or is answered. -/
theorem Moves.waiting (h : m.Moves m') (hn : m.calls[n]? = some Call.waiting) :
    m'.calls[n]? = some Call.waiting ∨ ∃ r, m'.calls[n]? = some (.answered r) := by
  obtain ⟨d, hd, hcomes⟩ := h.call hn
  cases hcomes with
  | same => exact .inl hd
  | ahead hearly => exact hearly.elim
  | answered c hp he hr => exact .inr ⟨_, hd⟩

/-- An answer is final. -/
theorem Moves.answered (h : m.Moves m') (hm : m.Orderly) {r : Outcome Turn.Report}
    (hn : m.calls[n]? = some (.answered r)) : m'.calls[n]? = some (.answered r) := by
  obtain ⟨d, hd, hcomes⟩ := h.call hn
  cases hcomes with
  | same => exact hd
  | ahead hearly => exact hearly.elim
  | answered c hp he hr =>
    -- a process answers only calls that wait
    have hwaits := hm.waits hp (he.mem_held hr)
    cases hn.symm.trans hwaits

/-- How a call that waits is answered. -/
theorem Moves.answers (h : m.Moves m') {r : Outcome Turn.Report}
    (hn : m.calls[n]? = some Call.waiting) (hn' : m'.calls[n]? = some (.answered r)) :
    ∃ (k : Nat) (p : Process), m.processes[k]? = some p ∧ (p.work = .busy n (.done r) ∨
      p.work = .draining ∧ r = .error stopping ∧
        ∃ x tail, p.queue.items = x :: tail ∧ x.call = n) := by
  obtain ⟨d, hd, hcomes⟩ := h.call hn
  cases hd.symm.trans hn'
  cases hcomes with
  | ahead hearly => exact hearly.elim
  | @answered c k p e r hp he hr =>
    refine ⟨k, p, hp, ?_⟩
    cases he with
    | heeds | takes | asks | retires | stays | finishes => cases hr
    | answers w hw =>
      cases hr
      exact .inl hw
    | dismisses w hw hq =>
      cases hr
      exact .inr ⟨hw, rfl, _, _, hq, rfl⟩

/-- How a process accepts a command. -/
theorem Moves.accepts_inv (h : m.Moves m') {o : Order} (hn : m.calls[n]? = some (.posting o k))
    (hn' : m'.calls[n]? = some Call.waiting) : ∃ p, m.processes[k]? = some p ∧
      p.retired = false ∧
      m'.processes[k]? = some (p.withItems (p.queue.items ++ [⟨n, o.command⟩])) := by
  obtain ⟨d, hd, hcomes⟩ := h.call hn
  cases hd.symm.trans hn'
  cases hcomes with
  | ahead hearly => exact hearly.elim
  | accepted hp hr hp' => exact ⟨_, hp, hr, hp'⟩

/-- A process stays at hand until it has retired. -/
theorem Moves.dropped (h : m.Moves m') (hm : m.Orderly) {s : String}
    (hk : m.atHand.lookup s = some k) (hk' : m'.atHand.lookup s ≠ some k) :
    ∃ p, m.processes[k]? = some p ∧ p.retired = true := by
  cases h with
  | rests hp ha | submits h hp ha | goes hn h h' hp ha | works hp he hps ha =>
    exact absurd (ha ▸ hk) hk'
  | finds | returns | refuses | accepts => exact absurd hk hk'
  | @starts i o hn hr =>
    obtain rfl : s = o.session := by
      by_contra hne
      exact hk' ((lookup_start_of_ne m hne).trans hk)
    obtain ⟨p, hp, -⟩ := hm.atHand hk
    exact ⟨p, hp, hr k p hk hp⟩
  | @drops _ s' j q hj hq hr hps ha hc =>
    obtain rfl : s = s' := by
      by_contra hne
      exact hk' (ha ▸ (lookup_filter_of_ne _ hne).trans hk)
    cases hk.symm.trans hj
    exact ⟨q, hq, hr⟩

/-! ### In the course of time -/

/-- The moves of an engine that is in order, one after the other. -/
structure Proceeds (run : Nat → Machine) : Prop where
  orderly : ∀ i, (run i).Orderly
  moves : ∀ i, (run i).Moves (run (i + 1))

/-- At that moment the process of that number accepts the command of a call. -/
def Accepts (run : Nat → Machine) (i n : Nat) (o : Order) (k : Nat) : Prop :=
  (run i).calls[n]? = some (.posting o k) ∧ (run (i + 1)).calls[n]? = some Call.waiting

/-- At that moment the process of that number refuses the command of a call. -/
def Refuses (run : Nat → Machine) (i n : Nat) (o : Order) (k : Nat) : Prop :=
  (run i).calls[n]? = some (.posting o k) ∧ ∃ r, (run (i + 1)).calls[n]? = some (.answered r)

/-- At that moment the process of that number begins to work on the command of a call. -/
def Takes (run : Nat → Machine) (i k n : Nat) (rest : Program (Outcome Turn.Report)) : Prop :=
  ∃ p p', (run i).processes[k]? = some p ∧ p.work = .idle ∧
    (run (i + 1)).processes[k]? = some p' ∧ p'.work = .busy n rest

/-- At that moment a call that waits is answered. -/
def Answers (run : Nat → Machine) (i n : Nat) (r : Outcome Turn.Report) : Prop :=
  (run i).calls[n]? = some Call.waiting ∧ (run (i + 1)).calls[n]? = some (.answered r)

/-- The command waits in the queue of a process of that session. -/
def Queued (m : Machine) (k : Nat) (s : String) (x : Pending) : Prop :=
  ∃ p, m.processes[k]? = some p ∧ p.session = s ∧ x ∈ p.queue.items

/-- The process of that number works on the command of a call of that session. -/
def WorksOn (m : Machine) (k n : Nat) (s : String) : Prop :=
  ∃ p rest, m.processes[k]? = some p ∧ p.session = s ∧ p.work = .busy n rest

/-- In the queue of a process the command stands before that of a call, or that is not there. -/
def Before (m : Machine) (k : Nat) (x : Pending) (n' : Nat) : Prop :=
  ∃ (p : Process) (a b : List Pending), m.processes[k]? = some p ∧ p.queue.items = a ++ b ∧
    x ∈ a ∧ n' ∉ a.map (·.call)

variable {s s' : String} {k' : Nat}

theorem Queued.waits (h : m.Queued k s x) (hm : m.Orderly) :
    m.calls[x.call]? = some Call.waiting := by
  obtain ⟨p, hp, -, hx⟩ := h
  exact hm.waits hp (mem_held_of_mem hx)

theorem WorksOn.waits (h : m.WorksOn k n s) (hm : m.Orderly) :
    m.calls[n]? = some Call.waiting := by
  obtain ⟨p, rest, hp, -, hw⟩ := h
  exact hm.waits hp (mem_held_of_busy hw)

/-- One process of a session works on a command, and on one only. -/
theorem WorksOn.unique {n' : Nat} (h : m.WorksOn k n s) (h' : m.WorksOn k' n' s)
    (hm : m.Orderly) : k = k' ∧ n = n' := by
  obtain ⟨p, rest, hp, hs, hw⟩ := h
  obtain ⟨p', rest', hp', hs', hw'⟩ := h'
  have hk := hm.live hp ((hm.sound hp).not_retired (hw ▸ trivial))
  have hk' := hm.live hp' ((hm.sound hp').not_retired (hw' ▸ trivial))
  rw [hs] at hk
  rw [hs', hk] at hk'
  cases hk'
  cases hp.symm.trans hp'
  cases hw.symm.trans hw'
  exact ⟨rfl, rfl⟩

/-- A command is with one process, once. -/
theorem Queued.unique {y : Pending} (h : m.Queued k s x) (h' : m.Queued k' s' y)
    (hm : m.Orderly) (hxy : x.call = y.call) : k = k' ∧ x = y := by
  obtain ⟨p, hp, -, hx⟩ := h
  obtain ⟨p', hp', -, hy⟩ := h'
  obtain rfl := hm.unique hp hp' (mem_held_of_mem hx) (hxy ▸ mem_held_of_mem hy)
  cases hp.symm.trans hp'
  have hnodup := (List.nodup_append.mp (hm.nodup_held hp)).2.1
  exact ⟨rfl, List.inj_on_of_nodup_map hnodup hx hy hxy⟩

/-- A command that waits is not worked on. -/
theorem Queued.not_worksOn (h : m.Queued k s x) (hm : m.Orderly) : ¬ m.WorksOn k' x.call s' := by
  rintro ⟨p', rest, hp', -, hw⟩
  obtain ⟨p, hp, -, hx⟩ := h
  obtain rfl := hm.unique hp hp' (mem_held_of_mem hx) (mem_held_of_busy hw)
  cases hp.symm.trans hp'
  have hnodup := hm.nodup_held hp
  unfold Process.held at hnodup
  rw [hw] at hnodup
  exact (List.nodup_cons.mp hnodup).1 (List.mem_map_of_mem hx)

/-- As long as a command waits, what is behind it stays behind it. -/
theorem Moves.before (h : m.Moves m') (hm : m.Orderly) {n' : Nat} (hb : m.Before k x n')
    (hq : m'.Queued k s x) : m'.Before k x n' := by
  obtain ⟨p, a, b, hp, hab, hxa, hna⟩ := hb
  obtain ⟨p', hp', -, hx'⟩ := hq
  obtain ⟨q, hq, ht⟩ := h.process hp
  cases hq.symm.trans hp'
  rcases ht.items with hitems | ⟨y, hitems⟩ | ⟨y, hitems⟩
  · exact ⟨p', a, b, hp', hitems.trans hab, hxa, hna⟩
  · refine ⟨p', a, b ++ [y], hp', ?_, hxa, hna⟩
    rw [hitems, hab, List.append_assoc]
  · cases a with
    | nil => cases hxa
    | cons z a =>
      obtain ⟨rfl, hrest⟩ := List.cons.inj (hitems.symm.trans hab)
      refine ⟨p', a, b, hp', hrest, ?_, fun hn' => hna (List.mem_cons_of_mem _ hn')⟩
      refine (List.mem_cons.mp hxa).resolve_left ?_
      -- the first command is not there twice
      rintro rfl
      have hnodup := (List.nodup_append.mp (hm.nodup_held hp)).2.1
      rw [hitems] at hnodup
      exact (List.nodup_cons.mp hnodup).1 (List.mem_map_of_mem hx')

section
variable {run : Nat → Machine} (hrun : Proceeds run) {i j t t' : Nat} {o : Order}
  {r r' : Outcome Turn.Report} {rest rest' : Program (Outcome Turn.Report)}
include hrun

theorem Proceeds.answered (h : (run i).calls[n]? = some (.answered r)) (hij : i ≤ j) :
    (run j).calls[n]? = some (.answered r) := by
  induction hij with
  | refl => exact h
  | step _ ih => exact (hrun.moves _).answered (hrun.orderly _) ih

theorem Proceeds.waiting (h : (run i).calls[n]? = some Call.waiting) (hij : i ≤ j) :
    (run j).calls[n]? = some Call.waiting ∨ ∃ r, (run j).calls[n]? = some (.answered r) := by
  induction hij with
  | refl => exact .inl h
  | step _ ih =>
    rcases ih with hw | ⟨r, hr⟩
    · exact (hrun.moves _).waiting hw
    · exact .inr ⟨r, (hrun.moves _).answered (hrun.orderly _) hr⟩

/-- No process has a command before it is accepted. -/
theorem Proceeds.not_before (h : (run i).calls[n]? = some (.posting o k)) (hji : j ≤ i) :
    (run j).calls[n]? ≠ some Call.waiting := by
  intro hw
  rcases hrun.waiting hw hji with hw | ⟨r, hr⟩
  · cases h.symm.trans hw
  · cases h.symm.trans hr

theorem Proceeds.worksOn (h : (run i).WorksOn k n s) (hij : i ≤ j) :
    (run j).WorksOn k n s ∨ ∃ r, (run j).calls[n]? = some (.answered r) := by
  induction hij with
  | refl => exact .inl h
  | @step j _ ih =>
    rcases ih with ⟨p, rest, hp, hs, hw⟩ | ⟨r, hr⟩
    · obtain ⟨p', hp', hs', ⟨rest', hw'⟩ | ⟨r, -, hr⟩⟩ :=
        (hrun.moves j).worked (hrun.orderly j) hp hw
      · exact .inl ⟨p', rest', hp', hs'.trans hs, hw'⟩
      · exact .inr ⟨r, hr⟩
    · exact .inr ⟨r, (hrun.moves j).answered (hrun.orderly j) hr⟩

/-- A command that is in a queue was there before, since it was accepted. -/
theorem Proceeds.not_queued_of_worksOn (h : (run i).WorksOn k n s) (hij : i ≤ j)
    (hx : x.call = n) : ¬ (run j).Queued k' s' x := by
  intro hq
  subst hx
  rcases hrun.worksOn h hij with hw | ⟨r, hr⟩
  · exact hq.not_worksOn (hrun.orderly j) hw
  · cases (hq.waits (hrun.orderly j)).symm.trans hr

/-- What a process accepts it has in its queue. -/
theorem Proceeds.queued (h : Accepts run i n o k) :
    (run (i + 1)).Queued k o.session ⟨n, o.command⟩ := by
  obtain ⟨p, hp, -, hp'⟩ := (hrun.moves i).accepts_inv h.1 h.2
  obtain ⟨q, hq, hs⟩ := (hrun.orderly i).posting h.1
  cases hp.symm.trans hq
  exact ⟨_, hp', hs, List.mem_append_right _ List.mem_cons_self⟩

/-- **Custody.** A command that was accepted is in the queue of the process, or that process works
on it, or it is answered. -/
theorem Proceeds.kept (h : Accepts run i n o k) (hij : i < j) :
    (run j).Queued k o.session ⟨n, o.command⟩ ∨ (run j).WorksOn k n o.session ∨
      ∃ r, (run j).calls[n]? = some (.answered r) := by
  induction hij with
  | refl => exact .inl (hrun.queued h)
  | @step j _ ih =>
    rcases ih with ⟨p, hp, hs, hx⟩ | hw | ⟨r, hr⟩
    · obtain ⟨p', hp', hs', hx' | ⟨-, hw⟩ | ⟨-, hr⟩⟩ :=
        (hrun.moves j).queued (hrun.orderly j) hp hx
      · exact .inl ⟨p', hp', hs'.trans hs, hx'⟩
      · exact .inr (.inl ⟨p', _, hp', hs'.trans hs, hw⟩)
      · exact .inr (.inr ⟨_, hr⟩)
    · exact .inr (hrun.worksOn hw (Nat.le_succ j))
    · exact .inr (.inr ⟨r, (hrun.moves j).answered (hrun.orderly j) hr⟩)

/-- A process begins with the first command of its queue. -/
theorem Proceeds.head (h : Takes run t k n rest) : ∃ p x tail, (run t).processes[k]? = some p ∧
    p.work = .idle ∧ p.queue.items = x :: tail ∧ x.call = n ∧ (run t).Queued k p.session x ∧
      rest = (Command.handle (run t).settings p.session x.command).run := by
  obtain ⟨p, p', hp, hw, hp', hw'⟩ := h
  obtain ⟨q, hq, -, ⟨rest', hbusy⟩ | ⟨-, x, tail, hx, hn, hrest⟩⟩ :=
    (hrun.moves t).working hp' hw'
  · cases hp.symm.trans hq
    cases hw.symm.trans hbusy
  · cases hp.symm.trans hq
    exact ⟨p, x, tail, hp, hw, hx, hn, ⟨p, hp, rfl, hx ▸ List.mem_cons_self⟩, hrest⟩

/-- A command is worked on by the process that accepted it, after that. -/
theorem Proceeds.takes_after (h : Accepts run i n o k) (ht : Takes run t k' n rest) :
    i < t ∧ k' = k ∧ rest = (Command.handle (run t).settings o.session o.command).run ∧
      (run t).Queued k o.session ⟨n, o.command⟩ := by
  obtain ⟨p, x, tail, hp, hidle, hx, rfl, hq, rfl⟩ := hrun.head ht
  have hit : i < t := by
    by_contra hle
    exact hrun.not_before h.1 (Nat.le_of_not_lt hle) (hq.waits (hrun.orderly t))
  refine ⟨hit, ?_⟩
  rcases hrun.kept h hit with hq' | hw | ⟨r, hr⟩
  · obtain ⟨rfl, hxy⟩ := hq.unique hq' (hrun.orderly t) rfl
    have hcommand : x.command = o.command := congrArg Pending.command hxy
    obtain ⟨p', hp', hs, -⟩ := id hq'
    cases hp.symm.trans hp'
    exact ⟨rfl, by rw [hs, hcommand], hq'⟩
  · exact absurd hw (hq.not_worksOn (hrun.orderly t))
  · cases (hq.waits (hrun.orderly t)).symm.trans hr

/-- A command is worked on once. -/
theorem Proceeds.takes_unique (h : Takes run t k n rest) (h' : Takes run t' k' n rest') :
    t = t' ∧ k = k' := by
  -- what a process works on is in no queue any more
  have hlt {t t' k k' : Nat} {rest rest' : Program (Outcome Turn.Report)}
      (h : Takes run t k n rest) (h' : Takes run t' k' n rest') : ¬ t < t' := by
    intro hlt
    obtain ⟨p', x, tail, -, -, -, hn, hq', -⟩ := hrun.head h'
    obtain ⟨-, q, -, -, hq, hw⟩ := h
    exact hrun.not_queued_of_worksOn ⟨q, rest, hq, rfl, hw⟩ hlt hn hq'
  obtain rfl : t = t' := Nat.le_antisymm (Nat.le_of_not_lt (hlt h' h)) (Nat.le_of_not_lt (hlt h h'))
  obtain ⟨p, x, tail, -, -, -, hn, hq, -⟩ := hrun.head h
  obtain ⟨p', x', tail', -, -, -, hn', hq', -⟩ := hrun.head h'
  exact ⟨rfl, (hq.unique hq' (hrun.orderly t) (hn.trans hn'.symm)).1⟩

/-- What a process works on it has taken out of its queue. -/
theorem Proceeds.taken (h : Accepts run i n o k) (hw : (run j).WorksOn k' n s) :
    ∃ t rest, t < j ∧ Takes run t k' n rest := by
  induction j with
  | zero => exact absurd (hw.waits (hrun.orderly 0)) (hrun.not_before h.1 (Nat.zero_le i))
  | succ j ih =>
    obtain ⟨p', rest, hp', hs, hw'⟩ := hw
    obtain ⟨p, hp, hs', ⟨rest', hbusy⟩ | ⟨hidle, -⟩⟩ := (hrun.moves j).working hp' hw'
    · obtain ⟨t, rest, ht, htakes⟩ := ih ⟨p, rest', hp, hs'.symm.trans hs, hbusy⟩
      exact ⟨t, rest, Nat.lt_succ_of_lt ht, htakes⟩
    · exact ⟨j, rest, Nat.lt_succ_self j, p, p', hp, hidle, hp', hw'⟩

/-! ### Answers -/

/-- How a command that was accepted comes to its answer: by the work of the process, which was begun
once, or because the process was told to stop, without any work. -/
inductive Fate (run : Nat → Machine) (i n : Nat) (o : Order) (k j : Nat) :
    Outcome Turn.Report → Prop
  | handled {t : Nat} {p : Process} {r : Outcome Turn.Report} (ht : i < t ∧ t < j)
      (h : Takes run t k n (Command.handle (run t).settings o.session o.command).run)
      (hworks : ∀ u, t < u → u ≤ j → (run u).WorksOn k n o.session)
      (hp : (run j).processes[k]? = some p) (hw : p.work = .busy n (.done r)) : Fate run i n o k j r
  | dismissed {p : Process} (hp : (run j).processes[k]? = some p) (hw : p.work = .draining)
      (h : ∀ u k' s, ¬ (run u).WorksOn k' n s) : Fate run i n o k j (.error stopping)

/-- What a process has begun with it works on until the answer. -/
theorem Proceeds.works_until (h : Takes run t k n rest) (hq : (run t).Queued k s x)
    (hw : (run j).calls[n]? = some Call.waiting) {u : Nat} (htu : t < u) (huj : u ≤ j) :
    (run u).WorksOn k n s := by
  obtain ⟨p, p', hp, -, hp', hbusy⟩ := h
  obtain ⟨q, hq, hs, -⟩ := hq
  cases hp.symm.trans hq
  obtain ⟨q', hq', hturn⟩ := (hrun.moves t).process hp
  cases hp'.symm.trans hq'
  rcases hrun.worksOn ⟨p', rest, hp', hturn.session_eq.trans hs, hbusy⟩ htu with hu | ⟨r, hr⟩
  · exact hu
  · cases hw.symm.trans (hrun.answered hr huj)

/-- What is answered out of the queue of a process that drains it is not worked on at any time. -/
theorem Proceeds.not_takes (hp : (run j).processes[k]? = some p) (hw : p.work = .draining)
    (hx : x ∈ p.queue.items) (ha : (run (j + 1)).calls[x.call]? = some (.answered r)) :
    ¬ Takes run t k' x.call rest := by
  intro htakes
  have hq : (run j).Queued k p.session x := ⟨p, hp, rfl, hx⟩
  obtain ⟨q, y, tail, hq', hidle, -, hcall, hqueued, -⟩ := hrun.head htakes
  rcases Nat.lt_trichotomy t j with hlt | rfl | hlt
  · -- it would be worked on or answered by then
    obtain ⟨-, q', -, -, hq', hw'⟩ := htakes
    exact hrun.not_queued_of_worksOn ⟨q', rest, hq', rfl, hw'⟩ hlt rfl hq
  · -- the process would be idle
    obtain ⟨rfl, -⟩ := hqueued.unique hq (hrun.orderly t) hcall
    cases hq'.symm.trans hp
    cases hidle.symm.trans hw
  · -- it would be in a queue after the answer
    have hwaits := hcall ▸ hqueued.waits (hrun.orderly t)
    cases hwaits.symm.trans (hrun.answered ha hlt)

/-- **Answers.** A command that was accepted is answered by one work or because of the end. -/
theorem Proceeds.fate (h : Accepts run i n o k) (ha : Answers run j n r) :
    i < j ∧ Fate run i n o k j r := by
  have hij : i < j := by
    by_contra hle
    exact hrun.not_before h.1 (Nat.le_of_not_lt hle) ha.1
  refine ⟨hij, ?_⟩
  obtain ⟨k', p, hp, hw | ⟨hw, rfl, x, tail, hx, rfl⟩⟩ := (hrun.moves j).answers ha.1 ha.2
  · obtain ⟨t, rest, ht, htakes⟩ := hrun.taken h ⟨p, _, hp, rfl, hw⟩
    obtain ⟨hit, rfl, rfl, hq⟩ := hrun.takes_after h htakes
    exact .handled ⟨hit, ht⟩ htakes (fun u => hrun.works_until htakes hq ha.1) hp hw
  · have hx : x ∈ p.queue.items := hx ▸ List.mem_cons_self
    have hq : (run j).Queued k' p.session x := ⟨p, hp, rfl, hx⟩
    obtain rfl : k' = k := by
      rcases hrun.kept h hij with hq' | hw' | ⟨r, hr⟩
      · exact (hq.unique hq' (hrun.orderly j) rfl).1
      · exact absurd hw' (hq.not_worksOn (hrun.orderly j))
      · cases ha.1.symm.trans hr
    refine .dismissed hp hw fun u k'' s hworks => ?_
    obtain ⟨t, rest, -, htakes⟩ := hrun.taken h hworks
    exact hrun.not_takes hp hw hx ha.2 htakes

/-- A command is answered once. -/
theorem Proceeds.answers_unique (h : Answers run j n r) (h' : Answers run t n r') : j = t := by
  have hlt {j t : Nat} {r r' : Outcome Turn.Report} (h : Answers run j n r)
      (h' : Answers run t n r') : ¬ j < t :=
    fun hlt => nomatch h'.1.symm.trans (hrun.answered h.2 hlt)
  exact Nat.le_antisymm (Nat.le_of_not_lt (hlt h' h)) (Nat.le_of_not_lt (hlt h h'))

/-- A command that was refused is never worked on. -/
theorem Proceeds.refused (h : Refuses run i n o k) : ¬ (run t).WorksOn k' n s := by
  intro hw
  have hwaits := hw.waits (hrun.orderly t)
  obtain ⟨hn, r, hr⟩ := h
  rcases Nat.lt_or_ge i t with hlt | hle
  · cases hwaits.symm.trans (hrun.answered hr hlt)
  · exact hrun.not_before hn hle hwaits

/-! ### Order -/

/-- Until it is worked on a command waits. -/
theorem Proceeds.queued_until (h : Accepts run i n o k) (hij : i < j)
    (hq : (run t).Queued k s ⟨n, o.command⟩) (hjt : j ≤ t) :
    (run j).Queued k o.session ⟨n, o.command⟩ := by
  rcases hrun.kept h hij with hq' | hw | ⟨r, hr⟩
  · exact hq'
  · exact absurd hq (hrun.not_queued_of_worksOn hw hjt rfl)
  · cases (hq.waits (hrun.orderly t)).symm.trans (hrun.answered hr hjt)

/-- A process that has retired stays so. -/
theorem Proceeds.retired (hp : (run i).processes[k]? = some p) (hr : p.retired = true)
    (hij : i ≤ j) : ∃ p', (run j).processes[k]? = some p' ∧ p'.retired = true := by
  induction hij with
  | refl => exact ⟨p, hp, hr⟩
  | @step j _ ih =>
    obtain ⟨p', hp', hr'⟩ := ih
    obtain ⟨q, hq, ht⟩ := (hrun.moves j).process hp'
    exact ⟨q, hq, ht.retired hr'⟩

/-- A process that takes a command of its queue had not retired before. -/
theorem Proceeds.not_retired (ht : Takes run t k n rest) (hp : (run j).processes[k]? = some p)
    (hjt : j ≤ t) : p.retired = false := by
  by_contra hr
  obtain ⟨q, hq, hretired⟩ := hrun.retired hp (Bool.not_eq_false _ ▸ hr) hjt
  obtain ⟨q', -, hq', hidle, -⟩ := ht
  cases hq.symm.trans hq'
  have hlive := ((hrun.orderly t).sound hq).not_retired (hidle ▸ trivial)
  rw [hretired] at hlive
  cases hlive

/-- As long as a command waits, what is behind it stays behind it. -/
theorem Proceeds.before {n' : Nat} (h : (run i).Before k x n') (hij : i ≤ j)
    (hq : ∀ t, i ≤ t → t ≤ j → ∃ s, (run t).Queued k s x) : (run j).Before k x n' := by
  induction hij with
  | refl => exact h
  | @step j hij ih =>
    obtain ⟨s, hq'⟩ := hq (j + 1) (Nat.le_succ_of_le hij) (Nat.le_refl _)
    exact (hrun.moves j).before (hrun.orderly j)
      (ih fun t hi hj => hq t hi (Nat.le_succ_of_le hj)) hq'

/-- As long as a command is to be worked on, the same process accepts the next ones of the session
and lets them wait behind it. -/
theorem Proceeds.accepts_behind {n' : Nat} {o' : Order} (h : Accepts run i n o k)
    (h' : Accepts run j n' o' k') (hs : o.session = o'.session) (hij : i < j)
    (ht : Takes run t k n rest) (hjt : j ≤ t) :
    k' = k ∧ (run (j + 1)).Before k ⟨n, o.command⟩ n' := by
  obtain ⟨-, -, -, hq⟩ := hrun.takes_after h ht
  obtain ⟨p, hp, hps, hx⟩ := hrun.queued_until h hij hq hjt
  obtain ⟨p', hp', hlive', hp''⟩ := (hrun.moves j).accepts_inv h'.1 h'.2
  obtain ⟨q, hq', hqs⟩ := (hrun.orderly j).posting h'.1
  cases hp'.symm.trans hq'
  -- both processes are the one at hand
  have hk := (hrun.orderly j).live hp (hrun.not_retired ht hp hjt)
  have hk' := (hrun.orderly j).live hp' hlive'
  rw [hps, hs, ← hqs, hk'] at hk
  cases hk
  cases hp.symm.trans hp'
  refine ⟨rfl, _, p.queue.items, [⟨n', o'.command⟩], hp'', rfl, hx, fun hn' => ?_⟩
  obtain ⟨y, hy, rfl⟩ := List.mem_map.mp hn'
  exact hrun.not_before h'.1 (Nat.le_refl j) ((hrun.orderly j).waits hp (mem_held_of_mem hy))

/-- **Order.** The commands of a session are worked on in the order in which they were accepted. -/
theorem Proceeds.ordered {n' : Nat} {o' : Order} (h : Accepts run i n o k)
    (h' : Accepts run j n' o' k') (hs : o.session = o'.session) (hij : i < j) {l l' : Nat}
    (ht : Takes run t l n rest) (ht' : Takes run t' l' n' rest') : t < t' := by
  obtain ⟨-, rfl, -, hq⟩ := hrun.takes_after h ht
  obtain ⟨hjt', rfl, -, -⟩ := hrun.takes_after h' ht'
  by_contra hle
  have hle : t' ≤ t := Nat.le_of_not_lt hle
  obtain ⟨rfl, hbefore⟩ :=
    hrun.accepts_behind h h' hs hij ht (Nat.le_trans (Nat.le_of_lt hjt') hle)
  -- the second command is behind the first one, and so not the next one
  obtain ⟨q, a, b, hqk, hab, hxa, hna⟩ := hrun.before hbefore hjt' fun t₀ hj ht₀ =>
    ⟨_, hrun.queued_until h (Nat.lt_of_lt_of_le hij (Nat.le_of_succ_le hj)) hq
      (Nat.le_trans ht₀ hle)⟩
  obtain ⟨q', y, tail, hq', -, hy, hn', -⟩ := hrun.head ht'
  cases hqk.symm.trans hq'
  cases a with
  | nil => cases hxa
  | cons z a =>
    cases hy.symm.trans hab
    exact hna (hn' ▸ List.mem_cons_self)

end

end Dialogue.Machine
