import Dialogue.Proofs.Engine.Notices
import Dialogue.Proofs.Engine.Served

/-! # Who is released

A process that has retired is released: it does not stay at hand. Only so many notices wait at a
time, and one for which there is no room is lost. Its process then stays at hand until the sweeper
takes another notice of its session, or a call of the session looks for its process and starts a new
one.

* `Unshut.lingers_after`, `Unshut.not_lingers_after`, `Unshut.retires_of_lingers`: how a process
  that has retired stays at hand, and how it comes to that.
* `Handles.notice_mem`, `Unshut.notice_mem_of_retires`: a notice waits until it is taken.
* `exists_retires`: what has retired and is at hand, in the course of time.
* `lingers_iff`: where no notice waits, the processes that have retired and are still at hand are
  those for whose notice there was no room. -/

namespace Dialogue.Machine

variable {m m' : Machine} {x : Happening} {s : String} {k : Nat} {what : Nat → Happening}
  {i j : Nat}

/-! ### Processes that have retired -/

/-- The process at hand for a session is that one, and it has retired. -/
def Lingers (m : Machine) (s : String) (k : Nat) : Prop :=
  ∃ p, m.process? s = some (k, p) ∧ p.retired = true

/-- By what happens the process of that number, which is one of the session, retires. -/
def Retires (m : Machine) (s : String) (k : Nat) (x : Happening) : Prop :=
  ∃ p peer heed, x = .step (.process k peer heed) ∧ m.processes[k]? = some p ∧ p.session = s ∧
    p.IsDone

/-- By what happens somebody looks after the process of the session: a call that is to find it, or
the sweeper who takes a notice of it. -/
def Tends (m : Machine) (s : String) : Happening → Prop
  | .step (.call n) => ∃ o, m.calls[n]? = some (.finding o) ∧ o.session = s
  | .step (.sweep _) => m.notices.items.head? = some s
  | _ => False

theorem Handles.retired (h : m.Handles m' x) {p : Process} (hp : m.processes[k]? = some p)
    (hr : p.retired = true) : ∃ p', m'.processes[k]? = some p' ∧ p'.retired = true := by
  cases h with
  | rests hs =>
    obtain ⟨p', hp', hs⟩ := rel_forth (hs k) hp
    exact ⟨p', hp', hs.retired.trans hr⟩
  | starts hc hps => exact ⟨p, hps ▸ processes_start_of hp, hr⟩
  | @retires i _ _ q hq hd hps =>
    rw [hps]
    by_cases hi : k = i
    · subst hi
      exact ⟨q.retire, set_self hq, rfl⟩
    · exact ⟨p, set_of hp hi, hr⟩
  | sweeps hq hps => exact ⟨p, hps ▸ hp, hr⟩

/-- Who is at hand stays so where nobody looks after the session. -/
theorem Handles.lookup_eq (h : m.Handles m' x) (ht : ¬ m.Tends s x) :
    m'.atHand.lookup s = m.atHand.lookup s := by
  cases h with
  | rests _ ha | retires _ _ _ ha => rw [ha]
  | @starts _ o hc _ ha =>
    rw [ha]
    exact lookup_start_of_ne m fun hs => ht ⟨o, hc, hs.symm⟩
  | @sweeps _ t _ hq _ ha =>
    have hne : s ≠ t := by
      rintro rfl
      exact ht (congrArg List.head? hq)
    rcases ha with ha | ha
    · rw [ha]
    · rw [ha, lookup_filter_of_ne _ hne]

/-- A process that has retired stays at hand where nobody looks after its session. -/
theorem Unshut.lingers_after (h : m.Unshut) (hs : (m.after x).wasShut = false)
    (hl : m.Lingers s k) (ht : ¬ m.Tends s x) : (m.after x).Lingers s k := by
  have hh := handles_after h.unstopped x hs
  obtain ⟨p, hp, hr⟩ := hl
  obtain ⟨hk, hp⟩ := process?_eq_some hp
  obtain ⟨p', hp', hr'⟩ := hh.retired hp hr
  exact ⟨p', process?_eq ((hh.lookup_eq ht).trans hk) hp', hr'⟩

/-- A process that has retired is dropped where somebody looks after its session. -/
theorem Unshut.not_lingers_after (h : m.Unshut) (hl : m.Lingers s k) (ht : m.Tends s x) :
    ¬ (m.after x).Lingers s k := by
  obtain ⟨p, hp, hr⟩ := hl
  rintro ⟨p', hp', -⟩
  obtain ⟨hk', -⟩ := process?_eq_some hp'
  have hlt : k < m.processes.length :=
    (List.getElem?_eq_some_iff.mp (process?_eq_some hp).2).1
  -- afterwards a process with a new number is at hand, or none
  cases x with
  | step c =>
    cases c with
    | call n =>
      obtain ⟨o, hc, rfl⟩ := ht
      have hafter : m.after (.step (.call n)) =
          (m.startProcess o.session).setCall n (.posting o m.processes.length) := by
        show (m.stepCall n).getD m = _
        rw [stepCall, hc]
        show m.findProcess n o = _
        rw [findProcess, hp]
        exact if_pos hr
      rw [hafter] at hk'
      cases (lookup_start_self m o.session).symm.trans hk'
      exact Nat.lt_irrefl _ hlt
    | sweep heed =>
      obtain ⟨hnil, -⟩ | ⟨t, rest, hitems, -⟩ := Process.next?_cases m.notices
      · cases (congrArg List.head? hnil).symm.trans ht
      cases (congrArg List.head? hitems).symm.trans ht
      have hheeds : (m.wasShut && heed) = false := by rw [h.wasShut, Bool.false_and]
      have hafter : (m.after (.step (.sweep heed))).atHand = m.atHand.filter (·.1 ≠ s) := by
        show ((m.sweep heed).getD m).atHand = _
        rw [sweep_eq hheeds hitems, hp]
        exact if_pos hr
      rw [hafter, lookup_filter_self] at hk'
      cases hk'
    | process => exact ht
  | _ => exact ht

theorem not_retired_of_isDone (h : m.Placed) {p : Process} (hp : m.processes[k]? = some p)
    (hd : p.IsDone) : p.retired = false :=
  (h.sound hp).not_retired (hd.answered ▸ trivial)

theorem retire_eq {p : Process} (hp : m.processes[k]? = some p) (hd : p.IsDone)
    (peer : Http.Attempt) (heed : Bool) : m.after (.step (.process k peer heed)) = { m with
      processes := m.processes.set k p.retire
      notices := (m.notice p.session).notices } := by
  show (m.stepProcess k peer heed).getD m = _
  rw [stepProcess_eq hp (hd.step_eq ..)]
  rfl

/-- A process that retires is the one at hand for its session. -/
theorem Unshut.lingers_of_retires (h : m.Unshut) (hr : m.Retires s k x) :
    (m.after x).Lingers s k := by
  obtain ⟨p, peer, heed, rfl, hp, rfl, hd⟩ := hr
  have hk := h.live hp (not_retired_of_isDone h.toPlaced hp hd)
  rw [retire_eq hp hd]
  exact ⟨p.retire, process?_eq hk (set_self hp), rfl⟩

/-- What has retired and is at hand was so before, or it retires. -/
theorem Handles.lingers_or_retires (h : m.Handles m' x) (hm : m.Placed) (hl : m'.Lingers s k) :
    m.Lingers s k ∨ m.Retires s k x := by
  obtain ⟨p', hp', hr'⟩ := hl
  obtain ⟨hk', hp'⟩ := process?_eq_some hp'
  have hold (hk : m.atHand.lookup s = some k) (hp : m.processes[k]? = some p') : m.Lingers s k :=
    ⟨p', process?_eq hk hp, hr'⟩
  cases h with
  | rests hps ha =>
    rw [ha] at hk'
    obtain ⟨p, hp, hstands⟩ := hps.back hp'
    exact .inl ⟨p, process?_eq hk' hp, hstands.retired.symm.trans hr'⟩
  | @starts n o hc hps ha =>
    rw [ha] at hk'
    rw [hps] at hp'
    rcases processes_start_cases hp' with hp | ⟨-, rfl⟩
    · by_cases he : s = o.session
      · subst he
        cases (lookup_start_self m o.session).symm.trans hk'
        exact (Nat.lt_irrefl _ (List.getElem?_eq_some_iff.mp hp).1).elim
      · exact .inl (hold ((lookup_start_of_ne m he).symm.trans hk') hp)
    · cases hr'
  | @retires i peer heed p hp hd hps ha =>
    rw [ha] at hk'
    rw [hps] at hp'
    by_cases hi : k = i
    · subst hi
      obtain ⟨q, hq, hsession⟩ := hm.atHand hk'
      cases hp.symm.trans hq
      exact .inr ⟨p, peer, heed, rfl, hp, hsession, hd⟩
    · rw [List.getElem?_set, if_neg (Ne.symm hi)] at hp'
      exact .inl (hold hk' hp')
  | @sweeps _ t _ _ hps ha =>
    rw [hps] at hp'
    refine .inl (hold ?_ hp')
    rcases ha with ha | ha
    · exact ha ▸ hk'
    · rw [ha] at hk'
      by_cases he : s = t
      · rw [he, lookup_filter_self] at hk'
        cases hk'
      · exact (lookup_filter_of_ne _ he).symm.trans hk'

/-- **Lingering.** What has retired and is at hand was so before, and nobody has looked after its
session; or it retires. -/
theorem Unshut.retires_of_lingers (h : m.Unshut) (hs : (m.after x).wasShut = false)
    (hl : (m.after x).Lingers s k) : m.Lingers s k ∧ ¬ m.Tends s x ∨ m.Retires s k x := by
  refine ((handles_after h.unstopped x hs).lingers_or_retires h.toPlaced hl).imp_left fun hold => ?_
  exact ⟨hold, fun ht => h.not_lingers_after hold ht hl⟩

/-! ### Notices -/

/-- A notice waits until it is taken. -/
theorem Handles.notice_mem (h : m.Handles m' x) (hs : s ∈ m.notices.items) (ht : ¬ m.Tends s x) :
    s ∈ m'.notices.items := by
  cases h with
  | rests _ _ hn | starts _ _ _ hn => exact hn ▸ hs
  | retires _ _ _ _ hn =>
    rw [hn, notice_eq]
    split
    · exact List.mem_append_left _ hs
    · exact hs
  | @sweeps _ t rest hq _ _ hn =>
    rw [hn]
    rw [hq] at hs
    refine (List.mem_cons.mp hs).resolve_left ?_
    rintro rfl
    exact ht (congrArg List.head? hq)

/-- A process that retires leaves a notice if there is room. -/
theorem Unshut.notice_mem_of_retires (h : m.Unshut) (hr : m.Retires s k x)
    (hroom : m.notices.items.length < noticeSize) : s ∈ (m.after x).notices.items := by
  obtain ⟨p, peer, heed, rfl, hp, rfl, hd⟩ := hr
  rw [retire_eq hp hd]
  show p.session ∈ (m.notice p.session).notices.items
  rw [notice_eq, if_pos (h.capacity ▸ hroom)]
  exact List.mem_append_right _ (List.mem_singleton_self _)

/-! ### In the course of time -/

/-- From a moment on up to another one nobody looks after the session. -/
def Untended (m : Machine) (what : Nat → Happening) (s : String) (i j : Nat) : Prop :=
  ∀ l, i ≤ l → l < j → ¬ (m.course what l).Tends s (what l)

/-- The process of that number, which is one of the session, retired at the moment `j` when there
was no room for its notice, and up to the moment `i` nobody has looked after the session. -/
structure Overlooked (m : Machine) (what : Nat → Happening) (s : String) (k j i : Nat) : Prop where
  before : j < i
  retires : (m.course what j).Retires s k (what j)
  full : noticeSize ≤ (m.course what j).notices.items.length
  untended : m.Untended what s (j + 1) i

section
variable {settings : Settings} {w : World}

theorem Untended.mono {l : Nat} (h : m.Untended what s i j) (hl : l ≤ j) : m.Untended what s i l :=
  fun n hin hnl => h n hin (Nat.lt_of_lt_of_le hnl hl)

/-- Where nobody looks after its session what has retired stays at hand. -/
theorem Untended.lingers (hij : i ≤ j) (h : (new settings w).Untended what s i j)
    (hs : ((new settings w).course what j).wasShut = false)
    (hl : ((new settings w).course what i).Lingers s k) :
    ((new settings w).course what j).Lingers s k := by
  induction hij with
  | refl => exact hl
  | @step j hij ih =>
    have hs' := wasShut_of_after hs
    refine (unshut_course hs').lingers_after hs ?_ (h j hij (Nat.lt_succ_self j))
    exact ih (h.mono (Nat.le_succ j)) hs'

/-- Where nobody looks after its session a notice waits. -/
theorem Untended.notice_mem (hij : i ≤ j) (h : (new settings w).Untended what s i j)
    (hs : ((new settings w).course what j).wasShut = false)
    (hl : s ∈ ((new settings w).course what i).notices.items) :
    s ∈ ((new settings w).course what j).notices.items := by
  induction hij with
  | refl => exact hl
  | @step j hij ih =>
    have hs' := wasShut_of_after hs
    refine (handles_after (unshut_course hs').unstopped _ hs).notice_mem ?_
      (h j hij (Nat.lt_succ_self j))
    exact ih (h.mono (Nat.le_succ j)) hs'

/-- What has retired and is at hand retired at some moment, and nobody has looked after its session
since then: the last moment at which it was not yet both. -/
theorem exists_retires (hs : ((new settings w).course what i).wasShut = false)
    (hl : ((new settings w).course what i).Lingers s k) :
    ∃ j < i, ((new settings w).course what j).Retires s k (what j) ∧
      (new settings w).Untended what s (j + 1) i := by
  induction i with
  | zero =>
    obtain ⟨p, hp, -⟩ := hl
    cases hp
  | succ i ih =>
    have hs' := wasShut_of_after hs
    obtain ⟨hl, ht⟩ | hr := (unshut_course hs').retires_of_lingers hs hl
    · obtain ⟨j, hji, hr, hu⟩ := ih hs' hl
      refine ⟨j, Nat.lt_succ_of_lt hji, hr, fun l hjl hli => ?_⟩
      rcases Nat.lt_succ_iff_lt_or_eq.mp hli with hli | rfl
      · exact hu l hjl hli
      · exact ht
    · refine ⟨i, Nat.lt_succ_self i, hr, fun l hil hli => ?_⟩
      exact (Nat.lt_irrefl _ (Nat.lt_of_lt_of_le hli hil)).elim

/-- **Release.** As long as an engine is not shut down and where no notice waits, a process that has
retired is still at hand just where it retired when there was no room for its notice and nobody has
looked after its session since then. -/
theorem lingers_iff (settings : Settings) (w : World) (what : Nat → Happening) (i : Nat)
    (hs : ((new settings w).course what i).wasShut = false)
    (hn : ((new settings w).course what i).notices.items = []) (s : String) (k : Nat) :
    ((new settings w).course what i).Lingers s k ↔
      ∃ j, (new settings w).Overlooked what s k j i := by
  constructor
  · intro hl
    obtain ⟨j, hji, hr, hu⟩ := exists_retires hs hl
    refine ⟨j, hji, hr, Nat.le_of_not_lt fun hroom => ?_, hu⟩
    -- with room there would be a notice, which nobody has taken since then
    have hleft := (Unshut.earlier (Nat.le_of_lt hji) hs).notice_mem_of_retires hr hroom
    have hwaits := Untended.notice_mem hji hu hs hleft
    rw [hn] at hwaits
    exact List.not_mem_nil hwaits
  · rintro ⟨j, hji, hr, -, hu⟩
    exact hu.lingers hji hs ((Unshut.earlier (Nat.le_of_lt hji) hs).lingers_of_retires hr)

end

/-! ### More processes retire than there is room for notices -/

/-- What happens one after the other. -/
theorem course_getD (m : Machine) (l : List Happening) (x : Happening) :
    m.course (l.getD · x) l.length = l.foldl after m := by
  have htake (i : Nat) (hi : i ≤ l.length) :
      m.course (l.getD · x) i = (l.take i).foldl after m := by
    induction i with
    | zero => rfl
    | succ i ih =>
      show (m.course (l.getD · x) i).after (l.getD i x) = _
      rw [ih (Nat.le_of_succ_le hi), List.take_add_one, List.foldl_append,
        List.getD_eq_getElem?_getD, List.getElem?_eq_getElem hi]
      rfl
  rw [htake l.length (Nat.le_refl _), List.take_length]

theorem set_concat {α : Type} (l : List α) (a b : α) :
    (l ++ [a]).set l.length b = l ++ [b] := by
  rw [List.set_append_right _ _ (Nat.le_refl _), Nat.sub_self]
  rfl

/-- There is one more call. -/
def called (m : Machine) (c : Call) : Machine := { m with calls := m.calls ++ [c] }

/-- A new process is at hand for a session. -/
def joined (m : Machine) (s : String) (p : Process) : Machine :=
  { m.startProcess s with processes := m.processes ++ [p] }

section
variable {n : Nat} {o : Order} {c d : Call} {p p' : Process}

theorem call_called (hn : m.calls.length = n) (c : Call) : (m.called c).calls[n]? = some c :=
  hn ▸ List.getElem?_concat_length

theorem setCall_called (m : Machine) (hn : m.calls.length = n) (c d : Call) :
    (m.called c).setCall n d = m.called d := by
  subst hn
  show { m with calls := (m.calls ++ [c]).set m.calls.length d } = _
  rw [set_concat]
  rfl

theorem arriving_called (hn : m.calls.length = n) (hrun : m.running = true)
    (ho : o.command ≠ .close) {sessions : Collection SessionRow}
    (hsessions : m.world.store.access m.world.store.sessions = .ok sessions)
    (hexists : sessions.exists? o.session = true) :
    (m.called (.arriving o)).after (.step (.call n)) = m.called (.seeking o) := by
  show ((m.called (.arriving o)).stepCall n).getD _ = _
  rw [stepCall, call_called hn]
  show (m.called (.arriving o)).arrive n o = _
  have hsessions' : (m.called (.arriving o)).world.store.access
    (m.called (.arriving o)).world.store.sessions = .ok sessions := hsessions
  have hrun' : (m.called (.arriving o)).running = true := hrun
  rw [arrive, if_neg ho, hsessions']
  show ifRunning _ n (if _ then _ else _) = _
  rw [if_pos hexists, ifRunning, if_pos hrun', setCall_called m hn]

theorem seeking_called (hn : m.calls.length = n) (hrun : m.running = true) :
    (m.called (.seeking o)).after (.step (.call n)) = m.called (.finding o) := by
  show ((m.called (.seeking o)).stepCall n).getD _ = _
  rw [stepCall, call_called hn]
  have hrun' : (m.called (.seeking o)).running = true := hrun
  show (m.called (.seeking o)).ifRunning n (.finding o) = _
  rw [ifRunning, if_pos hrun', setCall_called m hn]

theorem finding_called (hn : m.calls.length = n) (hr : ∀ p ∈ m.processes, p.retired = true) :
    (m.called (.finding o)).after (.step (.call n)) =
      (m.startProcess o.session).called (.posting o m.processes.length) := by
  show ((m.called (.finding o)).stepCall n).getD _ = _
  rw [stepCall, call_called hn]
  show (m.called (.finding o)).findProcess n o = _
  have hstart := setCall_called (m.startProcess o.session) hn (.finding o)
    (.posting o m.processes.length)
  unfold findProcess
  split
  · rename_i k p hp
    rw [if_pos (hr p (List.mem_of_getElem? (process?_eq_some hp).2))]
    exact hstart
  · exact hstart

theorem posting_called (hn : m.calls.length = n) (hk : m.processes[k]? = some p)
    (hp : p.enqueue ⟨n, o.command⟩ = .accepted p') :
    (m.called (.posting o k)).after (.step (.call n)) = (m.setProcess k p').called .waiting := by
  have hk' : (m.called (.posting o k)).processes[k]? = some p := hk
  have hwaits := setCall_called (m.setProcess k p') hn (.posting o k) .waiting
  show ((m.called (.posting o k)).stepCall n).getD _ = _
  rw [stepCall, call_called hn]
  show ((m.called (.posting o k)).post n o k).getD _ = _
  simp only [post, hk', hp, Option.bind_eq_bind, Option.bind_some]
  exact hwaits

theorem process_joined (hk : m.processes.length = n) (s : String) (p : Process) :
    (m.joined s p).processes[n]? = some p :=
  hk ▸ List.getElem?_concat_length

theorem setProcess_joined (hk : m.processes.length = n) (s : String) (p p' : Process) :
    (m.joined s p).setProcess n p' = m.joined s p' := by
  subst hk
  show { m.startProcess s with processes := (m.processes ++ [p]).set m.processes.length p' } = _
  rw [set_concat]
  rfl

/-- The new process goes on. -/
theorem after_joined (hk : m.processes.length = n) {reply : Option (Nat × Outcome Turn.Report)}
    (hp : p.step m.settings m.world m.time .unreachable false = some ⟨p', m.world, reply, false⟩)
    (hc : answering (m.calls ++ [c]) reply = m.calls ++ [d]) :
    ((m.joined s p).called c).after (.step (.process n .unreachable false)) =
      (m.joined s p').called d := by
  have hk' : ((m.joined s p).called c).processes[n]? = some p := process_joined hk s p
  subst hk
  show (((m.joined s p).called c).stepProcess _ _ _).getD _ = _
  rw [stepProcess_eq hk' hp]
  show { m.joined s p with
    processes := (m.processes ++ [p]).set m.processes.length p'
    calls := answering (m.calls ++ [c]) reply } = _
  rw [set_concat, hc]
  rfl

/-- A call that finds no process that is alive gives its command to a new one. -/
theorem foldl_calls (hn : m.calls.length = n) (hk : m.processes.length = n)
    (hrun : m.running = true) (ho : o.command ≠ .close) {sessions : Collection SessionRow}
    (hsessions : m.world.store.access m.world.store.sessions = .ok sessions)
    (hexists : sessions.exists? o.session = true) (hr : ∀ p ∈ m.processes, p.retired = true) :
    (List.replicate 4 (.step (.call n))).foldl after (m.after (.submit (.order o))) =
      (m.joined o.session ((Process.new o.session).withItems [⟨n, o.command⟩])).called
        .waiting := by
  have hseeks : (m.after (.submit (.order o))).after (.step (.call n)) = m.called (.seeking o) :=
    arriving_called hn hrun ho hsessions hexists
  have hfinds : (m.called (.finding o)).after (.step (.call n)) =
      (m.joined o.session (.new o.session)).called (.posting o n) := by
    rw [finding_called hn hr, hk]
    rfl
  have hposts : ((m.joined o.session (.new o.session)).called (.posting o n)).after
      (.step (.call n)) = ((m.joined o.session (.new o.session)).setProcess n
        ((Process.new o.session).withItems [⟨n, o.command⟩])).called .waiting :=
    posting_called hn (process_joined hk _ _) rfl
  simp only [List.replicate, List.foldl_cons, List.foldl_nil, hseeks, seeking_called hn hrun,
    hfinds, hposts, setProcess_joined hk]

/-- The new process takes its command, which comes to an end once the session is loaded; it answers
and retires. -/
theorem foldl_process (hn : m.calls.length = n) (hk : m.processes.length = n) {cmd : Command}
    {next : Outcome Session → Program (Outcome Turn.Report)} {r : Outcome Turn.Report}
    (hhandle : Command.handle m.settings s cmd = .ask (.loadSession s) next)
    (hnext : next (m.world.store.loadSession s) = .done r) :
    (List.replicate 4 (.step (.process n .unreachable false))).foldl after
        ((m.joined s ((Process.new s).withItems [⟨n, cmd⟩])).called .waiting) =
      { (m.joined s (Process.new s).retire).called (.answered r) with
        notices := (m.notice s).notices } := by
  let doing (w : Process.Work) : Process := { Process.new s with work := w }
  have htakes : ((m.joined s ((Process.new s).withItems [⟨n, cmd⟩])).called .waiting).after
      (.step (.process n .unreachable false)) =
        (m.joined s (doing (.busy n (.ask (.loadSession s) next)))).called .waiting := by
    rw [← hhandle]
    exact after_joined hk rfl rfl
  have hasks : ((m.joined s (doing (.busy n (.ask (.loadSession s) next)))).called .waiting).after
      (.step (.process n .unreachable false)) =
        (m.joined s (doing (.busy n (.done r)))).called .waiting := by
    rw [← hnext]
    exact after_joined hk rfl rfl
  have hanswers : ((m.joined s (doing (.busy n (.done r)))).called .waiting).after
      (.step (.process n .unreachable false)) =
        (m.joined s (doing .answered)).called (.answered r) := by
    have hreply : answering (m.calls ++ [.waiting]) (some (n, r)) = m.calls ++ [.answered r] :=
      hn ▸ set_concat ..
    exact after_joined hk rfl hreply
  have hretires : ((m.joined s (doing .answered)).called (.answered r)).after
      (.step (.process n .unreachable false)) =
        { (m.joined s (Process.new s).retire).called (.answered r) with
          notices := (m.notice s).notices } := by
    have hp : ((m.joined s (doing .answered)).called (.answered r)).processes[n]? =
      some (doing .answered) := process_joined hk s _
    have hnotice : (((m.joined s (doing .answered)).called (.answered r)).notice s).notices =
        (m.notice s).notices := by
      rw [notice_eq, notice_eq]
      rfl
    have hset := setProcess_joined hk s (doing .answered) (Process.new s).retire
    rw [retire_eq hp ⟨rfl, rfl⟩, ← hnotice, ← hset]
    rfl
  simp only [List.replicate, List.foldl_cons, List.foldl_nil, htakes, hasks, hanswers, hretires]

end

/-- Two sessions are stored. -/
def crowdedWorld : World :=
  (visitedWorld.answer ⟨false, .unreachable⟩ (.createSession (.new "s2" "f1" 1 0))).1

/-- A user asks for the rest of a turn of the session, and there is none. The call has that number,
and so has the process that is started for it, which answers and retires. -/
def passage (s : String) (n : Nat) : List Happening :=
  .submit (.order ⟨s, .recover⟩) :: (List.replicate 4 (.step (.call n)) ++
    List.replicate 4 (.step (.process n .unreachable false)))

/-- So many calls were made, and answered by processes that have retired since. -/
structure Passed (m : Machine) (n : Nat) : Prop where
  running : m.running = true
  wasShut : m.wasShut = false
  settings : m.settings = .default
  world : m.world = crowdedWorld
  capacity : m.notices.capacity = noticeSize
  calls : m.calls.length = n
  processes : m.processes.length = n
  answered : ∀ c ∈ m.calls, ∃ r, c = .answered r
  finished : ∀ p ∈ m.processes, p.work = .finished ∧ p.retired = true

/-- What one more call comes to. -/
theorem Passed.foldl_passage {n : Nat} (h : m.Passed n) (hs : s = "s1" ∨ s = "s2") :
    ∃ r, (passage s n).foldl after m =
      { (m.joined s (Process.new s).retire).called (.answered r) with
        notices := (m.notice s).notices } := by
  obtain ⟨sessions, hsessions, hexists⟩ : ∃ sessions,
      m.world.store.access m.world.store.sessions = .ok sessions ∧
        sessions.exists? s = true := by
    rw [h.world]
    rcases hs with rfl | rfl <;> exact ⟨_, rfl, rfl⟩
  obtain ⟨next, r, hhandle, hnext⟩ : ∃ next r,
      Command.handle m.settings s .recover = .ask (.loadSession s) next ∧
        next (m.world.store.loadSession s) = .done r := by
    rw [h.settings, h.world]
    rcases hs with rfl | rfl <;> exact ⟨_, _, rfl, rfl⟩
  refine ⟨r, ?_⟩
  rw [passage, List.foldl_cons, List.foldl_append, foldl_calls h.calls h.processes h.running
    (by simp) hsessions hexists fun p hp => (h.finished p hp).2]
  exact foldl_process h.calls h.processes hhandle hnext

/-- One more call was answered, and its process, which is at hand, has retired. -/
theorem Passed.succ {n : Nat} (h : m.Passed n) (hs : s = "s1" ∨ s = "s2") :
    ((passage s n).foldl after m).Passed (n + 1) ∧
      ((passage s n).foldl after m).Lingers s n ∧
      ((passage s n).foldl after m).notices = (m.notice s).notices := by
  obtain ⟨r, heq⟩ := h.foldl_passage hs
  rw [heq]
  refine ⟨⟨h.running, h.wasShut, h.settings, h.world, ?_, ?_, ?_, ?_, ?_⟩, ?_, rfl⟩
  · show (m.notice s).notices.capacity = noticeSize
    rw [notice_eq]
    split <;> exact h.capacity
  · show (m.calls ++ [_]).length = n + 1
    rw [List.length_append, h.calls]
    rfl
  · show (m.processes ++ [_]).length = n + 1
    rw [List.length_append, h.processes]
    rfl
  · intro c hc
    rcases List.mem_append.mp hc with hc | hc
    · exact h.answered c hc
    · exact ⟨r, List.mem_singleton.mp hc⟩
  · intro p hp
    rcases List.mem_append.mp hp with hp | hp
    · exact h.finished p hp
    · cases List.mem_singleton.mp hp
      exact ⟨rfl, rfl⟩
  · refine ⟨(Process.new s).retire, process?_eq ?_ (process_joined h.processes s _), rfl⟩
    rw [← h.processes]
    exact lookup_start_self m s

/-- So many processes of a session retire while nobody takes a notice. -/
theorem passed_crowd {n : Nat} (hn : n ≤ noticeSize) {m : Machine} (hm : m.Passed 0)
    (hitems : m.notices.items = []) :
    (((List.range n).flatMap (passage "s1")).foldl after m).Passed n ∧
      (((List.range n).flatMap (passage "s1")).foldl after m).notices.items =
        List.replicate n "s1" := by
  induction n with
  | zero => exact ⟨hm, hitems⟩
  | succ n ih =>
    obtain ⟨hp, hq⟩ := ih (Nat.le_of_succ_le hn)
    obtain ⟨hp', -, hq'⟩ := hp.succ (.inl rfl)
    have hroom : n < noticeSize := hn
    rw [List.range_succ, List.flatMap_append, List.flatMap_singleton, List.foldl_append]
    refine ⟨hp', ?_⟩
    rw [hq', notice_eq, hq, hp.capacity, List.length_replicate, if_pos hroom,
      List.replicate_succ']

/-- The sweeper takes the notices of a session, and a process of another one stays. -/
theorem passed_sweeps {n k i : Nat} {m : Machine} (hm : m.Passed n)
    (hitems : m.notices.items = List.replicate i "s1") (hl : m.Lingers "s2" k) :
    ((List.replicate i (.step (.sweep false))).foldl after m).Passed n ∧
      ((List.replicate i (.step (.sweep false))).foldl after m).notices.items = [] ∧
      ((List.replicate i (.step (.sweep false))).foldl after m).Lingers "s2" k := by
  induction i generalizing m with
  | zero => exact ⟨hm, hitems, hl⟩
  | succ i ih =>
    rw [List.replicate_succ, List.foldl_cons]
    have hheeds : (m.wasShut && false) = false := Bool.and_false _
    have hsweep : m.after (.step (.sweep false)) = _ :=
      congrArg (·.getD m) (sweep_eq hheeds hitems)
    obtain ⟨p, hp, hr⟩ := hl
    obtain ⟨hk, hp⟩ := process?_eq_some hp
    rw [hsweep]
    refine ih ⟨hm.running, hm.wasShut, hm.settings, hm.world, hm.capacity, hm.calls, hm.processes,
      hm.answered, hm.finished⟩ rfl ⟨p, process?_eq ?_ hp, hr⟩
    show List.lookup "s2" (if _ then _ else _) = some k
    split
    · exact (lookup_filter_of_ne _ (by decide)).trans hk
    · exact hk

/-- As many processes of a session retire as notices can wait, and then one of another session. Only
now the sweeper takes the notices. -/
def crowd : List Happening :=
  .launch :: ((List.range noticeSize).flatMap (passage "s1") ++ (passage "s2" noticeSize ++
    List.replicate noticeSize (.step (.sweep false))))

/-- The crowd one after the other, and nothing of note later. -/
def crowding (i : Nat) : Happening := crowd.getD i .launch

/-- An engine after the crowd. -/
def crowded : Machine := (new .default crowdedWorld).course crowding crowd.length

theorem passed_crowded : crowded.Passed (noticeSize + 1) ∧ crowded.notices.items = [] ∧
    crowded.Lingers "s2" noticeSize := by
  have hlaunched : ((new .default crowdedWorld).after .launch).Passed 0 :=
    ⟨rfl, rfl, rfl, rfl, rfl, rfl, rfl, fun _ h => (List.not_mem_nil h).elim,
      fun _ h => (List.not_mem_nil h).elim⟩
  obtain ⟨hfirst, hfull⟩ := passed_crowd (Nat.le_refl noticeSize) hlaunched rfl
  obtain ⟨hlast, hl, hn⟩ := hfirst.succ (.inr rfl)
  have hnone : ¬ (List.replicate noticeSize "s1").length < noticeSize := by
    rw [List.length_replicate]
    exact Nat.lt_irrefl _
  rw [notice_eq, hfull, hfirst.capacity, if_neg hnone] at hn
  have hrun : crowded = crowd.foldl after (new .default crowdedWorld) :=
    course_getD (new .default crowdedWorld) crowd .launch
  have hitems := (congrArg BoundedQueue.items hn).trans hfull
  rw [hrun, crowd, List.foldl_cons, List.foldl_append, List.foldl_append]
  exact passed_sweeps hlast hitems hl

/-- No call is in progress, every process waits for a command or has finished, and no notice
waits. -/
structure Quiet (m : Machine) : Prop where
  answered : ∀ c ∈ m.calls, ∃ r, c = .answered r
  processes : ∀ p ∈ m.processes, p.work = .idle ∨ p.work = .finished
  notices : m.notices.items = []

/-- After the crowd one process has retired and stays at hand, although nothing goes on any more. -/
theorem lingers_crowded : crowded.running = true ∧ crowded.wasShut = false ∧ crowded.Quiet ∧
    crowded.Lingers "s2" noticeSize := by
  obtain ⟨hp, hn, hl⟩ := passed_crowded
  exact ⟨hp.running, hp.wasShut, ⟨hp.answered, fun p h => .inr (hp.finished p h).1, hn⟩, hl⟩

/-- It was overlooked. -/
theorem lingers_iff_crowded : crowded.wasShut = false ∧ crowded.notices.items = [] ∧
    ∃ j, (new .default crowdedWorld).Overlooked crowding "s2" noticeSize j crowd.length := by
  obtain ⟨hp, hn, hl⟩ := passed_crowded
  have hs := hp.wasShut
  unfold crowded at hs hn hl ⊢
  exact ⟨hs, hn,
    (lingers_iff .default crowdedWorld crowding crowd.length hs hn "s2" noticeSize).mp hl⟩

end Dialogue.Machine
