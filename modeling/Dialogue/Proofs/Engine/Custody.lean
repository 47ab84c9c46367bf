import Dialogue.Proofs.Engine.Moves
import Mathlib.Data.List.Nodup

/-! # Who has a command

At each moment a process that has not retired is the one at hand for its session, and each command
whose call waits is with exactly one process: it is the one that is worked on, or it waits in the
queue. All moves of an engine keep it so.

* `Does.held_eq`, `Does.sound`: what a step of a process does to the commands it has.
* `Moves.placed`, `Moves.custody`: what the moves keep.
* `orderly_course`: this is so at each moment of every engine. -/

namespace Dialogue

namespace Process

/-- The calls whose commands the process has: first the one that it works on, then those that
wait. -/
def held (p : Process) : List Nat :=
  (match p.work with
    | .busy call _ => [call]
    | _ => []) ++ p.queue.items.map (·.call)

theorem mem_held_of_mem {p : Process} {x : Pending} (hx : x ∈ p.queue.items) : x.call ∈ p.held :=
  List.mem_append_right _ (List.mem_map_of_mem hx)

theorem mem_held_of_busy {p : Process} {n : Nat} {rest : Program (Outcome Turn.Report)}
    (hw : p.work = .busy n rest) : n ∈ p.held := by
  unfold held
  rw [hw]
  exact List.mem_cons_self

/-- The process still takes commands. -/
def Work.IsLive : Work → Prop
  | .idle | .busy _ _ | .answered => True
  | .draining | .finished => False

/-- A process takes no more commands from where it drains its queue, and it is finished only after
that. -/
structure Sound (p : Process) : Prop where
  retired : p.retired = true ↔ ¬ p.work.IsLive
  finished : p.work = .finished → p.queue.items = []

variable {settings : Settings} {p p' : Process} {e : Effect}

theorem sound_new (session : String) : (new session).Sound where
  retired := iff_of_false nofun (not_not_intro trivial)
  finished h := nomatch h

theorem Alike.held_eq (h : p.Alike p') : p'.held = p.held := by
  unfold held
  rw [h.work, h.queue]

theorem Alike.sound (h : p.Alike p') (hp : p.Sound) : p'.Sound where
  retired := by rw [h.retired, h.work]; exact hp.retired
  finished := by rw [h.work, h.queue]; exact hp.finished

theorem Sound.not_retired (h : p.Sound) (hw : p.work.IsLive) : p.retired = false := by
  rw [← Bool.not_eq_true, h.retired]
  exact not_not_intro hw

theorem Sound.isLive (h : p.Sound) (hr : p.retired = false) : p.work.IsLive := by
  rw [← Bool.not_eq_true, h.retired] at hr
  exact Classical.not_not.mp hr

/-- A process that goes on to take commands. -/
theorem Sound.goes (h : p.Sound) (hw : p.work.IsLive) (hw' : p'.work.IsLive)
    (hr : p'.retired = p.retired) : p'.Sound where
  retired := iff_of_false (by rw [hr, h.not_retired hw]; exact Bool.false_ne_true)
    (not_not_intro hw')
  finished hf := by
    rw [hf] at hw'
    exact hw'.elim

theorem Does.session_eq (h : p.Does settings e) : e.process.session = p.session := by
  cases h with
  | asks w hw hs => exact hs
  | _ => rfl

/-- A process that has retired stays so. -/
theorem Does.retired (h : p.Does settings e) (hr : p.retired = true) :
    e.process.retired = true := by
  cases h with
  | heeds | retires => rfl
  | asks w hw hs hq hr' => exact hr'.trans hr
  | _ => exact hr

/-- A step answers the call whose command is the first one, or none. -/
theorem Does.held_eq (h : p.Does settings e) :
    p.held = (e.reply.map (·.1)).toList ++ e.process.held := by
  cases h with
  | heeds w hw | retires w hw | stays w hw | finishes w hw =>
    simp only [held, hw, Effect.quiet]
    rfl
  | takes w hw hq => simp only [held, hw, hq, withItems, Effect.quiet]; rfl
  | asks w hw hs hq hr hnext =>
    obtain ⟨x, hw'⟩ | ⟨-, hw', -⟩ := hnext
    · simp only [held, hw, hw', hq, Effect.quiet]
      rfl
    · simp only [held, hw', hq, Effect.quiet]
      rfl
  | answers w hw => simp only [held, hw]; rfl
  | dismisses w hw hq => simp only [held, hw, hq, withItems]; rfl

/-- A step answers only a call whose command the process has. -/
theorem Does.mem_held (h : p.Does settings e) {n : Nat} {r : Outcome Turn.Report}
    (hr : e.reply = some (n, r)) : n ∈ p.held := by
  rw [h.held_eq, hr]
  exact List.mem_cons_self

theorem Does.sound (h : p.Does settings e) (hp : p.Sound) : e.process.Sound := by
  cases h with
  | heeds w hw => exact ⟨iff_of_true rfl id, nofun⟩
  | takes w hw hq => exact hp.goes (hw ▸ trivial) trivial rfl
  | asks w hw hs hq hr hnext =>
    refine hp.goes (hw ▸ trivial) ?_ hr
    obtain ⟨x, hw'⟩ | ⟨-, hw', -⟩ := hnext
    · exact hw' ▸ trivial
    · exact (hw'.trans hw) ▸ trivial
  | answers w hw => exact hp.goes (hw ▸ trivial) trivial rfl
  | retires w hw hq => exact ⟨iff_of_true rfl id, fun _ => hq⟩
  | stays w hw hq => exact hp.goes (hw ▸ trivial) trivial rfl
  | dismisses w hw hq => exact ⟨hp.retired, fun hf => nomatch hw.symm.trans hf⟩
  | finishes w hw hq =>
    exact ⟨iff_of_true (hp.retired.mpr (hw ▸ id)) id, fun _ => hq⟩

/-! ### Changes that keep the place of a process -/

/-- A process is still that of its session, and has retired if it had. -/
structure Keeps (p p' : Process) : Prop where
  session : p'.session = p.session
  retired : p.retired = true → p'.retired = true
  sound : p.Sound → p'.Sound

theorem Keeps.refl (p : Process) : p.Keeps p := ⟨rfl, id, id⟩

theorem Alike.keeps (h : p.Alike p') : p.Keeps p' :=
  ⟨h.session, fun hr => h.retired.trans hr, h.sound⟩

theorem Does.keeps (h : p.Does settings e) : p.Keeps e.process :=
  ⟨h.session_eq, h.retired, h.sound⟩

theorem keeps_withItems (hr : p.retired = false) (items : List Pending) :
    p.Keeps (p.withItems items) :=
  ⟨rfl, id, fun h => h.goes (h.isLive hr) (h.isLive hr) rfl⟩

end Process

namespace Machine

variable {m m' : Machine}

/-! ### Processes at hand -/

/-- The processes at hand are those of their sessions, and whatever has not retired is at hand. -/
structure Placed (m : Machine) : Prop where
  atHand : ∀ {s : String} {k : Nat}, m.atHand.lookup s = some k →
    ∃ p, m.processes[k]? = some p ∧ p.session = s
  live : ∀ {k : Nat} {p : Process}, m.processes[k]? = some p → p.retired = false →
    m.atHand.lookup p.session = some k
  posting : ∀ {n k : Nat} {o : Order}, m.calls[n]? = some (.posting o k) →
    ∃ p, m.processes[k]? = some p ∧ p.session = o.session
  sound : ∀ {k : Nat} {p : Process}, m.processes[k]? = some p → p.Sound

/-- Every process keeps its place. -/
def Keep (m m' : Machine) : Prop :=
  ∀ k : Nat, Option.Rel Process.Keeps m.processes[k]? m'.processes[k]?

theorem Still.keep (h : m.Still m') : m.Keep m' :=
  fun k => rel_imp (h k) fun _ _ => Process.Alike.keeps

theorem keep_of_eq (h : m'.processes = m.processes) : m.Keep m' := by
  intro k
  rw [h]
  exact rel_self Process.Keeps.refl _

theorem keep_of_set {k : Nat} {p p' : Process} (hp : m.processes[k]? = some p) (h : p.Keeps p')
    (hps : m'.processes = m.processes.set k p') : m.Keep m' := by
  intro i
  rw [hps]
  exact rel_set Process.Keeps.refl hp h i

theorem Keep.forth (h : m.Keep m') {k : Nat} {p : Process} (hp : m.processes[k]? = some p) :
    ∃ p', m'.processes[k]? = some p' ∧ p.Keeps p' :=
  rel_forth (h k) hp

theorem Keep.back (h : m.Keep m') {k : Nat} {p' : Process} (hp : m'.processes[k]? = some p') :
    ∃ p, m.processes[k]? = some p ∧ p.Keeps p' :=
  rel_back (h k) hp

/-- Processes that keep their places. -/
theorem Placed.keep (hm : m.Placed) (h : m.Keep m') (ha : m'.atHand = m.atHand)
    (hc : ∀ {n k : Nat} {o : Order}, m'.calls[n]? = some (.posting o k) →
      ∃ p, m.processes[k]? = some p ∧ p.session = o.session) : m'.Placed where
  atHand hs := by
    rw [ha] at hs
    obtain ⟨p, hp, hps⟩ := hm.atHand hs
    obtain ⟨p', hp', hk⟩ := h.forth hp
    exact ⟨p', hp', hk.session.trans hps⟩
  live hp' hr := by
    obtain ⟨p, hp, hk⟩ := h.back hp'
    have hr' : p.retired = false := by
      rw [← Bool.not_eq_true] at hr ⊢
      exact fun h => hr (hk.retired h)
    rw [ha, hk.session]
    exact hm.live hp hr'
  posting hn := by
    obtain ⟨p, hp, hps⟩ := hc hn
    obtain ⟨p', hp', hk⟩ := h.forth hp
    exact ⟨p', hp', hk.session.trans hps⟩
  sound hp' := by
    obtain ⟨p, hp, hk⟩ := h.back hp'
    exact hk.sound (hm.sound hp)

theorem lookup_start_self (m : Machine) (s : String) :
    (m.startProcess s).atHand.lookup s = some m.processes.length :=
  Cache.get?_set_self ⟨m.atHand⟩ s _

theorem lookup_start_of_ne (m : Machine) {s t : String} (h : t ≠ s) :
    (m.startProcess s).atHand.lookup t = m.atHand.lookup t :=
  Cache.get?_set_of_ne h ⟨m.atHand⟩ _

theorem lookup_filter_self (l : List (String × Nat)) (s : String) :
    (l.filter (·.1 ≠ s)).lookup s = none :=
  Cache.get?_remove_self ⟨l⟩ s

theorem lookup_filter_of_ne (l : List (String × Nat)) {s t : String} (h : t ≠ s) :
    (l.filter (·.1 ≠ s)).lookup t = l.lookup t :=
  Cache.get?_remove_of_ne h ⟨l⟩

theorem processes_start_cases {s : String} {k : Nat} {p : Process}
    (h : (m.startProcess s).processes[k]? = some p) :
    m.processes[k]? = some p ∨ k = m.processes.length ∧ p = .new s := by
  rw [startProcess, List.getElem?_append] at h
  split at h
  · exact .inl h
  · rw [List.getElem?_singleton] at h
    split at h
    · cases h
      exact .inr ⟨by omega, rfl⟩
    · cases h

theorem processes_start_of {s : String} {k : Nat} {p : Process}
    (h : m.processes[k]? = some p) : (m.startProcess s).processes[k]? = some p := by
  rw [startProcess, List.getElem?_append_left (List.getElem?_eq_some_iff.mp h).1, h]

theorem processes_start_last (m : Machine) (s : String) :
    (m.startProcess s).processes[m.processes.length]? = some (.new s) :=
  List.getElem?_concat_length

/-- A new process takes the place of one that has retired. -/
theorem Placed.start (hm : m.Placed) {n : Nat} {o : Order}
    (hr : ∀ k p, m.atHand.lookup o.session = some k → m.processes[k]? = some p →
      p.retired = true) :
    ((m.startProcess o.session).setCall n (.posting o m.processes.length)).Placed where
  atHand {s k} hs := by
    by_cases he : s = o.session
    · subst he
      cases (lookup_start_self m _).symm.trans hs
      exact ⟨_, processes_start_last m _, rfl⟩
    · obtain ⟨p, hp, hps⟩ := hm.atHand ((lookup_start_of_ne m he).symm.trans hs)
      exact ⟨p, processes_start_of hp, hps⟩
  live {k p} hp hlive := by
    rcases processes_start_cases hp with hp | ⟨rfl, rfl⟩
    · have hk := hm.live hp hlive
      by_cases he : p.session = o.session
      · have hretired := hr k p (he ▸ hk) hp
        rw [hlive] at hretired
        cases hretired
      · exact (lookup_start_of_ne m he).trans hk
    · exact lookup_start_self m _
  posting {i k o'} hi := by
    by_cases he : Call.posting o' k = .posting o m.processes.length
    · cases he
      exact ⟨_, processes_start_last m _, rfl⟩
    · obtain ⟨p, hp, hps⟩ := hm.posting (of_set hi he).1
      exact ⟨p, processes_start_of hp, hps⟩
  sound {k p} hp := by
    rcases processes_start_cases hp with hp | ⟨-, rfl⟩
    · exact hm.sound hp
    · exact Process.sound_new _

/-- A process that has retired is dropped. -/
theorem Placed.drop (hm : m.Placed) {s : String} {k : Nat} {p : Process}
    (hk : m.atHand.lookup s = some k) (hp : m.processes[k]? = some p) (hr : p.retired = true)
    (hps : m'.processes = m.processes) (ha : m'.atHand = m.atHand.filter (·.1 ≠ s))
    (hc : m'.calls = m.calls) : m'.Placed where
  atHand {t i} ht := by
    rw [ha] at ht
    by_cases he : t = s
    · rw [he, lookup_filter_self] at ht
      cases ht
    · rw [lookup_filter_of_ne _ he] at ht
      rw [hps]
      exact hm.atHand ht
  live {i q} hq hlive := by
    rw [hps] at hq
    have hi := hm.live hq hlive
    by_cases he : q.session = s
    · rw [he] at hi
      cases hk.symm.trans hi
      cases hp.symm.trans hq
      rw [hlive] at hr
      cases hr
    · rw [ha, lookup_filter_of_ne _ he, hi]
  posting hi := by
    rw [hc] at hi
    rw [hps]
    exact hm.posting hi
  sound hq := by
    rw [hps] at hq
    exact hm.sound hq

/-- Every move keeps the processes at hand. -/
theorem Moves.placed (h : m.Moves m') (hm : m.Placed) : m'.Placed := by
  cases h with
  | rests hp ha hc => exact hm.keep hp.keep ha fun hn => hm.posting (hc ▸ hn)
  | @submits _ c hearly hp ha hc =>
    refine hm.keep hp.keep ha fun {n k o} hn => ?_
    rw [hc, List.getElem?_append] at hn
    split at hn
    · exact hm.posting hn
    · rw [List.getElem?_singleton] at hn
      split at hn
      · cases hn
        exact hearly.elim
      · cases hn
  | @goes _ n c d hn hearly hahead hp ha hc =>
    refine hm.keep hp.keep ha fun {i k o} hi => ?_
    rw [hc] at hi
    refine hm.posting (of_set hi ?_).1
    rintro rfl
    rcases hahead with h | ⟨r, h⟩
    · exact h
    · cases h
  | @finds n k o p hn hk hp hr =>
    refine hm.keep (keep_of_eq rfl) rfl fun {i j o'} hi => ?_
    by_cases he : Call.posting o' j = .posting o k
    · cases he
      obtain ⟨q, hq, hs⟩ := hm.atHand hk
      exact ⟨q, hq, hs⟩
    · exact hm.posting (of_set hi he).1
  | starts hn hr => exact hm.start hr
  | returns hn hp hr =>
    exact hm.keep (keep_of_eq rfl) rfl fun hi => hm.posting (of_set hi nofun).1
  | refuses hn hp =>
    exact hm.keep (keep_of_eq rfl) rfl fun hi => hm.posting (of_set hi nofun).1
  | accepts hn hp hr =>
    exact hm.keep (keep_of_set hp (Process.keeps_withItems hr _) rfl) rfl fun hi =>
      hm.posting (of_set hi nofun).1
  | @works _ k p e hp he hps ha hc =>
    refine hm.keep (keep_of_set hp he.keeps hps) ha fun {i j o} hi => ?_
    rw [hc] at hi
    revert hi
    cases e.reply with
    | none => exact hm.posting
    | some x => exact fun hi => hm.posting (of_set hi nofun).1
  | drops hk hp hr hps ha hc => exact hm.drop hk hp hr hps ha hc

/-! ### Commands -/

/-- The calls whose commands some process has. -/
def held (m : Machine) : List Nat := m.processes.flatMap Process.held

/-- The calls that wait are those whose commands a process has, and no command is there twice. -/
structure Custody (m : Machine) : Prop where
  nodup : m.held.Nodup
  waiting : ∀ n, n ∈ m.held ↔ m.calls[n]? = some .waiting

theorem flatMap_eq_of_rel {l l' : List Process}
    (h : ∀ k : Nat, Option.Rel (fun p p' => p'.held = p.held) l[k]? l'[k]?) :
    l'.flatMap Process.held = l.flatMap Process.held := by
  rw [List.flatMap_def, List.flatMap_def]
  refine congrArg List.flatten (List.ext_getElem? fun k => ?_)
  rw [List.getElem?_map, List.getElem?_map]
  have hk := h k
  revert hk
  generalize l[k]? = x, l'[k]? = y
  rintro (hxy | -)
  · exact congrArg some hxy
  · rfl

theorem Still.held_eq (h : m.Still m') : m'.held = m.held :=
  flatMap_eq_of_rel fun k => rel_imp (h k) fun _ _ => Process.Alike.held_eq

/-- What the processes have, with the commands of one of them set apart. -/
theorem held_set {l : List Process} {k : Nat} {p : Process} (hp : l[k]? = some p) (q : Process) :
    ∃ a b, l.flatMap Process.held = a ++ p.held ++ b ∧
      (l.set k q).flatMap Process.held = a ++ q.held ++ b := by
  have hlt := (List.getElem?_eq_some_iff.mp hp).1
  have hset (x : Process) : (l.set k x).flatMap Process.held =
      (l.take k).flatMap Process.held ++ x.held ++ (l.drop (k + 1)).flatMap Process.held := by
    rw [List.set_eq_take_append_cons_drop, if_pos hlt, List.flatMap_append, List.flatMap_cons,
      List.append_assoc]
  have hself : l.set k p = l := by
    refine List.ext_getElem? fun i => ?_
    by_cases hi : i = k
    · rw [hi, set_self hp, hp]
    · rw [List.getElem?_set, if_neg (Ne.symm hi)]
  have hold := hset p
  rw [hself] at hold
  exact ⟨_, _, hold, hset q⟩

theorem held_withItems (p : Process) (x : Pending) :
    (p.withItems (p.queue.items ++ [x])).held = p.held ++ [x.call] := by
  simp only [Process.held, Process.withItems, List.map_append, List.append_assoc,
    List.map_singleton]

/-- Calls come further without a process. -/
theorem Custody.aside (hm : m.Custody) (hh : m'.held = m.held)
    (hc : ∀ n : Nat, m'.calls[n]? = some Call.waiting ↔ m.calls[n]? = some Call.waiting) :
    m'.Custody where
  nodup := hh ▸ hm.nodup
  waiting n := by rw [hh, hm.waiting, hc]

theorem waiting_set {calls : List Call} {n : Nat} {d : Call} (hne : d ≠ .waiting) (i : Nat) :
    (calls.set n d)[i]? = some Call.waiting ↔ i ≠ n ∧ calls[i]? = some Call.waiting :=
  ⟨fun h => (of_set h hne.symm).symm, fun h => set_of h.2 h.1⟩

/-- A call that does not wait comes further and does not wait then. -/
theorem waiting_set_iff {calls : List Call} {n : Nat} {c d : Call} (hn : calls[n]? = some c)
    (hne : c ≠ .waiting) (hne' : d ≠ .waiting) (i : Nat) :
    (calls.set n d)[i]? = some Call.waiting ↔ calls[i]? = some Call.waiting := by
  rw [waiting_set hne']
  refine and_iff_right_of_imp fun h => ?_
  rintro rfl
  cases hn.symm.trans h
  exact hne rfl

/-- A process takes a command over from a call. -/
theorem Custody.accept (hm : m.Custody) {n k : Nat} {c : Call} {p : Process} (cmd : Command)
    (hn : m.calls[n]? = some c) (hne : c ≠ .waiting) (hp : m.processes[k]? = some p) :
    ((m.setProcess k (p.withItems (p.queue.items ++ [⟨n, cmd⟩]))).setCall n .waiting).Custody := by
  obtain ⟨a, b, hold, hnew⟩ := held_set hp (p.withItems (p.queue.items ++ [⟨n, cmd⟩]))
  rw [held_withItems] at hnew
  have hperm : (a ++ (p.held ++ [n]) ++ b).Perm (n :: (a ++ p.held ++ b)) := by
    rw [← List.append_assoc, List.append_assoc (a ++ p.held)]
    exact List.perm_middle
  have hfree : n ∉ a ++ p.held ++ b := by
    rw [← hold]
    refine fun h => hne ?_
    have hw := (hm.waiting n).mp h
    exact Option.some.inj (hn.symm.trans hw)
  constructor
  · show List.Nodup ((m.processes.set k _).flatMap Process.held)
    rw [hnew, hperm.nodup_iff]
    exact List.nodup_cons.mpr ⟨hfree, hold ▸ hm.nodup⟩
  · intro i
    show i ∈ (m.processes.set k _).flatMap Process.held ↔
      (m.calls.set n Call.waiting)[i]? = some Call.waiting
    rw [hnew, hperm.mem_iff, List.mem_cons, ← hold]
    refine (or_congr_right (hm.waiting i)).trans ?_
    by_cases hi : i = n
    · subst hi
      exact iff_of_true (.inl rfl) (set_self hn)
    · rw [List.getElem?_set_ne (Ne.symm hi)]
      exact or_iff_right hi

/-- A process that goes on has the commands that it had, but for one that it answers. -/
theorem Custody.work (hm : m.Custody) {k : Nat} {p : Process} {settings : Settings}
    {e : Process.Effect} (hp : m.processes[k]? = some p) (he : p.Does settings e)
    (hps : m'.processes = m.processes.set k e.process) (hc : m'.calls = answering m.calls e.reply) :
    m'.Custody := by
  obtain ⟨a, b, hold, hnew⟩ := held_set hp e.process
  have hheld : m'.held = a ++ e.process.held ++ b := by
    rw [held, hps, hnew]
  rw [he.held_eq] at hold
  cases hreply : e.reply with
  | none =>
    rw [hreply] at hold hc
    refine hm.aside (hheld.trans hold.symm) fun n => ?_
    rw [hc]
    rfl
  | some x =>
    obtain ⟨n, r⟩ := x
    rw [hreply] at hold hc
    have hperm : m.held.Perm (n :: m'.held) := by
      rw [hheld, held, hold, List.append_assoc, List.append_assoc, List.append_assoc a]
      exact List.perm_middle
    obtain ⟨hfree, hnodup⟩ := List.nodup_cons.mp (hperm.nodup_iff.mp hm.nodup)
    refine ⟨hnodup, fun i => ?_⟩
    rw [hc]
    refine Iff.trans ?_ (waiting_set (d := .answered r) nofun i).symm
    rw [← hm.waiting i, hperm.mem_iff, List.mem_cons]
    constructor
    · exact fun h => ⟨fun hi => hfree (hi ▸ h), .inr h⟩
    · exact fun h => h.2.resolve_left h.1

/-- Every move keeps the commands with the processes. -/
theorem Moves.custody (h : m.Moves m') (hm : m.Custody) : m'.Custody := by
  cases h with
  | rests hp ha hc => exact hm.aside hp.held_eq fun n => by rw [hc]
  | @submits _ c hearly hp ha hc =>
    refine hm.aside hp.held_eq fun n => ?_
    rw [hc, List.getElem?_append]
    split
    · exact .rfl
    · rw [List.getElem?_singleton, List.getElem?_eq_none (l := m.calls) (Nat.le_of_not_lt ‹_›)]
      refine iff_of_false ?_ nofun
      split
      · rintro ⟨⟩
        exact hearly
      · exact nofun
  | @goes _ n c d hn hearly hahead hp ha hc =>
    refine hm.aside hp.held_eq fun i => ?_
    rw [hc]
    refine waiting_set_iff hn ?_ ?_ i
    · rintro rfl
      exact hearly
    · rintro rfl
      rcases hahead with h | ⟨r, h⟩
      · exact h
      · cases h
  | finds hn hk hp hr => exact hm.aside rfl (waiting_set_iff hn nofun nofun)
  | starts hn hr =>
    refine hm.aside ?_ (waiting_set_iff hn nofun nofun)
    show (m.processes ++ [_]).flatMap Process.held = _
    rw [List.flatMap_append]
    exact List.append_nil _
  | returns hn hp hr => exact hm.aside rfl (waiting_set_iff hn nofun nofun)
  | refuses hn hp => exact hm.aside rfl (waiting_set_iff hn nofun nofun)
  | accepts hn hp hr => exact hm.accept _ hn nofun hp
  | works hp he hps ha hc => exact hm.work hp he hps hc
  | drops hk hp hr hps ha hc =>
    exact hm.aside (congrArg (·.flatMap Process.held) hps) fun n => by rw [hc]

section
variable {n k k' : Nat} {p p' : Process}

theorem Custody.waits (hm : m.Custody) (hp : m.processes[k]? = some p) (hn : n ∈ p.held) :
    m.calls[n]? = some Call.waiting :=
  (hm.waiting n).mp (List.mem_flatMap.mpr ⟨p, List.mem_of_getElem? hp, hn⟩)

theorem Custody.holder (hm : m.Custody) (hn : m.calls[n]? = some Call.waiting) :
    ∃ (k : Nat) (p : Process), m.processes[k]? = some p ∧ n ∈ p.held := by
  obtain ⟨p, hp, hn⟩ := List.mem_flatMap.mp ((hm.waiting n).mpr hn)
  obtain ⟨k, hk⟩ := List.mem_iff_getElem?.mp hp
  exact ⟨k, p, hk, hn⟩

theorem Custody.nodup_held (hm : m.Custody) (hp : m.processes[k]? = some p) : p.held.Nodup :=
  (List.nodup_flatMap.mp hm.nodup).1 p (List.mem_of_getElem? hp)

/-- A command is with one process only. -/
theorem Custody.unique (hm : m.Custody) (hp : m.processes[k]? = some p)
    (hp' : m.processes[k']? = some p') (hn : n ∈ p.held) (hn' : n ∈ p'.held) : k = k' := by
  have hpair := List.pairwise_iff_getElem.mp (List.nodup_flatMap.mp hm.nodup).2
  obtain ⟨hk, rfl⟩ := List.getElem?_eq_some_iff.mp hp
  obtain ⟨hk', rfl⟩ := List.getElem?_eq_some_iff.mp hp'
  rcases Nat.lt_trichotomy k k' with h | h | h
  · exact absurd hn' (hpair k k' hk hk' h hn)
  · exact h
  · exact absurd hn (hpair k' k hk' hk h hn')

end

/-! ### Engines in order -/

/-- The processes at hand and the commands are where they belong. -/
structure Orderly (m : Machine) : Prop extends m.Placed, m.Custody

theorem orderly_new (settings : Settings) (w : World) : (new settings w).Orderly where
  atHand h := nomatch h
  live h := nomatch h
  posting h := nomatch h
  sound h := nomatch h
  nodup := .nil
  waiting _ := iff_of_false List.not_mem_nil nofun

theorem Orderly.after (h : m.Orderly) (x : Happening) : (m.after x).Orderly :=
  ⟨(after_moves m x).placed h.toPlaced, (after_moves m x).custody h.toCustody⟩

/-- The engine in the course of what happens to it. -/
def course (m : Machine) (what : Nat → Happening) : Nat → Machine
  | 0 => m
  | i + 1 => (m.course what i).after (what i)

/-- **Order.** An engine is in order at each moment. -/
theorem orderly_course (settings : Settings) (w : World) (what : Nat → Happening) (i : Nat) :
    ((new settings w).course what i).Orderly := by
  induction i with
  | zero => exact orderly_new settings w
  | succ i ih => exact ih.after (what i)

end Machine

end Dialogue
