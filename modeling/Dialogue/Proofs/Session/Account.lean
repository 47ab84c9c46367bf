import Dialogue.Proofs.Program.Trail
import Dialogue.Proofs.Session.Transcript
import Dialogue.Proofs.Store.Flows

/-! # The account of a session

Whenever a session is kept in place of another one, the chat backend is owed notices: of what was
said, of the variables that a node changed, and of a transfer or an end. The account of a session
says which sessions were kept so far and which notices are still owed.

* `Suits.answer`: an answer to a question that the account admits leads to a world that suits the
  account with the mark entered.
* `Sound.take`: what the notices say of the session stays true with every mark that is admitted. -/

namespace Dialogue

/-- What the chat backend is told of a session, apart from the reason of a transfer. -/
inductive Notice where
  | append (m : Message)
  | persist (delta : Variables)
  | transfer (queue : Option String)
  | close
deriving DecidableEq

/-- The notice that is given. -/
def Delivery.notice : Delivery → Notice
  | .append _ m => .append m
  | .persist _ delta => .persist delta
  | .transfer _ queue _ => .transfer (some queue)
  | .close _ => .close

/-- What the chat backend was told of a session, the oldest first. -/
def World.notices (sid : String) (w : World) : List Notice :=
  (w.deliveries.filter fun d => d.session = sid).map Delivery.notice

/-! ### Commits -/

/-- A session was kept in place of another one. -/
structure Commit where
  /-- A turn did it. -/
  turning : Bool
  /-- The session as it was last read or kept. -/
  before : Session
  after : Session

namespace Commit

variable (k : Commit)

/-- What was said. -/
def spoken : List Message := k.after.messages.drop k.before.messages.length

/-- The session was kept because of a node, and not for a halt or outside of turns. -/
def byNode : Bool := k.turning && k.after.halt.isNone

/-- The variables that a node changed. -/
def delta : Variables := if k.byNode then Variables.delta k.before.vars k.after.vars else []

/-- A turn put the session into the hands of a queue. -/
def transfers : Bool := k.turning && k.after.status = .waiting

/-- The session was closed. -/
def closes : Bool := k.after.status = .closed

/-- The notice of the variables, if there is any. -/
def persisted : List Notice := if k.delta.isEmpty then [] else [.persist k.delta]

/-- The notice of a transfer or an end, if it is the one or the other. -/
def parting : List Notice :=
  (if k.transfers then [.transfer k.after.queue] else []) ++ if k.closes then [.close] else []

/-- What the chat backend is to be told. -/
def dues : List Notice := k.spoken.map .append ++ (k.persisted ++ k.parting)

/-- The session goes on from what it was before: nothing of the transcript and no variable is lost,
only a node changes variables, only a turn puts it into the hands of a queue, and it was not closed
before. -/
structure Fits (sid : String) (k : Commit) : Prop where
  id : k.after.id = sid
  alive : k.before.status ≠ .closed
  said : ∃ spoken, k.after.messages = k.before.messages ++ spoken ∧
    ∀ m ∈ spoken, FitsColumn m.timestamp
  grows : k.before.vars.Grows k.after.vars
  vars : k.byNode = false → k.after.vars = k.before.vars
  queued : k.turning = false → k.after.status = .waiting → k.before.status = .waiting

variable {k}

theorem spoken_eq {spoken : List Message}
    (h : k.after.messages = k.before.messages ++ spoken) : k.spoken = spoken := by
  rw [Commit.spoken, h, List.drop_left]

theorem Fits.messages {sid : String} (h : k.Fits sid) :
    k.after.messages = k.before.messages ++ k.spoken := by
  obtain ⟨spoken, hs, -⟩ := h.said
  rw [spoken_eq hs, hs]

end Commit

/-! ### Accounts -/

/-- How a session stands with the chat backend. -/
structure Account where
  /-- The session whose row is stored. -/
  stored : Session
  /-- The session as it was last read or kept. -/
  known : Session
  /-- A turn has begun since the session was read. -/
  turning : Bool
  /-- All that was kept in place of the first row. -/
  commits : List Commit
  /-- What the chat backend is still to be told. -/
  owed : List Notice

namespace Account

/-- The commit that keeps a session. -/
def commit (t : Account) (y : Session) : Commit := ⟨t.turning, t.known, y⟩

/-- The account with a mark entered. -/
def take (t : Account) : Mark → Account
  | .opened s => { t with known := s, turning := false }
  | .kept y =>
    { t with stored := y, known := y, commits := t.commits ++ [t.commit y],
             owed := (t.commit y).dues }
  | .told _ => { t with owed := t.owed.tail }
  | .turn => { t with turning := true }

/-- The account admits a mark: the session is read off its row, it is kept only when everything is
paid, and only what is owed is told. -/
def Admits (sid : String) (t : Account) : Mark → Prop
  | .opened s => (SessionRow.ofSession t.stored).toSession = .ok s
  | .kept y => t.owed = [] ∧ (t.commit y).Fits sid
  | .told d => ∃ rest, t.owed = d.notice :: rest
  | .turn => True

/-- The account with the mark entered that an answer leaves. -/
def enter (t : Account) (m : Option Mark) : Account := m.elim t t.take

/-- The world has the row, and the chat backend was told all that it was to be told and is not
owed. -/
structure Suits (sid : String) (t : Account) (w : World) : Prop where
  registered : w.store.registered = true
  row : w.store.row? sid = some (.ofSession t.stored)
  notices : w.notices sid ++ t.owed = t.commits.flatMap Commit.dues
  clock : FitsColumn w.clock

end Account

/-- What others may do beside the work on a session: they leave its row alone and tell the chat
backend nothing of it. -/
structure World.Aside (sid : String) (w w' : World) : Prop where
  registered : w'.store.registered = w.store.registered
  row : w'.store.row? sid = w.store.row? sid
  notices : w'.notices sid = w.notices sid
  clock : FitsColumn w.clock → FitsColumn w'.clock

theorem World.Aside.refl (sid : String) (w : World) : w.Aside sid w := ⟨rfl, rfl, rfl, id⟩

namespace Account

variable {sid : String} {t : Account} {w w' : World}

theorem Suits.aside (h : t.Suits sid w) (hb : w.Aside sid w') : t.Suits sid w' where
  registered := hb.registered.trans h.registered
  row := hb.row.trans h.row
  notices := by rw [hb.notices, h.notices]
  clock := hb.clock h.clock

/-- A change of other rows. -/
theorem Suits.change (h : t.Suits sid w) {o : Outcome Store}
    (ho : ∀ s, o = .ok s → s.registered = w.store.registered ∧
      s.row? sid = w.store.row? sid) : t.Suits sid (w.change o).1 := by
  cases o with
  | error f => exact h
  | ok s =>
    obtain ⟨hreg, hrow⟩ := ho s rfl
    exact ⟨hreg.trans h.registered, hrow.trans h.row, h.notices, h.clock⟩

/-- The own session can be kept. -/
theorem Suits.saved (h : t.Suits sid w) {y : Session} (hy : y.id = sid) (c : Circumstance) :
    (w.answer c (.saveSession y)).2 = .ok () := by
  subst hy
  obtain ⟨sessions, hs, -⟩ := Store.saveSession_eq h.registered h.row
  simp only [World.answer, hs]
  rfl

theorem Suits.kept (h : t.Suits sid w) {y : Session} (hy : y.id = sid) (howed : t.owed = [])
    (c : Circumstance) : (t.take (.kept y)).Suits sid (w.answer c (.saveSession y)).1 := by
  subst hy
  obtain ⟨sessions, hs, hrow⟩ := Store.saveSession_eq h.registered h.row
  simp only [World.answer, hs]
  refine ⟨h.registered, (hrow y.id).trans (if_pos rfl), ?_, h.clock⟩
  have hn := h.notices
  rw [howed, List.append_nil] at hn
  show w.notices y.id ++ (t.commit y).dues = (t.commits ++ [t.commit y]).flatMap Commit.dues
  rw [hn, List.flatMap_append, List.flatMap_singleton]

theorem notices_deliver (w : World) (d : Delivery) :
    { w with deliveries := w.deliveries ++ [d] }.notices sid =
      w.notices sid ++ if d.session = sid then [d.notice] else [] := by
  unfold World.notices
  rw [List.filter_append, List.map_append, List.filter_cons]
  simp only [decide_eq_true_eq]
  split <;> rfl

/-- The chat backend is told what it is owed. -/
theorem Suits.told (h : t.Suits sid w) {d : Delivery} {rest : List Notice} (hd : d.session = sid)
    (howed : t.owed = d.notice :: rest) :
    (t.take (.told d)).Suits sid { w with deliveries := w.deliveries ++ [d] } where
  registered := h.registered
  row := h.row
  notices := by
    have hn := h.notices
    show World.notices sid { w with deliveries := w.deliveries ++ [d] } ++ t.owed.tail = _
    rw [notices_deliver, if_pos hd, List.append_assoc]
    rwa [howed] at hn ⊢
  clock := h.clock

/-- The chat backend is told of another session. -/
theorem Suits.beside (h : t.Suits sid w) {d : Delivery} (hd : d.session ≠ sid) :
    t.Suits sid { w with deliveries := w.deliveries ++ [d] } where
  registered := h.registered
  row := h.row
  notices := by
    rw [notices_deliver, if_neg hd, List.append_nil]
    exact h.notices
  clock := h.clock

/-- What is shown to those who watch is of no account. -/
theorem Suits.shown (h : t.Suits sid w) (s : Signal) :
    t.Suits sid { w with store := World.keep w.store s, signals := w.signals ++ [s] } := by
  obtain ⟨events, logs, hs⟩ := World.exists_keep_eq w.store s
  rw [hs]
  exact ⟨h.registered, h.row, h.notices, h.clock⟩

/-- **An answer** to a question that the account admits. -/
theorem Suits.answer (h : t.Suits sid w) (c : Circumstance) {a : Ask}
    (ha : ∀ m, a.mark? sid (w.answer c a).2 = some m → t.Admits sid m) :
    (t.enter (a.mark? sid (w.answer c a).2)).Suits sid (w.answer c a).1 := by
  cases a with
  | loadSession id =>
    simp only [World.answer, Ask.mark?]
    cases w.store.loadSession id with
    | error f => exact h
    | ok s =>
      dsimp only
      split
      · exact ⟨h.registered, h.row, h.notices, h.clock⟩
      · exact h
  | createSession s =>
    refine h.change fun store hs => ?_
    obtain ⟨hreg, sessions, rfl, hnone, hrow⟩ := Store.createSession_eq_ok hs
    refine ⟨rfl, (hrow sid).trans (if_neg fun he => ?_)⟩
    rw [← he, h.row] at hnone
    cases hnone
  | saveSession y =>
    by_cases hy : y.id = sid
    · have hmark : (Ask.saveSession y).mark? sid (w.answer c (.saveSession y)).2 =
          some (.kept y) := by
        rw [show (w.answer c (.saveSession y)).2 = .ok () from h.saved hy c]
        exact if_pos hy
      rw [hmark]
      exact h.kept hy (ha _ hmark).1 c
    · have hmark : (Ask.saveSession y).mark? sid (w.answer c (.saveSession y)).2 = none := by
        cases (w.answer c (.saveSession y)).2 with
        | error f => rfl
        | ok u => exact if_neg hy
      rw [hmark]
      refine h.change fun store hs => ?_
      obtain ⟨sessions, rfl, hrow⟩ := Store.saveSession_eq_ok hs
      exact ⟨rfl, (hrow sid).trans (if_neg fun he => hy he.symm)⟩
  | saveFlow d =>
    refine h.change fun store hs => ?_
    obtain rfl := Store.saveFlow_eq_ok hs
    exact ⟨rfl, rfl⟩
  | saveVersion flow version g now =>
    refine h.change fun store hs => ?_
    obtain ⟨-, versions, rfl, -⟩ := Store.saveVersion_eq_ok hs
    exact ⟨rfl, rfl⟩
  | deliver d =>
    by_cases hd : d.session = sid
    · have hmark : (Ask.deliver d).mark? sid () = some (.told d) := if_pos hd
      obtain ⟨rest, hrest⟩ := ha _ hmark
      show (t.enter ((Ask.deliver d).mark? sid ())).Suits sid _
      rw [hmark]
      exact h.told hd hrest
    · have hmark : (Ask.deliver d).mark? sid () = none := if_neg hd
      show (t.enter ((Ask.deliver d).mark? sid ())).Suits sid _
      rw [hmark]
      exact h.beside hd
  | emit s => exact h.shown s
  | openTurn => exact ⟨h.registered, h.row, h.notices, h.clock⟩
  | remember key f => exact ⟨h.registered, h.row, h.notices, h.clock⟩
  | fresh i => cases i <;> exact ⟨h.registered, h.row, h.notices, h.clock⟩
  | _ => exact h

end Account

/-! ### What the notices say -/

/-- The message that is passed on. -/
def Notice.message? : Notice → Option Message
  | .append m => some m
  | _ => none

/-- The variables that are passed on. -/
def Notice.delta? : Notice → Option Variables
  | .persist delta => some delta
  | _ => none

/-- What comes of putting deltas on each other, beginning without variables. -/
def Variables.merged (deltas : List Variables) : Variables := deltas.foldl Fields.merge []

theorem Variables.merged_concat (deltas : List Variables) (delta : Variables) :
    merged (deltas ++ [delta]) = (merged deltas).merge delta := by
  rw [merged, List.foldl_append]
  rfl

/-- The delta of a commit on top of what is like the variables before it is like those after it. -/
theorem Commit.Fits.merge {sid : String} {k : Commit} {vs : Variables} {name : String}
    (h : k.Fits sid) (hsorted : k.after.vars.Sorted)
    (halike : Option.Rel Json.Alike (k.before.vars.get? name) (vs.get? name)) :
    Option.Rel Json.Alike (k.after.vars.get? name) ((vs.merge k.delta).get? name) := by
  rw [Commit.delta]
  split
  · exact h.grows.merge_delta hsorted halike
  · rename_i hnode
    rw [h.vars (Bool.eq_false_iff.mpr hnode)]
    exact halike

/-- The row of the session is read with the variables with which it was kept. -/
def Session.Retrieved (y : Session) : Prop :=
  ∀ s, (SessionRow.ofSession y).toSession = .ok s → s.vars = y.vars

namespace Account

/-- What is true of an account: the notices of its commits tell the transcript, and they tell the
variables if these are read as they were kept. -/
structure Sound (sid : String) (t : Account) : Prop where
  fits : ∀ k ∈ t.commits, k.Fits sid
  ordered : ∀ k ∈ t.commits, k.after.vars.Sorted
  timely : ∀ m ∈ t.stored.messages, FitsColumn m.timestamp
  transcript : t.commits.flatMap Commit.spoken = t.stored.messages
  messages : t.known.messages = t.stored.messages
  sorted : t.known.vars.Sorted
  vars : (∀ k ∈ t.commits, k.after.Retrieved) →
    t.stored.Retrieved ∧ t.known.vars = t.stored.vars ∧
      ∀ name, Option.Rel Json.Alike (t.stored.vars.get? name)
        ((Variables.merged (t.commits.map Commit.delta)).get? name)

variable {sid : String} {t : Account}

theorem Sound.opened (h : t.Sound sid) {s : Session}
    (hs : (SessionRow.ofSession t.stored).toSession = .ok s) : (t.take (.opened s)).Sound sid where
  fits := h.fits
  ordered := h.ordered
  timely := h.timely
  transcript := h.transcript
  messages := SessionRow.messages_of_toSession hs h.timely
  sorted := SessionRow.sorted_of_toSession hs
  vars hall := by
    obtain ⟨hstored, -, halike⟩ := h.vars hall
    exact ⟨hstored, hstored s hs, halike⟩

theorem Sound.kept (h : t.Sound sid) {y : Session} (hk : (t.commit y).Fits sid) :
    (t.take (.kept y)).Sound sid := by
  have hsorted : y.vars.Sorted := hk.grows.sorted h.sorted
  have hmessages : y.messages = t.stored.messages ++ (t.commit y).spoken := by
    rw [← h.messages]
    exact hk.messages
  refine ⟨?_, ?_, ?_, ?_, rfl, hsorted, ?_⟩
  · exact List.forall_mem_append.mpr ⟨h.fits, List.forall_mem_singleton.mpr hk⟩
  · exact List.forall_mem_append.mpr ⟨h.ordered, List.forall_mem_singleton.mpr hsorted⟩
  · intro m hmem
    obtain ⟨spoken, hspoken, htimely⟩ := hk.said
    rw [show (t.take (.kept y)).stored.messages = t.known.messages ++ spoken from hspoken,
      h.messages] at hmem
    exact (List.mem_append.mp hmem).elim (h.timely m) (htimely m)
  · show (t.commits ++ [t.commit y]).flatMap Commit.spoken = y.messages
    rw [List.flatMap_append, List.flatMap_singleton, h.transcript, hmessages]
  · intro hall
    obtain ⟨-, hvars, halike⟩ := h.vars fun k hmem => hall k (List.mem_append_left _ hmem)
    refine ⟨hall (t.commit y) (List.mem_append_right _ List.mem_cons_self), rfl, fun name => ?_⟩
    show Option.Rel Json.Alike (y.vars.get? name)
      ((Variables.merged ((t.commits ++ [t.commit y]).map Commit.delta)).get? name)
    rw [List.map_append, List.map_singleton, Variables.merged_concat]
    exact hk.merge hsorted (hvars ▸ halike name)

/-- **Admitted marks** keep an account sound. -/
theorem Sound.take (h : t.Sound sid) {m : Mark} (hm : t.Admits sid m) :
    (t.take m).Sound sid := by
  cases m with
  | opened s => exact h.opened hm
  | kept y => exact h.kept hm.2
  | told d => exact ⟨h.fits, h.ordered, h.timely, h.transcript, h.messages, h.sorted, h.vars⟩
  | turn => exact ⟨h.fits, h.ordered, h.timely, h.transcript, h.messages, h.sorted, h.vars⟩

end Account

end Dialogue
