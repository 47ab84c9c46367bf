import Dialogue.Engine.World
import Dialogue.Proofs.Json.RoundTrip
import Mathlib.Tactic.SplitIfs

/-! # Rows by identity

A collection is seen through its rows by identity. A row that is created or put in place of another
one changes what is found under its identity, and nothing else.

* `row?_create`, `row?_update`, `row?_put`: what the operations do to look-ups.
* `Halt.ofText_toJson`: a stored halt is read as it was kept.
* `toSession_eq_ok`: the columns of a row are the fields of the session that is read off it. -/

namespace Dialogue

namespace Collection

variable {α : Type} [Row α] {c c' : Collection α} {r : α}

/-- The row of that identity. -/
def row? (c : Collection α) (id : String) : Option α := c.rows.find? fun r => Row.id r = id

theorem id_of_row? {id : String} (h : c.row? id = some r) : Row.id r = id := by
  simpa using List.find?_some h

theorem exists?_eq (c : Collection α) (id : String) : c.exists? id = (c.row? id).isSome := by
  rw [Bool.eq_iff_iff, row?, List.find?_isSome, exists?, List.any_eq_true]

theorem find_eq (c : Collection α) (id : String) :
    c.find id = match c.row? id with
      | some r => .ok r
      | none => .error (.plain .store (c.name ++ ": '" ++ id ++ "' not found")) := rfl

theorem create_eq_ok_iff : c.create r = .ok c' ↔
    c.row? (Row.id r) = none ∧ c' = { c with rows := c.rows ++ [r] } := by
  rw [create, exists?_eq]
  cases h : c.row? (Row.id r) <;> simp [eq_comm]

theorem row?_append (c : Collection α) (r : α) (id : String) :
    row? { c with rows := c.rows ++ [r] } id =
      (c.row? id).or (if Row.id r = id then some r else none) := by
  simp only [row?, List.find?_append, List.find?_singleton, decide_eq_true_eq]

theorem row?_create (h : c.create r = .ok c') (id : String) :
    c'.row? id = if id = Row.id r then some r else c.row? id := by
  obtain ⟨hn, rfl⟩ := create_eq_ok_iff.mp h
  rw [row?_append]
  split_ifs with h1 h2 h2
  · rw [← h1, hn]; rfl
  · exact absurd h1.symm h2
  · exact absurd h2.symm h1
  · simp

/-- Putting a row in place of the one of its identity keeps the identity of every row. -/
theorem row?_replace (c : Collection α) (r : α) (id : String) :
    row? { c with rows := replace r c.rows } id =
      if id = Row.id r then (c.row? id).map fun _ => r else c.row? id := by
  unfold row?
  induction c.rows with
  | nil => simp [replace]
  | cons s rest ih =>
    rw [replace]
    by_cases hs : Row.id s = Row.id r
    · by_cases hi : id = Row.id r
      · simp [hs, hi]
      · simp [hs, hi, Ne.symm hi]
    · rw [if_neg hs, List.find?_cons, List.find?_cons, ih]
      by_cases hi : id = Row.id r <;> simp [hs, hi]

theorem update_eq_some_iff : c.update r = some c' ↔
    (c.row? (Row.id r)).isSome ∧ c' = { c with rows := replace r c.rows } := by
  rw [update, exists?_eq]
  cases h : c.row? (Row.id r) <;> simp [eq_comm]

theorem row?_update (h : c.update r = some c') (id : String) :
    c'.row? id = if id = Row.id r then some r else c.row? id := by
  obtain ⟨hs, rfl⟩ := update_eq_some_iff.mp h
  rw [row?_replace]
  split_ifs with hi
  · obtain ⟨r', hr'⟩ := Option.isSome_iff_exists.mp hs
    rw [hi, hr']; rfl
  · rfl

theorem row?_put (c : Collection α) (r : α) (id : String) :
    (c.put r).row? id = if id = Row.id r then some r else c.row? id := by
  unfold put
  cases h : c.update r with
  | some c' => exact row?_update h id
  | none =>
    have hn : c.row? (Row.id r) = none := by
      rw [update, exists?_eq] at h
      simpa using h
    exact row?_create (create_eq_ok_iff.mpr ⟨hn, rfl⟩) id

end Collection

/-! ### Rows of sessions -/

/-- Only the status that has a name is told by it. -/
theorem Status.name_of_ofName? {name : String} {s : Status} (h : Status.ofName? name = some s) :
    name = s.name := by
  have hm : ∀ l : List (String × Status), l.lookup name = some s → (name, s) ∈ l := by
    intro l
    induction l with
    | nil => simp
    | cons e rest ih => grind
  have := hm _ h
  simp only [Status.names, List.mem_cons, Prod.mk.injEq, List.not_mem_nil, or_false] at this
  rcases this with ⟨rfl, rfl⟩ | ⟨rfl, rfl⟩ | ⟨rfl, rfl⟩ | ⟨rfl, rfl⟩ <;> rfl

theorem Status.name_injective {s t : Status} (h : s.name = t.name) : s = t := by
  have hs := Status.ofName?_name s
  rw [h, Status.ofName?_name] at hs
  exact (Option.some.inj hs).symm

/-! ### Texts of columns -/

/-- What a decoder makes of a printed value. -/
theorem Decode.ofText_text {α : Type} {dec : Decoder α} {v : Json} {a : α} {kind : Failure.Kind}
    (hv : v.Legible) (hd : v.depth ≤ Document.maxDepth) (h : dec (.ofJson v) = .ok a) :
    ofText kind dec v.text = .ok a := by
  unfold ofText
  rw [Document.read?_text hv hd]
  dsimp only
  rw [h]
  rfl

/-! ### Halts -/

theorem Halt.legible_toJson (h : Halt) : h.toJson.Legible := by
  simp only [toJson, Json.Legible, Json.LegibleFields, and_self]

theorem Halt.depth_toJson (h : Halt) : h.toJson.depth = 1 := by
  simp [toJson, Json.depth, Json.depthFields]

theorem Halt.decode_toJson (h : Halt) : Halt.decode (.ofJson h.toJson) = .ok h := by
  obtain ⟨node, kind, message, retryable⟩ := h
  cases kind <;> rfl

/-- The text of a halt is read as that halt. -/
theorem Halt.ofText_toJson (h : Halt) :
    Decode.ofText .convert Halt.decode h.toJson.text = .ok h :=
  Decode.ofText_text h.legible_toJson (by rw [h.depth_toJson]; decide) h.decode_toJson

/-! ### Sessions of rows -/

namespace SessionRow

@[simp] theorem status?_ofSession (s : Session) : (ofSession s).status? = .ok s.status := by
  simp [status?, ofSession, Status.ofName?_name]

theorem status_of_status? {r : SessionRow} {s : Status} (h : r.status? = .ok s) :
    r.status = s.name := by
  unfold status? at h
  split at h
  · cases h
    exact Status.name_of_ofName? ‹_›
  · cases h

/-- **The fields of the session that is read off a row.** -/
theorem toSession_eq_ok {r : SessionRow} {s : Session} (h : r.toSession = .ok s) :
    s.id = r.id ∧ s.flowId = r.flowId ∧ s.flowVersion = ofSigned64 r.flowVersion ∧
      r.status? = .ok s.status ∧ s.currentNode = r.currentNode ∧ s.pendingNode = r.pendingNode ∧
      s.queue = r.queue ∧ s.agentId = r.agentId ∧
      r.halt.mapM (Decode.ofText .convert Halt.decode) = .ok s.halt := by
  unfold toSession at h
  cases h1 : r.status? with
  | error e => rw [h1] at h; cases h
  | ok status =>
  cases h2 : Decode.ofText .convert Decode.fields r.vars with
  | error e => rw [h1, h2] at h; cases h
  | ok vars =>
  cases h3 : Decode.ofText .convert (Decode.list Message.decode) r.messages with
  | error e => rw [h1, h2, h3] at h; cases h
  | ok messages =>
  cases h4 : r.halt.mapM (Decode.ofText .convert Halt.decode) with
  | error e => rw [h1, h2, h3, h4] at h; cases h
  | ok halt =>
  rw [h1, h2, h3, h4] at h
  cases h
  exact ⟨rfl, rfl, rfl, rfl, rfl, rfl, rfl, rfl, rfl⟩

/-- The halt of the session is the one that the text in the row writes. -/
theorem halt_cases {r : SessionRow} {s : Session} (h : r.toSession = .ok s) :
    (r.halt = none ∧ s.halt = none) ∨ ∃ t x, r.halt = some t ∧ s.halt = some x ∧
      Decode.ofText .convert Halt.decode t = .ok x := by
  obtain ⟨-, -, -, -, -, -, -, -, hh⟩ := toSession_eq_ok h
  cases hr : r.halt with
  | none =>
    rw [hr] at hh
    exact .inl ⟨rfl, (Except.ok.inj hh).symm⟩
  | some t =>
    rw [hr] at hh
    cases hd : Decode.ofText .convert Halt.decode t with
    | error e =>
      rw [show (some t).mapM (Decode.ofText .convert Halt.decode) = .error e by
        rw [Option.mapM_some, hd]; rfl] at hh
      cases hh
    | ok x =>
      rw [show (some t).mapM (Decode.ofText .convert Halt.decode) = .ok (some x) by
        rw [Option.mapM_some, hd]; rfl] at hh
      exact .inr ⟨t, x, rfl, (Except.ok.inj hh).symm, hd⟩

theorem isSome_halt {r : SessionRow} {s : Session} (h : r.toSession = .ok s) :
    s.halt.isSome = r.halt.isSome := by
  rcases halt_cases h with ⟨hr, hs⟩ | ⟨t, x, hr, hs, -⟩ <;> rw [hr, hs] <;> rfl

end SessionRow

namespace Store

variable {s : Store} {id : String} {r : SessionRow}

/-- The row of a session. -/
def row? (s : Store) (id : String) : Option SessionRow := s.sessions.row? id

theorem id_of_row? (h : s.row? id = some r) : r.id = id := Collection.id_of_row? h

theorem loadSession_eq (hs : s.registered = true) (h : s.row? id = some r) :
    s.loadSession id = r.toSession := by
  have hf : s.sessions.find id = .ok r := by rw [Collection.find_eq, ← row?, h]
  have he : s.sessions.exists? id = true := by rw [Collection.exists?_eq, ← row?, h]; rfl
  simp only [loadSession, access, hs, if_true, bind, Except.bind, he, hf]

theorem loadSession_eq_of_none (hs : s.registered = true) (h : s.row? id = none) :
    s.loadSession id = .error (.plain .session ("session '" ++ id ++ "' not found")) := by
  have he : s.sessions.exists? id = false := by rw [Collection.exists?_eq, ← row?, h]; rfl
  simp only [loadSession, access, hs, if_true, bind, Except.bind, he, Bool.false_eq_true, if_false]

theorem loadSession_eq_ok {x : Session} (h : s.loadSession id = .ok x) :
    s.registered = true ∧ ∃ r, s.row? id = some r ∧ r.toSession = .ok x := by
  cases hs : s.registered with
  | false => simp [loadSession, access, hs, bind, Except.bind] at h
  | true =>
    cases hr : s.row? id with
    | none =>
      rw [loadSession_eq_of_none hs hr] at h
      cases h
    | some r =>
      rw [loadSession_eq hs hr] at h
      exact ⟨rfl, r, rfl, h⟩

theorem sessionStatus_eq (hs : s.registered = true) (h : s.row? id = some r) :
    s.sessionStatus id = r.status? := by
  have hf : s.sessions.find id = .ok r := by rw [Collection.find_eq, ← row?, h]
  simp only [sessionStatus, access, hs, if_true, bind, Except.bind, hf]

/-- **Keeping a session** succeeds where there is a row for it, and changes that row alone. -/
theorem saveSession_eq {x : Session} (hs : s.registered = true) (h : s.row? x.id = some r) :
    ∃ sessions, s.saveSession x = .ok { s with sessions } ∧
      ∀ id, sessions.row? id = if id = x.id then some (.ofSession x) else s.row? id := by
  have hu : (s.sessions.row? (Row.id (SessionRow.ofSession x))).isSome := by
    rw [show Row.id (SessionRow.ofSession x) = x.id from rfl, ← row?, h]; rfl
  have hup := Collection.update_eq_some_iff.mpr ⟨hu, rfl⟩
  refine ⟨_, ?_, fun id => Collection.row?_update hup id⟩
  simp only [saveSession, access, hs, if_true, bind, Except.bind, hup]
  rfl

theorem saveSession_eq_of_none {x : Session} (hs : s.registered = true) (h : s.row? x.id = none) :
    s.saveSession x = .error (.plain .store ("session '" ++ x.id ++ "' not found")) := by
  have hu : s.sessions.update (.ofSession x) = none := by
    rw [Collection.update, Collection.exists?_eq,
      show s.sessions.row? (Row.id (SessionRow.ofSession x)) = none from h]
    rfl
  simp only [saveSession, access, hs, if_true, bind, Except.bind, hu]

theorem registered_of_saveSession {x : Session} {s' : Store} (h : s.saveSession x = .ok s') :
    s.registered = true := by
  cases hs : s.registered with
  | true => rfl
  | false => simp [saveSession, access, hs, bind, Except.bind] at h

theorem saveSession_eq_ok {x : Session} {s' : Store} (h : s.saveSession x = .ok s') :
    ∃ sessions, s' = { s with sessions } ∧
      ∀ id, sessions.row? id = if id = x.id then some (.ofSession x) else s.row? id := by
  have hs := registered_of_saveSession h
  cases hr : s.row? x.id with
  | some r =>
    obtain ⟨sessions, hsave, hrow⟩ := saveSession_eq hs hr
    rw [hsave] at h
    cases h
    exact ⟨sessions, rfl, hrow⟩
  | none =>
    rw [saveSession_eq_of_none hs hr] at h
    cases h

theorem saveSession_name {x : Session} {s' : Store} (h : s.saveSession x = .ok s') :
    s'.sessions.name = s.sessions.name := by
  have hs := registered_of_saveSession h
  cases hu : s.sessions.update (.ofSession x) with
  | none =>
    simp only [saveSession, access, hs, if_true, bind, Except.bind, hu] at h
    cases h
  | some sessions =>
    obtain ⟨-, rfl⟩ := Collection.update_eq_some_iff.mp hu
    simp only [saveSession, access, hs, if_true, bind, Except.bind, hu] at h
    cases h
    rfl

theorem createSession_eq {x : Session} (hs : s.registered = true) (h : s.row? x.id = none) :
    s.createSession x = .ok { s with sessions :=
      { s.sessions with rows := s.sessions.rows ++ [.ofSession x] } } := by
  have hnone : s.sessions.row? (Row.id (SessionRow.ofSession x)) = none := h
  have hc := Collection.create_eq_ok_iff.mpr ⟨hnone, rfl⟩
  simp only [createSession, access, hs, if_true, bind, Except.bind, hc]
  rfl

/-- A new session is kept under an identity that has no row yet. -/
theorem createSession_eq_ok {x : Session} {s' : Store} (h : s.createSession x = .ok s') :
    s.registered = true ∧ ∃ sessions, s' = { s with sessions } ∧ s.row? x.id = none ∧
      ∀ id, sessions.row? id = if id = x.id then some (.ofSession x) else s.row? id := by
  cases hs : s.registered with
  | false => simp [createSession, access, hs, bind, Except.bind] at h
  | true =>
    cases hc : s.sessions.create (.ofSession x) with
    | error e => simp [createSession, access, hs, bind, Except.bind, hc] at h
    | ok sessions =>
      simp only [createSession, access, hs, if_true, bind, Except.bind, hc] at h
      cases h
      exact ⟨rfl, sessions, rfl, (Collection.create_eq_ok_iff.mp hc).1,
        fun id => Collection.row?_create hc id⟩

/-! ### Stores with the same sessions -/

section
variable {s' : Store} (hr : s'.registered = s.registered) (hs : s'.sessions = s.sessions)
include hr hs

theorem loadSession_congr (id : String) : s'.loadSession id = s.loadSession id := by
  simp only [loadSession, access, hr, hs]

theorem sessionStatus_congr (id : String) : s'.sessionStatus id = s.sessionStatus id := by
  simp only [sessionStatus, access, hr, hs]

/-- Keeping a session changes the sessions alike. -/
theorem saveSession_congr (x : Session) :
    s'.saveSession x = (s.saveSession x).map fun t => { s' with sessions := t.sessions } := by
  unfold saveSession access
  rw [hr, hs]
  cases s.registered with
  | false => rfl
  | true =>
    simp only [if_true, bind, Except.bind]
    cases s.sessions.update (.ofSession x) <;> rfl

end

/-! ### Stores with the same row of a session -/

section
variable {s' : Store} (hr : s'.registered = s.registered)
  (hn : s'.sessions.name = s.sessions.name) (h : s'.row? id = s.row? id)
include hr hn h

theorem loadSession_of_row : s'.loadSession id = s.loadSession id := by
  cases hs : s.registered with
  | false =>
    simp only [loadSession, access, hr, hs, hn]
    rfl
  | true =>
    have hs' := hr.trans hs
    cases hrow : s.row? id with
    | none => rw [loadSession_eq_of_none hs hrow, loadSession_eq_of_none hs' (h.trans hrow)]
    | some r => rw [loadSession_eq hs hrow, loadSession_eq hs' (h.trans hrow)]

theorem sessionStatus_of_row : s'.sessionStatus id = s.sessionStatus id := by
  rw [row?, row?] at h
  simp only [sessionStatus, access, hr, hn]
  cases s.registered with
  | false => rfl
  | true => simp only [bind, Except.bind, if_true, Collection.find_eq, h, hn]

/-- Keeping the session succeeds or fails in both. -/
theorem saveSession_of_row {x : Session} (hx : x.id = id) :
    (∃ f, s.saveSession x = .error f ∧ s'.saveSession x = .error f) ∨
      ∃ t t', s.saveSession x = .ok t ∧ s'.saveSession x = .ok t' := by
  subst hx
  cases hs : s.registered with
  | false => exact .inl ⟨_, by simp only [saveSession, access, hs, bind, Except.bind]; rfl,
      by simp only [saveSession, access, hr.trans hs, hn, bind, Except.bind]; rfl⟩
  | true =>
    cases hrow : s.row? x.id with
    | none =>
      exact .inl ⟨_, saveSession_eq_of_none hs hrow,
        saveSession_eq_of_none (hr.trans hs) (h.trans hrow)⟩
    | some r =>
      obtain ⟨sessions, hsave, -⟩ := saveSession_eq hs hrow
      obtain ⟨sessions', hsave', -⟩ := saveSession_eq (hr.trans hs) (h.trans hrow)
      exact .inr ⟨_, _, hsave, hsave'⟩

end

end Store

/-! ### Failures to read -/

/-- A text that cannot be read is no refusal of an event. -/
theorem Decode.isSession_of_ofText {α : Type} {kind : Failure.Kind} {dec : Decoder α} {s : String}
    {f : Failure} (h : ofText kind dec s = .error f) : f.isSession = false := by
  unfold ofText at h
  split at h
  · cases h; rfl
  · rename_i d _
    cases hd : dec d with
    | ok a => rw [hd] at h; cases h
    | error e => rw [hd] at h; cases h; rfl

theorem Store.isSession_of_loadSchedule {s : Store} {id : String} {f : Failure}
    (h : s.loadSchedule id = .error f) : f.isSession = false := by
  unfold loadSchedule access at h
  by_cases hr : s.registered = true
  · simp only [hr, if_true, bind, Except.bind, Collection.exists?_eq, Collection.find_eq] at h
    cases hrow : s.schedules.row? id with
    | none => rw [hrow] at h; cases h; rfl
    | some r =>
      simp only [hrow, Option.isSome_some, if_true, ScheduleRow.toSchedule, bind, Except.bind] at h
      cases hd : Decode.ofText .convert Schedule.decode r.data with
      | ok x => rw [hd] at h; cases h
      | error e => rw [hd] at h; cases h; exact Decode.isSession_of_ofText hd
  · simp only [hr, bind, Except.bind] at h
    cases h; rfl

end Dialogue
