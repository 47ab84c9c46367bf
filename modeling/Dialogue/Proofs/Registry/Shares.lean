import Dialogue.Proofs.Program.Concert
import Dialogue.Proofs.Program.Live
import Dialogue.Proofs.Registry.Shelves
import Dialogue.Proofs.Turn.Private

/-! # What commands to several sessions share

A command asks of sessions its own only. Beside that it looks versions up, and remembers those that
it had to compile. So all that commands to several sessions share is the registry, and the compiled
versions that are at hand; it makes no difference which stored ones are there.

* `World.Shares`: how far a world can be from the one in which several commands began.
* `World.pose_same`: a private question is answered alike where nothing about its session is
  different.
* `World.pose_elsewhere`: a private question is no matter for other sessions. -/

namespace Dialogue

open Program Procedure

/-! ### Looking a version up -/

namespace Registry

variable {α : Type}

/-- The version whose graph was looked up, compiled. -/
def compiled (flow : String) (v : Nat) (o : Outcome Graph) : Outcome Flow := do
  (Flow.compile flow v (← o)).mapError Flow.Defect.toFailure

/-- A program goes on with a version, which is remembered before. -/
def shelve (k : Outcome Flow → Program α) : Outcome Flow → Program α
  | .ok f => .ask (.remember (VersionRow.key f.id f.version) f) fun _ => k (.ok f)
  | .error e => k (.error e)

/-- A program goes on with a version that is at hand or else is looked up. -/
def lookUp (flow : String) (v : Nat) (k : Outcome Flow → Program α) : Option Flow → Program α
  | some f => k (.ok f)
  | none => .ask (.loadVersion flow v) fun o => shelve k (compiled flow v o)

theorem version_bind (flow : String) (v : Nat) (k : Outcome Flow → Program α) :
    (version flow v).run.bind k = .ask (.cached (VersionRow.key flow v)) (lookUp flow v k) := by
  refine congrArg (Program.ask (.cached (VersionRow.key flow v))) (funext fun x => ?_)
  cases x with
  | some f => rfl
  | none =>
    refine congrArg (Program.ask (.loadVersion flow v)) (funext fun o => ?_)
    cases o with
    | error e => rfl
    | ok g =>
      have hcompiled : compiled flow v (.ok g) =
          (Flow.compile flow v g).mapError Flow.Defect.toFailure := rfl
      show Program.bind (ExceptT.run (compile flow v g >>= fun f => _)) k = _
      rw [hcompiled, compile]
      cases (Flow.compile flow v g).mapError Flow.Defect.toFailure <;> rfl

end Registry

/-! ### Worlds with the same registry -/

namespace World

/-- What is at hand under the key is the stored version. -/
def Vouches (w : World) (key : String) : Prop :=
  ∀ f, w.compiled.get? key = some f → w.store.Remembers key f

/-- The registry, the schedules and the time are the same. Of what is at hand only stored versions
have come or gone. -/
structure Shares (w₀ w : World) : Prop where
  registered : w.store.registered = w₀.store.registered
  flows : w.store.flows = w₀.store.flows
  versions : w.store.versions = w₀.store.versions
  schedules : w.store.schedules = w₀.store.schedules
  name : w.store.sessions.name = w₀.store.sessions.name
  instant : w.instant = w₀.instant
  compiled : ∀ key, w.compiled.get? key = w₀.compiled.get? key ∨
    w₀.Vouches key ∧ ∀ f, w.compiled.get? key = some f → w₀.store.Remembers key f

/-- What comes of a look-up of the version. -/
def finds (w : World) (flow : String) (v : Nat) : Outcome Flow :=
  match w.compiled.get? (VersionRow.key flow v) with
  | some f => .ok f
  | none => w.store.versionFlow flow v

/-- What the chat backend was told of a session. -/
def told (sid : String) (w : World) : List Delivery := w.deliveries.filter fun d => d.session = sid

/-- Nothing about the session is different. -/
structure Same (sid : String) (w w' : World) : Prop where
  row : w'.store.row? sid = w.store.row? sid
  told : w'.told sid = w.told sid

variable {w₀ w v : World} {sid : String} {key flow : String} {n : Nat} {f : Flow}

theorem Same.refl (sid : String) (w : World) : w.Same sid w := ⟨rfl, rfl⟩

theorem Same.trans {u : World} (h : u.Same sid v) (h' : v.Same sid w) : u.Same sid w :=
  ⟨h'.row.trans h.row, h'.told.trans h.told⟩

theorem Same.symm (h : w.Same sid v) : v.Same sid w := ⟨h.row.symm, h.told.symm⟩

theorem Shares.refl (w : World) : w.Shares w := ⟨rfl, rfl, rfl, rfl, rfl, rfl, fun _ => .inl rfl⟩

theorem Vouches.finds_eq (h : w.Vouches (VersionRow.key flow n)) :
    w.finds flow n = w.store.versionFlow flow n := by
  unfold finds
  cases hf : w.compiled.get? (VersionRow.key flow n) with
  | none => rfl
  | some f => exact (h f hf).eq.symm

theorem Shares.versionFlow_eq (h : w₀.Shares w) (flow : String) (n : Nat) :
    w.store.versionFlow flow n = w₀.store.versionFlow flow n :=
  Store.versionFlow_congr h.registered h.versions

/-- What is at hand is what a look-up would bring. -/
theorem Shares.finds_eq (h : w₀.Shares w) (hf : w.compiled.get? (VersionRow.key flow n) = some f) :
    w₀.finds flow n = .ok f := by
  rcases h.compiled (VersionRow.key flow n) with hkey | ⟨hvouched, hkey⟩
  · rw [hf] at hkey
    rw [finds, ← hkey]
  · rw [hvouched.finds_eq, (hkey f hf).eq]

/-- What is missed was missing from the beginning, or was a stored version. -/
theorem Shares.vouches (h : w₀.Shares w) (hf : w.compiled.get? key = none) : w₀.Vouches key := by
  rcases h.compiled key with hkey | ⟨hvouched, -⟩
  · intro f hf'
    rw [← hkey, hf] at hf'
    cases hf'
  · exact hvouched

/-- A stored version is remembered. -/
theorem Shares.remember (h : w₀.Shares w) (hkey : w₀.Vouches key)
    (hf : w₀.store.Remembers key f) : w₀.Shares { w with compiled := w.compiled.set key f } := by
  refine ⟨h.registered, h.flows, h.versions, h.schedules, h.name, h.instant, fun key' => ?_⟩
  by_cases he : key' = key
  · subst he
    refine .inr ⟨hkey, fun f' hf' => ?_⟩
    simp only [Cache.get?_set_self, Option.some.injEq] at hf'
    exact hf' ▸ hf
  · simp only [Cache.get?_set_of_ne he]
    exact h.compiled key'

/-- A stored version is forgotten. -/
theorem Shares.forget (h : w₀.Shares w) (hkey : w₀.Vouches key) :
    w₀.Shares { w with compiled := w.compiled.remove key } := by
  refine ⟨h.registered, h.flows, h.versions, h.schedules, h.name, h.instant, fun key' => ?_⟩
  by_cases he : key' = key
  · subst he
    refine .inr ⟨hkey, fun f' hf' => ?_⟩
    simp only [Cache.get?_remove_self] at hf'
    cases hf'
  · simp only [Cache.get?_remove_of_ne he]
    exact h.compiled key'

/-! ### Private questions -/

variable {a : Ask}

/-- The same identities may have been given. -/
theorem Shares.numbered (h : w₀.Shares w) (number : Nat) :
    w₀.Shares { w with messages := number } :=
  ⟨h.registered, h.flows, h.versions, h.schedules, h.name, h.instant, h.compiled⟩

/-- A private question leaves the registry alone. -/
theorem Shares.pose (h : w₀.Shares w) (ha : a.Private sid) (o : Occasion) :
    w₀.Shares (w.pose o a).1 := by
  have hquiet (ha : a.Quiet) : w₀.Shares (w.pose o a).1 := by
    have hn := h.numbered o.number
    have hsame := alike_answer ha { w with messages := o.number } o.circumstance
    have hcompiled := compiled_answer ha { w with messages := o.number } o.circumstance
    refine ⟨hsame.registered.trans hn.registered, hsame.flows.trans hn.flows,
      hsame.versions.trans hn.versions, hsame.schedules.trans hn.schedules,
      (congrArg Collection.name hsame.sessions).trans hn.name,
      (instant_answer _ _ _).trans hn.instant, fun key => ?_⟩
    rw [World.pose, hcompiled]
    exact h.compiled key
  cases a with
  | createSession | saveFlow | loadVersion | saveVersion | cached | remember => exact ha.elim
  | saveSession y =>
    simp only [pose, answer, change]
    cases hs : w.store.saveSession y with
    | error e => exact h.numbered o.number
    | ok s =>
      have hname := Store.saveSession_name hs
      obtain ⟨sessions, rfl, -⟩ := Store.saveSession_eq_ok hs
      exact ⟨h.registered, h.flows, h.versions, h.schedules, hname.trans h.name, h.instant,
        h.compiled⟩
  | deliver d =>
    exact ⟨h.registered, h.flows, h.versions, h.schedules, h.name, h.instant, h.compiled⟩
  | _ => exact hquiet trivial

/-- **Private questions** are answered alike where nothing about the session is different. -/
theorem pose_same (ha : a.Private sid) (hw : w₀.Shares w) (hv : w₀.Shares v) (h : w.Same sid v)
    (o : Occasion) :
    (v.pose o a).2 = (w.pose o a).2 ∧ (w.pose o a).1.Same sid (v.pose o a).1 := by
  have hregistered : v.store.registered = w.store.registered :=
    hv.registered.trans hw.registered.symm
  have hname : v.store.sessions.name = w.store.sessions.name := hv.name.trans hw.name.symm
  cases a with
  | createSession | saveFlow | loadVersion | saveVersion | cached | remember => exact ha.elim
  | loadSession id =>
    obtain rfl : id = sid := ha
    exact ⟨Store.loadSession_of_row hregistered hname h.row, h.row, h.told⟩
  | sessionStatus id =>
    obtain rfl : id = sid := ha
    exact ⟨Store.sessionStatus_of_row hregistered hname h.row, h.row, h.told⟩
  | saveSession y =>
    obtain rfl : y.id = sid := ha
    simp only [pose, answer]
    rcases Store.saveSession_of_row hregistered hname h.row rfl with ⟨f, hs, hs'⟩ | ⟨t, t', hs, hs'⟩
    · rw [hs, hs']
      exact ⟨rfl, h.row, h.told⟩
    · rw [hs, hs']
      obtain ⟨sessions, rfl, hrow⟩ := Store.saveSession_eq_ok hs
      obtain ⟨sessions', rfl, hrow'⟩ := Store.saveSession_eq_ok hs'
      exact ⟨rfl, (hrow' y.id).trans ((if_pos rfl).trans ((hrow y.id).trans (if_pos rfl)).symm),
        h.told⟩
  | loadFlow id =>
    have hflows : v.store.flows = w.store.flows := hv.flows.trans hw.flows.symm
    exact ⟨Store.loadFlow_congr hregistered hflows, h.row, h.told⟩
  | loadSchedule id =>
    have hschedules : v.store.schedules = w.store.schedules := hv.schedules.trans hw.schedules.symm
    refine ⟨?_, h.row, h.told⟩
    simp only [pose, answer, Store.loadSchedule, Store.access, hregistered, hschedules]
  | now => exact ⟨hv.instant.trans hw.instant.symm, h.row, h.told⟩
  | fresh i =>
    cases i with
    | message => exact ⟨rfl, h.row, h.told⟩
    | flow | session => exact ha.elim
  | deliver d =>
    refine ⟨rfl, h.row, ?_⟩
    have htold := h.told
    simp only [told] at htold
    simp only [pose, answer, told, List.filter_append, htold]
  | emit x =>
    have hsame := alike_answer (a := .emit x) trivial { w with messages := o.number } o.circumstance
    have hsame' := alike_answer (a := .emit x) trivial { v with messages := o.number }
      o.circumstance
    exact ⟨rfl, (row?_eq_of_alike hsame' sid).trans (h.row.trans (row?_eq_of_alike hsame sid).symm),
      h.told⟩
  | openTurn | closeTurn | isAborted | wait | exchange => exact ⟨rfl, h.row, h.told⟩

/-- A private question is no matter for other sessions. -/
theorem pose_elsewhere (ha : a.Private sid) {id : String} (hne : id ≠ sid) (o : Occasion) :
    w.Same id (w.pose o a).1 := by
  have hquiet (ha : a.Quiet) : w.Same id (w.pose o a).1 := by
    have hsame := alike_answer ha { w with messages := o.number } o.circumstance
    refine ⟨row?_eq_of_alike hsame id, ?_⟩
    rw [told, pose, hsame.deliveries]
    rfl
  cases a with
  | createSession | saveFlow | loadVersion | saveVersion | cached | remember => exact ha.elim
  | saveSession y =>
    obtain rfl : y.id = sid := ha
    simp only [pose, answer, change]
    cases hs : w.store.saveSession y with
    | error e => exact ⟨rfl, rfl⟩
    | ok s =>
      obtain ⟨sessions, rfl, hrow⟩ := Store.saveSession_eq_ok hs
      exact ⟨(hrow id).trans (if_neg hne), rfl⟩
  | deliver d =>
    obtain rfl : d.session = sid := ha
    refine ⟨rfl, ?_⟩
    simp [pose, answer, told, List.filter_append, Ne.symm hne]
  | _ => exact hquiet trivial

/-- A private question tells the chat backend of its session at most. -/
theorem pose_told (ha : a.Private sid) (o : Occasion) :
    ∃ told, (w.pose o a).1.deliveries = w.deliveries ++ told ∧ ∀ d ∈ told, d.session = sid := by
  have hquiet (h : (w.pose o a).1.deliveries = w.deliveries) :
      ∃ told, (w.pose o a).1.deliveries = w.deliveries ++ told ∧ ∀ d ∈ told, d.session = sid :=
    ⟨[], by rw [h, List.append_nil], nofun⟩
  cases a with
  | createSession | saveFlow | loadVersion | saveVersion | cached | remember => exact ha.elim
  | deliver d => exact ⟨[d], rfl, fun d' hd => List.mem_singleton.mp hd ▸ ha⟩
  | saveSession y =>
    refine hquiet ?_
    simp only [pose, answer, change]
    split <;> rfl
  | fresh i => cases i <;> exact hquiet rfl
  | _ => exact hquiet rfl

end World

end Dialogue
