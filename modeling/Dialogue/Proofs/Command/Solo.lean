import Dialogue.Proofs.Command.Plan
import Dialogue.Proofs.Registry.Shares

/-! # Commands are alone on their sessions

Whatever else goes on in the world, a command goes on as if nothing did: all that it asks beside
private questions is a look-up of a version, and that brings the same version from wherever it is
found.

* `Program.Solo`: a program asks private questions and looks versions up.
* `Solo.pose`: one question of such a program, and what it leaves alone.
* `Solo.alone_same`: such a program goes on alike where nothing about its session is different.
* `Solo.exists_told`: it tells the chat backend of its session only.
* `Command.solo_handle`: commands are such programs. -/

namespace Dialogue

open Program Procedure

/-! ### Programs that are alone on their sessions -/

namespace Program

variable {α β : Type} {w₀ w v : World} {sid : String}

/-- The program asks private questions of its session, and looks versions up. -/
inductive Solo (w₀ : World) (sid : String) : Program α → Prop
  | done (a : α) : Solo w₀ sid (.done a)
  | ask {a : Ask} {next : a.Answer → Program α} (ha : a.Private sid)
      (h : ∀ w c, Solo w₀ sid (next (World.answer w c a).2)) : Solo w₀ sid (.ask a next)
  | lookUp {flow : String} {n : Nat} {k : Outcome Flow → Program α}
      (h : ∀ o, Solo w₀ sid (k o)) :
      Solo w₀ sid (.ask (.cached (VersionRow.key flow n)) (Registry.lookUp flow n k))
  /-- The version was not at hand. -/
  | fetch {flow : String} {n : Nat} {k : Outcome Flow → Program α}
      (hkey : w₀.Vouches (VersionRow.key flow n)) (h : ∀ o, Solo w₀ sid (k o)) :
      Solo w₀ sid (.ask (.loadVersion flow n) fun o =>
        Registry.shelve k (Registry.compiled flow n o))
  /-- The version was compiled. -/
  | shelve {f : Flow} {k : Unit → Program α}
      (hkey : w₀.Vouches (VersionRow.key f.id f.version))
      (hf : w₀.store.Remembers (VersionRow.key f.id f.version) f) (h : Solo w₀ sid (k ())) :
      Solo w₀ sid (.ask (.remember (VersionRow.key f.id f.version) f) k)

namespace Solo

/-- **One question** of a program that is alone on its session. -/
theorem pose {a : Ask} {next : a.Answer → Program α} (h : Solo w₀ sid (.ask a next))
    (hw : w₀.Shares w) (o : Occasion) :
    Solo w₀ sid (next (w.pose o a).2) ∧ w₀.Shares (w.pose o a).1 ∧
      ∀ id, id ≠ sid → w.Same id (w.pose o a).1 := by
  cases h with
  | ask ha h => exact ⟨h _ _, hw.pose ha o, fun id hne => World.pose_elsewhere ha hne o⟩
  | @lookUp flow n k h =>
    refine ⟨?_, hw.numbered _, fun id _ => ⟨rfl, rfl⟩⟩
    show Solo w₀ sid (Registry.lookUp flow n k (w.compiled.get? (VersionRow.key flow n)))
    cases hf : w.compiled.get? (VersionRow.key flow n) with
    | some f => exact h (.ok f)
    | none => exact .fetch (hw.vouches hf) h
  | @fetch flow n k hkey h =>
    refine ⟨?_, hw.numbered _, fun id _ => ⟨rfl, rfl⟩⟩
    show Solo w₀ sid (Registry.shelve k (w.store.versionFlow flow n))
    rw [hw.versionFlow_eq]
    cases hf : w₀.store.versionFlow flow n with
    | error e => exact h (.error e)
    | ok f =>
      have hkept := Store.Remembers.of_versionFlow hf
      obtain ⟨rfl, rfl, -⟩ := Store.versionFlow_sound hf
      exact .shelve hkey hkept (h (.ok f))
  | shelve hkey hf h => exact ⟨h, (hw.numbered _).remember hkey hf, fun id _ => ⟨rfl, rfl⟩⟩

/-- A version that is looked up in the store. -/
theorem alone_fetch {flow : String} {n : Nat} {k : Outcome Flow → Program α}
    (hkey : w₀.Vouches (VersionRow.key flow n)) (hw : w₀.Shares w) (e : Nat → Occasion) :
    ∃ w', w₀.Shares w' ∧ (∀ id, w.Same id w') ∧
      World.alone e (.ask (.loadVersion flow n) fun o =>
        Registry.shelve k (Registry.compiled flow n o)) w =
      World.alone e (k (w₀.store.versionFlow flow n)) w' := by
  have halone : World.alone e (.ask (.loadVersion flow n) fun o =>
        Registry.shelve k (Registry.compiled flow n o)) w =
      World.alone e (Registry.shelve k (w.store.versionFlow flow n))
        { w with messages := (e 0).number } := rfl
  rw [halone, hw.versionFlow_eq]
  cases hf : w₀.store.versionFlow flow n with
  | error f => exact ⟨_, hw.numbered (e 0).number, fun id => ⟨rfl, rfl⟩, rfl⟩
  | ok f =>
    have hkept := Store.Remembers.of_versionFlow hf
    obtain ⟨rfl, rfl, -⟩ := Store.versionFlow_sound hf
    exact ⟨_, (hw.numbered _).remember hkey hkept, fun id => ⟨rfl, rfl⟩, rfl⟩

/-- A version that is looked up, wherever it is found. -/
theorem alone_lookUp {flow : String} {n : Nat} {k : Outcome Flow → Program α} (hw : w₀.Shares w)
    (e : Nat → Occasion) :
    ∃ w', w₀.Shares w' ∧ (∀ id, w.Same id w') ∧
      World.alone e (.ask (.cached (VersionRow.key flow n)) (Registry.lookUp flow n k)) w =
      World.alone e (k (w₀.finds flow n)) w' := by
  have halone : World.alone e (.ask (.cached (VersionRow.key flow n))
        (Registry.lookUp flow n k)) w =
      World.alone e (Registry.lookUp flow n k (w.compiled.get? (VersionRow.key flow n)))
        { w with messages := (e 0).number } := rfl
  rw [halone]
  cases hf : w.compiled.get? (VersionRow.key flow n) with
  | some f =>
    rw [hw.finds_eq hf]
    exact ⟨_, hw.numbered (e 0).number, fun id => ⟨rfl, rfl⟩, rfl⟩
  | none =>
    have hkey := hw.vouches hf
    obtain ⟨w', hw', hsame, h⟩ := alone_fetch hkey (k := k) (hw.numbered (e 0).number) e
    exact ⟨w', hw', fun id => ⟨(hsame id).row, (hsame id).told⟩, by rw [hkey.finds_eq]; exact h⟩

/-- **Such a program goes on alike** where nothing about its session is different. -/
theorem alone_same {p : Program α} (h : Solo w₀ sid p) {e : Nat → Occasion} (hw : w₀.Shares w)
    (hv : w₀.Shares v) (hs : w.Same sid v) :
    (v.alone e p).2 = (w.alone e p).2 ∧ (w.alone e p).1.Same sid (v.alone e p).1 := by
  induction h generalizing e w v with
  | done a => exact ⟨rfl, hs⟩
  | @ask a next ha h ih =>
    obtain ⟨hx, hs'⟩ := World.pose_same ha hw hv hs (e 0)
    rw [World.alone, World.alone, hx]
    exact ih _ _ (hw.pose ha _) (hv.pose ha _) hs'
  | @lookUp flow n k h ih =>
    obtain ⟨w', hw', hsame, hleft⟩ := alone_lookUp (k := k) hw e
    obtain ⟨v', hv', hsame', hright⟩ := alone_lookUp (k := k) hv e
    rw [hleft, hright]
    exact ih _ hw' hv' ((hsame sid).symm.trans (hs.trans (hsame' sid)))
  | @fetch flow n k hkey h ih =>
    obtain ⟨w', hw', hsame, hleft⟩ := alone_fetch hkey (k := k) hw e
    obtain ⟨v', hv', hsame', hright⟩ := alone_fetch hkey (k := k) hv e
    rw [hleft, hright]
    exact ih _ hw' hv' ((hsame sid).symm.trans (hs.trans (hsame' sid)))
  | shelve hkey hf h ih =>
    exact ih ((hw.numbered _).remember hkey hf) ((hv.numbered _).remember hkey hf) ⟨hs.row, hs.told⟩

/-- **Such a program** tells the chat backend of its session only. -/
theorem exists_told {p : Program α} (h : Solo w₀ sid p) (hw : w₀.Shares w) (e : Nat → Occasion) :
    ∃ told, (w.alone e p).1.deliveries = w.deliveries ++ told ∧ ∀ d ∈ told, d.session = sid := by
  induction p generalizing w e with
  | done a => exact ⟨[], (List.append_nil _).symm, nofun⟩
  | ask a next ih =>
    obtain ⟨hnext, hshares, -⟩ := h.pose hw (e 0)
    obtain ⟨told, htold, hown⟩ : ∃ told, (w.pose (e 0) a).1.deliveries = w.deliveries ++ told ∧
        ∀ d ∈ told, d.session = sid := by
      cases h with
      | ask ha h => exact World.pose_told ha (e 0)
      | lookUp | fetch | shelve => exact ⟨[], (List.append_nil _).symm, nofun⟩
    obtain ⟨more, hmore, hrest⟩ := ih _ hnext hshares (a.spend e)
    refine ⟨told ++ more, ?_, List.forall_mem_append.mpr ⟨hown, hrest⟩⟩
    rw [World.alone, hmore, htold, List.append_assoc]

end Solo

/-! ### Rules -/

theorem solo_asks {p : Program β} {k : β → Program α}
    (h : p.Asks (Ask.Private sid) fun b => Solo w₀ sid (k b)) : Solo w₀ sid (p.bind k) := by
  induction p with
  | done b => exact h
  | ask a next ih => exact .ask h.1 fun w c => ih _ (h.2 _)

theorem solo_lift {p : Program β} {f : β → Procedure α}
    (h : p.Asks (Ask.Private sid) fun b => Solo w₀ sid (f b).run) :
    Solo w₀ sid ((p : Procedure β) >>= f).run := by
  show Solo w₀ sid (ExceptT.lift p >>= f).run
  rw [ExceptT.run_bind_lift]
  exact solo_asks h

theorem solo_tried {p : Procedure β} {f : β → Procedure α}
    (h : p.run.Asks (Ask.Private sid) fun o => ∀ b, o = .ok b → Solo w₀ sid (f b).run) :
    Solo w₀ sid (p >>= f).run := by
  rw [ExceptT.run_bind]
  refine solo_asks (h.imp fun o ho => ?_)
  cases o with
  | ok b => exact ho b rfl
  | error e => exact .done _

theorem solo_of_asks {p : Program α} (h : p.Asks (Ask.Private sid) fun _ => True) :
    Solo w₀ sid p := by
  rw [← bind_done p]
  exact solo_asks (h.imp fun a _ => .done a)

/-- The session that is read is the one that was asked for. -/
theorem solo_load {f : Session → Procedure α} (h : ∀ s, s.id = sid → Solo w₀ sid (f s).run) :
    Solo w₀ sid (loadSession sid >>= f).run := by
  rw [ExceptT.run_bind]
  refine .ask rfl fun w c => ?_
  show Solo w₀ sid (Program.bind (.done (w.store.loadSession sid)) _)
  cases hs : w.store.loadSession sid with
  | error e => exact .done _
  | ok s =>
    obtain ⟨-, r, hr, hread⟩ := Store.loadSession_eq_ok hs
    exact h s ((SessionRow.toSession_eq_ok hread).1.trans (Store.id_of_row? hr))

theorem solo_version {flow : String} {n : Nat} {f : Flow → Procedure α}
    (h : ∀ g, Solo w₀ sid (f g).run) : Solo w₀ sid (Registry.version flow n >>= f).run := by
  rw [ExceptT.run_bind]
  show Solo w₀ sid (Program.bind (Registry.version flow n).run _)
  rw [Registry.version_bind]
  refine .lookUp fun o => ?_
  cases o with
  | ok g => exact h g
  | error e => exact .done _

theorem solo_published {flow : String} {f : Flow → Procedure α}
    (h : ∀ g, Solo w₀ sid (f g).run) : Solo w₀ sid (Registry.published flow >>= f).run := by
  unfold Registry.published
  rw [LawfulMonad.bind_assoc]
  refine solo_tried (p := loadFlow flow) ⟨trivial, fun o d _ => ?_⟩
  split
  · exact .done _
  · exact solo_version h

end Program

/-! ### Commands -/

namespace Command

variable {w₀ : World} {settings : Settings} {sid : String} {s : Session}

theorem solo_resumeFlow {node : String} {f : Flow → Procedure Turn.Report}
    (h : ∀ g, Solo w₀ sid (f g).run) : Solo w₀ sid (resumeFlow settings s node >>= f).run := by
  unfold resumeFlow
  split
  · exact solo_version h
  · rw [LawfulMonad.bind_assoc]
    refine solo_published fun latest => ?_
    split
    · exact h latest
    · exact solo_version h

theorem asks_record (hs : s.id = sid) (text : String) :
    (record sid s text).run.Asks (Ask.Private sid) fun o => ∀ y, o = .ok y → y.id = sid := by
  unfold record
  refine asks_lift (p := fresh .message) ⟨trivial, fun id => ?_⟩
  refine asks_lift (p := now) ⟨trivial, fun t => ?_⟩
  refine asks_then (p := saveSession (recorded s text id t.millis)) ⟨hs, fun o u _ => ?_⟩
  refine asks_lift (p := deliver _) ⟨rfl, fun _ => ?_⟩
  rintro _ h
  cases h
  exact hs

theorem asks_turn (hs : s.id = sid) (f : Flow) (st : Turn.Step) :
    (turn settings sid s f st).run.Asks (Ask.Private sid) fun _ => True := by
  unfold turn
  refine asks_lift (p := question .openTurn) ⟨trivial, fun _ => ?_⟩
  have hturn : ((⟨sid, f, settings⟩ : Turn.Scene).turn { s with flowVersion := f.version }
      st).run.Asks (Ask.Private sid) fun _ => True :=
    Turn.Scene.asks_turn (s := { s with flowVersion := f.version }) hs st
  refine asks_lift (hturn.imp fun report _ => ?_)
  exact asks_lift (p := question .closeTurn) ⟨trivial, fun _ => trivial⟩

/-- A turn once it is told that one begins. -/
theorem solo_announced (hs : s.id = sid) (f : Flow) (st : Turn.Step) (node : String)
    (e : SessionEvent) :
    Solo w₀ sid (do
      emitSession sid node e
      turn settings sid s f st : Procedure Turn.Report).run :=
  solo_lift (p := emitSession sid node e) ⟨trivial, fun _ => solo_of_asks (asks_turn hs f st)⟩

/-- A turn once it is recorded what the customer says. -/
theorem solo_said (hs : s.id = sid) (text : String) (f : Flow) (st : Turn.Step) (node : String) :
    Solo w₀ sid (do
      let s ← record sid s text
      emitSession sid node .resumed
      turn settings sid s f st : Procedure Turn.Report).run :=
  solo_tried ((asks_record hs text).imp fun _ hid y hy => solo_announced (hid y hy) f st node _)

theorem solo_text (hs : s.id = sid) (t : String) :
    Solo w₀ sid (submitText settings sid s t).run := by
  unfold submitText
  split
  · exact solo_tried ((asks_record hs t).imp fun _ _ _ _ => .done _)
  · split
    · exact solo_resumeFlow fun f => solo_said hs t f _ _
    · split
      · exact solo_resumeFlow fun f => solo_said hs t f _ _
      · exact .done _
    · exact .done _

theorem solo_click (hs : s.id = sid) (id label : String) :
    Solo w₀ sid (submitClick settings sid s id label).run := by
  unfold submitClick
  split
  · exact .done _
  · refine solo_resumeFlow fun f => ?_
    split
    · exact .done _
    · exact solo_said hs label f _ _

theorem solo_close (hs : s.id = sid) : Solo w₀ sid (closeSession sid s).run := by
  unfold closeSession
  refine solo_lift (p := now) ⟨trivial, fun t => ?_⟩
  refine solo_tried (p := saveSession _) ⟨hs, fun o u _ => ?_⟩
  refine solo_lift (p := deliver (.close sid)) ⟨rfl, fun _ => ?_⟩
  exact solo_lift (p := emitSession sid "" .closed) ⟨trivial, fun _ => .done _⟩

theorem solo_assign (hs : s.id = sid) (agent : String) :
    Solo w₀ sid (assignAgent sid s agent).run := by
  unfold assignAgent
  split
  · exact .done _
  · refine solo_lift (p := now) ⟨trivial, fun t => ?_⟩
    exact solo_tried (p := saveSession _) ⟨hs, fun o u _ => .done _⟩

theorem solo_giveBack (hs : s.id = sid) (node : Option String) :
    Solo w₀ sid (returnToFlow settings sid s node).run := by
  unfold returnToFlow
  split
  · exact .done _
  · refine solo_published fun f => ?_
    dsimp only
    split
    · exact .done _
    · exact solo_announced (s := givenBack s) hs f _ _ _

/-- **A command** is alone on its session. -/
theorem solo_handle (w₀ : World) (settings : Settings) (sid : String) (c : Command) :
    Solo w₀ sid (handle settings sid c).run := by
  refine solo_load fun s hs => ?_
  dsimp only
  split
  · exact .done _
  cases c with
  | start => exact solo_version fun f => solo_announced hs f _ _ _
  | text t => exact solo_text hs t
  | click id label => exact solo_click hs id label
  | close => exact solo_close hs
  | recover =>
    show Solo w₀ sid (recoverSession settings sid s).run
    unfold recoverSession
    split
    · exact .done _
    · exact solo_version fun f => solo_of_asks (asks_turn hs f _)
  | assign agent => exact solo_assign hs agent
  | giveBack node => exact solo_giveBack hs node

end Command

end Dialogue
