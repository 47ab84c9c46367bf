import Dialogue.Proofs.Engine.Performed
import Dialogue.Proofs.Engine.Upkeep

/-! # Reached worlds

A world is reached if the engine began with an empty store and did one thing after the other since:
flows are made, drafted and published, sessions are opened and get commands, under any settings.
Whatever it does may be cut between any two questions.

* `Reached.sound`: reached worlds are sound.
* `Reached.pointers`: stored sessions point to nodes of their versions, and no command misses the
  version of its session. -/

namespace Dialogue.World

open Program

/-- What the engine comes to by doing one thing after the other. -/
inductive Reached : World → Prop
  | new (now : Millis) : Reached (.new .empty now)
  | idle {w w' : World} (h : Reached w) (hb : w.Idle w') : Reached w'
  | createFlow {w w' : World} {name : String} {p : Program (Outcome Definition)} (h : Reached w)
      (hl : Leads Idle (fun _ => True) (Registry.createFlow name).run w p w') : Reached w'
  | saveDraft {w w' : World} {flow : String} {draft : Graph} {p : Program (Outcome Definition)}
      (h : Reached w) (hd : draft.ReadsBack)
      (hl : Leads Idle (fun _ => True) (Registry.saveDraft flow draft).run w p w') : Reached w'
  | publish {w w' : World} {flow : String} {p : Program (Outcome Definition)} (h : Reached w)
      (hl : Leads Idle (fun _ => True) (Registry.publish flow).run w p w') : Reached w'
  | openSession {w w' : World} {flow : String} {p : Program (Outcome String)} (h : Reached w)
      (hl : Leads Idle (fun _ => True) (Command.openSession flow).run w p w') : Reached w'
  | command {w w' : World} {settings : Settings} {sid : String} {c : Command}
      {p : Program (Outcome Turn.Report)} (h : Reached w)
      (hl : Leads Idle (fun _ => True) (Command.handle settings sid c).run w p w') : Reached w'

variable {w w' : World}

theorem sound_new (now : Millis) : Sound (.new .empty now) :=
  ⟨rfl, nofun, nofun, nofun⟩

/-- What asks safe questions only leaves a sound world sound, wherever it is cut. -/
theorem Sound.leads {α : Type} {p q : Program α} {post : α → World → Prop} {allowed : Ask → Prop}
    (h : w.Sound) (hp : p.Always Idle Ask.Safe post w) (hl : Leads Idle allowed p w q w') :
    w'.Sound :=
  hp.kept hl (fun _ _ hb => hb.sound) (fun _ _ c ha hw => sound_answer hw ha c) h

/-- **Reached worlds** are sound. -/
theorem Reached.sound (h : Reached w) : w.Sound := by
  induction h with
  | new now => exact sound_new now
  | idle _ hb ih => exact hb.sound ih
  | createFlow _ hl ih => exact ih.leads (Registry.createFlow_safe _ _) hl
  | saveDraft _ hd hl ih => exact ih.leads (Registry.saveDraft_safe _ hd ih) hl
  | publish _ hl ih => exact ih.leads (Registry.publish_safe _ ih) hl
  | openSession _ hl ih => exact ih.leads (Command.openSession_safe _ ih) hl
  | command _ hl ih => exact ih.leads (Command.handle_safe _ _ _ ih) hl

/-- In a sound world a flow has a live version unless it was not published. -/
theorem Sound.liveFlow_error (h : w.Sound) {flow : String} {e : Failure}
    (hflow : (w.store.flows.row? flow).isSome) (he : w.store.liveFlow flow = .error e) :
    e = .plain .flow ("flow '" ++ flow ++ "' is not published") := by
  obtain ⟨r, hr⟩ := Option.isSome_iff_exists.mp hflow
  obtain ⟨d, hd⟩ : ∃ d, w.store.loadFlow flow = .ok d := by
    obtain ⟨d, rfl, hback, -⟩ := h.flows flow r hr
    exact ⟨_, (Store.loadFlow_eq h.registered hr).trans (FlowRow.toDefinition_ofDefinition hback)⟩
  by_cases hv : d.version = 0
  · rw [Store.liveFlow_eq_of_unpublished hd hv] at he
    exact (Except.error.inj he).symm
  · obtain ⟨hid, -, -, hlive⟩ := h.loadFlow hd
    obtain ⟨f, hf⟩ := hlive hv
    rw [hid] at hf
    rw [Store.liveFlow_eq hd hv, hf] at he
    cases he

/-- **Pointers of stored sessions.** The version of a stored session exists and compiles. The node
that waits is an input or a template of that version, the node that is pending and the one of a halt
are executable nodes of it. No halt is that of a missing node, which could not be tried again. A
command to the session is refused, or the row cannot be read, or the flow was never published, but
it never fails for lack of a version. -/
theorem Reached.pointers (h : Reached w) {sid : String} {r : SessionRow}
    (hr : w.store.row? sid = some r) :
    ∃ (v : Nat) (g : Graph) (f : Flow), r.flowVersion = v ∧
      w.store.loadVersion r.flowId v = .ok g ∧ Flow.compile r.flowId v g = .ok f ∧
      (∀ node, r.currentNode = some node →
        ∃ n, f.node? node = some n ∧ (n.kind = .input ∨ n.kind = .template)) ∧
      (∀ node, r.pendingNode = some node → f.Executes node) ∧
      (∀ t, r.halt = some t → ∃ x, Decode.ofText .convert Halt.decode t = .ok x ∧
        f.Executes x.nodeId ∧ (x.kind = .graphIntegrity → x.retryable = true)) ∧
      ∀ (settings : Settings) (c : Command) (e : Failure) (w' : World),
        Leads Idle (fun _ => True) (Command.handle settings sid c).run w (.done (.error e)) w' →
        e.isSession = true ∨ r.toSession = .error e ∨
          e = .plain .flow ("flow '" ++ r.flowId ++ "' is not published") := by
  have hw := h.sound
  have hplaced := hw.sessions sid r hr
  obtain ⟨f, halt, hf, hid, hv, hhalt, hplaces⟩ := hplaced
  obtain ⟨g, hg, hc⟩ := Store.versionFlow_eq_ok hf.version
  rw [← hid] at hg hc
  refine ⟨f.version, g, f, hv, hg, hc, hplaces.current, hplaces.pending, fun t ht => ?_,
    fun settings c e w' hl => ?_⟩
  · rw [ht, Option.mapM_some] at hhalt
    obtain ⟨x, hx, hhalt⟩ := bind_eq_ok.mp hhalt
    cases hhalt
    exact ⟨x, hx, hplaces.halt x rfl⟩
  · obtain ⟨r', told, hfails, -⟩ := (Command.course_always settings c hw hr).leads hl
    cases hfails with
    | unreadable h => exact .inr (.inl h)
    | refused hs hx => exact .inl rfl
    | misfit hs hp hb hst hn ha hf => exact .inl hf
    | @lacking x f' hs hlacks =>
      obtain ⟨f', hf', hx⟩ := (hw.sessions sid r hr).session hs.1
      have hlive := hlacks.live hx hf'
      have hflow : x.flowId = r.flowId := (SessionRow.toSession_eq_ok hs.1).2.1
      refine .inr (.inr ?_)
      rw [← hflow]
      exact hw.liveFlow_error (by rw [hx.flow]; exact hf'.flow) hlive

/-! ### A session whose flow was drawn anew -/

/-- A flow of its start and one more node. -/
def drawn (type : String) (data : Json) : Graph :=
  ⟨[⟨"start", "start", .null, none⟩, ⟨"n", type, data, none⟩], [⟨"e", "start", "n", none⟩]⟩

/-- A flow that asks for a text. -/
def asking : Graph := drawn "input" (.obj [("variable", .str "x")])

/-- A flow that says a text. -/
def telling : Graph := drawn "message" (.obj [("text", .str "Hi")])

/-- The flow is drawn and published. -/
def publishing (w : World) (draft : Graph) : World :=
  (w.doing (Registry.saveDraft "f1" draft).run).doing (Registry.publish "f1").run

/-- A session waits for the answer in a flow that asks, which is then one that says something. -/
def retold : World :=
  (((((new .empty 0).doing (Registry.createFlow "").run).publishing asking).doing
    (Command.openSession "f1").run).doing (Command.handle .default "s1" .start).run).publishing
    telling

theorem leads_doing {α : Type} (w : World) (p : Program α) :
    Leads Idle (fun _ => True) p w (.done (w.perform .unreachable p).2) (w.doing p) :=
  leads_run Idle.refl (calm .unreachable) 0 p w

theorem Reached.publishing (h : Reached w) {draft : Graph} (hd : draft.ReadsBack) :
    Reached (w.publishing draft) :=
  (h.saveDraft hd (leads_doing _ _)).publish (leads_doing _ _)

theorem readsBack_asking : asking.ReadsBack := by
  refine Graph.readsBack ?_ (by decide) rfl
  simp [asking, drawn, Graph.toJson, Graph.Node.toJson, Graph.Edge.toJson, Json.Legible,
    Json.LegibleFields, Json.LegibleItems]

theorem readsBack_telling : telling.ReadsBack := by
  refine Graph.readsBack ?_ (by decide) rfl
  simp [telling, drawn, Graph.toJson, Graph.Node.toJson, Graph.Edge.toJson, Json.Legible,
    Json.LegibleFields, Json.LegibleItems]

theorem reached_retold : Reached retold := by
  have hnew := Reached.new 0
  have hmade := hnew.createFlow (leads_doing _ (Registry.createFlow "").run)
  have hasking := hmade.publishing readsBack_asking
  have hopened := hasking.openSession (leads_doing _ (Command.openSession "f1").run)
  have hwaits := hopened.command (leads_doing _ (Command.handle .default "s1" .start).run)
  exact hwaits.publishing readsBack_telling

/-! ### The rows of that world -/

/-- The first flow of an engine, with a draft and what was published of it. -/
def firstFlow (g : Graph) (p : Option Graph) (v : Nat) : Definition := ⟨"f1", "", g, p, v, 0, 0⟩

/-- The version of the first flow that the graph compiles to, if it does. -/
def flowOf (g : Graph) (v : Nat) : Flow :=
  (Flow.compile "f1" v g).toOption.getD ⟨"f1", v, [], [], [], [], ""⟩

/-- The first flow was drawn and published. What is live is the draft as it was read then. -/
def issued (draft live : Graph) : World :=
  ((((new .empty 0).fresh .flow).1.withFlow (firstFlow .initial none 0)).withFlow
    (firstFlow draft none 0)).offering (firstFlow live (some live) 1) (flowOf live 1)

/-- A session was opened on it. -/
def begun (draft live : Graph) : World :=
  ((issued draft live).fresh .session).1.withSession (.new "s1" "f1" 1 0)

section

variable {g g' g'' old : Graph} {p p' : Option Graph} {v : Nat} {d : Definition}

theorem compile_flowOf (h : (Flow.compile "f1" v g).isOk) :
    Flow.compile "f1" v g = .ok (flowOf g v) := by
  unfold flowOf
  cases hf : Flow.compile "f1" v g with
  | ok f => rfl
  | error e => rw [hf] at h; cases h

theorem doing_saveDraft (h : w.store.loadFlow "f1" = .ok (firstFlow old p v)) (ht : w.clock = 0)
    (hd : Registry.withDraft (firstFlow old p v) g 0 = .ok (firstFlow g p v)) :
    w.doing (Registry.saveDraft "f1" g).run = w.withFlow (firstFlow g p v) :=
  congrArg Prod.fst (perform_saveDraft _ h (ht ▸ hd))

theorem loadFlow_drawn (h : w.store.loadFlow "f1" = .ok (firstFlow old p v)) (ht : w.clock = 0)
    (hd : Registry.withDraft (firstFlow old p v) g 0 = .ok (firstFlow g p v))
    (hb : (firstFlow g p v).ReadsAs d) (hv : d.version < 0x8000000000000000) :
    (w.doing (Registry.saveDraft "f1" g).run).store.loadFlow "f1" = .ok d := by
  obtain ⟨hs, -⟩ := Store.loadFlow_eq_ok h
  rw [doing_saveDraft h ht hd]
  exact loadFlow_withFlow hs hb hv

/-- The flow with the draft, and then with the draft published. -/
theorem publishing_eq (h : w.store.loadFlow "f1" = .ok (firstFlow old p v)) (ht : w.clock = 0)
    (hd : Registry.withDraft (firstFlow old p v) g 0 = .ok (firstFlow g p v))
    (hb : (firstFlow g p v).ReadsAs (firstFlow g' p' v)) (hv : v < 0x8000000000000000)
    (hc : (Flow.compile "f1" (v + 1) g').isOk)
    (hfree : w.store.versions.row? (VersionRow.key "f1" (v + 1)) = none) :
    w.publishing g =
      (w.withFlow (firstFlow g p v)).offering (firstFlow g' (some g') (v + 1))
        (flowOf g' (v + 1)) := by
  have hload := loadFlow_drawn h ht hd hb hv
  rw [doing_saveDraft h ht hd] at hload
  have hlive := congrArg Prod.fst
    (perform_publish (d := firstFlow g' p' v) .unreachable hload (compile_flowOf hc) hfree)
  rw [publishing, doing_saveDraft h ht hd]
  refine hlive.trans ?_
  show offering _ ⟨"f1", "", g', some g', v + 1, 0, w.clock⟩ _ = _
  rw [ht]
  rfl

theorem doing_createFlow : (new .empty 0).doing (Registry.createFlow "").run =
    ((new .empty 0).fresh .flow).1.withFlow (firstFlow .initial none 0) :=
  congrArg Prod.fst (perform_createFlow _ rfl "")

theorem loadFlow_created :
    ((new .empty 0).doing (Registry.createFlow "").run).store.loadFlow "f1" =
      .ok (firstFlow .initial none 0) := by
  have hback : (firstFlow .initial none 0).ReadsBack := ⟨Graph.readsBack_initial, nofun⟩
  rw [doing_createFlow]
  exact loadFlow_withFlow rfl hback.readsAs (by decide)

theorem loadFlow_issued (hg : g'.ReadsAs g'') :
    (issued g g').store.loadFlow "f1" = .ok (firstFlow g'' (some g'') 1) := by
  let w := (((new .empty 0).fresh .flow).1.withFlow (firstFlow .initial none 0)).withFlow
    (firstFlow g none 0)
  have hreads : (firstFlow g' (some g') 1).ReadsAs (firstFlow g'' (some g'') 1) :=
    ⟨hg, .some hg, rfl⟩
  exact loadFlow_withFlow (w := w.withVersion (firstFlow g' (some g') 1)) rfl hreads
    (Nat.lt_of_sub_eq_succ rfl)

/-- The session leaves the flows alone. This is for any graph: with a fixed one, the kernel would
compare the texts of the rows. -/
theorem loadFlow_begun (g g' : Graph) :
    (begun g g').store.loadFlow "f1" = (issued g g').store.loadFlow "f1" :=
  Store.loadFlow_congr rfl rfl

/-- **A session on a new flow**, whatever the flow. -/
theorem begun_eq (hg : g.ReadsAs g') (hg' : g'.ReadsAs g'') (hc : (Flow.compile "f1" 1 g').isOk)
    (hd : Registry.withDraft (firstFlow .initial none 0) g 0 = .ok (firstFlow g none 0)) :
    (((new .empty 0).doing (Registry.createFlow "").run).publishing g).doing
      (Command.openSession "f1").run = begun g g' := by
  obtain ⟨hid, hversion, -⟩ := Flow.compile_sound (compile_flowOf hc)
  have hcached : (issued g g').compiled.get? (VersionRow.key "f1" 1) = some (flowOf g' 1) := by
    show ((new .empty 0).compiled.set (VersionRow.key (flowOf g' 1).id (flowOf g' 1).version)
      (flowOf g' 1)).get? (VersionRow.key "f1" 1) = some (flowOf g' 1)
    rw [hid, hversion]
    exact Cache.get?_set_self _ _ _
  have hopened := congrArg Prod.fst (perform_openSession (d := firstFlow g'' (some g'') 1)
    .unreachable (loadFlow_issued hg') Nat.one_ne_zero hcached rfl)
  have hreads : (firstFlow g none 0).ReadsAs (firstFlow g' none 0) := ⟨hg, .none, rfl⟩
  have hissued : ((new .empty 0).doing (Registry.createFlow "").run).publishing g =
      issued g g' := by
    rw [publishing_eq loadFlow_created (by rw [doing_createFlow]; rfl) hd hreads (by decide) hc
      (by rw [doing_createFlow]; rfl), doing_createFlow]
    rfl
  have hsession : ((issued g g').fresh .session).2 = "s1" := by
    show "s" ++ toString (0 + 1) = "s1"
    decide
  have hclock : (issued g g').clock = 0 := rfl
  rw [hissued]
  refine hopened.trans ?_
  rw [hversion, hsession, hclock]
  rfl

end

/-- A command leaves the flows and their versions as they are. -/
theorem Sound.shelves_handle (h : w.Sound) {sid : String} {r : SessionRow}
    (hr : w.store.row? sid = some r) (settings : Settings) (c : Command) :
    (w.doing (Command.handle settings sid c).run).Shelves w.store := by
  have hcame := (Command.course_always settings c h hr).leads (leads_doing w _)
  generalize w.doing (Command.handle settings sid c).run = w' at hcame ⊢
  generalize (w.perform .unreachable (Command.handle settings sid c).run).2 = o at hcame
  cases o with
  | ok rep =>
    obtain ⟨r', -, hw, -⟩ := hcame
    exact hw
  | error e =>
    obtain ⟨r', told, -, hw, -⟩ := hcame
    exact hw.1

theorem begun_asking :
    (((new .empty 0).doing (Registry.createFlow "").run).publishing asking).doing
      (Command.openSession "f1").run = begun asking asking :=
  begun_eq readsBack_asking.readsAs readsBack_asking.readsAs (by decide +kernel) rfl

theorem shelves_asking :
    ((begun asking asking).doing (Command.handle .default "s1" .start).run).Shelves
      (begun asking asking).store := by
  have hsound : (begun asking asking).Sound := by
    have hmade := (Reached.new 0).createFlow (leads_doing _ (Registry.createFlow "").run)
    have hasking := hmade.publishing readsBack_asking
    rw [← begun_asking]
    exact (hasking.openSession (leads_doing _ (Command.openSession "f1").run)).sound
  have hrow : (begun asking asking).store.row? "s1" = some (.ofSession (.new "s1" "f1" 1 0)) := rfl
  exact hsound.shelves_handle hrow .default .start

theorem loadFlow_asking :
    ((begun asking asking).doing (Command.handle .default "s1" .start).run).store.loadFlow "f1" =
      .ok (firstFlow asking (some asking) 1) := by
  rw [Store.loadFlow_congr shelves_asking.same shelves_asking.flows, loadFlow_begun]
  exact loadFlow_issued readsBack_asking.readsAs

theorem clock_asking :
    ((begun asking asking).doing (Command.handle .default "s1" .start).run).clock = 0 := by
  decide +kernel

theorem retold_eq : retold =
    (((begun asking asking).doing (Command.handle .default "s1" .start).run).withFlow
      (firstFlow telling (some asking) 1)).offering (firstFlow telling (some telling) 2)
        (flowOf telling 2) := by
  have hback : (firstFlow telling (some asking) 1).ReadsBack :=
    ⟨readsBack_telling, by rintro _ ⟨⟩; exact readsBack_asking⟩
  rw [retold, begun_asking]
  refine publishing_eq loadFlow_asking clock_asking rfl hback.readsAs (by decide)
    (by decide +kernel) ?_
  rw [shelves_asking.versions]
  rfl

/-- The answer is that the session refuses. -/
def isRefusal {α : Type} : Outcome α → Bool
  | .error e => e.isSession
  | .ok _ => false

/-- The session waits, and refuses a text of which the chat backend is told. -/
theorem retold_refuses :
    let answered := retold.perform .unreachable (Command.handle .default "s1" (.text "x")).run
    (retold.store.row? "s1").map (·.currentNode) = some (some "n") ∧
      isRefusal answered.2 = true ∧
      answered.1.deliveries.length = retold.deliveries.length + 1 := by
  rw [retold_eq]
  decide +kernel

theorem exists_retold : ∃ r, retold.store.row? "s1" = some r ∧ r.currentNode = some "n" := by
  have h := retold_refuses.1
  rw [Option.map_eq_some_iff] at h
  exact h

/-- The session of that world waits at a node of its version, though it is another one by now. -/
theorem pointers_retold : ∃ r g f n, ∃ v : Nat, Reached retold ∧
    retold.store.row? "s1" = some r ∧ r.currentNode = some "n" ∧ r.flowVersion = v ∧
    retold.store.loadVersion r.flowId v = .ok g ∧ Flow.compile r.flowId v g = .ok f ∧
    f.node? "n" = some n ∧ (n.kind = .input ∨ n.kind = .template) := by
  obtain ⟨r, hr, hn⟩ := exists_retold
  obtain ⟨v, g, f, hv, hg, hf, hcurrent, -⟩ := reached_retold.pointers hr
  obtain ⟨n, hnode, hk⟩ := hcurrent "n" hn
  exact ⟨r, g, f, n, v, reached_retold, hr, hn, hv, hg, hf, hnode, hk⟩

end Dialogue.World
