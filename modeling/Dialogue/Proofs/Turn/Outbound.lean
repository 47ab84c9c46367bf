import Dialogue.Proofs.Turn.Branches

/-! # Calls of other systems in a turn

A call can fail where the request is built, where it is sent, and where the answer is read. All
failures are alike for the turn: it leaves the variables as they are and takes one way, which the
graph decides on beforehand, and the sessions that are kept differ in the diagnosis only. A call
that succeeds leaves the variables with what it keeps of the answer.

* `store_eq`: what a call keeps of an answer.
* `Passes`: what comes of a node that says nothing.
* `failed_passes`, `answered_passes`: a step whose call fails, and one whose call is answered.
* `call_passes`: both, for all steps of a node. -/

namespace Dialogue

/-! ### Answers -/

namespace Http.Call

variable {call : Call} {vars : Variables} {wait : Nat} {peer : Attempt} {body : Json}

/-- The call is made, and this is the answer. -/
def Answers (call : Call) (vars : Variables) (wait : Nat) (peer : Attempt) (body : Json) : Prop :=
  ∃ request, call.request vars wait = .ok request ∧ call.read vars request peer = .ok body

/-- What the call keeps of an answer: what its mappings find, in their order, and then the whole. -/
def kept (call : Call) (body : Json) : Fields :=
  (call.mappings.filterMap fun m => (find? m body).map (Text.trim m.name, ·)) ++
    (((call.responseVariable.map Text.trim).filter (· ≠ "")).map (·, body)).toList

theorem foldl_keep (ms : List Mapping) (vars : Variables) :
    ms.foldl (keep body) vars =
      Fields.merge vars (ms.filterMap fun m => (find? m body).map (Text.trim m.name, ·)) := by
  induction ms generalizing vars with
  | nil => rfl
  | cons m rest ih =>
    rw [List.foldl_cons, ih, keep]
    cases hm : find? m body with
    | none => rw [List.filterMap_cons_none (by rw [hm]; rfl)]
    | some v =>
      rw [List.filterMap_cons_some (by rw [hm]; rfl)]
      rfl

/-- What is kept of the answer makes no difference to the request. -/
theorem request_mappings (call : Call) (ms : List Mapping) (vars : Variables) (wait : Nat) :
    { call with mappings := ms }.request vars wait = call.request vars wait := by
  simp only [request, headersWith, authorization, content]

/-- What is kept is put into the variables, one after the other. -/
theorem store_eq : call.store vars body = Fields.merge vars (call.kept body) := by
  rw [store, kept, foldl_keep, Fields.merge, Fields.merge, List.foldl_append]
  cases call.responseVariable with
  | none => rfl
  | some name =>
    by_cases hname : Text.trim name = ""
    · simp [Option.filter, hname]
    · simp [Option.filter, hname, Variables.set]

end Http.Call

/-! ### Ways -/

/-- The node to which the only edge of a branch leads, if there is one. -/
def Graph.Way (g : Graph) (node key : String) (way : Option String) : Prop :=
  ∀ t, way = some t ↔ ∃ e, g.branch node key = [e] ∧ g.Leads e t

theorem Graph.exists_way (g : Graph) (node key : String) : ∃ way, g.Way node key way := by
  by_cases h : ∃ t e, g.branch node key = [e] ∧ g.Leads e t
  · obtain ⟨t, e, he, ht⟩ := h
    refine ⟨some t, fun t' => ?_⟩
    constructor
    · intro heq
      cases heq
      exact ⟨e, he, ht⟩
    · rintro ⟨e', he', ht'⟩
      obtain rfl : e = e' := by simpa [he] using he'
      rw [ht.unique ht']
  · refine ⟨none, fun t => ?_⟩
    constructor
    · intro heq
      cases heq
    · exact fun ht => absurd ⟨t, ht⟩ h

namespace Turn

open Program Procedure World

/-- The route goes that way, or to a halt that can be tried again where there is none. -/
def Route.Goes : Option String → Route → Prop
  | some t, r => r = .go t
  | none, r => ∃ text, r = .halt .graphIntegrity text true

variable {g : Graph} {f : Flow} {id node key : String} {v : Nat} {way : Option String}

theorem Route.Honours.goes {r : Route} (h : r.Honours g node key) (hway : g.Way node key way) :
    r.Goes way := by
  cases r with
  | go next =>
    obtain rfl := (hway next).mpr h
    rfl
  | halt kind text again =>
    obtain ⟨rfl, rfl, hnone⟩ := h
    cases way with
    | none => exact ⟨text, rfl⟩
    | some t =>
      obtain ⟨e, he, ht⟩ := (hway t).mp rfl
      exact absurd ht (hnone e t he)
  | finish | pause | handoff | close => exact h.elim

/-- A node goes on by a handle where its only edge leads. The turn is over where there is no
edge. -/
theorem route_next (h : Flow.compile id v g = .ok f) (hn : g.Executes node) (handle : Handle)
    (hway : g.Way node handle.key way) :
    if g.branch node handle.key = [] then (Transition.next handle).route f node = .finish
    else ((Transition.next handle).route f node).Goes way := by
  simp only [Transition.route]
  split_ifs with hb
  · rw [Flow.next_of_nil h hn hb]
  · cases way with
    | some t =>
      obtain ⟨e, he, ht⟩ := (hway t).mp rfl
      rw [Flow.next_of_leads h hn he ht]
      rfl
    | none =>
      have hl (e : Graph.Edge) (t : String) (he : g.branch node handle.key = [e]) :
          ¬ g.Leads e t := by
        intro ht
        cases (hway t).mpr ⟨e, he, ht⟩
      obtain ⟨x, hx⟩ := Flow.next_of_lost h hn hb hl
      rw [hx]
      exact ⟨_, rfl⟩

namespace Scene

variable {sc : Scene} {P : Moment → Prop} {K : Prop} {r : SessionRow} {s y : Session}
  {vars : Variables} {t : Transition} {p : Progress} {w : World} {e : Nat → Moment}

/-! ### Nodes that say nothing -/

/-- The session that is kept on a route from a node that left these variables and said nothing. -/
def Stays (sc : Scene) (P : Moment → Prop) (s : Session) (node : String) (vars : Variables) :
    Route → Session → Prop
  | .halt kind text again, y => sc.Halts P { s with vars } ⟨node, kind, text, again⟩ y
  | route, y => ∃ now, TimeIn P now ∧ y = stamped (after s node vars [] route) now

/-- What comes of a node that leaves these variables and says nothing: the turn takes a route of
some sort, and keeps the session. Or it is cut, and the store has the row from before or a session
with these variables. -/
inductive Passes (sc : Scene) (P : Moment → Prop) (K : Prop) (r : SessionRow) (s : Session)
    (node : String) (vars : Variables) (R : Route → Prop) (p : Progress) (w : World) : Prop
  | cut (hK : K) (hp : p.IsCut)
      (hw : w.HasRow s.id r ∨ ∃ y, y.id = s.id ∧ y.vars = vars ∧ w.Keeps y)
  | taken {route : Route} (hroute : R route) (hp : p.Takes node route)
      (hstays : sc.Stays P s node vars route p.session) (hw : w.Keeps p.session)

theorem leaves_via (h : sc.Leaves P s node y (.via vars t)) :
    sc.Stays P s node vars (t.route sc.flow node) y := by
  obtain ⟨s', ⟨spoken, now, hspoken, hnow, rfl⟩, hfollows⟩ := h
  cases hspoken
  change sc.Follows P _ node (t.route sc.flow node) y at hfollows
  generalize t.route sc.flow node = route at hfollows
  cases route with
  | halt kind text again =>
    obtain ⟨m, now', hm, hnow', rfl⟩ := hfollows
    exact ⟨m, now', hm, hnow', by simp [stamped, haltedBy, after]⟩
  | go | finish | pause | handoff | close => exact ⟨now, hnow, hfollows⟩

section
variable {R : Route → Prop}

theorem Ensues.passes_cut (h : sc.Ensues P K r s node .cut p w) :
    sc.Passes P K r s node vars R p w := by
  cases h with
  | cut hK hp hw =>
    refine .cut hK hp (hw.imp_right ?_)
    rintro ⟨o, y, hv, -⟩
    cases hv
  | taken hroute => cases hroute

theorem Ensues.passes_via (h : sc.Ensues P K r s node (.via vars t) p w)
    (hR : R (t.route sc.flow node)) : sc.Passes P K r s node vars R p w := by
  cases h with
  | cut hK hp hw =>
    refine .cut hK hp (hw.imp_right ?_)
    rintro ⟨o, y, hv, ⟨spoken, now, -, -, rfl⟩, hw⟩
    cases hv
    exact ⟨stamped (after s node vars spoken _) now, id_after .., vars_after .., hw⟩
  | taken hroute hp hleaves hw =>
    cases hroute
    exact .taken hR hp (leaves_via hleaves) hw

theorem Ensues.passes_failed {f : Failure} (h : sc.Ensues P K r s node (.failed f) p w)
    (hR : R (.halt (haltKind f) f.message true)) : sc.Passes P K r s node s.vars R p w := by
  cases h with
  | cut hK hp hw =>
    refine .cut hK hp (hw.imp_right ?_)
    rintro ⟨o, y, hv, -⟩
    cases hv
  | taken hroute hp hleaves hw =>
    cases hroute
    exact .taken hR hp hleaves hw

end

/-- Whatever route it takes, the variables are these. -/
theorem Passes.vars_eq {R : Route → Prop} (h : sc.Passes P K r s node vars R p w) :
    p.IsCut ∧ K ∨ p.session.vars = vars ∧ w.Keeps p.session := by
  cases h with
  | cut hK hp => exact .inl ⟨hp, hK⟩
  | @taken route _ _ hstays hw =>
    refine .inr ⟨?_, hw⟩
    cases route with
    | halt kind text again =>
      obtain ⟨m, now, -, -, hy⟩ := hstays
      exact congrArg Session.vars hy
    | go | finish | pause | handoff | close =>
      obtain ⟨now, -, hy⟩ := hstays
      exact congrArg Session.vars hy

/-- Where the route can only lead to one node, the turn goes on there unless it is cut. -/
theorem Passes.exists_on {R : Route → Prop} {target : String}
    (h : sc.Passes P K r s node vars R p w)
    (hK : ¬ K) (hR : ∀ route, R route → route = .go target) :
    ∃ y, p = .on y target ∧ y.vars = vars ∧ w.Keeps y := by
  have hvars := h.vars_eq.resolve_left fun hcut => hK hcut.2
  cases h with
  | cut hcut => exact absurd hcut hK
  | taken hroute hp =>
    obtain rfl := hR _ hroute
    cases p with
    | done rep => exact hp.elim
    | on y next =>
      obtain rfl : next = target := hp
      exact ⟨y, rfl, hvars⟩

/-! ### Steps that call -/

/-- A call that is answered is kept, and leads on as a success. -/
theorem visitCall_answered {call : Http.Call} {body : Json}
    (hK : (∃ i, (e i).circumstance.aborted = true) → K)
    (hanswers : ∀ i,
      call.Answers vars sc.settings.engine.httpTimeout (e i).circumstance.peer body) :
    (sc.visitCall node call vars).Given (fun m => ∃ i, m = e i)
      (fun v _ => v = .cut ∧ K ∨
        v = .via (Fields.merge vars (call.kept body)) (.next (.fixed .success))) w := by
  obtain ⟨request, hrequest, -⟩ := hanswers 0
  unfold visitCall
  rw [hrequest]
  refine given_bind ((exchange_given hK request).imp fun answer w hanswer => ?_)
  cases answer with
  | none => exact .inl ⟨rfl, hanswer.1 rfl⟩
  | some attempt =>
    obtain ⟨j, rfl⟩ := hanswer.2 _ rfl
    obtain ⟨request', hrequest', hread⟩ := hanswers j
    obtain rfl : request = request' := by simpa [hrequest] using hrequest'
    dsimp only
    rw [hread, ← Http.Call.store_eq]
    exact given_log fun w => given_bind (given_of_all fun _ _ => .inr rfl)

/-- The step does not fail, and comes to this. -/
def ComesTo (sc : Scene) (e : Nat → Moment) (w : World) (s : Session) (st : Step) (steps : Nat)
    (post : Progress → World → Prop) : Prop :=
  ∃ p, (w.live e (sc.advance s st steps).run).2.2 = .ok p ∧
    post p (w.live e (sc.advance s st steps).run).2.1

/-- The turn is told to stop at one of the moments, or the session is closed. -/
def Stops (e : Nat → Moment) (x : Status) (s : Session) : Prop :=
  (∃ i, (e i).circumstance.aborted = true) ∨ x = .closed ∨ s.status = .closed

section
variable {n : Flow.Node} {call : Http.Call} {x : Status} (hnode : sc.flow.node? node = some n)
  (hcall : n.action = .request call) (steps : Nat) (hw : w.HasRow s.id r)
  (hr : r.status? = .ok x)
include hnode hcall hw hr

/-- A step of a node that calls comes to what ensues from the call. -/
theorem call_comesTo {V : Visit → Prop} {post : Progress → World → Prop} (hcut : ¬ V .cut)
    (hfailed : ∀ f, V (.failed f) → f.isSession = false)
    (hv : ∀ w, (sc.visitCall node call s.vars).Given (fun m => ∃ i, m = e i)
      (fun v _ => v = .cut ∧ Stops e x s ∨ V v) w)
    (hpost : ∀ v p w, v = .cut ∨ V v →
      sc.Ensues (fun m => ∃ i, m = e i) (Stops e x s) r s node v p w → post p w) :
    sc.ComesTo e w s (.run node) steps post := by
  have hP (m : Moment) (hm : ∃ i, m = e i) (ha : m.circumstance.aborted = true) :
      Stops e x s := by
    obtain ⟨i, rfl⟩ := hm
    exact .inl ⟨i, ha⟩
  have hvisit (w : World) : (sc.visit n (.run node) s.vars).Given (fun m => ∃ i, m = e i)
      (fun v _ => v = .cut ∧ Stops e x s ∨ V v) w := by
    rintro m ⟨i, rfl⟩
    show Given _ _ (if (e i).circumstance.aborted = true then _ else _) _
    split
    · exact .inl ⟨rfl, .inl ⟨i, ‹_›⟩⟩
    · show Given _ _ (sc.run node n.action s.vars) _
      rw [hcall]
      exact hv _
  have hstep := advance_ensues hP hr (fun hx => .inr (.inl hx)) (fun hs => .inr (.inr hs)) steps
    hnode (V := fun v => v = .cut ∧ Stops e x s ∨ V v)
    (fun hV => hV.elim (·.2) fun hV => absurd hV hcut)
    (fun f hV => hV.elim (fun hV => nomatch hV.1) (hfailed f)) hw hvisit
  have hcame := hstep.live fun i => ⟨i, rfl⟩
  unfold ComesTo
  generalize w.live e (sc.advance s (.run node) steps).run = out at hcame ⊢
  obtain ⟨e', w', o⟩ := out
  cases o with
  | error f => exact hcame.elim
  | ok p =>
    obtain ⟨v, hV, hens⟩ := hcame
    exact ⟨p, rfl, hpost v p w' (hV.imp_left (·.1)) hens⟩

variable {id : String} {v : Nat} (h : Flow.compile id v g = .ok sc.flow)
include h

/-- A step whose call fails goes the way for errors. -/
theorem failed_passes
    (hfails : ∀ i, call.Fails s.vars sc.settings.engine.httpTimeout (e i).circumstance.peer)
    (hway : g.Way node FixedHandle.error.name way) :
    sc.ComesTo e w s (.run node) steps
      (sc.Passes (fun m => ∃ i, m = e i) (Stops e x s) r s node s.vars (Route.Goes way)) := by
  have hn : g.Executes node := (Flow.executes_iff h _).mp (by rw [hnode]; rfl)
  refine call_comesTo hnode hcall steps hw hr (V := sc.GivesUp node s.vars)
    (fun hv => ?_) (fun f hv => ?_) (fun w => visitCall_failed .inl hfails) ?_
  · rcases hv.eq_or with hv | ⟨fault, hv⟩ <;> cases hv
  · rcases hv.eq_or with hv | ⟨fault, hv⟩
    · cases hv
    · cases hv
      rfl
  · rintro v p w (rfl | hv) hens
    · exact hens.passes_cut
    rcases hv.eq_or with rfl | ⟨fault, rfl⟩
    · exact hens.passes_via ((hv.honours h hn rfl).goes hway)
    · exact hens.passes_failed ((hv.honours h hn rfl).goes hway)

/-- A step whose call is answered keeps what the call keeps, and goes the way for a success. -/
theorem answered_passes {body : Json}
    (hanswers : ∀ i,
      call.Answers s.vars sc.settings.engine.httpTimeout (e i).circumstance.peer body)
    (hway : g.Way node FixedHandle.success.name way) :
    sc.ComesTo e w s (.run node) steps
      (sc.Passes (fun m => ∃ i, m = e i) (Stops e x s) r s node
        (Fields.merge s.vars (call.kept body)) fun route =>
          if g.branch node FixedHandle.success.name = [] then route = .finish
          else route.Goes way) := by
  have hn : g.Executes node := (Flow.executes_iff h _).mp (by rw [hnode]; rfl)
  refine call_comesTo hnode hcall steps hw hr
    (V := (· = .via (Fields.merge s.vars (call.kept body)) (.next (.fixed .success))))
    nofun nofun (fun w => visitCall_answered .inl hanswers) ?_
  rintro v p w (rfl | rfl) hens
  · exact hens.passes_cut
  · exact hens.passes_via (route_next h hn (.fixed .success) hway)

end

/-- **Calls of other systems.** The graph decides beforehand on the way that a node takes whose call
fails, and on the one that it takes if the call is answered. Wherever a call fails, for whatever
reason, the step leaves the variables as they were and goes that way, or halts at the node so that
it can be tried again where there is none; the session that it keeps depends on the failure in the
diagnosis only. If the call is answered, then what its mappings find is put into the variables, in
their order, and then the whole answer. The step goes its way then, or the turn is over where no
edge leaves by that handle. A step is cut only if the turn is told to stop or the session is
closed. -/
theorem call_passes {id : String} {v : Nat} {n : Flow.Node} {call : Http.Call}
    (h : Flow.compile id v g = .ok sc.flow) (hnode : sc.flow.node? node = some n)
    (hcall : n.action = .request call) :
    (∃ way, g.Way node FixedHandle.error.name way ∧
      ∀ (e : Nat → Moment) (w : World) (s : Session) (r : SessionRow) (x : Status) (steps : Nat),
        w.HasRow s.id r → r.status? = .ok x →
        (∀ i, call.Fails s.vars sc.settings.engine.httpTimeout (e i).circumstance.peer) →
        sc.ComesTo e w s (.run node) steps
          (sc.Passes (fun m => ∃ i, m = e i) (Stops e x s) r s node s.vars (Route.Goes way))) ∧
    ∃ way, g.Way node FixedHandle.success.name way ∧
      ∀ (e : Nat → Moment) (w : World) (s : Session) (r : SessionRow) (x : Status) (steps : Nat)
        (body : Json), w.HasRow s.id r → r.status? = .ok x →
        (∀ i, call.Answers s.vars sc.settings.engine.httpTimeout (e i).circumstance.peer body) →
        sc.ComesTo e w s (.run node) steps
          (sc.Passes (fun m => ∃ i, m = e i) (Stops e x s) r s node
            (Fields.merge s.vars (call.kept body)) fun route =>
              if g.branch node FixedHandle.success.name = [] then route = .finish
              else route.Goes way) := by
  constructor
  · obtain ⟨way, hway⟩ := g.exists_way node FixedHandle.error.name
    refine ⟨way, hway, fun e w s r x steps hw hr hfails => ?_⟩
    exact failed_passes hnode hcall steps hw hr h hfails hway
  · obtain ⟨way, hway⟩ := g.exists_way node FixedHandle.success.name
    refine ⟨way, hway, fun e w s r x steps body hw hr hanswers => ?_⟩
    exact answered_passes hnode hcall steps hw hr h hanswers hway

/-! ### A call that is answered or not -/

/-- A node that calls and keeps what it finds at a path, with a way for a success and one for
errors. -/
def calling (path : String) : Graph :=
  ⟨[⟨"start", "start", .null, none⟩,
      ⟨"r", "httpRequest", .obj [("mappings", .arr [.obj [("path", .str path),
        ("variable", .str "x")]]), ("url", .str "http://x/")], none⟩,
      ⟨"m", "message", .obj [("text", .str "found")], none⟩,
      ⟨"k", "message", .obj [("text", .str "not now")], none⟩],
    [⟨"e1", "start", "r", none⟩, ⟨"e2", "r", "m", some "success"⟩,
      ⟨"e3", "r", "k", some "error"⟩]⟩

/-- Its call. -/
def onlyCall (path : String) : Http.Call :=
  ⟨"http://x/", .none, .get, [], [], none, none, [⟨path, "x"⟩], none⟩

/-- Its node. -/
def callingNode (path : String) : Flow.Node :=
  ⟨"r", .httpRequest, .obj [("mappings", .arr [.obj [("path", .str path),
    ("variable", .str "x")]]), ("url", .str "http://x/")], .request (onlyCall path)⟩

/-- The graph, compiled. -/
def callingFlow (path : String) : Flow :=
  ⟨"f1", 1, [⟨"start", .start, .null, .start none⟩, callingNode path,
    ⟨"m", .message, .obj [("text", .str "found")], .message "found"⟩,
    ⟨"k", .message, .obj [("text", .str "not now")], .message "not now"⟩],
    [⟨"e1", "start", "r", .plain⟩, ⟨"e2", "r", "m", .fixed .success⟩,
      ⟨"e3", "r", "k", .fixed .error⟩], [], [], "start"⟩

/-- A turn of the flow. -/
def callingScene (path : String) : Scene := ⟨"s1", callingFlow path, .default⟩

/-- The step that calls. -/
def callStep (path : String) : Program (Outcome Progress) :=
  ((callingScene path).advance clicking (.run "r") 1).run

/-- All calls are answered like this. -/
def answering (text : String) : Nat → Moment := fun _ => ⟨⟨false, .reply 200 text⟩, .ofMillis 0⟩

section
variable {path text : String} {body : Json}

theorem compile_calling : Flow.compile "f1" 1 (calling path) = .ok (callingScene path).flow := rfl

theorem node?_calling : (callingScene path).flow.node? "r" = some (callingNode path) := rfl

theorem way_calling {key : String} {e : Graph.Edge} {t : String} {way : Option String}
    (hway : (calling path).Way "r" key way) (he : (calling path).branch "r" key = [e])
    (ht : (calling path).Leads e t) : way = some t :=
  (hway t).mpr ⟨e, he, ht⟩

theorem leads_success : (calling path).Leads ⟨"e2", "r", "m", some "success"⟩ "m" :=
  .straight ⟨_, .message, rfl, rfl, nofun⟩

theorem leads_error : (calling path).Leads ⟨"e3", "r", "k", some "error"⟩ "k" :=
  .straight ⟨_, .message, rfl, rfl, nofun⟩

theorem answers_calling (hbody : Http.Call.bodyOf text = body) (i : Nat) :
    (onlyCall path).Answers clicking.vars (callingScene path).settings.engine.httpTimeout
      (answering text i).circumstance.peer body := by
  have hsome : ((onlyCall "").request clicking.vars
      Settings.default.engine.httpTimeout).toOption.isSome = true := by decide +kernel
  cases hrequest : (onlyCall "").request clicking.vars Settings.default.engine.httpTimeout with
  | error fault =>
    rw [hrequest] at hsome
    cases hsome
  | ok request =>
    have hmapped := Http.Call.request_mappings (onlyCall "") [⟨path, "x"⟩] clicking.vars
      Settings.default.engine.httpTimeout
    exact ⟨request, hmapped.trans hrequest, congrArg Except.ok hbody⟩

theorem not_stops_calmly : ¬ Stops calmly .bot clicking := by
  rintro (⟨i, ha⟩ | ha | ha) <;> cases ha

theorem not_stops_answering : ¬ Stops (answering text) .bot clicking := by
  rintro (⟨i, ha⟩ | ha | ha) <;> cases ha

end

/-- Without an answer the step goes the way for errors, and with one the way for a success. -/
theorem call_passes_calling :
    (∃ y, (clickingWorld.live calmly (callStep "$.id")).2.2 = .ok (.on y "k") ∧ y.vars = []) ∧
    ∃ y, (clickingWorld.live (answering "\x7b\"id\":7\x7d") (callStep "$.id")).2.2 =
      .ok (.on y "m") ∧ y.vars = [("x", .int 7)] := by
  obtain ⟨r, hw, hr⟩ := shows_clicking.exists_hasRow
  obtain ⟨⟨way, hway, hfailed⟩, way', hway', hanswered⟩ :=
    call_passes compile_calling (node?_calling : _ = some (callingNode "$.id")) rfl
  constructor
  · obtain rfl := way_calling hway rfl leads_error
    have hfails (i : Nat) : (onlyCall "$.id").Fails clicking.vars
        (callingScene "$.id").settings.engine.httpTimeout (calmly i).circumstance.peer :=
      fun _ _ => ⟨_, rfl⟩
    obtain ⟨p, hp, hpasses⟩ := hfailed calmly clickingWorld clicking r .bot 1 hw hr hfails
    obtain ⟨y, rfl, hy, -⟩ := hpasses.exists_on not_stops_calmly fun _ => id
    exact ⟨y, hp, hy⟩
  · obtain rfl := way_calling hway' rfl leads_success
    have hbody : Http.Call.bodyOf "\x7b\"id\":7\x7d" = .obj [("id", .int 7)] := by decide +kernel
    obtain ⟨p, hp, hpasses⟩ :=
      hanswered _ clickingWorld clicking r .bot 1 _ hw hr (answers_calling hbody)
    obtain ⟨y, rfl, hy, -⟩ := hpasses.exists_on not_stops_answering fun _ => id
    exact ⟨y, hp, hy⟩

end Scene

end Turn

end Dialogue
