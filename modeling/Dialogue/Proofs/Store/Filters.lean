import Dialogue.Store.Collection
import Dialogue.Store.Sql

/-! # Filters of a table

Each collection can be kept in a table of a database. The condition that is made of the filters of
a query then has the truth that SQL gives it, where a comparison with a null is neither true nor
false, and a comparison of a column with a value of another type makes the database refuse the
statement. A filter that suits its column is never refused, and the condition is true of the rows
that the query keeps and of no others.

* `Column`, `Table`: the columns of a table, and what they have for a row.
* `Test.eval`, `evalAll`: the condition as SQL understands it.
* `eval_ofFilter`, `evalAll_ofFilters`: one filter, and all of them.
* `mem_select_iff`: what a query keeps of a collection. -/

namespace Dialogue.Sql

/-! ### Truth -/

/-- What SQL says of a condition. -/
inductive Truth where
  | no
  | unknown
  | yes
deriving DecidableEq

namespace Truth

def ofBool : Bool → Truth
  | true => yes
  | false => no

/-- The truth of both. -/
def and : Truth → Truth → Truth
  | no, _ | _, no => no
  | yes, t => t
  | unknown, _ => unknown

/-- The equality of what may be null with a value. -/
def equality {β : Type} [DecidableEq β] : Option β → β → Truth
  | none, _ => unknown
  | some a, b => ofBool (a = b)

theorem and_eq_yes_iff {s t : Truth} : s.and t = yes ↔ s = yes ∧ t = yes := by
  cases s <;> cases t <;> decide

theorem ofBool_eq_yes_iff {b : Bool} : ofBool b = yes ↔ b = true := by cases b <;> decide

theorem equality_eq_yes_iff {β : Type} [DecidableEq β] {o : Option β} {b : β} :
    equality o b = yes ↔ o = some b := by
  cases o with
  | none => exact iff_of_false nofun nofun
  | some a => simp [equality, ofBool_eq_yes_iff]

end Truth

/-! ### Tables -/

/-- A column of a table, with what it has for a row; none is null. -/
inductive Column (α : Type) where
  | text (get : α → Option String)
  | integer (get : α → Option Int)

namespace Column

variable {α : Type}

/-- The column has null for the row. -/
def isNull (r : α) : Column α → Bool
  | text get => (get r).isNone
  | integer get => (get r).isNone

/-- The truth of an equality with a value, unless there is none between the types. -/
def equals (r : α) : Column α → Value → Option Truth
  | text get, .text t => some (.equality (get r) t)
  | integer get, .int n => some (.equality (get r) n)
  | integer get, .float x => some ((get r).elim .unknown fun n => .ofBool (Float.ofInt n == x))
  | _, _ => none

/-- What the column has for the row, as a value. -/
def toJson (r : α) : Column α → Json
  | text get => .ofText? (get r)
  | integer get => (get r).elim .null .int

variable {r : α} {k : Column α}

theorem same_null_toJson : Json.null.same (k.toJson r) = k.isNull r := by
  cases k with
  | text get =>
    show Json.null.same (.ofText? (get r)) = (get r).isNone
    cases get r <;> rfl
  | integer get =>
    show Json.null.same ((get r).elim .null .int) = (get r).isNone
    cases get r <;> rfl

theorem same_str_toJson {get : α → Option String} {s : String} :
    (Json.str s).same ((text get).toJson r) = true ↔ get r = some s := by
  show (Json.str s).same (.ofText? (get r)) = true ↔ _
  cases get r with
  | none => exact iff_of_false Bool.false_ne_true nofun
  | some t => exact beq_iff_eq.trans (eq_comm.trans Option.some_inj.symm)

theorem same_int_toJson {get : α → Option Int} {n : Int} :
    (Json.int n).same ((integer get).toJson r) = true ↔ get r = some n := by
  show (Json.int n).same ((get r).elim .null .int) = true ↔ _
  cases get r with
  | none => exact iff_of_false Bool.false_ne_true nofun
  | some m => exact beq_iff_eq.trans (eq_comm.trans Option.some_inj.symm)

end Column

/-- The table for the rows of a type. The columns that queries see are among its own. -/
class Table (α : Type) [Row α] where
  columns : List (String × Column α)
  exposes (r : α) : ∀ p ∈ Row.columns r, ∃ k, columns.lookup p.1 = some k ∧ k.toJson r = p.2

instance : Table FlowRow where
  columns := [("id", .text fun r => r.id), ("name", .text fun r => r.name),
    ("draft", .text fun r => r.draft), ("published", .text FlowRow.published),
    ("version", .integer fun r => r.version), ("create_time", .integer fun r => r.createTime),
    ("update_time", .integer fun r => r.updateTime)]
  exposes r := by
    simp only [Row.columns, List.forall_mem_cons]
    exact ⟨⟨_, rfl, rfl⟩, ⟨_, rfl, rfl⟩, ⟨_, rfl, rfl⟩, ⟨_, rfl, rfl⟩, ⟨_, rfl, rfl⟩, nofun⟩

instance : Table VersionRow where
  columns := [("id", .text fun r => r.id), ("flow_id", .text fun r => r.flowId),
    ("version", .integer fun r => r.version), ("graph", .text fun r => r.graph),
    ("publish_time", .integer fun r => r.publishTime)]
  exposes r := by
    simp only [Row.columns, List.forall_mem_cons]
    exact ⟨⟨_, rfl, rfl⟩, ⟨_, rfl, rfl⟩, ⟨_, rfl, rfl⟩, ⟨_, rfl, rfl⟩, nofun⟩

instance : Table SessionRow where
  columns := [("id", .text fun r => r.id), ("flow_id", .text fun r => r.flowId),
    ("flow_version", .integer fun r => r.flowVersion), ("status", .text fun r => r.status),
    ("variables", .text fun r => r.vars), ("messages", .text fun r => r.messages),
    ("current_node_id", .text SessionRow.currentNode),
    ("pending_node_id", .text SessionRow.pendingNode), ("queue", .text SessionRow.queue),
    ("agent_id", .text SessionRow.agentId), ("halt", .text SessionRow.halt),
    ("create_time", .integer fun r => r.createTime),
    ("update_time", .integer fun r => r.updateTime)]
  exposes r := by
    simp only [Row.columns, List.forall_mem_cons]
    exact ⟨⟨_, rfl, rfl⟩, ⟨_, rfl, rfl⟩, ⟨_, rfl, rfl⟩, ⟨_, rfl, rfl⟩, ⟨_, rfl, rfl⟩,
      ⟨_, rfl, rfl⟩, ⟨_, rfl, rfl⟩, ⟨_, rfl, rfl⟩, ⟨_, rfl, rfl⟩, nofun⟩

instance : Table ScheduleRow where
  columns := [("id", .text fun r => r.id), ("name", .text fun r => r.name),
    ("data", .text fun r => r.data), ("update_time", .integer fun r => r.updateTime)]
  exposes r := by
    simp only [Row.columns, List.forall_mem_cons]
    exact ⟨⟨_, rfl, rfl⟩, ⟨_, rfl, rfl⟩, ⟨_, rfl, rfl⟩, nofun⟩

instance : Table EventRow where
  columns := [("id", .text fun r => r.id), ("sid", .text fun r => r.sid),
    ("nid", .text fun r => r.nid), ("name", .text fun r => r.name),
    ("message", .text fun r => r.message), ("timestamp", .integer fun r => r.timestamp)]
  exposes r := by
    simp only [Row.columns, List.forall_mem_cons]
    exact ⟨⟨_, rfl, rfl⟩, ⟨_, rfl, rfl⟩, ⟨_, rfl, rfl⟩, ⟨_, rfl, rfl⟩, ⟨_, rfl, rfl⟩,
      ⟨_, rfl, rfl⟩, nofun⟩

instance : Table LogRow where
  columns := [("id", .text fun r => r.id), ("sid", .text fun r => r.sid),
    ("nid", .text fun r => r.nid), ("content", .text fun r => r.content),
    ("timestamp", .integer fun r => r.timestamp)]
  exposes r := by
    simp only [Row.columns, List.forall_mem_cons]
    exact ⟨⟨_, rfl, rfl⟩, ⟨_, rfl, rfl⟩, ⟨_, rfl, rfl⟩, ⟨_, rfl, rfl⟩, ⟨_, rfl, rfl⟩, nofun⟩

/-! ### Conditions -/

section
variable {α : Type} [Row α] [Table α]

/-- The truth of a test for a row, unless the statement is refused. -/
def Test.eval (r : α) : Test → Option Truth
  | .isNull column => (Table.columns.lookup column).map fun k => .ofBool (k.isNull r)
  | .equals column v => (Table.columns.lookup column).bind fun k => k.equals r v

/-- The truth of a condition for a row, unless the statement is refused. -/
def evalAll (r : α) : List Test → Option Truth
  | [] => some .yes
  | t :: rest => do
    let truth ← t.eval r
    return truth.and (← evalAll r rest)

/-- The value can be asked of the column: null of any, a text of one of texts, and a whole number of
64 bits with sign of one of numbers. -/
inductive Asked : Column α → Json → Prop
  | null {k : Column α} : Asked k .null
  | text {get : α → Option String} {s : String} : Asked (.text get) (.str s)
  | integer {get : α → Option Int} {n : Int} (h : -0x8000000000000000 ≤ n)
      (h' : n < 0x8000000000000000) : Asked (.integer get) (.int n)

/-- The filter is about a column that queries see, and can be asked of it. -/
def Suits (r : α) (f : String × Json) : Prop :=
  (Row.columns r).has f.1 = true ∧ ∃ k : Column α, Table.columns.lookup f.1 = some k ∧ Asked k f.2

variable {r : α} {f : String × Json} {k : Column α} {v : Json} {filters : List (String × Json)}

/-- What queries see of a row is what its table has. -/
theorem get?_eq_toJson (h : (Row.columns r).has f.1 = true)
    (hk : Table.columns.lookup f.1 = some k) : (Row.columns r).get? f.1 = some (k.toJson r) := by
  obtain ⟨v, hv⟩ := Option.isSome_iff_exists.mp h
  have hmem : (f.1, v) ∈ Row.columns r := by
    obtain ⟨p, hp, rfl⟩ := Option.map_eq_some_iff.mp hv
    have hname : p.1 = f.1 := by simpa using List.find?_some hp
    exact hname ▸ List.mem_of_find?_eq_some hp
  obtain ⟨k', hk', hv'⟩ := Table.exposes r _ hmem
  cases hk.symm.trans hk'
  rw [hv, hv']

/-- The test for a filter. -/
theorem eval_ofFilter (hk : Table.columns.lookup f.1 = some k) (ha : Asked k f.2) :
    ∃ t, (Test.ofFilter f).eval r = some t ∧ (f.2.same (k.toJson r) = true ↔ t = .yes) := by
  obtain ⟨name, v⟩ := f
  have heval (v : Json) (hv : v ≠ .null) :
      (Test.ofFilter (name, v)).eval r = k.equals r (.ofJson v) := by
    rw [Test.ofFilter, if_neg hv, Test.eval, hk, Option.bind_some]
  cases ha with
  | null =>
    refine ⟨.ofBool (k.isNull r), congrArg (Option.map _) hk, ?_⟩
    rw [Truth.ofBool_eq_yes_iff, Column.same_null_toJson]
  | @text get s =>
    refine ⟨.equality (get r) s, heval (.str s) nofun, ?_⟩
    rw [Truth.equality_eq_yes_iff, Column.same_str_toJson]
  | @integer get n _ hn =>
    have hv : Value.ofJson (.int n) = .int n := if_pos hn
    refine ⟨.equality (get r) n, (heval (.int n) nofun).trans (by rw [hv]; rfl), ?_⟩
    rw [Truth.equality_eq_yes_iff, Column.same_int_toJson]

/-- **A condition** of filters that suit their columns is never refused, and it is true of a row if
and only if the row passes the filters. -/
theorem evalAll_ofFilters (h : ∀ f ∈ filters, Suits r f) :
    ∃ t, evalAll r (ofFilters filters) = some t ∧
      (Query.keeps filters (Row.columns r) = true ↔ t = .yes) := by
  induction filters with
  | nil => exact ⟨.yes, rfl, iff_of_true rfl rfl⟩
  | cons f rest ih =>
    rw [List.forall_mem_cons] at h
    obtain ⟨⟨hhas, k, hk, ha⟩, hrest⟩ := h
    obtain ⟨t, ht, hiff⟩ := ih hrest
    obtain ⟨u, hu, hsame⟩ := eval_ofFilter (r := r) hk ha
    refine ⟨u.and t, ?_, ?_⟩
    · show ((Test.ofFilter f).eval r).bind (fun u => (evalAll r (ofFilters rest)).bind _) = _
      rw [hu, ht]
      rfl
    · rw [Truth.and_eq_yes_iff, ← hsame, ← hiff]
      show (f.2.isSame ((Row.columns r).get? f.1) && Query.keeps rest (Row.columns r)) = true ↔ _
      rw [get?_eq_toJson hhas hk, Bool.and_eq_true]
      rfl

/-- **Collections and tables filter alike.** The condition for filters that suit their columns is
not refused for any row of a collection, and a query keeps the rows of which it is true. -/
theorem mem_select_iff (c : Collection α) (q : Query) (hr : r ∈ c.rows)
    (h : ∀ f ∈ q.filters, Suits r f) :
    (evalAll r (ofFilters q.filters)).isSome = true ∧
      (r ∈ q.select c.rows ↔ evalAll r (ofFilters q.filters) = some .yes) := by
  obtain ⟨t, ht, hiff⟩ := evalAll_ofFilters h
  rw [ht]
  refine ⟨rfl, ?_⟩
  rw [Option.some_inj, ← hiff, Query.select, List.mem_mergeSort, List.mem_filter]
  exact and_iff_right hr

end

/-- A session that no queue has. -/
theorem mem_select_iff_unassigned :
    let r : SessionRow :=
      ⟨"s", "f", 1, "queued", "\x7b\x7d", "[]", none, none, none, none, none, 0, 0⟩
    let q : Query := ⟨[("queue", .null), ("status", .str "queued"), ("flow_version", .int 1)], [],
      10, 0⟩
    (∀ f ∈ q.filters, Suits r f) ∧ evalAll r (ofFilters q.filters) = some .yes ∧
      r ∈ q.select [r] := by
  intro r q
  have hsuits : ∀ f ∈ q.filters, Suits r f := by
    simp only [q, List.forall_mem_cons]
    exact ⟨⟨rfl, _, rfl, .null⟩, ⟨rfl, _, rfl, .text⟩,
      ⟨rfl, _, rfl, .integer (by decide) (by decide)⟩, nofun⟩
  have htrue : evalAll r (ofFilters q.filters) = some .yes := by decide
  exact ⟨hsuits, htrue,
    (mem_select_iff ⟨"sessions", [r]⟩ q List.mem_cons_self hsuits).2.mpr htrue⟩

end Dialogue.Sql
