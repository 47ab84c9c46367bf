import Dialogue.Store.Collection

/-! # The store

The collections of all that is kept, and what the engine asks of them. A store whose collections
have not been registered refuses everything. -/

namespace Dialogue

/-- The collections. -/
structure Store where
  /-- The collections can be used. -/
  registered : Bool
  flows : Collection FlowRow
  versions : Collection VersionRow
  sessions : Collection SessionRow
  schedules : Collection ScheduleRow
  logs : Collection LogRow
  events : Collection EventRow

namespace Store

/-- A store without rows. -/
def empty : Store :=
  ⟨true, .empty "flows", .empty "versions", .empty "sessions", .empty "schedules", .empty "logs",
    .empty "events"⟩

/-- A store without collections. -/
def unregistered : Store := { empty with registered := false }

/-- A collection of the store, if it can be used. -/
def access {α : Type} (s : Store) (c : Collection α) : Outcome (Collection α) :=
  if s.registered then .ok c
  else .error (.plain .store ("fail to get collection: " ++ c.name))

/-! ### Flows -/

/-- The flow of that identity. -/
def loadFlow (s : Store) (id : String) : Outcome Definition := do
  let flows ← s.access s.flows
  if flows.exists? id then (← flows.find id).toDefinition
  else .error (.plain .flow ("flow '" ++ id ++ "' not found"))

/-- Keeps a flow, in place of the one of its identity if there is one. -/
def saveFlow (s : Store) (d : Definition) : Outcome Store := do
  let flows ← s.access s.flows
  return { s with flows := flows.put (.ofDefinition d) }

/-- The graph of a published version. -/
def loadVersion (s : Store) (flowId : String) (version : Nat) : Outcome Graph := do
  let versions ← s.access s.versions
  let key := VersionRow.key flowId version
  if versions.exists? key then (← versions.find key).toGraph
  else .error (.plain .flow ("version '" ++ key ++ "' not found"))

/-- Keeps a graph as a new version. -/
def saveVersion (s : Store) (flowId : String) (version : Nat) (g : Graph) (now : Millis) :
    Outcome Store := do
  let versions ← s.access s.versions
  return { s with versions := ← versions.create (.ofGraph flowId version g now) }

/-! ### Sessions -/

/-- The session of that identity. -/
def loadSession (s : Store) (id : String) : Outcome Session := do
  let sessions ← s.access s.sessions
  if sessions.exists? id then (← sessions.find id).toSession
  else .error (.plain .session ("session '" ++ id ++ "' not found"))

/-- The status of a session. -/
def sessionStatus (s : Store) (id : String) : Outcome Status := do
  (← (← s.access s.sessions).find id).status?

/-- Keeps a new session. -/
def createSession (s : Store) (x : Session) : Outcome Store := do
  let sessions ← s.access s.sessions
  return { s with sessions := ← sessions.create (.ofSession x) }

/-- Keeps a session in place of the one of its identity. -/
def saveSession (s : Store) (x : Session) : Outcome Store := do
  let sessions ← s.access s.sessions
  match sessions.update (.ofSession x) with
  | some sessions => return { s with sessions }
  | none => .error (.plain .store ("session '" ++ x.id ++ "' not found"))

/-! ### Schedules -/

/-- The schedule of that identity. -/
def loadSchedule (s : Store) (id : String) : Outcome Schedule := do
  let schedules ← s.access s.schedules
  if schedules.exists? id then (← schedules.find id).toSchedule
  else .error (.plain .store ("schedule '" ++ id ++ "' not found"))

/-- Keeps a schedule, in place of the one of its identity if there is one. -/
def saveSchedule (s : Store) (x : Schedule) (now : Millis) : Outcome Store := do
  if x.id.isEmpty then .error (.plain .store "missing id in schedule")
  let schedules ← s.access s.schedules
  return { s with schedules := schedules.put (.ofSchedule x now) }

/-! ### Events and logs -/

/-- What a session asks for of its events and logs: the oldest ones. -/
def historyQuery (sid : String) (limit : Nat) : Query :=
  Query.withLimit ⟨[("sid", .str sid)], [("timestamp", false)], Query.defaultLimit, 0⟩ limit

/-- The events of a session, oldest first. -/
def sessionEvents (s : Store) (sid : String) (limit : Nat) : Outcome (List EventRow) := do
  return ((← s.access s.events).query (historyQuery sid limit)).rows

/-- The logs of a session, oldest first. -/
def sessionLogs (s : Store) (sid : String) (limit : Nat) : Outcome (List LogRow) := do
  return ((← s.access s.logs).query (historyQuery sid limit)).rows

end Store

end Dialogue
