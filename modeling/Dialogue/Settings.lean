import Dialogue.Failure
import Dialogue.Toml

/-! # Settings

What can be configured: where data is stored, the limits of a turn, and the texts that the engine
says on its own. Whatever is left out has a default. -/

namespace Dialogue

/-- Where data is stored. -/
inductive Settings.StoreType where
  | memory | postgres
deriving DecidableEq, Repr

/-- The settings of the store. -/
structure Settings.Store where
  type : Settings.StoreType
  /-- The address of the database. -/
  databaseUrl : Option String
deriving DecidableEq, Repr

/-- The version of a flow on which a session that waits for a reply goes on. -/
inductive Settings.Binding where
  /-- The one published last. -/
  | latest
  /-- The one that the session waits on. -/
  | pinned
deriving DecidableEq, Repr

/-- The limits of a turn. -/
structure Settings.Engine where
  /-- The number of nodes that a turn may run. -/
  maxSteps : Nat
  /-- How long to wait for another system, in milliseconds. -/
  httpTimeout : Nat
  /-- How long a script may run, in milliseconds. -/
  scriptTimeout : Nat
  /-- The memory that a script may take, in bytes. -/
  scriptMemory : Nat
  /-- The longest delay, in seconds. -/
  maxDelay : Nat
  /-- The minutes that the local clock is ahead of UTC, for schedules that do not say. -/
  offset : Int
  binding : Settings.Binding
deriving DecidableEq, Repr

/-- The texts that the engine says on its own. -/
structure Settings.Messages where
  /-- Where a conversation ends without a text of its own. -/
  closing : String
  /-- Where a conversation is handed over without a text of its own. -/
  handoff : String
  /-- In front of what tells why a turn stopped short. -/
  diagnosticPrefix : String
deriving DecidableEq, Repr

/-- All settings. -/
structure Settings where
  store : Settings.Store
  /-- The number of threads to work with. -/
  threads : Nat
  engine : Settings.Engine
  messages : Settings.Messages
deriving DecidableEq, Repr

namespace Settings

/-- Data in memory. -/
def Store.default : Store := ⟨.memory, none⟩

/-- The usual limits. -/
def Engine.default : Engine := ⟨100, 10000, 1000, 16 * 1024 * 1024, 300, 0, .latest⟩

/-- The usual texts. -/
def Messages.default : Messages :=
  ⟨"Atendimento encerrado. Obrigado pelo contato!",
    "Transferindo para um atendente, aguarde um momento.", "[erro]"⟩

/-- The settings to use where nothing is said. -/
def default : Settings := ⟨.default, 16, .default, .default⟩

section
open Decode Decode.Shape

/-- Reads the settings of the store off a value. -/
def Store.decode : Decoder Store :=
  record "StoreConfig" <|
    Store.mk <$> defaulted "store_type" .memory
        (enum [("mem", StoreType.memory), ("postgres", .postgres)])
      <*> optional "postgres" (record "PostgresConfig" (required "database_url" string))

/-- Reads the limits of a turn off a value. -/
def Engine.decode : Decoder Engine :=
  let d := Engine.default
  record "EngineSettings" <|
    Engine.mk <$> defaulted "max_steps_per_turn" d.maxSteps size
      <*> defaulted "http_timeout_ms" d.httpTimeout nat64
      <*> defaulted "script_timeout_ms" d.scriptTimeout nat64
      <*> defaulted "script_memory_limit" d.scriptMemory size
      <*> defaulted "max_delay_secs" d.maxDelay nat64
      <*> defaulted "utc_offset_minutes" d.offset int32
      <*> defaulted "resume_binding" d.binding
        (enum [("latest", Binding.latest), ("pinned", .pinned)])

/-- Reads the texts off a value. -/
def Messages.decode : Decoder Messages :=
  let d := Messages.default
  record "MessageSettings" <|
    Messages.mk <$> defaulted "closing" d.closing string
      <*> defaulted "handoff" d.handoff string
      <*> defaulted "diagnostic_prefix" d.diagnosticPrefix string

/-- Reads settings off a value. -/
def decode : Decoder Settings :=
  record "Config" <|
    Settings.mk <$> defaulted "store" .default Store.decode
      <*> defaulted "async_worker_thread_number" default.threads nat16
      <*> defaulted "engine" .default Engine.decode
      <*> defaulted "messages" .default Messages.decode

end

/-- Why settings are refused that can be read. -/
inductive Defect where
  /-- A turn could not run a single node. -/
  | noSteps
  /-- The address of the database is missing. -/
  | noDatabase
deriving DecidableEq, Repr

/-- The text that tells the defect. -/
def Defect.message : Defect → String
  | .noSteps => "engine.max_steps_per_turn must be at least 1"
  | .noDatabase => "[store.postgres] is required when store_type is postgres"

/-- Refuses settings that nobody can work with. -/
def check (s : Settings) : Except Defect Unit :=
  if s.engine.maxSteps = 0 then .error .noSteps
  else if s.store.type = .postgres ∧ s.store.databaseUrl.isNone then .error .noDatabase
  else .ok ()

/-- The settings that a document holds. -/
def ofDocument (d : Document) : Outcome Settings := do
  let settings ← (decode d).mapError fun _ => .illegible .config
  (check settings).mapError fun d => .plain .config d.message
  return settings

/-- The settings that a file holds. -/
def ofText (s : String) : Outcome Settings :=
  match Toml.read? s with
  | some d => ofDocument d
  | none => .error (.illegible .config)

end Settings

end Dialogue
