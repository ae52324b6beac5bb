import Tabula.Config.Settings
import Tabula.Config.Substitution
import Tabula.Config.Yaml.Document

/-!
# Loading a configuration

A configuration is a text in which references to the environment are replaced before it is
read. No text, or one that says nothing, is an empty configuration. `standardText` is the
configuration that the service comes with.
-/

namespace Tabula.Config

/-- Reads a configuration in an environment. -/
def load (env : String → Option String) (text? : Option String) : Except Failure Value :=
  match text? with
  | none => .ok (.dict [])
  | some text => do
    let v ← Yaml.read (substitute env text)
    return if v.truthy then v else .dict []

/-- The sections of a configuration in an environment. -/
def loadSettings (env : String → Option String) (text? : Option String) : Except Failure Settings := do
  Settings.ofConfig (← load env text?)

/-- The lines of the configuration that the service comes with. -/
def standardLines : List String := [
  "database:",
  "  url: $\x7bDATABASE_URL:-\x7d",
  "  host: $\x7bDB_HOST:-localhost\x7d",
  "  port: $\x7bDB_PORT:-5432\x7d",
  "  name: $\x7bDB_NAME:-gridbase\x7d",
  "  user: $\x7bDB_USER:-gridbase\x7d",
  "  password: $\x7bDB_PASSWORD:-\x7d",
  "  pool_size: $\x7bDB_POOL_SIZE:-5\x7d",
  "  max_overflow: $\x7bDB_MAX_OVERFLOW:-10\x7d",
  "  pool_timeout: 30",
  "ingestion:",
  "  batch_size: $\x7bINGEST_BATCH_SIZE:-25000\x7d",
  "  concurrency: $\x7bINGEST_CONCURRENCY:-2\x7d",
  "  stagger_seconds: 0.2",
  "  checkpoint_dir: $\x7bINGEST_CHECKPOINT_DIR:-./.ingest-checkpoints\x7d",
  "  number_max: 10000",
  "  worker_interval_seconds: 30",
  "query:",
  "  default_limit: 20",
  "  max_limit: 100",
  "logging:",
  "  level: $\x7bLOG_LEVEL:-INFO\x7d",
  "  format: '%(asctime)s - %(name)s - %(levelname)s - [%(threadName)s] %(message)s'",
  "  file: $\x7bLOG_FILE:-./logs/gridbase.log\x7d",
  "  max_bytes: 10485760",
  "  backup_count: 5",
  "  console: true",
  "  quiet: []",
  "scheduler:",
  "  enabled: $\x7bSCHEDULER_ENABLED:-true\x7d"]

/-- The configuration that the service comes with. -/
def standardText : String := String.join (standardLines.map (· ++ "\n"))

end Tabula.Config
