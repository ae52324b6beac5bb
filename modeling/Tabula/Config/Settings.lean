import Tabula.Value.Conversion

/-!
# Settings

A configuration is a mapping of sections. The ingestion and query sections are laid over
built-in defaults; the others are taken as they are, an absent one being empty.
-/

namespace Tabula.Config

/-- The items of a sequence of two, as a key and a value. -/
def pairOf (index : Nat) (v : Value) : Except Failure (Value × Value) :=
  let place := "dictionary update sequence element #" ++ toString index
  match v.items? with
  | none => .error (.fault (.wrongKind ("cannot convert " ++ place ++ " to a sequence")))
  | some [k, x] =>
    match k with
    | .list _ | .dict _ => .error (.fault (.wrongKind ("unhashable type: '" ++ k.kindName ++ "'")))
    | k => .ok (k, x)
  | some xs =>
    .error (.fault (.badValue (place ++ " has length " ++ toString xs.length ++ "; 2 is required")))

/-- Lays pairs over entries, one after the other. -/
def overlayPairs (index : Nat) (entries : List (Value × Value)) :
    List Value → Except Failure (List (Value × Value))
  | [] => .ok entries
  | v :: vs => do
    let (k, x) ← pairOf index v
    overlayPairs (index + 1) (Value.put k x entries) vs

/-- Lays a mapping, or a sequence of pairs, over entries. -/
def lay (entries : List (Value × Value)) : Value → Except Failure (List (Value × Value))
  | .dict es => .ok (es.foldl (fun acc e => Value.put e.1 e.2 acc) entries)
  | v => do overlayPairs 0 entries (← v.items)

/-- Lays a value over entries unless it counts as false. -/
def overlay (entries : List (Value × Value)) (v : Value) : Except Failure (List (Value × Value)) :=
  if v.truthy then lay entries v else .ok entries

/-- The ingestion settings that hold where none are configured. -/
def ingestionDefaults : List (Value × Value) := [
  (.text "batch_size", .int 25000), (.text "concurrency", .int 2),
  (.text "stagger_seconds", .float (.ofRatio 2 10)),
  (.text "checkpoint_dir", .text "./.ingest-checkpoints"), (.text "number_max", .int 10000),
  (.text "worker_interval_seconds", .int 30)]

/-- The paging settings that hold where none are configured. -/
def queryDefaults : List (Value × Value) := [
  (.text "default_limit", .int 20), (.text "max_limit", .int 100)]

/-- A section of a configuration. An absent section is empty. -/
def sectionOf (config : Value) (name : String) : Except Failure Value :=
  config.setting name (.dict [])

def ingestionSettings (config : Value) : Except Failure Value := do
  return .dict (← overlay ingestionDefaults (← sectionOf config "ingestion"))

def querySettings (config : Value) : Except Failure Value := do
  return .dict (← overlay queryDefaults (← sectionOf config "query"))

/-- The sections of a configuration, each as its readers get it. -/
structure Settings where
  database : Value
  ingestion : Value
  query : Value
  logging : Value
  scheduler : Value
  deriving Repr

/-- The sections of a configuration, which must be a mapping. -/
def Settings.ofConfig (config : Value) : Except Failure Settings := do
  return {
    database := ← sectionOf config "database"
    ingestion := ← ingestionSettings config
    query := ← querySettings config
    logging := ← sectionOf config "logging"
    scheduler := ← sectionOf config "scheduler" }

end Tabula.Config
