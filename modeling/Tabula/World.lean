import Tabula.Ingest.Checkpoint
import Tabula.Ingest.Ledger
import Tabula.Store.Database

/-!
# Actions on the world

A `World` is what operations change : the database, the folder of checkpoints and the
counters from which ids are made. `Surroundings` are what they only read : the time, the
clock and the tokens and draws that make ids unlike others.

An `Action` turns a world into an answer and a world. An action that fails keeps what it
did before; only a `transaction` is all or nothing, and it is the only way to change the
database.
-/

namespace Tabula

/-- The database as it is found. -/
inductive Storage where
  | ready (db : Database)
  /-- There are no tables. -/
  | bare
  /-- Nothing can be opened. -/
  | unreachable
  deriving Repr

structure World where
  storage : Storage
  folder : Folder
  /-- The tokens used for ids. -/
  tokens : Nat
  /-- The draws used for random characters. -/
  draws : Nat
  /-- The latest stamp of a batch. -/
  lastStamp : Int
  /-- The ids of the jobs that were announced, in order. -/
  announced : List String
  deriving Repr

/-- What an action reads of the world around. -/
structure Surroundings where
  now : Moment
  /-- The reading of the clock, in seconds. -/
  clock : Binary64
  token : Nat → String
  draw : Nat → Nat

/-- An operation on the world. -/
def Action (α : Type) := Surroundings → World → Except Failure α × World

namespace Action

variable {α β : Type}

def pure (a : α) : Action α := fun _ w => (.ok a, w)

def bind (x : Action α) (f : α → Action β) : Action β := fun s w =>
  match x s w with
  | (.ok a, w) => f a s w
  | (.error e, w) => (.error e, w)

instance : Monad Action where
  pure := Action.pure
  bind := Action.bind

theorem bind_pure (x : Action α) : Action.bind x Action.pure = x := by
  funext s w
  unfold Action.bind Action.pure
  split <;> simp_all

theorem bind_assoc {γ : Type} (x : Action α) (f : α → Action β) (g : β → Action γ) :
    Action.bind (Action.bind x f) g = Action.bind x fun a => Action.bind (f a) g := by
  funext s w
  unfold Action.bind
  rcases x s w with ⟨_ | _, _⟩ <;> rfl

instance : LawfulMonad Action :=
  LawfulMonad.mk' Action bind_pure (fun _ _ => rfl) bind_assoc

/-- Fails. -/
def fail (e : Failure) : Action α := fun _ w => (.error e, w)

/-- The answer or the failure of an action, which itself never fails. -/
def attempt (x : Action α) : Action (Except Failure α) := fun s w =>
  let (r, w) := x s w
  (.ok r, w)

instance : MonadExceptOf Failure Action where
  throw := Action.fail
  tryCatch x handle := fun s w =>
    match x s w with
    | (.error e, w) => handle e s w
    | r => r

/-- An answer that does not depend on the world. -/
def lift (r : Except Failure α) : Action α := fun _ w => (r, w)

instance : MonadLift (Except Failure) Action where
  monadLift := Action.lift

/-- The present moment. -/
def now : Action Moment := fun s w => (.ok s.now, w)

/-- The day of the present moment. -/
def today : Action Date := fun s w => (.ok (Date.ofDays (s.now.micros.fdiv Moment.microsPerDay)), w)

/-- An id that no other record has. -/
def newId (kind : String) : Action String := fun s w =>
  (.ok (kind ++ "_" ++ s.token (w.tokens + 1)), { w with tokens := w.tokens + 1 })

/-- The characters of random texts. -/
def alphabet : List Char := "abcdefghijklmnopqrstuvwxyz0123456789".toList

/-- A random text of small letters and digits. -/
def ending (length : Nat) : Action String := fun s w =>
  let cs := (List.range length).map fun k => alphabet.getD (s.draw (w.draws + k) % alphabet.length) 'a'
  (.ok (String.ofList cs), { w with draws := w.draws + length })

/-- Some random texts of six characters. -/
def endings : Nat → Action (List String)
  | 0 => return []
  | n + 1 => do
    let e ← ending 6
    let es ← endings n
    return e :: es

/-- The clock's reading in milliseconds. -/
def clockMillis (clock : Binary64) : Int := (clock.mul (.ofInt 1000)).truncate

/-- A stamp later than every one before. -/
def stamp : Action Int := fun s w =>
  let t := clockMillis s.clock
  let t := if t ≤ w.lastStamp then w.lastStamp + 1 else t
  (.ok t, { w with lastStamp := t })

/-- Announces a new job. -/
def announce (job : String) : Action Unit := fun _ w =>
  (.ok (), { w with announced := w.announced ++ [job] })

/-! ## The database -/

/-- Whether the database can be opened. -/
def isReachable : Action Bool := fun _ w =>
  (.ok (match w.storage with
    | .unreachable => false
    | _ => true), w)

/-- Makes the tables that are missing. -/
def createTables : Action Unit := fun _ w =>
  match w.storage with
  | .ready _ => (.ok (), w)
  | .bare => (.ok (), { w with storage := .ready .empty })
  | .unreachable => (.error (.fault (.storeUnusable "unable to open database file")), w)

/-- Removes all tables with what they hold. -/
def dropTables : Action Unit := fun _ w =>
  match w.storage with
  | .unreachable => (.error (.fault (.storeUnusable "unable to open database file")), w)
  | _ => (.ok (), { w with storage := .bare })

/-- A change of the database, all of it or nothing. -/
def transaction (f : Database → Except Failure (α × Database)) : Action α := fun _ w =>
  match w.storage with
  | .ready db =>
    match f db with
    | .ok (a, db) => (.ok a, { w with storage := .ready db })
    | .error e => (.error e, w)
  | .bare => (.error (.fault (.storeUnusable "no such table")), w)
  | .unreachable => (.error (.fault (.storeUnusable "unable to open database file")), w)

/-- A question to the database. -/
def query (f : Database → Except Failure α) : Action α :=
  transaction fun db => (f db).map (·, db)

/-- The failure of the row store for a fault of the database. -/
def asRowStore (action : RowAction) : Failure → Failure
  | .fault (.storeUnusable detail) => .rowStore action detail
  | .fault (.missingValue detail) => .rowStore action detail
  | .fault (.statement detail) => .rowStore action detail
  | e => e

/-- An action of the row store, whose failures say what it was asked. -/
def rowStore (action : RowAction) (x : Action α) : Action α := fun s w =>
  match x s w with
  | (.error e, w) => (.error (asRowStore action e), w)
  | r => r

/-! ## The folder of checkpoints -/

/-- A change of the folder. -/
def changeFolder (f : Folder → Except Failure Folder) : Action Unit := fun _ w =>
  match f w.folder with
  | .ok folder => (.ok (), { w with folder := folder })
  | .error e => (.error e, w)

/-- A question to the folder. -/
def askFolder (f : Folder → Except Failure α) : Action α := fun _ w => (f w.folder, w)

end Action

end Tabula
