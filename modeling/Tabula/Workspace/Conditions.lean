import Tabula.Workspace.Rows

/-!
# Conditions of an insertion

Each chunk of an insertion is made and appended on its own : the clock is read again, the endings
of ids are drawn, and the store may fail, since the disk is full or the database is locked.
`Conditions` say how all this is for each chunk. The definitions here are those of an insertion with
every chunk under conditions of its own; where these are steady they are the insertion itself.
-/

namespace Tabula

/-- Does something in other surroundings. -/
def Action.within {α : Type} (s : Surroundings) (x : Action α) : Action α := fun _ w => x s w

/-- The surroundings of each chunk, by its number, and what the store says if it fails to append
it. -/
structure Conditions where
  surroundings : Int → Surroundings
  detail : Int → Option String

namespace Conditions

/-- Nothing changes between the chunks, and the store does not fail. -/
def steady (s : Surroundings) : Conditions := ⟨fun _ => s, fun _ => none⟩

/-- Appends a chunk of rows in a transaction, of which a failure leaves nothing. -/
def appendChunk (c : Conditions) (table : String) (position : Int) (chunk : Int)
    (rows : List Cells) : Action Nat :=
  Action.within (c.surroundings chunk) do
    let entries ← Workspace.looseBatch chunk position (rows.map Value.object)
    match c.detail chunk with
    | some detail => throw (.rowStore .append detail)
    | none => RowStore.append table entries

/-- Appends chunks of rows one after the other. -/
def insertChunks (c : Conditions) (table : String) (position : Int) (chunk : Int) :
    List (List Cells) → Action Nat
  | [] => return 0
  | rows :: chunks => do
    let n ← c.appendChunk table position chunk rows
    let rest ← c.insertChunks table (position + rows.length) (chunk + 1) chunks
    return n + rest

/-- Appends rows after the last one and counts them. -/
def insertRows (c : Conditions) (settings : Workspace.Settings) (actor table : String)
    (rows : Value) : Action Nat := do
  let _ ← Catalog.ensureOwner actor table
  let rows ← match rows with
    | .list vs => pure vs
    | .tuple vs => pure vs
    | _ => throw (.invalid .rowsNotList)
  let types ← Catalog.columnTypes table
  let prepared ← Workspace.prepareRows types 0 rows
  let position ← RowStore.nextPosition table
  match chunks? settings.insertBatch prepared with
  | some chunks => c.insertChunks table position 0 chunks
  | none => throw (.fault (.badValue "range() arg 3 must not be zero"))

end Conditions

end Tabula
