import Tabula.Proofs.StoredCells
import Tabula.Proofs.WeakOrder
import Tabula.RowStore

/-!
# The order of rows in the store

Under keys with plain column ids every row has its ranks, so sorting is not refused, and what
comes out is a merge sort of the rows (`Rows.sort_eq`) by `storeLt` : by the keys in turn, then
by position and id.
-/

namespace Tabula

open Query Store

namespace Query.OrderKey

/-- What the store compares of some cells under a key. -/
def rank (k : OrderKey) (cells : Cells) : Rank :=
  match k.type with
  | .number => .number (StoreValue.ofValue (cells.get k.column)).asFloat
  | .text => .text (StoreValue.ofValue (cells.get k.column)).asText

/-- Whether the store puts a row before another under a key. -/
def storeLt (k : OrderKey) (a b : Row) : Bool :=
  (k.rank a.payload.cells).lt k.direction (k.rank b.payload.cells)

theorem rankOf_eq {k : OrderKey} (h : IsPlain k.column) (p : Payload) :
    rankOf p k = .ok (k.rank p.cells) := by
  rw [rankOf, rank]
  cases k.type with
  | number => rw [floatCell_eq p h]; rfl
  | text => rw [textCell_eq p h]; rfl

end Query.OrderKey

/-- The order of rows in the store : by the keys in turn, then by position and id. -/
def Store.storeLt (order : List OrderKey) : Row → Row → Bool :=
  (order.map OrderKey.storeLt).foldr thenBy Rows.placeLt

namespace Store.Rows

variable {order : List OrderKey} {rows : Rows}

theorem ranks_eq (h : ∀ k ∈ order, IsPlain k.column) (r : Row) :
    ranks order r = .ok (order.map fun k => k.rank r.payload.cells) :=
  mapM_eq_ok fun k hk => OrderKey.rankOf_eq (h k hk) r.payload

theorem withRanks_eq (h : ∀ k ∈ order, IsPlain k.column) :
    withRanks order rows =
      .ok (rows.map fun r => (order.map fun k => k.rank r.payload.cells, r)) := by
  induction rows with
  | nil => rfl
  | cons r rows ih =>
    rw [withRanks, ranks_eq h, ih]
    rfl

theorem ranksLt_eq (a b : Row) :
    ranksLt (placeLt a b) order (order.map fun k => k.rank a.payload.cells)
      (order.map fun k => k.rank b.payload.cells) = storeLt order a b := by
  induction order with
  | nil => rfl
  | cons k order ih =>
    rw [List.map_cons, List.map_cons, ranksLt, ih]
    show _ = thenBy k.storeLt (storeLt order) a b
    rw [thenBy, OrderKey.storeLt, OrderKey.storeLt]
    rcases Rank.lt _ _ _ <;> rcases Rank.lt _ _ _ <;> rfl

/-- The rows sorted by the store. -/
theorem sort_eq (h : ∀ k ∈ order, IsPlain k.column) :
    sort order rows = .ok (rows.mergeSort fun a b => !storeLt order b a) := by
  rw [sort, withRanks_eq h]
  refine congrArg Except.ok ?_
  rw [List.map_mergeSort (s := fun a b => !storeLt order b a), List.map_map]
  · exact congrArg (List.mergeSort · _) (List.map_id rows)
  · intro a ha b hb
    obtain ⟨a, _, rfl⟩ := List.mem_map.mp ha
    obtain ⟨b, _, rfl⟩ := List.mem_map.mp hb
    rw [ranksLt_eq]

/-- Selecting without a refusal is filtering. -/
theorem select_eq {keep : Row → Except Refusal Bool} {b : Row → Bool}
    (h : ∀ r ∈ rows, keep r = .ok (b r)) : select keep rows = .ok (rows.filter b) := by
  induction rows with
  | nil => rfl
  | cons r rows ih =>
    rw [select, h r List.mem_cons_self, ih fun r hr => h r (List.mem_cons_of_mem _ hr),
      List.filter_cons]

/-- What a scan finds if no row is refused. -/
theorem scan_eq {table : String} {selection : Selection} {keep : Row → Bool}
    (hplain : ∀ k ∈ order, IsPlain k.column)
    (hkeep : ∀ r ∈ rows.ofTable table, (clauseOfSelection selection).holds r.payload = .ok (keep r))
    (limit : Option Int) (offset : Int) :
    scan table ⟨selection, order⟩ limit offset rows =
      .ok (cut limit offset
        (((rows.ofTable table).filter keep).mergeSort fun a b => !storeLt order b a)) := by
  rw [scan, matching, select_eq hkeep]
  show (sort order _ >>= _) = _
  rw [sort_eq hplain]
  rfl

end Store.Rows

/-- A compiled sort key names the column of a key that was asked for, and its type. -/
theorem exists_of_compileSort {types : ColumnTypes} {keys : List SortKey} {order : List OrderKey}
    (h : compileSort types keys = .ok order) {k : OrderKey} (hk : k ∈ order) :
    ∃ key ∈ keys, k.column = key.column ∧ typeOf types k.column = .ok k.type := by
  obtain ⟨key, hkey, hcompile⟩ := exists_of_mapM h k hk
  obtain ⟨type, htype, hcompile⟩ := ok_of_bind hcompile
  obtain rfl := Except.ok.inj hcompile
  exact ⟨key, hkey, rfl, htype⟩

namespace RowStore

variable {s : Surroundings} {w : World} {db : Database} {table : String} {plan : Plan}
  {limit : Option Int} {offset : Int}

theorem run_scan (hdb : w.storage = .ready db) (hpage : pageFits limit offset = true)
    {found : List Row} (h : Rows.scan table plan limit offset db.rows = .ok found) :
    scan table plan limit offset s w = (.ok found, w) := by
  refine Action.run_rowStore_ok ?_
  rw [Action.run_query hdb, if_pos hpage, h]
  rfl

theorem run_count (hdb : w.storage = .ready db) {selection : Selection} {n : Nat}
    (h : Rows.count table selection db.rows = .ok n) :
    count table selection s w = (.ok n, w) := by
  refine Action.run_rowStore_ok ?_
  rw [Action.run_query hdb, h]
  rfl

end RowStore

/-! ## A small table -/

/-- A row of the table `t`. -/
def Row.ofCells (id : String) (position : Int) (cells : Cells) : Row :=
  ⟨id, "t", position, ⟨cells, .compact⟩, ⟨0⟩, ⟨0⟩⟩

/-- A database with nothing but rows. -/
def Database.ofRows (rows : Rows) : Database := ⟨[], [], [], [], rows, []⟩

/-- Surroundings in which no time passes and all tokens are empty. -/
def Surroundings.blank : Surroundings := ⟨⟨0⟩, .zero, fun _ => "", fun _ => 0⟩

/-- A world with nothing but rows. -/
def World.ofRows (rows : Rows) : World := ⟨.ready (.ofRows rows), .entries [], 0, 0, 0, []⟩

end Tabula
