import Tabula.Number.Binary64

/-!
# Values

A `Value` is what a caller may pass in and what an answer may hold : nothing, a truth
value, an integer, a float, a text, bytes, a sequence or a mapping. A cell is a value too,
most of which are refused when they are to be stored.

A mapping keeps the order in which its keys came first; a key that comes again changes
the value only (`Value.put`). Keys are one key when they are equal as values (`Value.same`) :
numbers by their size, mappings whatever their order.
-/

namespace Tabula

/-- A dynamic value. -/
inductive Value where
  | null
  | bool (b : Bool)
  | int (n : Int)
  | float (x : Binary64)
  | text (s : String)
  | bytes (bs : List UInt8)
  | list (xs : List Value)
  | tuple (xs : List Value)
  | dict (es : List (Value × Value))
  deriving Inhabited, Repr

/-- The cells of a row, by column id. -/
abbrev Cells := List (String × Value)

namespace Value

/-- A mapping whose keys are texts. -/
def object (es : List (String × Value)) : Value :=
  dict (es.map fun e => (text e.1, e.2))

/-- Whether the value is the text `s`. -/
def isText (s : String) : Value → Bool
  | text t => t == s
  | _ => false

def isNull : Value → Bool
  | null => true
  | _ => false

/-- Whether the value counts as true : neither nothing nor zero nor empty. -/
def truthy : Value → Bool
  | null => false
  | bool b => b
  | int n => n != 0
  | float x => !x.isZero
  | text s => s != ""
  | bytes bs => !bs.isEmpty
  | list xs => !xs.isEmpty
  | tuple xs => !xs.isEmpty
  | dict es => !es.isEmpty

/-- The name of the value's kind in messages. -/
def kindName : Value → String
  | null => "NoneType"
  | bool _ => "bool"
  | int _ => "int"
  | float _ => "float"
  | text _ => "str"
  | bytes _ => "bytes"
  | list _ => "list"
  | tuple _ => "tuple"
  | dict _ => "dict"

/-- The value among the entries of a mapping under a text key. -/
def lookup (key : String) (es : List (Value × Value)) : Option Value :=
  (es.find? fun e => e.1.isText key).map (·.2)

/-- The value of a mapping under a text key, `none` for anything else than a mapping. -/
def get? (key : String) : Value → Option Value
  | dict es => lookup key es
  | _ => none

/-- The value of a mapping under a text key, null if the key is absent. -/
def get (key : String) (v : Value) : Value := (v.get? key).getD null

/-- The integer or float a number stands for, a truth value counting as zero or one. -/
def numeral? : Value → Option (Int ⊕ Binary64)
  | bool b => some (.inl (if b then 1 else 0))
  | int n => some (.inl n)
  | float x => some (.inr x)
  | _ => none

/-- Whether two numbers are equal, integers beyond the floats' range being equal to none. -/
def sameNumber : Int ⊕ Binary64 → Int ⊕ Binary64 → Bool
  | .inl m, .inl n => m == n
  | .inr x, .inr y => x.eq y
  | .inl m, .inr y => y.isInteger && y.truncate == m
  | .inr x, .inl n => x.isInteger && x.truncate == n

/-- Whether two simple values are equal. -/
def sameAtom (v w : Value) : Bool :=
  match v, w with
  | null, null => true
  | text s, text t => s == t
  | bytes s, bytes t => s == t
  | _, _ =>
    match v.numeral?, w.numeral? with
    | some a, some b => sameNumber a b
    | _, _ => false

mutual

/-- Whether two values are equal. -/
def same : Value → Value → Bool
  | list xs, list ys => sameAll xs ys
  | tuple xs, tuple ys => sameAll xs ys
  | dict es, dict fs => es.length == fs.length && sameEntries es fs
  | v, w => sameAtom v w

/-- Whether two sequences are equal item by item. -/
def sameAll : List Value → List Value → Bool
  | [], [] => true
  | x :: xs, y :: ys => same x y && sameAll xs ys
  | _, _ => false

/-- Whether every entry of the first mapping has an equal one in the second. -/
def sameEntries : List (Value × Value) → List (Value × Value) → Bool
  | [], _ => true
  | (k, v) :: es, fs => (fs.any fun f => same k f.1 && same v f.2) && sameEntries es fs

end

/-- The entries with the value under `key` replaced, or with a new last entry. -/
def put (key value : Value) : List (Value × Value) → List (Value × Value)
  | [] => [(key, value)]
  | e :: es => if e.1.same key then (e.1, value) :: es else e :: put key value es

/-- The mapping of a list of entries, later values winning over earlier ones. -/
def ofEntries (es : List (Value × Value)) : Value :=
  dict (es.foldl (fun acc e => put e.1 e.2 acc) [])

end Value

namespace Cells

/-- The cell under a column id. -/
def get? (cells : Cells) (column : String) : Option Value :=
  (cells.find? fun e => e.1 == column).map (·.2)

/-- The cell under a column id, null if the key is absent. -/
def get (cells : Cells) (column : String) : Value := (cells.get? column).getD .null

def has (cells : Cells) (column : String) : Bool := cells.any fun e => e.1 == column

/-- The cells with the one under `column` replaced, or with a new last one. -/
def set (column : String) (value : Value) : Cells → Cells
  | [] => [(column, value)]
  | e :: es => if e.1 == column then (e.1, value) :: es else e :: set column value es

/-- The cells without the one under `column`. -/
def erase (cells : Cells) (column : String) : Cells :=
  cells.filter fun e => e.1 != column

end Cells

end Tabula
