import Tabula.Config.Yaml.Scalar
import Tabula.Text.Case

/-!
# Nodes of a document

A document is a tree of scalars, sequences and mappings. `Node.toValue` gives the value it
stands for : a scalar in quotes is a text, a plain one may be more, and of equal keys the
last value counts. A key must be a scalar. The key `<<` lays its mapping, or several, under the
others. A node may have a name, by which it is referred to after it, and a type.
-/

namespace Tabula.Config.Yaml

/-- A node of a document. -/
inductive Node where
  | plain (s : String)
  | quoted (s : String)
  | sequence (items : List Node)
  | mapping (entries : List (Node × Node))
  | named (name : String) (n : Node)
  | reference (name : String)
  | typed (type : String) (n : Node)
  deriving Inhabited, Repr

/-- The node of a place where nothing stands. -/
def Node.blank : Node := .plain ""

/-! ## References -/

/-- The nodes that have names. -/
abbrev Names := List (String × Node)

mutual

/-- The node with its references replaced, and the names known after it. Two nodes must not have
one name. -/
def Node.resolve (names : Names) : Node → Except Failure (Node × Names)
  | .plain s => .ok (.plain s, names)
  | .quoted s => .ok (.quoted s, names)
  | .sequence items => do
    let (items, names) ← Node.resolveItems names items
    return (.sequence items, names)
  | .mapping entries => do
    let (entries, names) ← Node.resolveEntries names entries
    return (.mapping entries, names)
  | .named name n => do
    if (names.lookup name).isSome then stop .composition
    let (n, names) ← n.resolve names
    return (n, (name, n) :: names)
  | .reference name =>
    match names.lookup name with
    | some n => .ok (n, names)
    | none => stop .composition
  | .typed type n => do
    let (n, names) ← n.resolve names
    return (.typed type n, names)

def Node.resolveItems (names : Names) : List Node → Except Failure (List Node × Names)
  | [] => .ok ([], names)
  | n :: ns => do
    let (n, names) ← n.resolve names
    let (ns, names) ← Node.resolveItems names ns
    return (n :: ns, names)

def Node.resolveEntries (names : Names) :
    List (Node × Node) → Except Failure (List (Node × Node) × Names)
  | [] => .ok ([], names)
  | (k, v) :: es => do
    let (k, names) ← k.resolve names
    let (v, names) ← v.resolve names
    let (es, names) ← Node.resolveEntries names es
    return ((k, v) :: es, names)

end

/-! ## Values -/

/-- What the names of the standard types begin with. -/
def standardTypes : String := "tag:yaml.org,2002:"

/-- The value of a scalar whose type is given. -/
def typedValue (type text : String) : Except Failure Value :=
  if type = "!" || type = standardTypes ++ "str" then .ok (.text text)
  else if type = standardTypes ++ "null" then .ok .null
  else if type = standardTypes ++ "bool" then
    match (trueWords ++ falseWords).map (fun w => Text.lower w.toList) |>.contains (Text.lower text.toList) with
    | true => plainValue (String.ofList (Text.lower text.toList))
    | false => .error (.fault (.missingKey (.text text)))
  else if type = standardTypes ++ "int" then
    match plainValue text with
    | .ok (.int n) => .ok (.int n)
    | _ => do return .int (← decimalValue text.toList)
  else if type = standardTypes ++ "float" then
    match plainValue text with
    | .ok (.float x) => .ok (.float x)
    | _ => do return .float (← decimalFloat text.toList)
  else stop .construction

/-- The value of a key. -/
def Node.keyValue : Node → Except Failure Value
  | .plain s => if s = "=" then .ok (.text s) else plainValue s
  | .quoted s => .ok (.text s)
  | .typed type (.plain s) => typedValue type s
  | .typed type (.quoted s) => typedValue type s
  | _ => stop .construction

/-- The entries that the key `<<` lays under others : those of a mapping, or of several, the first
of which counts most. -/
def mergedEntries : Value → Except Failure (List (Value × Value))
  | .dict es => .ok es
  | .list vs => vs.reverse.foldlM (fun acc v =>
      match v with
      | .dict es => .ok (acc ++ es)
      | _ => stop .construction) []
  | _ => stop .construction

mutual

/-- The value a node stands for. -/
def Node.toValue : Node → Except Failure Value
  | .plain s => plainValue s
  | .quoted s => .ok (.text s)
  | .sequence items => do return .list (← Node.toValues items)
  | .mapping entries => do
    let (under, own) ← Node.toEntries entries
    return Value.ofEntries (under ++ own)
  | .named _ n => n.toValue
  | .reference _ => stop .composition
  | .typed type (.plain s) => typedValue type s
  | .typed type (.quoted s) => typedValue type s
  | .typed type (.sequence items) =>
    if type = standardTypes ++ "seq" || type = "!" then do return .list (← Node.toValues items)
    else stop .construction
  | .typed type (.mapping entries) =>
    if type = standardTypes ++ "map" || type = "!" then do
      let (under, own) ← Node.toEntries entries
      return Value.ofEntries (under ++ own)
    else stop .construction
  | .typed _ _ => stop .construction

/-- The values of a list of nodes. -/
def Node.toValues : List Node → Except Failure (List Value)
  | [] => .ok []
  | n :: ns => do
    let v ← n.toValue
    let vs ← Node.toValues ns
    return v :: vs

/-- The entries of a mapping, those to be laid under the others apart. -/
def Node.toEntries : List (Node × Node) →
    Except Failure (List (Value × Value) × List (Value × Value))
  | [] => .ok ([], [])
  | (.plain "<<", v) :: es => do
    let es' ← mergedEntries (← v.toValue)
    let (under, own) ← Node.toEntries es
    return (es' ++ under, own)
  | (k, v) :: es => do
    let key ← k.keyValue
    let value ← v.toValue
    let (under, own) ← Node.toEntries es
    return (under, (key, value) :: own)

end

end Tabula.Config.Yaml
