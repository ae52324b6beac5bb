import Tabula.Config.Yaml.Cursor

/-!
# Documents

`Yaml.read` reads a text that is one document in block or bracket form : mappings, sequences
and scalars. What is deeper in a block is indented further, except that the entries of a
sequence may stand below the key they belong to. A key and its colon are on one line.
-/

namespace Tabula.Config.Yaml

/-- The greatest distance from the beginning of a key to its colon. -/
def keyLength : Nat := 1024

/-- Whether an entry of a sequence starts here. -/
def startsEntry (cs : List Char) : Bool := cs.head? == some '-' && isBlankAt (cs.drop 1)

/-- Whether a key that is marked as one starts here. -/
def startsMarkedKey (cs : List Char) : Bool := cs.head? == some '?' && isBlankAt (cs.drop 1)

/-- Whether the colon before a value stands here. -/
def startsValue (cs : List Char) : Bool := cs.head? == some ':' && isBlankAt (cs.drop 1)

/-- Whether no token of a document can start here. -/
def startsNothing (cs : List Char) : Bool := cs.head?.any ['\t', '@', '%', '\x60'].contains

/-- The failure at a token that cannot follow here. -/
def misplaced {α : Type} (crossed : Bool) (c : Cursor) : Except Failure α :=
  if startsNothing c.rest then stop .tokens
  else if !crossed && (startsValue c.rest || startsEntry c.rest || startsMarkedKey c.rest) then stop .tokens
  else stop .layout

/-- A node that was read, with the place after it. -/
structure Read where
  node : Node
  after : Cursor
  /-- Whether it is on one line. -/
  isSingle : Bool

/-- The node of a scalar. -/
def Read.ofScalar (node : String → Node) (s : Scalar) : Read :=
  ⟨node (String.ofList s.text), s.after, s.isSingle⟩

/-- Whether a node that starts at `start` is a key in a block : its colon follows on the
line. -/
def Read.isKey (start : Cursor) (r : Read) : Bool :=
  r.isSingle && startsValue r.after.skipSpaces.rest &&
    start.rest.length - r.after.skipSpaces.rest.length ≤ keyLength

/-! ## Brackets -/

mutual

/-- Reads a node in brackets. -/
def flowNode : Nat → Cursor → Except Failure Read
  | 0, _ => stop .layout
  | fuel + 1, c =>
    match c.rest with
    | [] => stop .layout
    | d :: _ =>
      if c.isMarker then stop .layout
      else if d == '[' then flowItems fuel true ']' [] (c.skip 1)
      else if d == '\x7b' then flowEntries fuel true [] (c.skip 1)
      else if d == '"' || d == '\'' then do
        return .ofScalar .quoted (← quotedScalar (d == '"') c)
      else if startsPlain true c.rest then return .ofScalar .plain (plainScalar true 0 c)
      else if d == '*' then do
        let (name, after) ← nameAfter c
        return ⟨.reference name, after, true⟩
      else if startsProperty c.rest then do
        let (give, after) ← properties c
        let (e, crossed) := after.next
        if e.rest.head?.any [',', ']', '\x7d', ':'].contains then return ⟨give .blank, after, true⟩
        else
          let r ← flowNode fuel e
          return ⟨give r.node, r.after, r.isSingle && !crossed⟩
      else if startsNothing c.rest || d == '|' || d == '>' then stop .tokens
      else stop .layout

/-- Reads a node in brackets with the value after it, if a colon follows on the line. -/
def flowPair : Nat → Cursor → Except Failure (Node × Option Node × Cursor × Bool)
  | 0, _ => stop .layout
  | fuel + 1, c => do
    let key ← flowNode fuel c
    let d := key.after.skipSpaces
    if key.isSingle && d.rest.head? == some ':' && c.rest.length - d.rest.length ≤ keyLength then
      let (e, crossed) := (d.skip 1).next
      if e.rest.head?.any [',', ']', '\x7d'].contains then
        return (key.node, some .blank, e, !crossed)
      else
        let value ← flowNode fuel e
        return (key.node, some value.node, value.after, !crossed && value.isSingle)
    else return (key.node, none, key.after, key.isSingle)

/-- Reads the items of a sequence in brackets, `acc` being those before, last one first. -/
def flowItems : Nat → Bool → Char → List Node → Cursor → Except Failure Read
  | 0, _, _, _, _ => stop .layout
  | fuel + 1, single, close, acc, c => do
    let (d, crossed) := c.next
    let single := single && !crossed
    if d.rest.head? == some close then return ⟨.sequence acc.reverse, d.skip 1, single⟩
    else
      let (key, value?, after, one) ← flowPair fuel d
      let item := match value? with
        | some value => .mapping [(key, value)]
        | none => key
      let (e, crossed) := after.next
      let single := single && one && !crossed
      if e.rest.head? == some ',' then flowItems fuel single close (item :: acc) (e.skip 1)
      else if e.rest.head? == some close then return ⟨.sequence (item :: acc).reverse, e.skip 1, single⟩
      else if startsNothing e.rest then stop .tokens
      else stop .layout

/-- Reads the entries of a mapping in brackets, `acc` being those before, last one first. -/
def flowEntries : Nat → Bool → List (Node × Node) → Cursor → Except Failure Read
  | 0, _, _, _ => stop .layout
  | fuel + 1, single, acc, c => do
    let (d, crossed) := c.next
    let single := single && !crossed
    if d.rest.head? == some '\x7d' then return ⟨.mapping acc.reverse, d.skip 1, single⟩
    else
      let (key, value?, after, one) ← flowPair fuel d
      let entry := (key, value?.getD .blank)
      let (e, crossed) := after.next
      let single := single && one && !crossed
      if e.rest.head? == some ',' then flowEntries fuel single (entry :: acc) (e.skip 1)
      else if e.rest.head? == some '\x7d' then return ⟨.mapping (entry :: acc).reverse, e.skip 1, single⟩
      else if startsNothing e.rest then stop .tokens
      else stop .layout

end

/-! ## Blocks -/

/-- Reads a node without name and type that may be a key : a scalar on a line, a node in
brackets or a reference. -/
def bareAtom (fuel : Nat) (indent : Int) (c : Cursor) : Except Failure Read :=
  match c.rest.head? with
  | some '[' | some '\x7b' => flowNode fuel c
  | some '"' => do return .ofScalar .quoted (← quotedScalar true c)
  | some '\'' => do return .ofScalar .quoted (← quotedScalar false c)
  | some '*' => do
    let (name, after) ← nameAfter c
    return ⟨.reference name, after, true⟩
  | _ =>
    if startsPlain false c.rest then .ok (.ofScalar .plain (plainScalar false (indent + 1) c))
    else if startsNothing c.rest then stop .tokens
    else stop .layout

/-- Reads a node that may be a key. -/
def atom (fuel : Nat) (indent : Int) (c : Cursor) : Except Failure Read :=
  if startsProperty c.rest then do
    let (give, after) ← properties c
    let d := after.skipSpaces
    if startsValue d.rest then return ⟨give .blank, after, true⟩
    else
      let r ← bareAtom fuel indent d
      return ⟨give r.node, r.after, r.isSingle⟩
  else bareAtom fuel indent c

/-- Whether a node with a name or a type that starts here is a key. -/
def isPropertyKey (fuel : Nat) (indent : Int) (c : Cursor) : Bool :=
  match atom fuel indent c with
  | .ok r => r.isKey c
  | .error _ => false

/-- Whether a block ends before this place : the text or the document does, or the line is
indented less. -/
def endsBlock (column : Nat) (c : Cursor) : Bool := c.rest.isEmpty || c.isMarker || c.column < column

mutual

/-- Reads the node that belongs to a mark before it, in a block whose column is `indent`.
`mayKey` says that a key may stand on the line of the mark, and `level` that the entries of a sequence
may stand below the mark. -/
def blockNode : Nat → Int → Bool → Bool → Cursor → Except Failure (Node × Cursor)
  | 0, _, _, _, _ => stop .layout
  | fuel + 1, indent, mayKey, level, c =>
    let (d, crossed) := c.next
    if d.rest.isEmpty || d.isMarker then .ok (.blank, c)
    else if d.column ≤ indent then
      if level && d.column == indent && startsEntry d.rest then blockItems fuel true d.column [] d
      else .ok (.blank, c)
    else blockContent fuel indent (mayKey || crossed) level d

/-- Reads a node that starts here. -/
def blockContent : Nat → Int → Bool → Bool → Cursor → Except Failure (Node × Cursor)
  | 0, _, _, _, _ => stop .layout
  | fuel + 1, indent, mayKey, level, c =>
    if startsEntry c.rest then
      if mayKey then blockItems fuel false c.column [] c else stop .tokens
    else if startsMarkedKey c.rest then
      if mayKey then blockEntries fuel c.column [] c else stop .tokens
    else if c.rest.head? == some '|' || c.rest.head? == some '>' then do
      let s ← blockScalar indent c
      return (.quoted (String.ofList s.text), s.after)
    else if startsValue c.rest then if mayKey then stop .layout else stop .tokens
    else if startsProperty c.rest then
      if isPropertyKey fuel indent c then
        if mayKey then blockEntries fuel c.column [] c else stop .tokens
      else do
        let (give, after) ← properties c
        let (d, _) := after.next
        if startsProperty d.rest && !isPropertyKey fuel indent d then stop .layout
        else
          let (n, after) ← blockNode fuel indent false level after
          return (give n, after)
    else do
      let r ← atom fuel indent c
      if r.isKey c && mayKey then blockEntries fuel c.column [] c
      else if startsValue r.after.skipSpaces.rest then stop .tokens
      else return (r.node, r.after)

/-- Reads the entries of a sequence at a column, `acc` being those before, last one first. -/
def blockItems : Nat → Bool → Nat → List Node → Cursor → Except Failure (Node × Cursor)
  | 0, _, _, _, _ => stop .layout
  | fuel + 1, level, column, acc, c => do
    let (item, after) ← blockNode fuel column true false (c.skip 1)
    let acc := item :: acc
    let (d, crossed) := after.next
    if endsBlock column d then return (.sequence acc.reverse, after)
    else if !crossed || column < d.column then misplaced crossed d
    else if startsEntry d.rest then blockItems fuel level column acc d
    else if level then return (.sequence acc.reverse, after)
    else
      let r ← atom fuel column d
      if r.isKey d then stop .layout else stop .tokens

/-- Reads the entries of a mapping at a column, `acc` being those before, last one first. -/
def blockEntries : Nat → Nat → List (Node × Node) → Cursor → Except Failure (Node × Cursor)
  | 0, _, _, _ => stop .layout
  | fuel + 1, column, acc, c => do
    let (key, value, after) ← blockEntry fuel column c
    let acc := (key, value) :: acc
    let (d, crossed) := after.next
    if endsBlock column d then return (.mapping acc.reverse, after)
    else if !crossed || column < d.column then misplaced crossed d
    else if startsEntry d.rest || startsValue d.rest then stop .layout
    else blockEntries fuel column acc d

/-- Reads an entry of a mapping at a column. -/
def blockEntry : Nat → Nat → Cursor → Except Failure (Node × Node × Cursor)
  | 0, _, _ => stop .layout
  | fuel + 1, column, c =>
    if startsMarkedKey c.rest then do
      let (key, after) ← blockNode fuel column true true (c.skip 1)
      let (d, crossed) := after.next
      if crossed && d.column == column && startsValue d.rest && !d.isMarker then
        let (value, after) ← blockNode fuel column true true (d.skip 1)
        return (key, value, after)
      else return (key, .blank, after)
    else do
      let key ← atom fuel column c
      if key.isKey c then
        let (value, after) ← blockNode fuel column false true (key.after.skipSpaces.skip 1)
        return (key.node, value, after)
      else stop .tokens

end

/-! ## The whole text -/

/-- Whether a text may have the character. -/
def isAllowed (c : Char) : Bool :=
  let n := c.toNat
  n == 0x9 || n == 0xA || n == 0xD || (0x20 ≤ n && n ≤ 0x7E) || n == 0x85 ||
    (0xA0 ≤ n && n ≤ 0xFFFD) || 0x10000 ≤ n

/-- The text with every line end as one character. -/
def plainLines : List Char → List Char
  | '\r' :: '\n' :: cs => '\n' :: plainLines cs
  | c :: cs => (if c == '\r' || c == '\u0085' then '\n' else c) :: plainLines cs
  | [] => []

/-- What must follow a document : nothing. -/
def endOfDocument (c : Cursor) : Except Failure Unit :=
  let (d, crossed) := c.next
  if d.rest.isEmpty then .ok ()
  else if d.isMarker then
    if d.rest.head? == some '-' then stop .composition
    else
      let (e, _) := (d.skip 3).next
      if e.rest.isEmpty then .ok ()
      else if e.isMarker && e.rest.head? == some '-' then stop .composition
      else misplaced true e
  else misplaced crossed d

/-- Passes over the directives before a document and its first line, and says whether the document
may begin with a key there. -/
def beginDocument : Nat → Bool → Cursor → Except Failure (Cursor × Bool)
  | 0, _, _ => stop .layout
  | fuel + 1, directed, c =>
    let (d, _) := c.next
    if d.isMarker && d.rest.head? == some '-' then .ok (d.skip 3, false)
    else if d.column == 0 && d.rest.head? == some '%' then
      beginDocument fuel true ⟨d.rest.dropWhile (· != '\n'), 1⟩
    else if directed then stop .layout
    else .ok (d, true)

/-- The node of a text that is one document. -/
def readNode (cs : List Char) : Except Failure Node := do
  if !cs.all isAllowed then stop .characters
  let cs := plainLines (if cs.head? == some '\ufeff' then cs.drop 1 else cs)
  let fuel := 8 * cs.length + 8
  let (c, mayKey) ← beginDocument fuel false ⟨cs, 0⟩
  let (node, after) ← blockNode fuel (-1) mayKey false c
  endOfDocument after
  return node

/-- The value of a text that is one document. -/
def read (s : String) : Except Failure Value := do
  let (node, _) ← (← readNode s.toList).resolve []
  node.toValue

end Tabula.Config.Yaml
