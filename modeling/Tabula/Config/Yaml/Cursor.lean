import Tabula.Config.Yaml.Node

/-!
# Reading places of a document

A `Cursor` is a place in a document : the characters from there on and the column. The
functions here read what lies between tokens and the scalars, plain, in quotes and in
blocks, and the names and types before a node. Lines of a scalar are folded : a single line
end is a space, and of more line ends one is left out.
-/

namespace Tabula.Config.Yaml

/-- A place in a document. -/
structure Cursor where
  rest : List Char
  column : Nat
  deriving Repr

/-- Whether a text is at its end or at white space. -/
def isBlankAt : List Char → Bool
  | [] => true
  | c :: _ => c == ' ' || c == '\t' || c == '\n'

/-- Whether a line with only three dashes or three points as its first word starts here. -/
def isMarkerAt : List Char → Bool
  | '-' :: '-' :: '-' :: rest => isBlankAt rest
  | '.' :: '.' :: '.' :: rest => isBlankAt rest
  | _ => false

namespace Cursor

/-- The place some characters further on the line. -/
def skip (c : Cursor) (n : Nat) : Cursor := ⟨c.rest.drop n, c.column + n⟩

/-- The place after spaces on the line. -/
def skipSpaces (c : Cursor) : Cursor := c.skip (c.rest.takeWhile (· == ' ')).length

/-- Whether a document ends or another begins here. -/
def isMarker (c : Cursor) : Bool := c.column == 0 && isMarkerAt c.rest

/-- Passes over spaces, comments and line ends. `comment` says that a comment is being
passed, and `crossed` that a line end was. -/
def nextFrom (comment crossed : Bool) (column : Nat) : List Char → Cursor × Bool
  | [] => (⟨[], column⟩, crossed)
  | c :: cs =>
    if c == '\n' then nextFrom false true 0 cs
    else if comment || c == '#' then nextFrom true crossed (column + 1) cs
    else if c == ' ' then nextFrom false crossed (column + 1) cs
    else (⟨c :: cs, column⟩, crossed)

/-- The place of the next token, and whether a line end lies before it. -/
def next (c : Cursor) : Cursor × Bool := nextFrom false false c.column c.rest

/-- Passes over spaces and line ends and counts the line ends. Nothing if a marker stands at the
beginning of a line. -/
def nextLine? (ends column : Nat) : List Char → Option (Nat × Cursor)
  | [] => some (ends, ⟨[], column⟩)
  | '\n' :: cs => if isMarkerAt cs then none else nextLine? (ends + 1) 0 cs
  | ' ' :: cs => nextLine? ends (column + 1) cs
  | c :: cs => some (ends, ⟨c :: cs, column⟩)

end Cursor

/-- What folded line ends become. -/
def folded (ends : Nat) : List Char := if ends = 1 then [' '] else List.replicate (ends - 1) '\n'

/-! ## Plain scalars -/

/-- The marks that end a plain scalar in brackets. -/
def flowMarks : List Char := [',', '[', ']', '\x7b', '\x7d']

/-- The marks that start no plain scalar. -/
def indicators : List Char :=
  flowMarks ++ ['-', '?', ':', '#', '&', '*', '!', '|', '>', '\'', '"', '%', '@', '\x60']

/-- Whether a plain scalar starts here. -/
def startsPlain (flow : Bool) : List Char → Bool
  | [] => false
  | c :: rest =>
    if isBlankAt (c :: rest) then false
    else if indicators.contains c then
      !isBlankAt rest && (c == '-' || (!flow && (c == '?' || c == ':')))
    else true

/-- Whether a colon before this text separates a key from its value. -/
def endsKey (flow : Bool) (rest : List Char) : Bool :=
  isBlankAt rest || (flow && rest.head?.any flowMarks.contains)

/-- The characters of a plain scalar up to the next space, line end or mark. -/
def plainWord (flow : Bool) : List Char → List Char
  | [] => []
  | c :: rest =>
    if isBlankAt (c :: rest) || (c == ':' && endsKey flow rest) ||
        (flow && (c == '?' || flowMarks.contains c)) then []
    else c :: plainWord flow rest

/-- A scalar that was read, with the place after it. -/
structure Scalar where
  text : List Char
  after : Cursor
  /-- Whether it is on one line. -/
  isSingle : Bool

/-- Goes on with a plain scalar whose lines must be indented by `least`. -/
def plainFrom (flow : Bool) (least : Int) : Nat → List Char → Bool → Cursor → Scalar
  | 0, text, single, c => ⟨text, c, single⟩
  | fuel + 1, text, single, c =>
    let gap := c.rest.takeWhile (· == ' ')
    match Cursor.nextLine? 0 c.column c.rest with
    | none => ⟨text, c, single⟩
    | some (ends, d) =>
      let word := plainWord flow d.rest
      if (gap.isEmpty && ends == 0) || word.isEmpty || d.rest.head? == some '#' ||
          (!flow && d.column < least) then ⟨text, c, single⟩
      else
        let joint := if ends == 0 then gap else folded ends
        plainFrom flow least fuel (text ++ joint ++ word) (single && ends == 0) (d.skip word.length)

/-- Reads a plain scalar. -/
def plainScalar (flow : Bool) (least : Int) (c : Cursor) : Scalar :=
  let word := plainWord flow c.rest
  plainFrom flow least c.rest.length word true (c.skip word.length)

/-! ## Scalars in quotes -/

/-- The character that a letter after a backslash stands for. -/
def escapes : List (Char × Char) := [
  ('0', '\x00'), ('a', '\x07'), ('b', '\x08'), ('t', '\t'), ('\t', '\t'), ('n', '\n'), ('v', '\x0b'),
  ('f', '\x0c'), ('r', '\x0d'), ('e', '\x1b'), (' ', ' '), ('"', '"'), ('\\', '\\'), ('/', '/'),
  ('N', '\u0085'), ('_', '\u00a0'), ('L', '\u2028'), ('P', '\u2029')]

/-- The number of digits of a code after a backslash and a letter. -/
def codeLength? : Char → Option Nat
  | 'x' => some 2
  | 'u' => some 4
  | 'U' => some 8
  | _ => none

/-- The character with the code that some digits spell. -/
def codeOf? (ds : List Char) : Option Char := do
  let n ← ds.foldlM (fun n d => return n * 16 + (← Json.hexValue? d)) 0
  if n < 0x110000 then some (Text.characterOf n) else none

/-- The white space at the beginning of a text, tabs included. -/
def whiteSpace (cs : List Char) : List Char := cs.takeWhile fun c => c == ' ' || c == '\t'

/-- The text after line ends and the white space around them, and the number of line ends. Nothing
if a marker stands at the beginning of a line. -/
def passLines? (ends : Nat) : List Char → Option (Nat × List Char)
  | '\n' :: cs => if isMarkerAt cs then none else passLines? (ends + 1) cs
  | c :: cs => if c == ' ' || c == '\t' then passLines? ends cs else some (ends, c :: cs)
  | [] => some (ends, [])

/-- Reads a scalar in quotes to its closing quote, `text` being what was read, last character
first. -/
def quotedFrom (isDouble : Bool) : Nat → List Char → Bool → List Char →
    Except Failure (List Char × List Char × Bool)
  | 0, _, _, _ => stop .tokens
  | _ + 1, _, _, [] => stop .tokens
  | fuel + 1, text, single, c :: cs =>
    if c == '\n' || c == ' ' || c == '\t' then
      let gap := whiteSpace (c :: cs)
      match passLines? 0 (c :: cs) with
      | none => stop .tokens
      | some (ends, rest) =>
        if ends = 0 then quotedFrom isDouble fuel (gap.reverse ++ text) single rest
        else quotedFrom isDouble fuel ((folded ends).reverse ++ text) false rest
    else if isDouble then
      match c, cs with
      | '"', cs => .ok (text.reverse, cs, single)
      | '\\', '\n' :: cs =>
        match passLines? 0 ('\n' :: cs) with
        | none => stop .tokens
        | some (ends, rest) =>
          quotedFrom isDouble fuel (List.replicate (ends - 1) '\n' ++ text) false rest
      | '\\', d :: cs =>
        match escapes.lookup d, codeLength? d with
        | some e, _ => quotedFrom isDouble fuel (e :: text) single cs
        | none, some n =>
          match codeOf? (cs.take n) with
          | some e =>
            if (cs.take n).length = n then quotedFrom isDouble fuel (e :: text) single (cs.drop n)
            else stop .tokens
          | none => stop .tokens
        | none, none => stop .tokens
      | c, cs => quotedFrom isDouble fuel (c :: text) single cs
    else
      match c, cs with
      | '\'', '\'' :: cs => quotedFrom isDouble fuel ('\'' :: text) single cs
      | '\'', cs => .ok (text.reverse, cs, single)
      | c, cs => quotedFrom isDouble fuel (c :: text) single cs

/-- The column after passing over some characters. -/
def columnAfter (column : Nat) (passed : List Char) : Nat :=
  match passed.reverse.takeWhile (· != '\n') with
  | line => if line.length < passed.length then line.length else column + passed.length

/-- Reads a scalar in quotes. -/
def quotedScalar (isDouble : Bool) (c : Cursor) : Except Failure Scalar := do
  let inner := c.rest.drop 1
  let (text, rest, single) ← quotedFrom isDouble (inner.length + 1) [] true inner
  let passed := c.rest.take (c.rest.length - rest.length)
  return ⟨text, ⟨rest, columnAfter c.column passed⟩, single⟩

/-! ## Block scalars -/

/-- What becomes of the line ends after a block scalar. -/
inductive Chomping where
  | strip
  | clip
  | keep
  deriving DecidableEq, Repr

/-- The header of a block scalar : whether its lines are folded, what becomes of its end, and
how far it is indented if that is given. -/
structure BlockHeader where
  isFolded : Bool
  chomping : Chomping
  indent? : Option Nat

/-- Reads the marks of a header. -/
def headerMarks (h : BlockHeader) : List Char → Option (BlockHeader × List Char)
  | '+' :: cs => withIndent { h with chomping := .keep } cs
  | '-' :: cs => withIndent { h with chomping := .strip } cs
  | d :: cs =>
    if d.isDigit then
      if d == '0' then none
      else
        let h := { h with indent? := some (d.toNat - '0'.toNat) }
        match cs with
        | '+' :: cs => some ({ h with chomping := .keep }, cs)
        | '-' :: cs => some ({ h with chomping := .strip }, cs)
        | cs => some (h, cs)
    else some (h, d :: cs)
  | [] => some (h, [])
where
  withIndent (h : BlockHeader) : List Char → Option (BlockHeader × List Char)
    | d :: cs =>
      if d == '0' then none
      else if d.isDigit then some ({ h with indent? := some (d.toNat - '0'.toNat) }, cs)
      else some (h, d :: cs)
    | [] => some (h, [])

def leadingSpaces (line : List Char) : Nat := (line.takeWhile (· == ' ')).length

/-- How far a block scalar without a given indentation is indented : as far as the first line with
content, or the blank line before it with most spaces. -/
def foundIndent (most : Nat) : List (List Char) → Nat
  | [] => most
  | line :: lines =>
    let n := leadingSpaces line
    if n = line.length then foundIndent (max most n) lines else max most n

/-- Reads the lines of a block scalar, joined to `text`, which ends before the line end `last`
(if any) and the line ends of `blanks` blank lines. `folds` says that the line before may be
folded. The text and the lines after it. -/
def blockLines (isFolded : Bool) (chomping : Chomping) (indent : Nat) (text : List Char)
    (last : Option Bool) (blanks : Nat) : List (List Char) → List Char × List (List Char)
  | [] => (ended, [])
  | line :: lines =>
    let n := leadingSpaces line
    if n = line.length && n ≤ indent then
      if lines.isEmpty then (ended, []) else blockLines isFolded chomping indent text last (blanks + 1) lines
    else if n < indent then (ended, line :: lines)
    else
      let content := line.drop indent
      let solid := !isBlankAt content
      let joint := match last with
        | none => List.replicate blanks '\n'
        | some lastSolid =>
          if isFolded && lastSolid && solid then if blanks = 0 then [' '] else List.replicate blanks '\n'
          else List.replicate (blanks + 1) '\n'
      if lines.isEmpty then (text ++ joint ++ content, [])
      else blockLines isFolded chomping indent (text ++ joint ++ content) (some solid) 0 lines
where
  ended : List Char :=
    let close := if last.isSome then ['\n'] else []
    match chomping with
    | .strip => text
    | .clip => text ++ close
    | .keep => text ++ close ++ List.replicate blanks '\n'

/-- Reads a block scalar within a block that is indented by `indent`. -/
def blockScalar (indent : Int) (c : Cursor) : Except Failure Scalar := do
  match headerMarks ⟨c.rest.head? == some '>', .clip, none⟩ (c.rest.drop 1) with
  | none => stop .tokens
  | some (h, rest) =>
    let tail := rest.dropWhile (· == ' ')
    let comment := tail.head? == some '#'
    match if comment then tail.dropWhile (· != '\n') else tail with
    | [] => return ⟨[], ⟨[], c.column⟩, false⟩
    | '\n' :: body =>
      let least := max (indent + 1).toNat 1
      let lines := body.splitOn '\n'
      let column := match h.indent? with
        | some n => least + n - 1
        | none => max least (foundIndent 0 lines)
      let (text, left) := blockLines h.isFolded h.chomping column [] none 0 lines
      let rest := match left with
        | [] => []
        | lines => '\n' :: List.intercalate ['\n'] lines
      return ⟨text, ⟨rest, c.column⟩, false⟩
    | _ => stop .tokens

/-! ## Names and types -/

/-- Whether a name of a node may have the character. -/
def isNameChar (c : Char) : Bool := c.isAlphanum || c == '-' || c == '_'

/-- Whether the type of a node may have the character. -/
def isTypeChar (c : Char) : Bool :=
  c.isAlphanum || "-;/?:@&=+$,_.!~*'()[]%".toList.contains c

/-- Reads the name after a mark. -/
def nameAfter (c : Cursor) : Except Failure (String × Cursor) :=
  let name := (c.rest.drop 1).takeWhile isNameChar
  let after := c.skip (name.length + 1)
  let ends := isBlankAt after.rest || after.rest.head?.any ['?', ':', ',', ']', '\x7d', '%', '@', '\x60'].contains
  if name.isEmpty || !ends then stop .tokens else .ok (String.ofList name, after)

/-- The full type for a type that was written, of which only the standard ones have a short
form. -/
def fullType (word : List Char) : Except Failure String :=
  match word with
  | '!' :: '!' :: suffix =>
    if suffix.isEmpty then stop .tokens else .ok (standardTypes ++ String.ofList suffix)
  | '!' :: suffix =>
    if (suffix.takeWhile isNameChar).length < suffix.length &&
        (suffix.dropWhile isNameChar).head? == some '!' then stop .layout
    else .ok (String.ofList ('!' :: suffix))
  | _ => stop .tokens

/-- Reads the type that is written here. -/
def typeHere (c : Cursor) : Except Failure (String × Cursor) :=
  match c.rest.drop 1 with
  | '<' :: rest =>
    let uri := rest.takeWhile isTypeChar
    let after := c.skip (uri.length + 3)
    if uri.isEmpty || (rest.drop uri.length).head? != some '>' || !isBlankAt after.rest then stop .tokens
    else .ok (String.ofList uri, after)
  | rest =>
    let word := '!' :: rest.takeWhile isTypeChar
    let after := c.skip word.length
    if !isBlankAt after.rest then stop .tokens
    else do return (← fullType word, after)

/-- Whether a name or a type of a node starts here. -/
def startsProperty (cs : List Char) : Bool := cs.head?.any ['&', '!'].contains

/-- Reads the name and the type before a node, and how they are given to it. -/
def properties (c : Cursor) : Except Failure ((Node → Node) × Cursor) := do
  if c.rest.head? == some '&' then
    let (name, after) ← nameAfter c
    let d := after.skipSpaces
    if d.rest.head? == some '!' then
      let (type, after) ← typeHere d
      return (fun n => .named name (.typed type n), after)
    else return (.named name, after)
  else
    let (type, after) ← typeHere c
    let d := after.skipSpaces
    if d.rest.head? == some '&' then
      let (name, after) ← nameAfter d
      return (fun n => .named name (.typed type n), after)
    else return (.typed type, after)

end Tabula.Config.Yaml
