import Tabula.Cli.Switch

/-!
# Help for a command

The help says how a command is used, what it is for, and what each switch does. Lines are
at most `width` characters long : the usage is broken between switches and what is
said about a switch between words, indented below where it began.
-/

namespace Tabula.Cli.Help

/-- The greatest length of a line. -/
def width : Nat := 78

/-- The column at which what is said about switches begins at most. -/
def greatestColumn : Nat := 24

def spaces (n : Nat) : String := String.ofList (List.replicate n ' ')

/-- Breaks pieces into lines of at most `most` characters, `line` being the pieces of the
line so far, last one first. A piece that is too long has a line of its own. -/
def fill (most : Nat) (line : List String) (length : Nat) : List String → List (List String)
  | [] => if line.isEmpty then [] else [line.reverse]
  | p :: ps =>
    if line.isEmpty then fill most [p] p.length ps
    else if most < length + 1 + p.length then line.reverse :: fill most [p] p.length ps
    else fill most (p :: line) (length + 1 + p.length) ps

/-- The lines of pieces with a space between them. -/
def filled (most : Nat) (pieces : List String) : List String :=
  (fill most [] 0 pieces).map fun line => " ".intercalate line

/-- The name under which the usage shows what a switch takes : that of the switch in
capitals. -/
def placeholder (s : Switch) : String :=
  String.ofList (((s.name.toList.dropWhile (· == '-')).map fun c => if c == '-' then '_' else c).map
    Char.toUpper)

/-- How a name of a switch is written with what it takes. -/
def written (s : Switch) (name : String) : String :=
  if s.argument = .nothing then name else name ++ " " ++ placeholder s

/-- How the usage shows a switch. -/
def optional (s : Switch) : String := "[" ++ written s (s.names.headD "") ++ "]"

/-- The lines on how a command is used. -/
def usage (command : String) (switches : List Switch) : List String :=
  let start := "usage: " ++ command ++ " "
  match filled (width - start.length) (switches.map optional) with
  | [] => [start]
  | l :: ls => (start ++ l) :: ls.map (spaces start.length ++ ·)

/-- What introduces a switch in the list. -/
def heading (s : Switch) : String := "  " ++ ", ".intercalate (s.names.map (written s))

/-- The column at which what is said about the switches begins. -/
def column (switches : List Switch) : Nat :=
  min greatestColumn ((switches.map fun s => (heading s).length).foldl max 0 + 2)

/-- The words of a text. -/
def wordsOf (s : String) : List String := (s.toList.splitOn ' ').map String.ofList

/-- The lines on one switch. What is said about it begins on the line of the heading if that
leaves two columns. -/
def entry (start : Nat) (s : Switch) : List String :=
  let head := heading s
  let about := filled (width - start) (wordsOf s.about)
  match about with
  | [] => [head]
  | l :: ls =>
    if head.length + 2 ≤ start then
      (head ++ spaces (start - head.length) ++ l) :: ls.map (spaces start ++ ·)
    else head :: about.map (spaces start ++ ·)

/-- The help for a command. -/
def text (command about : String) (switches : List Switch) : String :=
  let switches := Switch.help :: switches
  let lines := usage command switches ++ ["", about, "", "options:"] ++
    switches.flatMap (entry (column switches))
  String.join (lines.map (· ++ "\n"))

end Tabula.Cli.Help
