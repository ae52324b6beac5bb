import Tabula.Text.Search
import Tabula.Value.Conversion

/-!
# Switches on a command line

A switch has long names after two dashes and short ones after one. Some take nothing; any
other takes the next word, or what follows an equals sign. A long name may be cut as long as
it stays the beginning of one name only, and short switches that take nothing may share a
dash.

`Switch.readAll` gives what the switches were set to, in the order in which they stand. It
ends where help is asked for, and fails where a word fits nothing.
-/

namespace Tabula.Cli

/-- What a switch takes. -/
inductive Argument where
  | nothing
  | text
  | integer
  deriving DecidableEq, Repr

/-- A switch that a command understands. -/
structure Switch where
  /-- Its names, the short ones first. -/
  names : List String
  argument : Argument
  about : String
  deriving DecidableEq, Repr

/-- Why a command line is not carried out. -/
inductive Stop where
  /-- Help is asked for. -/
  | help
  /-- A word fits nothing. -/
  | misuse
  deriving DecidableEq, Repr

/-- What a word of the command line is. -/
inductive Word where
  /-- A switch, with what is joined to it by an equals sign. -/
  | switch (s : Switch) (joined? : Option String)
  /-- A short switch and what follows it at once. -/
  | cluster (s : Switch) (tail : List Char)
  /-- A word that looks like a switch and is none. -/
  | unknown
  /-- What stands for itself. -/
  | plain (s : String)
  /-- Two dashes, after which nothing is a switch. -/
  | divider
  deriving Repr

/-- What switches were set to, under the last of their names, latest first. -/
abbrev Chosen := List (String × Value)

namespace Switch

/-- The switch that asks for help. -/
def help : Switch := ⟨["-h", "--help"], .nothing, "show this help message and exit"⟩

/-- The last of a switch's names, under which its value is kept. -/
def name (s : Switch) : String := s.names.getLastD ""

/-! ## Words -/

/-- Whether a word is a negative number. -/
def isNegativeNumber (cs : List Char) : Bool :=
  let isDigit (c : Char) : Bool := (Text.digitValue? c).isSome
  let digits (ds : List Char) : Bool := !ds.isEmpty && ds.all isDigit
  match cs with
  | '-' :: rest =>
    let rest := if rest.getLast? = some '\n' then rest.dropLast else rest
    digits rest ||
      match rest.dropWhile isDigit with
      | '.' :: part => digits part
      | _ => false
  | _ => false

/-- A word before and after its first equals sign. -/
def splitEquals? (cs : List Char) : Option (List Char × List Char) :=
  match cs.dropWhile (· != '=') with
  | _ :: rest => some (cs.takeWhile (· != '='), rest)
  | [] => none

/-- The switch with exactly this name. -/
def named? (switches : List Switch) (n : String) : Option Switch :=
  switches.find? fun s => s.names.contains n

/-- The switches of which a name starts with `start`, once for each such name. -/
def startingWith (switches : List Switch) (start : List Char) : List Switch :=
  switches.flatMap fun s =>
    (s.names.filter fun n => Text.startsWith n.toList start).map fun _ => s

/-- What a word may mean that is no whole name. -/
def candidates (switches : List Switch) (cs : List Char) : List Word :=
  match cs with
  | '-' :: '-' :: _ =>
    match splitEquals? cs with
    | some (start, joined) =>
      (startingWith switches start).map fun s => .switch s (some (String.ofList joined))
    | none => (startingWith switches cs).map fun s => .switch s none
  | a :: b :: rest =>
    match named? switches (String.ofList [a, b]) with
    | some s => [.cluster s rest]
    | none => (startingWith switches cs).map fun s => .switch s none
  | _ => []

/-- The switch whose whole name the word is, or is before an equals sign. -/
def wholeName? (switches : List Switch) (cs : List Char) : Option Word :=
  match named? switches (String.ofList cs) with
  | some s => some (.switch s none)
  | none =>
    match splitEquals? cs with
    | some (n, joined) =>
      (named? switches (String.ofList n)).map fun s => .switch s (some (String.ofList joined))
    | none => none

/-- What a word is. A cut name must not be the beginning of two. -/
def word (switches : List Switch) (s : String) : Except Stop Word :=
  let cs := s.toList
  match cs with
  | '-' :: _ :: _ =>
    if s = "--" then .ok .divider
    else match wholeName? switches cs, candidates switches cs with
      | some w, _ => .ok w
      | none, [w] => .ok w
      | none, _ :: _ :: _ => .error .misuse
      | none, [] => .ok (if isNegativeNumber cs || cs.contains ' ' then .plain s else .unknown)
  | _ => .ok (.plain s)

/-- What the words are, up to a divider. -/
def words (switches : List Switch) : List String → Except Stop (List Word)
  | [] => .ok []
  | s :: rest => do
    match ← word switches s with
    | .divider => return [.divider]
    | w => return w :: (← words switches rest)

/-! ## Values -/

/-- The value of a switch that was given a text. -/
def valueOf (s : Switch) (given : String) : Except Stop Value :=
  match s.argument with
  | .integer =>
    match integerOfText? given with
    | some n => .ok (.int n)
    | none => .error .misuse
  | _ => .ok (.text given)

/-- Sets a switch that takes nothing. -/
def turnOn (s : Switch) (chosen : Chosen) : Except Stop Chosen :=
  if s.names = help.names then .error .help else .ok ((s.name, .bool true) :: chosen)

/-- What short switches that share a dash are given, and whether letters are left that are
none. All of them take nothing, but the last may take what is left. -/
def share (switches : List Switch) (s : Switch) :
    List Char → Except Stop (List (Switch × Option String) × Bool)
  | [] => .ok ([(s, none)], false)
  | c :: cs =>
    if s.argument ≠ .nothing then .ok ([(s, some (String.ofList (c :: cs)))], false)
    else if c = '-' then .error .misuse
    else match named? switches (String.ofList ['-', c]), cs with
      | none, _ => .ok ([(s, none)], true)
      | some next, '=' :: joined =>
        if next.argument = .nothing then .error .misuse
        else .ok ([(s, none), (next, some (String.ofList joined))], false)
      | some next, cs => do
        let (others, stray) ← share switches next cs
        return ((s, none) :: others, stray)

/-- Sets a switch to what is joined to it. -/
def setJoined (s : Switch) (joined : String) (chosen : Chosen) : Except Stop Chosen :=
  if s.argument = .nothing then .error .misuse
  else do return (s.name, ← s.valueOf joined) :: chosen

/-- Sets switches that share a dash. -/
def setShared : List (Switch × Option String) → Chosen → Except Stop Chosen
  | [], chosen => .ok chosen
  | (s, some given) :: rest, chosen => do setShared rest (← setJoined s given chosen)
  | (s, none) :: rest, chosen =>
    if s.argument = .nothing then do setShared rest (← turnOn s chosen) else .error .misuse

/-- Sets switches from left to right. Words that fit nothing are a misuse in the end, which
`stray` remembers. -/
def setAll (switches : List Switch) (stray : Bool) (chosen : Chosen) : List Word → Except Stop Chosen
  | [] => if stray then .error .misuse else .ok chosen
  | .switch s (some joined) :: rest => do
    setAll switches stray (← setJoined s joined chosen) rest
  | .cluster s tail :: rest => do
    let (given, left) ← share switches s tail
    setAll switches (stray || left) (← setShared given chosen) rest
  | .switch s none :: rest =>
    match s.argument, rest with
    | .nothing, rest => do setAll switches stray (← turnOn s chosen) rest
    | _, .plain given :: rest => do
      setAll switches stray ((s.name, ← s.valueOf given) :: chosen) rest
    | _, _ => .error .misuse
  | _ :: rest => setAll switches true chosen rest

/-- What a command line sets the switches of a command to. -/
def readAll (switches : List Switch) (arguments : List String) : Except Stop Chosen := do
  let switches := help :: switches
  setAll switches false [] (← words switches arguments)

end Switch

namespace Chosen

/-- What a switch was set to last. -/
def get? (chosen : Chosen) (name : String) : Option Value := chosen.lookup name

def isOn (chosen : Chosen) (name : String) : Bool := (chosen.get? name).isSome

/-- The text a switch was set to, blank if it was not set. -/
def text (chosen : Chosen) (name : String) : String :=
  match chosen.get? name with
  | some (.text s) => s
  | _ => ""

end Chosen

end Tabula.Cli
