/-!
# References to the environment

A configuration text may refer to a variable of the environment by its name in braces after
a dollar sign, with `:-` and a default text behind the name if wanted. `substitute` puts the value of each
variable in its place : the value if there is one, even an empty one, else the default, and
without either the reference stays as it stands. What was put in is not read again.
-/

namespace Tabula.Config

/-- A reference to a variable. -/
structure Reference where
  name : List Char
  default? : Option (List Char)
  deriving DecidableEq, Repr

/-- Whether a variable's name may start with the character : a capital or an underscore. -/
def startsName (c : Char) : Bool := c.isUpper || c == '_'

/-- Whether a variable's name may go on with the character. -/
def continuesName (c : Char) : Bool := startsName c || c.isDigit

/-- What follows a name : the end of the reference, or a default up to the next closing
brace. The default and the text after the reference. -/
def takeDefault? : List Char → Option (Option (List Char) × List Char)
  | '\x7d' :: rest => some (none, rest)
  | ':' :: '-' :: rest =>
    match rest.dropWhile (· != '\x7d') with
    | _ :: after => some (some (rest.takeWhile (· != '\x7d')), after)
    | [] => none
  | _ => none

/-- The reference at the head of a text and the text after it. -/
def takeReference? : List Char → Option (Reference × List Char)
  | '$' :: '\x7b' :: c :: rest =>
    if startsName c then do
      let (default?, after) ← takeDefault? (rest.dropWhile continuesName)
      return (⟨c :: rest.takeWhile continuesName, default?⟩, after)
    else none
  | _ => none

/-- The text that a reference stands for, none if there is no value and no default. -/
def Reference.value? (env : String → Option String) (r : Reference) : Option (List Char) :=
  match env (String.ofList r.name) with
  | some s => some s.toList
  | none => r.default?

/-- The text with its references replaced, after passing over `skip` characters. -/
def substituteFrom (env : String → Option String) : Nat → List Char → List Char
  | _, [] => []
  | skip + 1, _ :: cs => substituteFrom env skip cs
  | 0, c :: cs =>
    match takeReference? (c :: cs) with
    | none => c :: substituteFrom env 0 cs
    | some (r, after) =>
      match r.value? env with
      | some text => text ++ substituteFrom env (cs.length - after.length) cs
      | none => c :: substituteFrom env 0 cs

/-- The references that start anywhere in a text. -/
def references : List Char → List Reference
  | [] => []
  | c :: cs =>
    match takeReference? (c :: cs) with
    | some (r, _) => r :: references cs
    | none => references cs

/-- Only the variables that a text refers to matter. -/
theorem substituteFrom_congr {env env' : String → Option String} {cs : List Char}
    (h : ∀ r ∈ references cs, env (String.ofList r.name) = env' (String.ofList r.name)) (skip : Nat) :
    substituteFrom env skip cs = substituteFrom env' skip cs := by
  induction cs generalizing skip with
  | nil => cases skip <;> rfl
  | cons c cs ih =>
    have hs : ∀ r ∈ references cs, env (String.ofList r.name) = env' (String.ofList r.name) := by
      intro r hr
      refine h r ?_
      unfold references
      split <;> simp [hr]
    cases skip with
    | succ skip => simp only [substituteFrom, ih hs]
    | zero =>
      simp only [substituteFrom]
      split
      · rw [ih hs]
      · rename_i r after hr
        have hv : r.value? env = r.value? env' := by
          have : r ∈ references (c :: cs) := by simp [references, hr]
          simp only [Reference.value?, h r this]
        rw [hv]
        split <;> simp only [ih hs]

/-- The text with every reference replaced that has a value. -/
def substitute (env : String → Option String) (s : String) : String :=
  String.ofList (substituteFrom env 0 s.toList)

end Tabula.Config
