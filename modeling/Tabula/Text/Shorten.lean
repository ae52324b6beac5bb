/-!
# Texts cut to a length

`shorten` takes the zero characters out of a text, which a store may not hold, and cuts
what is too long, three points standing for the rest. `chunks` cuts a list into pieces.
-/

namespace Tabula

namespace Text

/-- The first characters up to place `n`, a negative place counting from the end. -/
def upTo (n : Int) (cs : List Char) : List Char :=
  if n < 0 then cs.take (n + cs.length).toNat else cs.take n.toNat

/-- The text without zero characters, cut to `most` characters unless `most` is zero. -/
def shorten (most : Int) (s : String) : String :=
  let cs := s.toList.filter fun c => c.toNat ≠ 0
  if most ≠ 0 && most < cs.length then String.ofList (upTo (most - 3) cs ++ ['.', '.', '.'])
  else String.ofList cs

end Text

/-- The pieces of `size` items each, the last one perhaps smaller. `fuel` is at least the
number of items. -/
def chunksFrom {α : Type} (size : Nat) : Nat → List α → List (List α)
  | 0, _ => []
  | _ + 1, [] => []
  | fuel + 1, xs => xs.take size :: chunksFrom size fuel (xs.drop size)

/-- The pieces of `size` items each, `none` for the size zero. There are no pieces of a
negative size. -/
def chunks? {α : Type} (size : Int) (xs : List α) : Option (List (List α)) :=
  if size = 0 then none
  else if size < 0 then some []
  else some (chunksFrom size.toNat xs.length xs)

end Tabula
