import Tabula.Value.Conversion

/-!
# Pages

A listing answers one page of rows. `parsePage` checks the limit and offset that a caller
gives against the configured limits; no limit and a blank one mean the default.
-/

namespace Tabula.Workspace

/-- The integer a caller gives. What is no integer is refused as such, infinity aside. -/
def pageInteger (v : Value) : Except Failure Int :=
  match v.toInteger with
  | .error (.fault .infiniteInteger) => .error (.fault .infiniteInteger)
  | .error _ => .error (.invalid .pageNotInteger)
  | .ok n => .ok n

/-- The limit a caller gives, or the configured one. -/
def chosenLimit (limit config : Value) : Except Failure Value :=
  if limit.isNull || limit.isText "" then do
    let n ← (← config.require "default_limit").toInteger
    return .int n
  else .ok limit

/-- The limit and offset of a page. -/
def parsePage (limit offset config : Value) : Except Failure (Int × Int) := do
  let most ← (← config.require "max_limit").toInteger
  let limit ← chosenLimit limit config
  let limit ← pageInteger limit
  let offset ← if offset.truthy then pageInteger offset else pure 0
  if !(1 ≤ limit && limit ≤ most) then throw (.invalid (.pageLimit most))
  if offset < 0 then throw (.invalid .pageOffset)
  return (limit, offset)

/-- What operations on behalf of an actor are configured with. -/
structure Settings where
  /-- The default and the greatest limit of a page. -/
  limits : Value
  /-- The rows that are inserted in one batch. -/
  insertBatch : Int
  deriving Repr

end Tabula.Workspace
