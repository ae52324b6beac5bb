import Tabula.Failure

/-!
# Batches of a range

The rows of a job from an offset on are cut into batches of one size, the last one perhaps
smaller. A `Descriptor` says where a batch lies; its index is its place in the whole job.
-/

namespace Tabula

/-- Where a batch lies. -/
structure Descriptor where
  offset : Int
  size : Int
  index : Int
  deriving DecidableEq, Repr

/-- The batches from an offset on. `fuel` is at least their number. -/
def descriptorsFrom (size total : Int) : Nat → Int → List Descriptor
  | 0, _ => []
  | fuel + 1, offset =>
    if offset < total then
      let n := min size (total - offset)
      ⟨offset, n, offset.fdiv size⟩ :: descriptorsFrom size total fuel (offset + n)
    else []

/-- The batches that cover the rows from `processed` up to `total`. -/
def descriptors (processed size total : Int) : Except Failure (List Descriptor) :=
  if size ≤ 0 then .error (.invalid .batchSize)
  else
    let offset := max 0 processed
    .ok (descriptorsFrom size total (total - offset).toNat offset)

end Tabula
