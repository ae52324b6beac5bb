import Tabula.Random.Digest

/-!
# The Mersenne twister

A `Twister` yields 32-bit words from 624 words of state. `Twister.ofText` seeds it from a
text and the digest of its bytes, `Twister.bits` draws a number of some bits and
`Twister.below` a number below a bound, drawing again while the number is too large.
-/

namespace Tabula.Random

/-- The words of the state. -/
def stateSize : Nat := 624

structure Twister where
  words : Array UInt32
  /-- The next word to yield. -/
  index : Nat
  deriving Inhabited

namespace Twister

/-- The words that follow from one word. -/
def spread (seed : UInt32) : Array UInt32 :=
  (List.range (stateSize - 1)).foldl
    (fun ws i =>
      let last : UInt32 := ws.getD i 0
      ws.push ((last ^^^ (last >>> 30)) * 1812433253 + UInt32.ofNat (i + 1)))
    #[seed]

/-- The state while a key is stirred in, with the place of the word to change. -/
structure Stirring where
  words : Array UInt32
  place : Nat

/-- Changes one word by the word before it. -/
def Stirring.step (s : Stirring) (factor : UInt32) (change : UInt32 → UInt32) : Stirring :=
  let before := s.words.getD (s.place - 1) 0
  let old := s.words.getD s.place 0
  let new := change (old ^^^ ((before ^^^ (before >>> 30)) * factor))
  let words := s.words.setIfInBounds s.place new
  if stateSize ≤ s.place + 1 then ⟨words.setIfInBounds 0 new, 1⟩ else ⟨words, s.place + 1⟩

/-- The twister of a key, a list of words that is not empty. -/
def ofKey (key : Array UInt32) : Twister :=
  let start : Stirring := ⟨spread 19650218, 1⟩
  let once := (List.range (max stateSize key.size)).foldl
    (fun s k =>
      let j := k % key.size
      s.step 1664525 fun w => w + key.getD j 0 + UInt32.ofNat j)
    start
  let twice := (List.range (stateSize - 1)).foldl
    (fun s _ => s.step 1566083941 fun w => w - UInt32.ofNat s.place) once
  ⟨twice.words.setIfInBounds 0 0x80000000, stateSize⟩

/-- The words of 32 bits of a number, the lowest first. `fuel` is at least their number. -/
def wordsOf : Nat → Nat → List UInt32
  | 0, _ => []
  | fuel + 1, n => if n = 0 then [] else UInt32.ofNat n :: wordsOf fuel (n / 2 ^ 32)

/-- The key of a text : the number that its bytes and their digest spell. -/
def keyOf (s : String) : Array UInt32 :=
  let bs := Text.utf8Encode s
  let n := (bs ++ digest512 bs).foldl (fun n b => n * 256 + b.toNat) 0
  let ws := wordsOf (bs.length + 64) n
  (if ws.isEmpty then [0] else ws).toArray

/-- The twister that a text seeds. -/
def ofText (s : String) : Twister := ofKey (keyOf s)

/-- What a word of the next round takes from two words that follow each other, whose bits are `y`. -/
def twist (y : UInt32) : UInt32 := (y >>> 1) ^^^ (if y &&& 1 = 0 then 0 else 0x9908B0DF)

/-- Makes a word of the next round in its place. -/
def renewAt (ws : Array UInt32) (k : Nat) : Array UInt32 :=
  let y := (ws.getD k 0 &&& 0x80000000) ||| (ws.getD ((k + 1) % stateSize) 0 &&& 0x7FFFFFFF)
  ws.setIfInBounds k (ws.getD ((k + 397) % stateSize) 0 ^^^ twist y)

/-- Makes the words of the next round, one after the other in their places. -/
def renew (ws : Array UInt32) : Array UInt32 := (List.range stateSize).foldl renewAt ws

/-- The word that is yielded for a word of the state. -/
def temper (y : UInt32) : UInt32 :=
  let y := y ^^^ (y >>> 11)
  let y := y ^^^ ((y <<< 7) &&& 0x9D2C5680)
  let y := y ^^^ ((y <<< 15) &&& 0xEFC60000)
  y ^^^ (y >>> 18)

/-- The next word. -/
def next (t : Twister) : UInt32 × Twister :=
  let t := if stateSize ≤ t.index then ⟨renew t.words, 0⟩ else t
  (temper (t.words.getD t.index 0), { t with index := t.index + 1 })

/-- A number of `k` bits, its low words drawn first and the last word cut from below. -/
def bitsFrom : Nat → Nat → Twister → Nat × Twister
  | 0, _, t => (0, t)
  | fuel + 1, k, t =>
    let (w, t) := t.next
    if k ≤ 32 then (w.toNat / 2 ^ (32 - k), t)
    else
      let (high, t) := bitsFrom fuel (k - 32) t
      (w.toNat + 2 ^ 32 * high, t)

/-- A number of `k` bits. -/
def bits (k : Nat) (t : Twister) : Nat × Twister := bitsFrom (k / 32 + 1) k t

/-- Draws numbers of `k` bits until one is below `n`, however many that takes. -/
def draw (k n : Nat) (t : Twister) : Nat × Twister :=
  Id.run <| repeatM (fun t =>
    let (r, t) := t.bits k
    pure <| if r < n then .inr (r, t) else .inl t) t

theorem draw_eq (k n : Nat) (t : Twister) :
    draw k n t = if (t.bits k).1 < n then t.bits k else draw k n (t.bits k).2 := by
  rw [draw, repeatM_eq_of_monadTail, repeatM.body]
  by_cases h : (t.bits k).1 < n <;> simp [h, draw]

/-- A number below `n`, which is not zero. -/
def below (n : Nat) (t : Twister) : Nat × Twister := draw (n.log2 + 1) n t

end Twister

end Tabula.Random
