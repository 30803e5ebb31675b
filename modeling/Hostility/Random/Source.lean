import Hostility.Random.Keystream

/-!
The one random source of the engine and the draws made from it. Whole numbers come from a widening
product, with one more word when the low half is too close to overflowing to decide alone.
-/
namespace Hostility

/-- Where random words come from: a list read round and round, or a seeded stream. -/
inductive RandomSource where
  | cycle (words : List UInt64)
  | seeded (stream : Keystream)
  deriving DecidableEq

namespace RandomSource

def ofSeed (seed : UInt64) : RandomSource := .seeded (Keystream.ofSeed seed)

/-- The next 64-bit word. A stream gives its low half first. -/
def next64 : RandomSource → UInt64 × RandomSource
  | .cycle [] => (0, .cycle [])
  | .cycle (w :: ws) => (w, .cycle (ws ++ [w]))
  | .seeded s =>
    let (low, s) := s.next
    let (high, s) := s.next
    (high.toUInt64 <<< 32 ||| low.toUInt64, .seeded s)

/-- The next 32-bit word. A list gives the low half of a word and drops the rest. -/
def next32 : RandomSource → UInt32 × RandomSource
  | .cycle [] => (0, .cycle [])
  | .cycle (w :: ws) => (w.toUInt32, .cycle (ws ++ [w]))
  | .seeded s =>
    let (word, s) := s.next
    (word, .seeded s)

/-- A float in `[0, 1)` with 53 random bits. -/
def unit (r : RandomSource) : Float × RandomSource :=
  let (w, r) := r.next64
  ((w >>> 11).toFloat / 9007199254740992.0, r)

/-- A float in `[0, span)`: 52 random bits behind a leading one, less that one. -/
def within (r : RandomSource) (span : Float) : Float × RandomSource :=
  let (w, r) := r.next64
  let fraction := Float.ofBits ((0x3ff0000000000000 : UInt64) ||| w >>> 12) - 1.0
  (fraction * span + 0.0, r)

/-- The carry that a second word's product with `range` adds to a first one's. -/
def carry (modulus range low second : Nat) : Nat :=
  if modulus ≤ low + second * range / modulus then 1 else 0

/-- A whole number below `range`, from words of 64 bits. -/
def below64 (r : RandomSource) (range : Nat) : Nat × RandomSource :=
  let (w, r) := r.next64
  let product := w.toNat * range
  let high := product / UInt64.size
  let low := product % UInt64.size
  if UInt64.size - range < low then
    let (w', r) := r.next64
    (high + carry UInt64.size range low w'.toNat, r)
  else
    (high, r)

/-- A whole number below `range`, from words of 32 bits. -/
def below32 (r : RandomSource) (range : Nat) : Nat × RandomSource :=
  let (w, r) := r.next32
  let product := w.toNat * range
  let high := product / UInt32.size
  let low := product % UInt32.size
  if UInt32.size - range < low then
    let (w', r) := r.next32
    (high + carry UInt32.size range low w'.toNat, r)
  else
    (high, r)

end RandomSource

end Hostility
