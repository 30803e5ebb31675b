/-!
The seeded stream of random words: a 64-bit seed is stretched into a 256-bit key, and the stream is
the twelve-round keystream of that key, block after block.
-/
namespace Hostility

structure Keystream where
  key : Vector UInt32 8
  position : Nat
  deriving DecidableEq

namespace Keystream

/-- The 64-bit congruential step that stretches a seed. -/
def advance (state : UInt64) : UInt64 := state * 6364136223846793005 + 11634580027462260723

def rotateLeft (x n : UInt32) : UInt32 := (x <<< n) ||| (x >>> (32 - n))

def rotateRight (x n : UInt32) : UInt32 := (x >>> n) ||| (x <<< (32 - n))

/-- One key word: the state folded onto 32 bits and rotated right by its top five bits. -/
def scramble (state : UInt64) : UInt32 :=
  rotateRight (((state >>> 18) ^^^ state) >>> 27).toUInt32 (state >>> 59).toUInt32

def states (state : UInt64) : Nat → List UInt64
  | 0 => []
  | n + 1 => advance state :: states (advance state) n

/-- The stream of a seed, at its start. -/
def ofSeed (seed : UInt64) : Keystream :=
  let words := (states seed 8).map scramble
  ⟨Vector.ofFn fun i => words.getD i 0, 0⟩

def quarterRound (v : Vector UInt32 16) (a b c d : Fin 16) : Vector UInt32 16 :=
  let v := v.set a (v[a] + v[b])
  let v := v.set d (rotateLeft (v[d] ^^^ v[a]) 16)
  let v := v.set c (v[c] + v[d])
  let v := v.set b (rotateLeft (v[b] ^^^ v[c]) 12)
  let v := v.set a (v[a] + v[b])
  let v := v.set d (rotateLeft (v[d] ^^^ v[a]) 8)
  let v := v.set c (v[c] + v[d])
  v.set b (rotateLeft (v[b] ^^^ v[c]) 7)

/-- A round over the columns, then one over the diagonals. -/
def doubleRound (v : Vector UInt32 16) : Vector UInt32 16 :=
  let v := quarterRound v 0 4 8 12
  let v := quarterRound v 1 5 9 13
  let v := quarterRound v 2 6 10 14
  let v := quarterRound v 3 7 11 15
  let v := quarterRound v 0 5 10 15
  let v := quarterRound v 1 6 11 12
  let v := quarterRound v 2 7 8 13
  quarterRound v 3 4 9 14

/-- The words a block starts from: four constants, the key, the block number and stream zero. -/
def start (key : Vector UInt32 8) (block : Nat) : Vector UInt32 16 :=
  #v[0x61707865, 0x3320646e, 0x79622d32, 0x6b206574,
    key[0], key[1], key[2], key[3], key[4], key[5], key[6], key[7],
    UInt32.ofNat block, UInt32.ofNat (block >>> 32), 0, 0]

def block (key : Vector UInt32 8) (number : Nat) : Vector UInt32 16 :=
  let v := start key number
  let mixed := doubleRound (doubleRound (doubleRound (doubleRound (doubleRound (doubleRound v)))))
  Vector.zipWith (· + ·) mixed v

/-- The word at the present place, and the place after it. -/
def next (s : Keystream) : UInt32 × Keystream :=
  ((block s.key (s.position / 16)).get ⟨s.position % 16, Nat.mod_lt _ (by decide)⟩,
    { s with position := s.position + 1 })

end Keystream

end Hostility
