-- SUMMARY: The Keccak sponge with 256 bits of output, which places dynamic data in storage.
import StorageSnapshot.Bytes

/-!
# Keccak

The state is a square of five by five lanes of 64 bits. A message is padded to blocks of 136 bytes,
which are added to the state one after another with a permutation behind each; the digest is the
first four lanes. Lane `(x, y)` has index `x + 5 * y`, and coordinates count modulo five.
-/

namespace StorageSnapshot.Keccak

abbrev State := Vector UInt64 25

def lane (s : State) (x y : Nat) : UInt64 :=
  s.get ⟨x % 5 + 5 * (y % 5), by omega⟩

/-- The state whose lane `(x, y)` is `f x y`. -/
def State.ofLanes (f : Nat → Nat → UInt64) : State := Vector.ofFn fun i => f (i % 5) (i / 5)

def rotate (x : UInt64) (n : Nat) : UInt64 :=
  (x <<< UInt64.ofNat n) ||| (x >>> UInt64.ofNat (64 - n))

/-! ## The permutation -/

/-- Adds to every lane the parities of two columns next to it. -/
def mixColumns (s : State) : State :=
  let parity : Vector UInt64 5 := Vector.ofFn fun x =>
    lane s x 0 ^^^ lane s x 1 ^^^ lane s x 2 ^^^ lane s x 3 ^^^ lane s x 4
  let column (x : Nat) : UInt64 := parity.get ⟨x % 5, by omega⟩
  State.ofLanes fun x y => lane s x y ^^^ column (x + 4) ^^^ rotate (column (x + 1)) 1

/-- How far the lane with each index turns. -/
def turns : Vector Nat 25 :=
  #v[0, 1, 62, 28, 27, 36, 44, 6, 55, 20, 3, 10, 43, 25, 39, 41, 45, 15, 21, 8, 18, 2, 61, 56, 14]

/-- Turns every lane and moves it to its place: lane `(x, y)` goes to `(y, 2 * x + 3 * y)`. -/
def moveLanes (s : State) : State :=
  let turned : State := Vector.ofFn fun i => if turns[i] = 0 then s[i] else rotate s[i] turns[i]
  State.ofLanes fun x y => lane turned (x + 3 * y) x

/-- Combines every lane with the two behind it in its row. -/
def mixRows (s : State) : State :=
  State.ofLanes fun x y => lane s x y ^^^ (~~~ lane s (x + 1) y &&& lane s (x + 2) y)

def roundConstants : List UInt64 :=
  [0x0000000000000001, 0x0000000000008082, 0x800000000000808a, 0x8000000080008000,
    0x000000000000808b, 0x0000000080000001, 0x8000000080008081, 0x8000000000008009,
    0x000000000000008a, 0x0000000000000088, 0x0000000080008009, 0x000000008000000a,
    0x000000008000808b, 0x800000000000008b, 0x8000000000008089, 0x8000000000008003,
    0x8000000000008002, 0x8000000000000080, 0x000000000000800a, 0x800000008000000a,
    0x8000000080008081, 0x8000000000008080, 0x0000000080000001, 0x8000000080008008]

def round (s : State) (constant : UInt64) : State :=
  let t := mixRows (moveLanes (mixColumns s))
  t.set 0 (t[0] ^^^ constant)

def permute (s : State) : State := roundConstants.foldl round s

/-! ## The sponge -/

/-- The number of bytes of a block. -/
def rate : Nat := 136

/-- A one bit behind the message, and one at the end of the last block. -/
def pad (message : Bytes) : Bytes :=
  let missing := rate - message.length % rate
  if missing = 1 then message ++ [0x81]
  else message ++ [0x01] ++ Bytes.zeros (missing - 2) ++ [0x80]

/-- The lane whose bytes these are, the lowest one first. -/
def laneOfBytes (b : Bytes) : UInt64 := b.foldr (fun x l => (l <<< 8) ||| x.toUInt64) 0

def bytesOfLane (l : UInt64) : Bytes :=
  (List.range 8).map fun i => (l >>> UInt64.ofNat (8 * i)).toUInt8

def absorb (s : State) (block : Bytes) : State :=
  permute (Vector.ofFn fun i => s[i] ^^^ laneOfBytes ((block.drop (8 * i)).take 8))

/-- The blocks of a padded message, one after another. -/
def blocks (padded : Bytes) : List Bytes :=
  (List.range (padded.length / rate)).map fun i => (padded.drop (rate * i)).take rate

def digest (message : Bytes) : Bytes :=
  let s := (blocks (pad message)).foldl absorb (Vector.replicate 25 0)
  (s.toList.take 4).flatMap bytesOfLane

@[simp] theorem length_bytesOfLane (l : UInt64) : (bytesOfLane l).length = 8 := by
  simp [bytesOfLane]

@[simp] theorem length_digest (message : Bytes) : (digest message).length = 32 := by
  simp [digest, List.length_flatMap, List.map_const']

end StorageSnapshot.Keccak
