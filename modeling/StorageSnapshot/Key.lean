-- SUMMARY: Mapping keys as the bytes that are hashed with the slot of the mapping.
import StorageSnapshot.Resolver

/-!
# Mapping keys

The key of a value type fills a word: numbers and addresses at its low-order end, byte strings at
its high-order end. Byte strings and texts of any length are taken as they are.
-/

namespace StorageSnapshot.Key

/-! ## Words -/

/-- The word of an integer. A negative one has its sign in every byte in front. -/
def wordOfInt (n : Int) : Bytes := Bytes.ofNat wordSize (n % Bytes.count wordSize).toNat

/-- The bytes of a key that must have `size` of them. -/
def sizedBytes (key : Datum) (size : Nat) (defect : KeyDefect) : Except Fault Bytes := do
  match ← Fault.lift (key.sizedBytes size) with
  | some raw => return raw
  | none => throw (.ofInput (.badKey key defect))

def encodeBool (key : Datum) : Except Fault Bytes :=
  match key, key.truth? with
  | .text _, none => .error (.input (.badKey key .notBool))
  | _, some b => .ok (wordOfInt (if b then 1 else 0))
  | _, none => .ok (wordOfInt (if key.isTruthy then 1 else 0))

/-- The word of an integer of `type` that is below `bound`, if there is one. -/
def encodeInt (key : Datum) (type : Ty) (ints : IntType) (bound : Option Nat) :
    Except Fault Bytes := do
  let n ← Fault.lift key.truncated
  let inBound := match bound with
    | none => true
    | some b => decide (n < b)
  if ints.fits n && inBound then return wordOfInt n
  else throw (.ofInput (.badKey key (.doesNotFit type)))

def encodeAddress (key : Datum) : Except Fault Bytes := do
  return Bytes.padLeft wordSize (← sizedBytes key addressSize .notAddress)

def encodeElementary (e : Elementary) (key : Datum) : Except Fault Bytes :=
  match e.shape with
  | .int t => encodeInt key (.elementary e) t none
  | .bool => encodeBool key
  | .fixedBytes size => do
    return Bytes.padRight wordSize (← sizedBytes key size (.wrongSize (.elementary e)))
  | .address => encodeAddress key
  | .bare => .error (.unsupported (.asKey (.elementary e)))

/-! ## Keys -/

/-- The bytes of a key, with every fault that the values and types in it can cause. -/
def encodeRaw (r : Resolver) (key : Datum) : Ty → Traced Fault Bytes
  | .aliasOf _ underlying => encodeRaw r key underlying
  | .aliasNode d node => do
    let e ← r.elementaryOfAlias d node
    encodeElementary e key
  | .elementary e => encodeElementary e key
  | .bytes | .string => Fault.lift key.textOrBytes
  | .contract .. => encodeAddress key
  | t@(.enum _ _ members) => encodeInt key t (Ty.ordinals members) (some members.length)
  | t => do
    Fault.lift t.checkName
    Traced.fail (.unsupported (.asKey t))

/-- A key that can't be converted is the user's error. -/
def refusal (type : Ty) (key : Datum) : Fault → Fault
  | .data e =>
    if e.nature = .wrongKind ∨ e.nature = .wrongValue then
      .ofInput (.badKey key (.notConvertible type e))
    else .data e
  | fault => fault

/-- The bytes of a key of type `type`. -/
def encode (r : Resolver) (type : Ty) (key : Datum) : Traced Fault Bytes :=
  (encodeRaw r key type).mapError (refusal type key)

end StorageSnapshot.Key
