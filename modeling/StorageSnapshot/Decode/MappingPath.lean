-- SUMMARY: Decoding the entries of mappings by their keys.
import StorageSnapshot.Decode.Value
import StorageSnapshot.Key

/-!
# Entries of mappings

A mapping does not tell which keys it has, but the value of a known key has a known slot. In nested
mappings every level takes a key, the outermost first.
-/

namespace StorageSnapshot.Decode

/-- Where the mapping `type` at a place keeps the value of a key. -/
def entryPlace (ctx : Context) (type keyType : Ty) (c : Cursor) (key : Datum) :
    Decoding Cursor := do
  let encoded ← (Key.encode ctx.resolver keyType key).rescue fun
    | .unresolved e => do
      checkName type
      giveUp ("Could not resolve the key type of " ++ type.source ++ " at " ++ c.text ++ ": " ++
        e.message)
    | fault => Traced.fail (.fault fault)
  let place := Cursor.fresh (c.slot.entry encoded)
  stepExcept (Fault.lift key.checkText)
  checkName type
  Traced.debug Topic.decoding ("entry " ++ key.quoted ++ " of " ++ type.source ++ " at " ++
    c.text ++ " lives at " ++ place.text)
  return place

/-- The type and the place of the value that nested mappings hold for keys, one for each level. -/
def followKeys (ctx : Context) : Ty → Cursor → List Datum → Decoding (Ty × Cursor)
  | t, c, [] => return (t, c)
  | t@(.mapping _ _ keyType value), c, key :: keys => do
    let place ← entryPlace ctx t keyType c key
    followKeys ctx value place keys
  | t, _, _ :: _ => stepExcept (.error (.broken (.levelWithoutKeys t)))

def checkKeys (type : Ty) (keys : List Datum) : Except Fault Unit :=
  if type.keyTypes.isEmpty then .error (.data (.notATable (.text type.source)))
  else if keys.length ≠ type.keyTypes.length then .error (.ofInput (.wrongKeyCount type keys))
  else .ok ()

/-- The value that a mapping holds for a path of keys, and the place behind the mapping. The value
is read by `decode`, which is told how many mappings are around it. -/
def mappingPathBy (decode : (depth : Int) → Nested) (ctx : Context) (type : Ty) (c : Cursor)
    (keys : List Datum) : Decoding (Decoded Value) := do
  stepExcept (checkFresh type c)
  stepExcept (checkKeys type keys)
  let (valueType, place) ← followKeys ctx type c keys
  let (v, _) ← decode keys.length valueType place
  return (v, c.nextWord)

def mappingPath (ctx : Context) : Ty → Cursor → List Datum → Decoding (Decoded Value) :=
  mappingPathBy (value ctx) ctx

/-- The value for a path of keys, decoded with bounded nesting. -/
def boundedMappingPath (ctx : Context) : Ty → Cursor → List Datum → Decoding (Decoded Value) :=
  mappingPathBy (boundedValue ctx) ctx

end StorageSnapshot.Decode
