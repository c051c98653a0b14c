-- SUMMARY: Decoding values of every type out of a store.
import StorageSnapshot.Decode.Packed
import StorageSnapshot.Limits
import StorageSnapshot.Text.Utf8

/-!
# Decoding

Decoding a value yields the value and the place behind it. It halts in one of two ways: it is given
up, for what storage holds or for what is not known of its type, with a warning that says why; or a
fault ends it, because types and places do not agree. A dynamic value is a header in its slot and
contents elsewhere, so what follows it starts at the next word.
-/

namespace StorageSnapshot

/-- What decoding reads besides a type and a place. -/
structure Context where
  store : Store
  resolver : Resolver
  limits : Limits

/-- Why decoding has no value. -/
inductive Halt where
  /-- The value was given up. The reason is in the trace. -/
  | abort
  | fault (f : Fault)

abbrev Decoding (α : Type) := Traced Halt α

namespace Decode

/-! ## Halting -/

/-- Gives the value up, with a warning. -/
def giveUp {α : Type} (reason : String) : Decoding α := do
  Traced.warning Topic.decoding reason
  Traced.fail .abort

/-- A step that does not give up. -/
def step {α : Type} (x : Traced Fault α) : Decoding α := x.mapError .fault

def stepExcept {α : Type} (x : Except Fault α) : Decoding α := step (Traced.ofExcept x)

/-- What is said of a type needs its name. -/
def checkName (type : Ty) : Decoding Unit := stepExcept (Fault.lift type.checkName)

def checkFresh (type : Ty) (c : Cursor) : Except Fault Unit :=
  if c.isFresh then .ok ()
  else do
    Fault.lift type.checkName
    throw (.layout (.notFresh type c))

def limitReason (subject : String) (length : Int) (limit : Bound) : String :=
  subject ++ " has length " ++ Text.decimal length ++ ", more than the limit of " ++ limit.text

/-! ## Byte strings -/

/--
The contents of a byte string. Up to 31 bytes stand in the slot itself with twice the length in its
last byte; longer contents start at the digest of the slot, which holds twice the length plus one.
-/
def byteString (ctx : Context) (type : Ty) (c : Cursor) : Decoding (Decoded Bytes) := do
  stepExcept (checkFresh type c)
  let header ← stepExcept (ctx.store.word c.slot.toNat)
  let subject := type.source ++ " at " ++ c.slot.text
  let low := header.toNat % 256
  if low % 2 = 0 then
    let length := low / 2
    if length > 31 then
      giveUp (subject ++ " has short length " ++ Text.decimal length ++
        ", more than the limit of 31")
    else return (header.take length, c.nextWord)
  else
    let length := (header.toNat - 1) / 2
    if ctx.limits.length.exceededBy length then
      giveUp (limitReason subject length ctx.limits.length)
    else
      let contents ← stepExcept (ctx.store.read c.slot.contents.toNat 0 length)
      return (contents, c.nextWord)

/-! ## Arrays and structs -/

/-- How the parts of a composite value are decoded. -/
abbrev Nested := Ty → Cursor → Decoding (Decoded Value)

/-- The values of `count` elements from a place on, behind those in `done`, the last of which
stands first there. -/
def elements (ctx : Context) (nested : Nested) (type : Ty) :
    (count : Nat) → (done : List Value) → Cursor → Decoding (List Value)
  | 0, done, _ => return done.reverse
  | count + 1, done, c => do
    let (v, next) ← nested type c
    let place ← step (ctx.resolver.place type next)
    elements ctx nested type count (v :: done) place

/-- The number of elements of an array, and where they start. -/
def elementsOf (ctx : Context) (type : Ty) (length : Option Int) (c : Cursor) :
    Decoding (Nat × Cursor) := do
  match length with
  | none =>
    let (n, _) ← stepExcept (integer ctx.store .uint256 c)
    if ctx.limits.length.exceededBy n then
      giveUp (limitReason (type.source ++ " at " ++ c.slot.text) n ctx.limits.length)
    else return (n.toNat, .fresh c.slot.contents)
  | some n =>
    if ctx.limits.length.exceededBy n then
      giveUp (limitReason type.source n ctx.limits.length)
    else return (n.toNat, c)

def array (ctx : Context) (nested : Nested) (type element : Ty) (length : Option Int) (c : Cursor) :
    Decoding (Decoded Value) := do
  let (count, start) ← elementsOf ctx type length c
  return (.array (← elements ctx nested element count [] start), c.nextWord)

/-- The fields of members from a place on, behind those in `done`, the last of which stands first
there. -/
def fields (ctx : Context) (nested : Nested) :
    (done : List (Datum × Value)) → List Member → Cursor →
      Decoding (Decoded (List (Datum × Value)))
  | done, [], c => return (done.reverse, c)
  | done, m :: ms, c => do
    let type ← step (ctx.resolver.memberType m)
    let place ← step (ctx.resolver.place type c)
    let (v, next) ← nested type place
    fields ctx nested ((m.name, v) :: done) ms next

/-- The members of a struct follow each other from its slot on; what follows it is rounded up. -/
def struct (ctx : Context) (nested : Nested) (type : Ty) (members : List Member) (c : Cursor) :
    Decoding (Decoded Value) := do
  stepExcept (checkFresh type c)
  let (fs, next) ← fields ctx nested [] members c
  return (.struct fs, next.roundUp)

/-! ## Values -/

/-- Decodes at a type: a part of it that does not resolve gives up the value as a whole. -/
def entering (type : Ty) (c : Cursor) (body : Decoding (Decoded Value)) :
    Decoding (Decoded Value) := do
  checkName type
  Traced.debug Topic.decoding ("decoding " ++ type.source ++ " at " ++ c.text)
  body.rescue fun
    | .fault (.unresolved e) =>
      giveUp ("Could not resolve the type of a part of " ++ type.source ++ " at " ++ c.text ++
        ": " ++ e.message)
    | halt => Traced.fail halt

/-- Decodes a value whose parts are decoded by `nested`. -/
def atType (ctx : Context) (nested : Nested) : Ty → Cursor → Decoding (Decoded Value)
  | t@(.elementary e), c => entering t c (stepExcept (elementary ctx.store e c))
  | t@(.contract ..), c => entering t c (stepExcept (address ctx.store t c))
  | t@(.enum _ _ members), c => entering t c (stepExcept (enum ctx.store members c))
  | t@(.aliasOf _ underlying), c => entering t c (atType ctx nested underlying c)
  | t@(.aliasNode d node), c => entering t c do
    let e ← step (ctx.resolver.elementaryOfAlias d node)
    entering (.elementary e) c (stepExcept (elementary ctx.store e c))
  | .bytes, c => entering .bytes c do
    let (raw, next) ← byteString ctx .bytes c
    return (.bytes raw, next)
  | .string, c => entering .string c do
    let (raw, next) ← byteString ctx .string c
    return (.string (Text.decodeUtf8 raw), next)
  | t@(.array _ _ element length), c => entering t c (array ctx nested t element length c)
  | t@(.struct _ members), c => entering t c (struct ctx nested t members c)
  | t@(.mapping ..), c => entering t c (Traced.fail (.fault (.unsupported (.mappingContents t c))))

/-- Decodes a value that may nest less than `budget` deep. What is deeper is left to `deeper`. -/
def within (ctx : Context) (deeper : Nested) : (budget : Nat) → Nested
  | 0, t, c => deeper t c
  | budget + 1, t, c => atType ctx (within ctx deeper budget) t c

/-- Gives up a value for its depth. -/
def tooDeep (ctx : Context) : Nested := fun t c => do
  checkName t
  giveUp ("Nesting of " ++ t.source ++ " at " ++ c.text ++ " is deeper than the limit of " ++
    ctx.limits.depth.text)

/-- How deep a value may nest that has `depth` composite values around it. -/
def budget (ctx : Context) (depth : Int) : Nat := (ctx.limits.maxDepth + 1 - depth).toNat

/-- Decodes a value that has `depth` composite values around it. -/
def value (ctx : Context) (depth : Int) (t : Ty) (c : Cursor) : Decoding (Decoded Value) :=
  within ctx (tooDeep ctx) (budget ctx depth) t c

/-! ## Bounded nesting -/

/-- The most values that a run can decode inside of each other. -/
def mostNested : Nat := 491

/-- Decodes a value as `value` does, but follows no more than `mostNested` values inside of each
other: one that is deeper and within the limit is a fault. -/
def boundedValue (ctx : Context) (depth : Int) (t : Ty) (c : Cursor) : Decoding (Decoded Value) :=
  if budget ctx depth ≤ mostNested then value ctx depth t c
  else within ctx (fun _ _ => Traced.fail (.fault (.data .nestedTooDeep))) mostNested t c

theorem boundedValue_eq_value {ctx : Context} {depth : Int} (h : budget ctx depth ≤ mostNested)
    (t : Ty) (c : Cursor) : boundedValue ctx depth t c = value ctx depth t c :=
  if_pos h

end Decode

end StorageSnapshot
