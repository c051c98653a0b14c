-- SUMMARY: The compiler's encoding: what it means that a store holds a value of a type.
import StorageSnapshot.Proofs.Moves
import StorageSnapshot.Proofs.Utf8

/-!
# Encoding

The compiler lays values out by their types. Values of value types are packed into words from the
low-order end; structs and static arrays start at a fresh word, with their parts in order; dynamic
values have a header in their slot and their contents elsewhere. Whether a store holds a value is
defined by recursion on its type, without any decoding.
-/

namespace StorageSnapshot

/-! ## Bytes in a store -/

namespace Store

/-- Whether a word has these bytes above those that are used. -/
def HoldsPacked (s : Store) (p : Position) (raw : Bytes) : Prop :=
  p.used + raw.length ≤ wordSize ∧ ∃ w, s.wordAt p.slot = .ok w ∧
    (w.drop (wordSize - p.used - raw.length)).take raw.length = raw

/-- Whether the word at a slot is a number. -/
def HoldsNumber (s : Store) (slot n : Nat) : Prop :=
  ∃ w, s.wordAt slot = .ok w ∧ Bytes.toNat w = n

/-- The slot where the contents start whose header is at a slot: the digest of its 32 bytes. -/
@[irreducible] def contentsOf (slot : Nat) : Nat :=
  Bytes.toNat (Keccak.digest (Bytes.ofNat wordSize slot))

theorem contentsOf_mod (slot : Nat) : contentsOf slot % Slot.count = contentsOf slot := by
  have hlt := Bytes.toNat_lt (Keccak.digest (Bytes.ofNat wordSize slot))
  rw [Keccak.length_digest] at hlt
  rw [contentsOf]
  exact Nat.mod_eq_of_lt hlt

/-- Decoding looks for the contents where the compiler puts them. -/
theorem toNat_contents (slot : Slot) : slot.contents.toNat = contentsOf slot.toNat := by
  rw [← contentsOf_mod, contentsOf, Slot.contents, Slot.ofDigest, Slot.toNat_ofNat]
  rfl

theorem contentsOf_mod_count (slot : Nat) : contentsOf (slot % Slot.count) = contentsOf slot := by
  have hbytes : Bytes.ofNat wordSize (slot % Slot.count) = Bytes.ofNat wordSize slot := by
    refine Bytes.toNat_inj (by simp) ?_
    rw [Bytes.toNat_ofNat, Bytes.toNat_ofNat]
    exact Nat.mod_mod _ _
  rw [contentsOf, contentsOf, hbytes]

theorem toNat_contents_ofNat (slot : Nat) :
    (Slot.contents (BitVec.ofNat 256 slot)).toNat = contentsOf slot := by
  rw [toNat_contents, Slot.toNat_ofNat, contentsOf_mod_count]

/-- A byte string of at most 31 bytes stands in its slot, with twice its length in the last byte. -/
def HoldsShort (s : Store) (slot : Nat) (raw : Bytes) : Prop :=
  raw.length ≤ 31 ∧ ∃ w, s.wordAt slot = .ok w ∧ w.take raw.length = raw ∧
    Bytes.toNat w % 256 = 2 * raw.length

/-- A longer byte string stands elsewhere, and its slot holds twice its length plus one. -/
def HoldsLong (s : Store) (slot : Nat) (raw : Bytes) : Prop :=
  31 < raw.length ∧ s.HoldsNumber slot (2 * raw.length + 1) ∧
    ∀ i b, raw[i]? = some b → s.HasByte (contentsOf slot) i b

end Store

/-! ## The space of values -/

/-- The number of words that a row of elements takes. -/
def Space.fill (space : Space) (count : Nat) : Nat :=
  (Nat.repeat space.behind count ⟨0, 0⟩).freshWord.slot

/-- The space of a value type. -/
def Resolver.spaceOf (r : Resolver) (t : Ty) : Space :=
  match (r.sizeOf t).result with
  | .ok size => .bytes size
  | .error _ => .bytes 0

mutual

/-- The space that the compiler gives to values of a type. Unlike the decoder it gives a static
array all the words that its elements fill. -/
def Ty.space (r : Resolver) : Ty → Space
  | .bytes | .string | .mapping .. | .array _ _ _ none => .words 1
  | .array _ _ element (some length) => .words (max 1 ((element.space r).fill length.toNat))
  | .struct _ ms => .words (Member.allBehind r ms ⟨0, 0⟩).freshWord.slot
  | .elementary e => r.spaceOf (.elementary e)
  | .contract name reference => r.spaceOf (.contract name reference)
  | .enum d typeString members => r.spaceOf (.enum d typeString members)
  | .aliasOf d underlying => r.spaceOf (.aliasOf d underlying)
  | .aliasNode d node => r.spaceOf (.aliasNode d node)

/-- The position behind members that follow each other from a position on. -/
def Member.allBehind (r : Resolver) : List Member → Position → Position
  | [], p => p
  | m :: ms, p => Member.allBehind r ms ((m.space r).behind p)

def Member.space (r : Resolver) : Member → Space
  | .attached _ type => type.space r
  | .node .. => .words 0

end

/-! ## Values in a store -/

/-- Whether a store holds a value of a shape at a position. -/
def Shape.Holds (s : Store) : Shape → Position → Value → Prop
  | .int t, p, v => ∃ n, v = .int n ∧ t.fits n = true ∧ s.HoldsPacked p (t.encode n)
  | .bool, p, v => ∃ b : Bool, v = .bool b ∧ s.HoldsPacked p [if b then 1 else 0]
  | .fixedBytes size, p, v => ∃ raw, v = .fixedBytes raw ∧ raw.length = size ∧ s.HoldsPacked p raw
  | .address, p, v => ∃ a, v = .address a ∧ s.HoldsPacked p a.bytes
  | .bare, _, _ => False

/-- Whether elements follow each other from a position on, if `holds` says what holds each. -/
def Row (holds : Position → Value → Prop) (space : Space) : Position → List Value → Prop
  | _, [] => True
  | p, v :: vs => holds (space.start p) v ∧ Row holds space (space.behind p) vs

mutual

/-- Whether a store holds a value of a type at a position. -/
def Ty.Holds (r : Resolver) (s : Store) : Ty → Position → Value → Prop
  | .elementary e, p, v => e.shape.Holds s p v
  | .contract .., p, v => Shape.address.Holds s p v
  | .enum _ _ members, p, v => ∃ n : Nat, n < members.length ∧
    v = .enum n (Ty.memberAt? members n) ∧ s.HoldsPacked p ((Ty.ordinals members).encode n)
  | .aliasOf _ underlying, p, v => underlying.Holds r s p v
  | .aliasNode d node, p, v => ∃ e, (r.elementaryOfAlias d node).result = .ok e ∧
    e.shape.Holds s p v
  | .bytes, p, v => ∃ raw, v = .bytes raw ∧ (s.HoldsShort p.slot raw ∨ s.HoldsLong p.slot raw)
  | .string, p, v => ∃ text, v = .string (Text.spelled text) ∧
    (s.HoldsShort p.slot (Text.utf8 text) ∨ s.HoldsLong p.slot (Text.utf8 text))
  | .array _ _ element none, p, v => ∃ vs, v = .array vs ∧ s.HoldsNumber p.slot vs.length ∧
    Row (element.Holds r s) (element.space r) ⟨Store.contentsOf p.slot, 0⟩ vs
  | .array _ _ element (some length), p, v => ∃ vs, v = .array vs ∧ length = vs.length ∧
    Row (element.Holds r s) (element.space r) p vs
  | .struct _ ms, p, v => ∃ fs, v = .struct fs ∧ Member.AllHold r s ms p fs
  | .mapping .., _, _ => False

/-- Whether a store holds the fields of members that follow each other from a position on. -/
def Member.AllHold (r : Resolver) (s : Store) :
    List Member → Position → List (Datum × Value) → Prop
  | [], _, fs => fs = []
  | m :: ms, p, fs => ∃ v rest, fs = (m.name, v) :: rest ∧ m.Holds r s ((m.space r).start p) v ∧
    Member.AllHold r s ms ((m.space r).behind p) rest

def Member.Holds (r : Resolver) (s : Store) : Member → Position → Value → Prop
  | .attached _ type, p, v => type.Holds r s p v
  | .node .., _, _ => False

end

/-! ## Types and values -/

/-- Whether a static array fills no more than one word, as other types are not asked. -/
def Ty.FillsWord (r : Resolver) : Ty → Prop
  | .array _ _ element (some length) => (element.space r).fill length.toNat ≤ 1
  | _ => True

/-- The space that decoding is to pass over. An array is passed with the word of its slot. -/
def Ty.passed (r : Resolver) : Ty → Space
  | .array .. => .words 1
  | t => t.space r

mutual

/-- Whether a type is made of types whose values have an encoding that decoding passes over: there
are no mappings, all parts are attached, and static arrays inside of others fill one word. -/
def Ty.Storable (r : Resolver) : Ty → Prop
  | .array _ _ element _ => element.Storable r ∧ element.FillsWord r
  | .struct _ ms => Member.AllStorable r ms
  | .aliasOf _ underlying => underlying.Storable r
  | .aliasNode d node => ∃ e, (r.elementaryOfAlias d node).result = .ok e
  | .mapping .. => False
  | .elementary _ | .bytes | .string | .enum .. | .contract .. => True

def Member.AllStorable (r : Resolver) : List Member → Prop
  | [] => True
  | m :: ms => m.Storable r ∧ Member.AllStorable r ms

def Member.Storable (r : Resolver) : Member → Prop
  | .attached _ type => type.Storable r ∧ type.FillsWord r
  | .node .. => False

end

/-- Whether a byte string is short or has no more bytes than a container may have. -/
def Limits.AdmitsBytes (l : Limits) (length : Nat) : Prop := length ≤ 31 ∨ length ≤ l.maxLength

mutual

/-- Whether a value with `depth` composite values around it nests no deeper, and is no longer in any
part, than the limits admit. -/
def Value.Within (l : Limits) : Value → (depth : Int) → Prop
  | .array vs, depth =>
    depth ≤ l.maxDepth ∧ vs.length ≤ l.maxLength ∧ Value.AllWithin l vs (depth + 1)
  | .struct fs, depth => depth ≤ l.maxDepth ∧ Value.FieldsWithin l fs (depth + 1)
  | .bytes raw, depth => depth ≤ l.maxDepth ∧ l.AdmitsBytes raw.length
  | .string s, depth => depth ≤ l.maxDepth ∧ l.AdmitsBytes (Text.utf8 (Text.plain s)).length
  | .int _, depth | .bool _, depth | .fixedBytes _, depth | .address _, depth | .enum .., depth =>
    depth ≤ l.maxDepth

def Value.AllWithin (l : Limits) : List Value → (depth : Int) → Prop
  | [], _ => True
  | v :: vs, depth => v.Within l depth ∧ Value.AllWithin l vs depth

def Value.FieldsWithin (l : Limits) : List (Datum × Value) → (depth : Int) → Prop
  | [], _ => True
  | f :: fs, depth => Value.FieldWithin l f depth ∧ Value.FieldsWithin l fs depth

def Value.FieldWithin (l : Limits) : Datum × Value → (depth : Int) → Prop
  | (_, v), depth => v.Within l depth

end

end StorageSnapshot
