-- SUMMARY: Decoding in the middle of a word: the types that refuse it, and the arrays that do not.
import StorageSnapshot.Proofs.Depth
import StorageSnapshot.Proofs.Writable

/-!
# The middle of a word

A value of a pointer type starts at a fresh word, and each decoder sees to this by itself. Structs
and byte strings check the place; the length of a dynamic array does not fit into what is left of a
word; a mapping has no contents. A static array checks nothing: it is up to its elements, and there
may be none, or values that share a word and are read wherever the array is said to start.
-/

namespace StorageSnapshot

/-- Whether an array does not mind where it starts: it is static, and has no elements or elements
that do not mind. -/
def Ty.readsMidWord : Ty → Bool
  | .array _ _ element (some n) => n ≤ 0 || !element.isPointer || element.readsMidWord
  | _ => false

namespace Decode

variable {ctx : Context} {nested : Nested} {limits : Limits} {depth : Int} {t : Ty} {c : Cursor}
  {halt : Halt}

/-! ## Refusals -/

/-- How decoding ends at a place in the middle of a word, by the type that is decoded there. -/
inductive Refused (limits : Limits) (c : Cursor) : Int → Ty → Halt → Prop
  | tooDeep {depth : Int} {t : Ty} (h : limits.maxDepth < depth) : Refused limits c depth t .abort
  | bytes {depth : Int} : Refused limits c depth .bytes (.fault (.layout (.notFresh .bytes c)))
  | string {depth : Int} : Refused limits c depth .string (.fault (.layout (.notFresh .string c)))
  | struct {depth : Int} (d : Declaration) (ms : List Member) :
    Refused limits c depth (.struct d ms) (.fault (.layout (.notFresh (.struct d ms) c)))
  | mapping {depth : Int} (typeString : Datum) (origin : Origin) (key value : Ty) :
    Refused limits c depth (.mapping typeString origin key value)
      (.fault (.unsupported (.mappingContents (.mapping typeString origin key value) c)))
  | length {depth : Int} (typeString : Datum) (origin : Origin) (element : Ty) :
    Refused limits c depth (.array typeString origin element none)
      (.fault (.layout (.outOfWord (.int .uint256) 32 c)))
  | tooLong {depth n : Int} (typeString : Datum) (origin : Origin) (element : Ty)
    (h : limits.length.exceededBy n = true) :
    Refused limits c depth (.array typeString origin element (some n)) .abort
  /-- An array that has elements is refused with the first of them. -/
  | element {depth n : Int} {halt : Halt} (typeString : Datum) (origin : Origin) {element : Ty}
    (hn : 0 < n) (h : Refused limits c (depth + 1) element halt) :
    Refused limits c depth (.array typeString origin element (some n)) halt

/-- No type has to be resolved for a refusal. -/
theorem Refused.settle_error {α : Type} (h : Refused limits c depth t halt) :
    settle (.error halt : Except Halt α) = .error halt := by
  induction h with
  | element _ _ _ _ ih => exact ih
  | _ => rfl

/-- What a decoder refuses is refused where it is called for a type. -/
theorem Refused.entering (h : Refused limits c depth t halt) (hname : t.checkName = .ok ())
    {body : Decoding (Decoded Value)} (hbody : body.result = .error halt) :
    ∃ halt, Refused limits c depth t halt ∧ (entering t c body).result = .error halt := by
  refine ⟨halt, h, ?_⟩
  rw [result_entering hname, hbody, h.settle_error]

/-! ## Decoders -/

theorem checkFresh_midWord (hc : c.isFresh = false) (hname : t.checkName = .ok ()) :
    checkFresh t c = .error (.layout (.notFresh t c)) := by
  rw [checkFresh, if_neg (by simp [hc]), hname]
  rfl

theorem byteString_midWord (hc : c.isFresh = false) (hname : t.checkName = .ok ()) :
    (byteString ctx t c).result = .error (.fault (.layout (.notFresh t c))) := by
  rw [byteString, Traced.result_bind, result_stepExcept, checkFresh_midWord hc hname]
  rfl

theorem struct_midWord (hc : c.isFresh = false) (hname : t.checkName = .ok ()) (ms : List Member) :
    (struct ctx nested t ms c).result = .error (.fault (.layout (.notFresh t c))) := by
  rw [struct, Traced.result_bind, result_stepExcept, checkFresh_midWord hc hname]
  rfl

/-- What is left of a word that is not fresh is less than a length takes. -/
theorem elementsOf_midWord (hc : c.isFresh = false) :
    (elementsOf ctx t none c).result =
      .error (.fault (.layout (.outOfWord (.int .uint256) 32 c))) := by
  have hsmall : c.free < IntType.uint256.size := by
    have hle := c.free_le
    simp only [Cursor.isFresh, wordSize, beq_eq_false_iff_ne] at hc
    change c.free < 32
    omega
  simp only [elementsOf, Traced.result_bind, result_stepExcept, integer, packedBytes, if_pos hsmall]
  rfl

/-- An array with elements comes to nothing if its first element does. -/
theorem array_midWord {element : Ty} {n : Int} (hlength : ctx.limits.length.exceededBy n = false)
    (hn : 0 < n) (h : (nested element c).result = .error halt) :
    (array ctx nested t element (some n) c).result = .error halt := by
  obtain ⟨count, hcount⟩ : ∃ count, n.toNat = count + 1 := ⟨n.toNat - 1, by omega⟩
  have hstart : (elementsOf ctx t (some n) c).result = .ok (count + 1, c) := by
    rw [elementsOf, hlength, if_neg Bool.false_ne_true, Traced.result_pure, hcount]
  rw [result_array, hstart, ok_bind, result_elements_succ, h]
  rfl

/-! ## Values -/

/--
In the middle of a word no type of the pointer types has a value, apart from the static arrays that
leave it to elements that are packed, or have none. What is refused breaks a limit or is a fault
that names the place.
-/
theorem value_midWord (ctx : Context) (depth : Int) (hc : c.isFresh = false) (t : Ty)
    (hpointer : t.isPointer = true) (hname : t.checkName = .ok ())
    (hreads : t.readsMidWord = false) :
    ∃ halt, Refused ctx.limits c depth t halt ∧ (value ctx depth t c).result = .error halt := by
  by_cases hdepth : depth ≤ ctx.limits.maxDepth
  · rw [value_eq_atType hdepth]
    match t with
    | .bytes =>
      refine Refused.bytes.entering hname ?_
      rw [Traced.result_bind, byteString_midWord hc hname]
      rfl
    | .string =>
      refine Refused.string.entering hname ?_
      rw [Traced.result_bind, byteString_midWord hc hname]
      rfl
    | .struct d ms => exact (Refused.struct d ms).entering hname (struct_midWord hc hname ms)
    | .mapping typeString origin key value =>
      exact (Refused.mapping typeString origin key value).entering hname rfl
    | .array typeString origin element none =>
      refine (Refused.length typeString origin element).entering hname ?_
      rw [result_array, elementsOf_midWord hc]
      rfl
    | .array typeString origin element (some n) =>
      simp only [Ty.readsMidWord, Bool.or_eq_false_iff, decide_eq_false_iff_not, Int.not_le,
        Bool.not_eq_false'] at hreads
      obtain ⟨⟨hn, hpointer⟩, hreads⟩ := hreads
      cases hlength : ctx.limits.length.exceededBy n with
      | true =>
        refine (Refused.tooLong typeString origin element hlength).entering hname ?_
        rw [result_array, elementsOf, if_pos hlength]
        rfl
      | false =>
        -- The first element starts where the array does, and is refused there.
        obtain ⟨halt, hrefused, hhalt⟩ :=
          value_midWord ctx (depth + 1) hc element hpointer (Ty.checkName_of_array hname) hreads
        exact (Refused.element typeString origin hn hrefused).entering hname
          (array_midWord hlength hn hhalt)
  · have hdeep : (ctx.limits.maxDepth : Int) < depth := Int.not_le.1 hdepth
    refine ⟨_, .tooDeep hdeep, ?_⟩
    rw [value_eq_tooDeep hdeep, tooDeep, Traced.result_bind, result_checkName hname]
    rfl

/-! ## Pairs that start in the middle of a word -/

namespace Pair

def middle : Cursor where
  slot := 0
  free := 24

def context : Context where
  store := { words := [(0, [9, 7] ++ Bytes.zeros 8)] }
  resolver := .plain
  limits := {}

def ofStrings : Ty := .array (.text "string[2]") ⟨none, .int 0⟩ .string (some 2)

def ofBytes : Ty := .array (.text "uint8[2]") ⟨none, .int 0⟩ (.int .uint8) (some 2)

end Pair

/-- Two strings are refused. -/
theorem value_midWord_strings :
    ∃ halt, Refused Pair.context.limits Pair.middle 3 Pair.ofStrings halt ∧
      (value Pair.context 3 Pair.ofStrings Pair.middle).result = .error halt :=
  value_midWord Pair.context 3 rfl Pair.ofStrings rfl rfl rfl

/-- Two bytes are read, although an array is no value that may share a word. -/
theorem bytes_read_midWord :
    Pair.ofBytes.isPointer = true ∧ Pair.middle.isFresh = false ∧
      (value Pair.context 0 Pair.ofBytes Pair.middle).result =
        .ok (.array [.int 7, .int 9], .fresh 1) :=
  ⟨rfl, rfl, rfl⟩

end Decode

end StorageSnapshot
