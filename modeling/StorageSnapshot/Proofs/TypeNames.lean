-- SUMMARY: The nodes of type expressions resolve to the types of the expressions, at every depth.
import StorageSnapshot.Proofs.HexText
import StorageSnapshot.Proofs.TypeExpr

/-!
# Type names

Resolving undoes writing: whatever node writes a type expression resolves to the type of the
expression, and the type is spelled as the expression is. Every expression has such a node if the
definitions that it names can be found.
-/

namespace StorageSnapshot

open Ast (Members)

/-! ## Keywords -/

namespace Shape

/-- Of each size there are two integer shapes and one of byte strings. -/
theorem mem_all {size : Nat} (hpos : 0 < size) (hle : size ≤ 32) {s : Shape}
    (h : s ∈ [.int ⟨false, size, hpos, hle⟩, .int ⟨true, size, hpos, hle⟩, .fixedBytes size]) :
    s ∈ all := by
  obtain ⟨i, rfl⟩ : ∃ i, size = i + 1 := ⟨size - 1, by omega⟩
  refine List.mem_cons_of_mem _ (List.mem_cons_of_mem _ (List.mem_flatMap.2 ⟨⟨i, hle⟩, ?_, h⟩))
  exact List.mem_finRange _

theorem int_mem_all (t : IntType) : .int t ∈ all := by
  obtain ⟨signed, size, hpos, hle⟩ := t
  exact mem_all hpos hle (by cases signed <;> simp)

/-- The name of a shape is a keyword that stands for no other, and names this shape only. -/
theorem ofName?_name {s : Shape} (h : s ∈ all) :
    Elementary.canonicalName s.name = s.name ∧ ofName? s.name = some s := by
  have hall : ∀ s ∈ all, Elementary.canonicalName s.name = s.name ∧ ofName? s.name = some s := by
    decide +kernel
  exact hall s h

theorem ofName?_bytes : ofName? "bytes" = none := by decide +kernel

theorem ofName?_string : ofName? "string" = none := by decide +kernel

end Shape

namespace Keyword

theorem shape_mem_all (k : Keyword) : k.shape ∈ Shape.all := by
  cases k with
  | sized t => exact Shape.int_mem_all t
  | uint | int => exact Shape.int_mem_all _
  | bool | address => simp [shape, Shape.all]
  | fixedBytes _ hpos hle => exact Shape.mem_all hpos hle (by simp [shape])
  | byte => exact Shape.mem_all (by decide : 0 < 1) (by decide) (by simp [shape])

theorem canonicalName_text (k : Keyword) : Elementary.canonicalName k.text = k.shape.name := by
  have hfull := (Shape.ofName?_name k.shape_mem_all).1
  cases k with
  | uint | int | byte => decide
  | _ => exact hfull

/-- A keyword names its shape. -/
theorem ofName?_text (k : Keyword) (typeString : Datum) :
    Elementary.ofName? k.text typeString = some ⟨k.shape.name, typeString, k.shape⟩ := by
  rw [Elementary.ofName?, k.canonicalName_text, (Shape.ofName?_name k.shape_mem_all).2]
  rfl

end Keyword

/-! ## Spelling -/

theorem Heading.qualifiedName_declaration (h : Heading) :
    Ty.qualifiedName h.declaration = .text h.qualifiedName := by
  obtain ⟨name, canonicalName, _ | outer, reference⟩ := h <;> rfl

theorem Heading.isWritable_declaration (h : Heading) : h.declaration.IsWritable := by
  refine ⟨rfl, fun outer houter => ?_⟩
  obtain ⟨_, -, rfl⟩ := Option.map_eq_some_iff.1 houter
  rfl

theorem Definition.called_type (d : Definition) : d.type.called = .text d.source := by
  cases d with
  | enum h | valueType h => exact h.qualifiedName_declaration
  | struct | contract => rfl

theorem Definition.isWritten_type (d : Definition) : Ast.IsWritten d.type where
  checkCalled := by
    cases d with
    | enum h | valueType h => exact h.isWritable_declaration.checkQualifiedName
    | struct | contract => rfl
  isText := ⟨_, d.called_type⟩
  name := by cases d <;> rfl

namespace TypeExpr

theorem called_type (e : TypeExpr) : e.type.called = .text e.source := by
  induction e with
  | elementary | bytes | string => rfl
  | mapping notes key value ihkey ihvalue =>
    rw [type, Ty.called, ihkey, ihvalue]
    rfl
  | array notes element length ih =>
    rw [type, Ty.called, ih]
    cases length with
    | none => rfl
    | some n => simp [Ty.brackets, source, String.append_assoc]
  | named definition => exact definition.called_type

theorem isWritten_type {e : TypeExpr} (h : e.IsWritable) : Ast.IsWritten e.type := by
  induction e with
  | elementary | bytes | string => exact ⟨rfl, ⟨_, rfl⟩, rfl⟩
  | mapping notes key value ihkey ihvalue => exact (ihkey h.1).mapping (ihvalue h.2) _ _
  | array notes element length ih =>
    refine (ih h.1).array rfl _ fun n hn => ?_
    obtain ⟨n, hlength, rfl⟩ := Option.map_eq_some_iff.1 hn
    exact h.2 n hlength
  | named definition => exact definition.isWritten_type

/-- The type of an expression is spelled as the expression is. -/
theorem writtenSource_type {e : TypeExpr} (h : e.IsWritable) :
    e.type.writtenSource = .ok e.source := by
  rw [Ty.writtenSource, (isWritten_type h).checkName, ok_bind, Ty.source, e.called_type]
  rfl

end TypeExpr

/-! ## Reading nodes -/

namespace Ast

variable {lookup : Lookup} {ms : Members} {node v : Datum} {name : String}

theorem require_eq_ok (h : Datum.find? name ms = some v) : require (.object ms) name = .ok v := by
  rw [require, h]

theorem field_eq_ok (h : Datum.find? name ms = some v) : field (.object ms) name = .ok v := by
  rw [field, h]
  rfl

theorem child_eq_ok (h : Datum.find? name ms = some v) :
    ∃ inner, child (.object ms) name = .ok inner ∧ inner.val = v := by
  unfold child
  dsimp only
  split
  next w hw =>
    cases h.symm.trans hw
    exact ⟨_, rfl, rfl⟩
  next hw => cases h.symm.trans hw

theorem hasNodeType_eq {kind : String} (h : Datum.find? "nodeType" ms = some (.text kind))
    (t : String) : hasNodeType (.object ms) t = (kind == t) := by
  rw [Bool.eq_iff_iff, hasNodeType_eq_true, h]
  simp

theorem HoldsText.field {s : Option String} (h : HoldsText ms name s) :
    field (.object ms) name = .ok (s.elim .null .text) := congrArg Except.ok h

theorem HoldsText.contract? {s : Option String} (h : HoldsText ms contractMark s) :
    contract? (.object ms) = .ok (s.map .text) := by
  rw [Ast.contract?, h.field, ok_bind]
  cases s <;> rfl

theorem HoldsTypeString.typeStringOr {given : Option String} (h : HoldsTypeString ms given)
    (other : String) :
    typeStringOr (.object ms) (.ok other) = .ok (typeStringFrom given other) := by
  have hgiven : typeString (.object ms) = .ok (given.elim .null .text) := by
    rw [typeString]
    rcases h with ⟨hnone, rfl⟩ | ⟨descriptions, hsome, htext⟩
    · rw [hnone]
      rfl
    · rw [hsome]
      exact htext.field
  rw [Ast.typeStringOr, hgiven, ok_bind]
  cases given with
  | none => rfl
  | some s =>
    by_cases hs : s = ""
    · subst hs
      rfl
    · have hkept : (some s).filter (· ≠ "") = some s := by simp [Option.filter, hs]
      have htruthy : (Datum.text s).isTruthy = true := by simpa [Datum.isTruthy] using hs
      rw [typeStringFrom, hkept]
      exact if_pos htruthy

theorem HoldsNotes.originOfNode {notes : Notes} (h : HoldsNotes ms notes) :
    originOfNode (.object ms) = .ok notes.origin := by
  rw [Ast.originOfNode, h.contract.contract?, ok_bind]
  simp only [has, field, h.reference]
  rw [Notes.origin]
  cases notes.reference <;> rfl

/-! ## Definitions -/

theorem itemsOf_eq_ok {items : List Datum} (h : Datum.find? name ms = some (.list items)) :
    itemsOf (.object ms) name = .ok items := by
  rw [itemsOf, require_eq_ok h]
  rfl

theorem HoldsHeading.enumOfNode {h : Heading} {typeString : Option String} {items : List Datum}
    {members : List String} (hheading : HoldsHeading ms h)
    (htypeString : HoldsTypeString ms typeString)
    (hitems : Datum.find? "members" ms = some (.list items))
    (hmembers : List.Forall₂ IsNamed items members) :
    enumOfNode (.object ms) = .ok (Definition.enum h typeString members).type := by
  have hnames : items.mapM (fun m => require m "name") = .ok (members.map .text) := by
    rw [mapM_eq_ok_iff, List.forall₂_map_right_iff]
    refine hmembers.imp ?_
    rintro _ _ ⟨ms, rfl, hname⟩
    exact require_eq_ok hname
  have hdefault : (do
      (Datum.text h.canonicalName).checkText
      return "enum " ++ h.canonicalName : Except DataError String) =
      .ok ("enum " ++ h.canonicalName) := rfl
  rw [Ast.enumOfNode, require_eq_ok hheading.canonicalName, ok_bind, require_eq_ok hheading.name,
    ok_bind, Datum.display_text, hdefault, htypeString.typeStringOr, ok_bind, itemsOf_eq_ok hitems,
    ok_bind, hnames, ok_bind, hheading.contract.contract?, ok_bind,
    require_eq_ok hheading.reference]
  rfl

theorem HoldsHeading.structOfNode {h : Heading} {items : List Datum}
    {members : List (String × Datum)} (hheading : HoldsHeading ms h)
    (hitems : Datum.find? "members" ms = some (.list items))
    (hmembers : List.Forall₂ IsTyped items members) :
    structOfNode (.object ms) = .ok (Definition.struct h members).type := by
  have hparts : items.mapM memberOfNode =
      .ok (members.map fun m => .node (.text m.1) m.2) := by
    rw [mapM_eq_ok_iff, List.forall₂_map_right_iff]
    refine hmembers.imp ?_
    rintro _ ⟨name, typeName⟩ ⟨ms, rfl, hname, htypeName, _, rfl⟩
    rw [memberOfNode, require_eq_ok hname, ok_bind, require_eq_ok htypeName]
    rfl
  rw [Ast.structOfNode, require_eq_ok hheading.canonicalName, ok_bind, require_eq_ok hheading.name,
    ok_bind, itemsOf_eq_ok hitems, ok_bind, hparts, ok_bind, hheading.contract.contract?, ok_bind,
    require_eq_ok hheading.reference]
  rfl

theorem HoldsHeading.aliasOfNode {h : Heading} {underlying : Datum}
    (hheading : HoldsHeading ms h)
    (hunderlying : Datum.find? "underlyingType" ms = some underlying)
    (hobject : IsObject underlying) :
    aliasOfNode (.object ms) = .ok (Definition.valueType h underlying).type := by
  obtain ⟨_, rfl⟩ := hobject
  rw [Ast.aliasOfNode, require_eq_ok hheading.name, ok_bind, require_eq_ok hheading.canonicalName,
    ok_bind, hheading.contract.contract?, ok_bind, require_eq_ok hheading.reference, ok_bind,
    require_eq_ok hunderlying]
  rfl

theorem typeKind?_eq {kind : DeclarationKind} (hkind : kind ∈ DeclarationKind.types)
    (h : Datum.find? "nodeType" ms = some (.text kind.nodeType)) :
    typeKind? (.object ms) = some kind := by
  have hall : ∀ kind ∈ DeclarationKind.types,
      DeclarationKind.types.find? (fun other => kind.nodeType == other.nodeType) = some kind := by
    decide
  rw [typeKind?]
  simp only [hasNodeType_eq h]
  exact hall kind hkind

/-- A node that makes a definition gives its type. -/
theorem Defines.typeOfDefinition {d : Definition} (h : Defines ms d) :
    typeOfDefinition (.object ms) = .ok d.type := by
  rw [Ast.typeOfDefinition]
  cases h with
  | enum hkind hheading htypeString hitems hmembers =>
    have hdefines : typeKind? (.object ms) = some .enum := typeKind?_eq (by decide) hkind
    simp only [field_eq_ok hkind, ok_bind, hdefines]
    exact hheading.enumOfNode htypeString hitems hmembers
  | struct hkind hheading hitems hmembers =>
    have hdefines : typeKind? (.object ms) = some .struct := typeKind?_eq (by decide) hkind
    simp only [field_eq_ok hkind, ok_bind, hdefines]
    exact hheading.structOfNode hitems hmembers
  | valueType hkind hheading hunderlying hobject =>
    have hdefines : typeKind? (.object ms) = some .valueType := typeKind?_eq (by decide) hkind
    simp only [field_eq_ok hkind, ok_bind, hdefines]
    exact hheading.aliasOfNode hunderlying hobject
  | contract hkind hname hreference =>
    have hdefines : typeKind? (.object ms) = some .contract := typeKind?_eq (by decide) hkind
    simp only [field_eq_ok hkind, ok_bind, hdefines, contractOfNode, require_eq_ok hname,
      require_eq_ok hreference]
    rfl

/-! ## Lengths -/

theorem IsLiteral.lengthLiteral {n : Nat} (h : IsLiteral ms n) :
    lengthLiteral lookup (.object ms) = .ok (.object ms) := by
  rw [Ast.lengthLiteral, field_eq_ok h.kind, ok_bind, if_neg]
  · rfl
  · rintro ⟨hname, -⟩
    exact absurd hname (by decide)

/-- What the literal says to which a length leads is the length. -/
theorem lengthOfNode_of_literal {length literal : Members} {n : Nat}
    (hlength : Datum.find? "length" ms = some (.object length))
    (hnode : lengthLiteral lookup (.object length) = .ok (.object literal))
    (hliteral : IsLiteral literal n) : lengthOfNode lookup (.object ms) = .ok (some (n : Int)) := by
  obtain ⟨s, hvalue, hs⟩ := hliteral.numeral
  have hhas : has (.object literal) "value" = true := by
    rw [has, hvalue]
    rfl
  rw [lengthOfNode, field_eq_ok hlength, ok_bind]
  simp only [hnode, ok_bind, hhas, Bool.not_true, Bool.false_eq_true, if_false,
    field_eq_ok hvalue, Text.toInteger_of_isNumeral hs]
  rfl

theorem HoldsLength.lengthOfNode {length : Option Nat} (h : HoldsLength lookup ms length) :
    lengthOfNode lookup (.object ms) = .ok (length.map Int.ofNat) := by
  cases h with
  | dynamic hlength =>
    rw [Ast.lengthOfNode, field, hlength, ok_bind]
    rfl
  | literal hlength hliteral =>
    exact lengthOfNode_of_literal hlength hliteral.lengthLiteral hliteral
  | constant hlength hkind hreference hlookup hconstant hvalue hliteral =>
    refine lengthOfNode_of_literal hlength ?_ hliteral
    rw [lengthLiteral, field_eq_ok hkind, ok_bind, if_pos ⟨rfl, by rw [has, hreference]; rfl⟩,
      field_eq_ok hreference, ok_bind, hlookup, ok_bind, field_eq_ok hconstant, ok_bind]
    exact field_eq_ok hvalue

/-! ## Type names -/

/-- A node that writes an expression resolves to its type. -/
theorem Writes.typeOfName {e : TypeExpr} (h : Writes lookup node e) (hwritable : e.IsWritable) :
    typeOfName lookup node = .ok e.type := by
  induction h with
  | @elementary ms typeString keyword hkind hname htypeString =>
    rw [Ast.typeOfName, require_eq_ok hkind, ok_bind, Datum.display_text, if_pos rfl,
      elementaryOfNode, require_eq_ok hname, ok_bind]
    simp only [keyword.ofName?_text, htypeString.typeStringOr]
    rfl
  | bytes hkind hname =>
    have hnone : ∀ typeString, Elementary.ofName? "bytes" typeString = none :=
      fun _ => congrArg (Option.map _) Shape.ofName?_bytes
    rw [Ast.typeOfName, require_eq_ok hkind, ok_bind, Datum.display_text, if_pos rfl,
      elementaryOfNode, require_eq_ok hname, ok_bind]
    simp only [hnone]
    rfl
  | string hkind hname =>
    have hnone : ∀ typeString, Elementary.ofName? "string" typeString = none :=
      fun _ => congrArg (Option.map _) Shape.ofName?_string
    rw [Ast.typeOfName, require_eq_ok hkind, ok_bind, Datum.display_text, if_pos rfl,
      elementaryOfNode, require_eq_ok hname, ok_bind]
    simp only [hnone]
    rfl
  | @mapping ms notes keyNode valueNode key value hkind hkeyType _ hvalueType _ hnotes ihkey
      ihvalue =>
    obtain ⟨⟨_, _⟩, hkeyChild, rfl⟩ := child_eq_ok hkeyType
    obtain ⟨⟨_, _⟩, hvalueChild, rfl⟩ := child_eq_ok hvalueType
    have hsource : (Ty.mapping .null notes.origin key.type value.type).writtenSource =
        .ok (TypeExpr.mapping notes key value).source :=
      TypeExpr.writtenSource_type (e := .mapping notes key value) hwritable
    have hkeyName := Datum.checkText_eq_ok.2 (TypeExpr.isWritten_type hwritable.1).name
    have hvalueName := Datum.checkText_eq_ok.2 (TypeExpr.isWritten_type hwritable.2).name
    rw [Ast.typeOfName, require_eq_ok hkind, ok_bind, if_neg (by decide), if_neg (by decide),
      Datum.display_text, if_pos rfl, hkeyChild, ok_bind, ihkey hwritable.1, ok_bind, hvalueChild,
      ok_bind, ihvalue hwritable.2, ok_bind, hnotes.originOfNode, ok_bind, hsource,
      hnotes.typeString.typeStringOr, ok_bind, hkeyName, hvalueName]
    rfl
  | @array ms notes elementNode element length hkind hbaseType _ hlength hnotes ih =>
    obtain ⟨⟨_, _⟩, hchild, rfl⟩ := child_eq_ok hbaseType
    have hsource :
        (Ty.array .null notes.origin element.type (length.map Int.ofNat)).writtenSource =
          .ok (TypeExpr.array notes element length).source :=
      TypeExpr.writtenSource_type (e := .array notes element length) hwritable
    rw [Ast.typeOfName, require_eq_ok hkind, ok_bind, if_neg (by decide), if_neg (by decide),
      if_neg (by decide), Datum.display_text, if_pos rfl, hchild, ok_bind, ih hwritable.1, ok_bind,
      hlength.lengthOfNode, ok_bind, hnotes.originOfNode, ok_bind, hsource,
      hnotes.typeString.typeStringOr]
    rfl
  | named hkind hreference hlookup hdefines =>
    rw [Ast.typeOfName, require_eq_ok hkind, ok_bind, if_neg (by decide), Datum.display_text,
      if_pos rfl, require_eq_ok hreference, ok_bind, hlookup, ok_bind, hdefines.typeOfDefinition]
    rfl

/-- The nodes of mappings and arrays are nested as these are in the expression. -/
theorem Writes.nesting {e : TypeExpr} (h : Writes lookup node e) : nesting node = e.depth := by
  induction h with
  | @mapping ms notes keyNode valueNode key value hkind hkeyType _ hvalueType _ hnotes ihkey
      ihvalue =>
    obtain ⟨⟨_, _⟩, hkeyChild, rfl⟩ := child_eq_ok hkeyType
    obtain ⟨⟨_, _⟩, hvalueChild, rfl⟩ := child_eq_ok hvalueType
    rw [Ast.nesting, hasNodeType_eq hkind, if_neg (by decide), hasNodeType_eq hkind,
      if_pos (by decide)]
    simp only [hkeyChild, hvalueChild, ihkey, ihvalue]
    rfl
  | @array ms notes elementNode element length hkind hbaseType _ hlength hnotes ih =>
    obtain ⟨⟨_, _⟩, hchild, rfl⟩ := child_eq_ok hbaseType
    rw [Ast.nesting, hasNodeType_eq hkind, if_pos (by decide)]
    simp only [hchild, ih]
    rfl
  | elementary hkind | bytes hkind | string hkind | named hkind =>
    rw [Ast.nesting, hasNodeType_eq hkind, if_neg (by decide), hasNodeType_eq hkind,
      if_neg (by decide)]
    rfl

end Ast

/-! ## Writing -/

/-- Every number has a numeral. -/
theorem Text.exists_isNumeral (n : Nat) : ∃ s, IsNumeral s n := by
  have hfits : n < Bytes.count (n + 1) := by
    rw [Bytes.count_eq_sixteen_pow]
    calc n < 16 ^ n := Nat.lt_pow_self (by decide)
      _ ≤ 16 ^ (2 * (n + 1)) := Nat.pow_le_pow_right (by decide) (by omega)
  have hdigits := Bytes.areDigits_hexChars (Bytes.ofNat (n + 1) n)
  rw [Bytes.toNat_ofNat_of_lt hfits] at hdigits
  have hne : Bytes.hexChars (Bytes.ofNat (n + 1) n) ≠ [] := by
    rw [← List.length_pos_iff, Bytes.length_hexChars, Bytes.length_ofNat]
    omega
  have hs {cs : List Char} : Surrounds (String.ofList cs) cs := by
    simpa using surrounds_self (String.ofList cs)
  exact ⟨_, .hexadecimal (.inl rfl) hs hne hdigits⟩

namespace Ast

variable {lookup : Lookup}

/-- Members that hold notes, in front of others. -/
def membersWith (notes : Notes) (others : Members) : Members :=
  ("typeDescriptions", .object [("typeString", notes.typeString.elim .null .text)]) ::
    (contractMark, notes.contract.elim .null .text) ::
      (notes.reference.elim others fun n => ("id", .int n) :: others)

theorem find?_membersWith {name : String} (notes : Notes) (others : Members)
    (h : name ∉ ["typeDescriptions", contractMark, "id"]) :
    Datum.find? name (membersWith notes others) = Datum.find? name others := by
  simp only [List.mem_cons, List.not_mem_nil, or_false, not_or] at h
  cases hreference : notes.reference <;>
    simp [membersWith, Datum.find?, hreference, Ne.symm h.1, Ne.symm h.2.1, Ne.symm h.2.2]

theorem holdsNotes_membersWith (notes : Notes) {others : Members}
    (h : Datum.find? "id" others = none) : HoldsNotes (membersWith notes others) notes where
  typeString := .inr ⟨_, rfl, rfl⟩
  contract := rfl
  reference := by
    cases hreference : notes.reference <;>
      simp [membersWith, Datum.find?, hreference, h, contractMark]

theorem exists_holdsLength (lookup : Lookup) (length : Option Nat) :
    ∃ d, ∀ ms, Datum.find? "length" ms = some d → HoldsLength lookup ms length := by
  cases length with
  | none =>
    refine ⟨.null, fun ms hlength => .dynamic ?_⟩
    rw [hlength]
    rfl
  | some n =>
    obtain ⟨s, hs⟩ := Text.exists_isNumeral n
    exact ⟨.object [("nodeType", .text "Literal"), ("value", .text s)],
      fun ms hlength => .literal hlength ⟨rfl, ⟨s, rfl, hs⟩, rfl⟩⟩

/-- Every expression is written by a node if its definitions are found. -/
theorem exists_writes {e : TypeExpr} (h : e.IsIndexed lookup) : ∃ node, Writes lookup node e := by
  induction e with
  | elementary typeString keyword =>
    exact ⟨.object [("nodeType", .text "ElementaryTypeName"), ("name", .text keyword.text),
      ("typeDescriptions", .object [("typeString", typeString.elim .null .text)])],
      .elementary rfl rfl (.inr ⟨_, rfl, rfl⟩)⟩
  | bytes =>
    exact ⟨.object [("nodeType", .text "ElementaryTypeName"), ("name", .text "bytes")],
      .bytes rfl rfl⟩
  | string =>
    exact ⟨.object [("nodeType", .text "ElementaryTypeName"), ("name", .text "string")],
      .string rfl rfl⟩
  | mapping notes key value ihkey ihvalue =>
    obtain ⟨keyNode, hkey⟩ := ihkey h.1
    obtain ⟨valueNode, hvalue⟩ := ihvalue h.2
    have hfind {name : String} := @find?_membersWith name notes
      [("nodeType", .text "Mapping"), ("keyType", keyNode), ("valueType", valueNode)]
    exact ⟨_, .mapping (hfind (by decide)) (hfind (by decide)) hkey (hfind (by decide)) hvalue
      (holdsNotes_membersWith notes rfl)⟩
  | array notes element length ih =>
    obtain ⟨elementNode, helement⟩ := ih h
    obtain ⟨lengthNode, hlength⟩ := exists_holdsLength lookup length
    have hfind {name : String} := @find?_membersWith name notes
      [("nodeType", .text "ArrayTypeName"), ("baseType", elementNode), ("length", lengthNode)]
    exact ⟨_, .array (hfind (by decide)) (hfind (by decide)) helement
      (hlength _ (hfind (by decide))) (holdsNotes_membersWith notes rfl)⟩
  | named definition =>
    obtain ⟨reference, found, hlookup, hdefines⟩ := h
    exact ⟨.object [("nodeType", .text "UserDefinedTypeName"),
      ("referencedDeclaration", reference)], .named rfl rfl hlookup hdefines⟩

end Ast

/-! ## Resolving -/

namespace Resolver

/-- Resolving undoes writing. An expression whose definitions are found is written by nodes, and
whatever node writes it resolves to its type, without any record; the type is spelled as the
expression is, if its lengths have texts. A run can follow no more than so many type names into each
other. -/
theorem resolving_undoes_writing (r : Resolver) {e : TypeExpr} (h : e.IsIndexed r.lookup)
    (hwritable : e.IsWritable) :
    e.type.writtenSource = .ok e.source ∧ (∃ node, Ast.Writes r.lookup node e) ∧
      ∀ node, Ast.Writes r.lookup node e →
        r.typeOfName node = pure e.type ∧
          r.boundedTypeOfName node =
            if e.depth ≤ Ast.mostNested then pure e.type else .fail (.data .nestedTooDeep) := by
  refine ⟨TypeExpr.writtenSource_type hwritable, Ast.exists_writes h, fun node hnode => ?_⟩
  have htype : r.typeOfName node = pure e.type := by
    rw [typeOfName, hnode.typeOfName hwritable]
    rfl
  exact ⟨htype, by rw [boundedTypeOfName, hnode.nesting, htype]⟩

/-! A mapping from numbers to lists of pairs of an enum, the length of which is a constant. -/

namespace Rounds

def seats : Members :=
  [("nodeType", .text "VariableDeclaration"), ("id", .int 3), ("name", .text "SEATS"),
    ("constant", .bool true),
    ("value", .object [("nodeType", .text "Literal"), ("value", .text "0x02")])]

def choice : Members :=
  [("nodeType", .text "EnumDefinition"), ("id", .int 4), ("name", .text "Choice"),
    ("canonicalName", .text "Poll.Choice"), (Ast.contractMark, .text "Poll"),
    ("members", .list [.object [("name", .text "Yes")], .object [("name", .text "No")]])]

def index : Ast.Index where
  nodes := [(3, .object seats), (4, .object choice)]

def choiceName : Datum :=
  .object [("nodeType", .text "UserDefinedTypeName"), ("referencedDeclaration", .int 4)]

def pairName : Datum :=
  .object [("nodeType", .text "ArrayTypeName"), ("baseType", choiceName), ("length",
    .object [("nodeType", .text "Identifier"), ("referencedDeclaration", .int 3)])]

def pairsName : Datum := .object [("nodeType", .text "ArrayTypeName"), ("baseType", pairName)]

def numberName : Datum :=
  .object [("nodeType", .text "ElementaryTypeName"), ("name", .text "uint")]

def roundsName : Datum :=
  .object [("nodeType", .text "Mapping"), ("keyType", numberName), ("valueType", pairsName)]

def choiceDefinition : Definition :=
  .enum ⟨"Choice", "Poll.Choice", some "Poll", 4⟩ none ["Yes", "No"]

def unnoted : Notes := ⟨none, none, none⟩

def pairs : TypeExpr := .array unnoted (.array unnoted (.named choiceDefinition) (some 2)) none

def rounds : TypeExpr := .mapping unnoted (.elementary none .uint) pairs

theorem defines_choice : Ast.Defines choice choiceDefinition :=
  .enum rfl ⟨rfl, rfl, rfl, rfl⟩ (.inl ⟨rfl, rfl⟩) rfl
    (.cons ⟨_, rfl, rfl⟩ (.cons ⟨_, rfl, rfl⟩ .nil))

theorem isNumeral_seats : Text.IsNumeral "0x02" 2 :=
  .hexadecimal (.inl rfl) (Text.surrounds_self _) (by decide : ['0', '2'] ≠ [])
    ⟨[0, 2], .cons rfl (.cons rfl .nil), rfl⟩

theorem writes_rounds : Ast.Writes index.resolver.lookup roundsName rounds := by
  have hunnoted {ms : Members} (htypeString : Datum.find? "typeDescriptions" ms = none)
      (hcontract : Datum.find? Ast.contractMark ms = none)
      (hreference : Datum.find? "id" ms = none) : Ast.HoldsNotes ms unnoted :=
    ⟨.inl ⟨htypeString, rfl⟩, by rw [Ast.HoldsText, hcontract]; rfl, hreference⟩
  have hpair : Ast.Writes index.resolver.lookup pairName
      (.array unnoted (.named choiceDefinition) (some 2)) :=
    .array rfl rfl (.named rfl rfl rfl defines_choice)
      (.constant rfl rfl rfl rfl rfl rfl ⟨rfl, ⟨_, rfl, isNumeral_seats⟩, rfl⟩)
      (hunnoted rfl rfl rfl)
  exact .mapping rfl rfl (.elementary rfl rfl (.inl ⟨rfl, rfl⟩)) rfl
    (.array rfl rfl hpair (.dynamic rfl) (hunnoted rfl rfl rfl)) (hunnoted rfl rfl rfl)

/-- The mapping resolves with the alias in full, the pairs inside of the list, and the enum as its
contract has it. -/
theorem resolving_undoes_writing_rounds :
    rounds.IsIndexed index.resolver.lookup ∧ rounds.IsWritable ∧
      rounds.type.writtenSource = .ok "mapping(uint256 => Poll.Choice[2][])" ∧
      index.resolver.typeOfName roundsName =
        pure (.mapping (.text "mapping(uint256 => Poll.Choice[2][])") ⟨none, .int 0⟩
          (.elementary ⟨"uint256", .text "uint", .int .uint256⟩)
          (.array (.text "Poll.Choice[2][]") ⟨none, .int 0⟩
            (.array (.text "Poll.Choice[2]") ⟨none, .int 0⟩
              (.enum ⟨⟨some (.text "Poll"), .int 4⟩, .text "Choice", .text "Poll.Choice"⟩
                (.text "enum Poll.Choice") [.text "Yes", .text "No"]) (some 2)) none)) := by
  have hindexed : rounds.IsIndexed index.resolver.lookup :=
    ⟨trivial, .int 4, choice, rfl, defines_choice⟩
  have hwritable : rounds.IsWritable := by
    refine ⟨trivial, ⟨trivial, fun n hn => ?_⟩, nofun⟩
    cases hn
    exact Text.isWritable_of_lt_word (by decide)
  obtain ⟨hsource, -, hresolves⟩ := resolving_undoes_writing index.resolver hindexed hwritable
  exact ⟨hindexed, hwritable, hsource, (hresolves _ writes_rounds).1⟩

end Rounds

end Resolver

end StorageSnapshot
