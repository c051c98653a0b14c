-- SUMMARY: Types whose parts are looked up are decoded like types whose parts are attached.
import StorageSnapshot.Ast.Index
import StorageSnapshot.Proofs.Depth

/-!
# Attached parts

A part of a type that is known as a node is looked up when it is needed. If all parts lead to types,
and none to a type that it is a part of, then these types can be attached beforehand. Decoding does
not tell the two apart: it leaves the same records, and yields the same value and the same place
behind it, or halts alike. A fault may be about the one type or the other; its message is the same,
since both are called the same.
-/

namespace StorageSnapshot

/-! ## Runs that are alike -/

/-- Whether two faults are the same, apart from what types they are about. -/
inductive Fault.Alike : Fault → Fault → Prop
  | refl (f : Fault) : Alike f f
  | layout {e e' : LayoutError} (h : e.message = e'.message) : Alike (.layout e) (.layout e')
  | unsupported {e e' : UnsupportedType} (h : e.message = e'.message) :
    Alike (.unsupported e) (.unsupported e')

inductive Halt.Alike : Halt → Halt → Prop
  | abort : Alike .abort .abort
  | fault {f f' : Fault} (h : f.Alike f') : Alike (.fault f) (.fault f')

theorem Halt.Alike.refl : ∀ halt : Halt, halt.Alike halt
  | .abort => .abort
  | .fault f => .fault (.refl f)

namespace Traced

variable {ε α β : Type} {E : ε → ε → Prop} {x y : Traced ε α} {f g : α → Traced ε β}

/-- Whether two runs leave the same records, and end in the same result or in errors that are
related. -/
inductive Alike {ε α : Type} (E : ε → ε → Prop) : Traced ε α → Traced ε α → Prop
  | ok (trace : List Record) (a : α) : Alike E ⟨trace, .ok a⟩ ⟨trace, .ok a⟩
  | error (trace : List Record) {e e' : ε} (h : E e e') :
    Alike E ⟨trace, .error e⟩ ⟨trace, .error e'⟩

theorem Alike.of_eq (hE : ∀ e, E e e) (h : x = y) : Alike E x y := by
  subst h
  rcases x with ⟨trace, e | a⟩
  · exact .error trace (hE e)
  · exact .ok trace a

theorem Alike.bind (h : Alike E x y) (hfg : ∀ a, Alike E (f a) (g a)) :
    Alike E (x >>= f) (y >>= g) := by
  cases h with
  | ok trace a =>
    rw [bind_of_ok rfl, bind_of_ok rfl]
    have hbehind := hfg a
    generalize f a = z, g a = w at hbehind ⊢
    cases hbehind with
    | ok behind b => exact .ok _ b
    | error behind he => exact .error _ he
  | error trace he =>
    rw [bind_of_error rfl, bind_of_error rfl]
    exact .error trace he

end Traced

/-! ## Attaching parts -/

/-- Whether the second type is the first with the types of all members, and what all aliases stand
for, attached. -/
inductive Ty.Expands (r : Resolver) : Ty → Ty → Prop
  | elementary (e : Elementary) : Expands r (.elementary e) (.elementary e)
  | bytes : Expands r .bytes .bytes
  | string : Expands r .string .string
  | enum (d : Declaration) (typeString : Datum) (members : List Datum) :
    Expands r (.enum d typeString members) (.enum d typeString members)
  | contract (name reference : Datum) :
    Expands r (.contract name reference) (.contract name reference)
  | mapping (typeString : Datum) (origin : Origin) {key key' value value' : Ty}
    (hkey : Expands r key key') (hvalue : Expands r value value') :
    Expands r (.mapping typeString origin key value) (.mapping typeString origin key' value')
  | array (typeString : Datum) (origin : Origin) {element element' : Ty} (length : Option Int)
    (helement : Expands r element element') :
    Expands r (.array typeString origin element length) (.array typeString origin element' length)
  | struct (d : Declaration) {ms : List Member} {type type' : Member → Ty}
    (htype : ∀ m ∈ ms, (r.memberType m).result = .ok (type m))
    (hexpands : ∀ m ∈ ms, Expands r (type m) (type' m)) :
    Expands r (.struct d ms) (.struct d (ms.map fun m => .attached m.name (type' m)))
  | aliasOf (d : Declaration) {underlying underlying' : Ty}
    (h : Expands r underlying underlying') :
    Expands r (.aliasOf d underlying) (.aliasOf d underlying')
  | aliasNode (d : Declaration) {node : Datum} {e : Elementary}
    (he : (r.elementaryOfAlias d node).result = .ok e) :
    Expands r (.aliasNode d node) (.aliasOf d (.elementary e))

namespace Resolver

variable {r r' : Resolver} {t t' : Ty}

/-- A type name that is resolved leaves no records. -/
theorem typeOfName_eq_pure {node : Datum} (h : (r.typeOfName node).result = .ok t) :
    r.typeOfName node = pure t := by
  unfold typeOfName at h ⊢
  cases hnode : Ast.typeOfName r.lookup node with
  | ok u =>
    rw [hnode] at h
    cases h
    rfl
  | error fault =>
    rw [hnode] at h
    cases fault with
    | unresolved e => dsimp only at h; split at h <;> cases h
    | _ => cases h

theorem memberType_eq_pure {m : Member} (h : (r.memberType m).result = .ok t) :
    r.memberType m = pure t := by
  cases m with
  | attached name type =>
    cases h
    rfl
  | node name typeName => exact typeOfName_eq_pure h

theorem elementaryOfAlias_eq_pure {d : Declaration} {node : Datum} {e : Elementary}
    (h : (r.elementaryOfAlias d node).result = .ok e) : r.elementaryOfAlias d node = pure e := by
  unfold elementaryOfAlias at h ⊢
  rw [Traced.result_bind] at h
  obtain ⟨t, ht, h⟩ := bind_eq_ok.1 h
  rw [typeOfName_eq_pure ht, pure_bind]
  cases t with
  | elementary e =>
    cases h
    rfl
  | _ => cases h

end Resolver

namespace Ty.Expands

variable {r : Resolver} {t t' : Ty}

/-- With its parts attached a type is called the same. -/
theorem called (h : t.Expands r t') : t'.called = t.called := by
  induction h with
  | mapping typeString origin hkey hvalue ihkey ihvalue => simp only [Ty.called, ihkey, ihvalue]
  | array typeString origin length helement ih => simp only [Ty.called, ih]
  | _ => rfl

theorem source (h : t.Expands r t') : t'.source = t.source := by
  rw [Ty.source, Ty.source, h.called]

theorem checkCalled (h : t.Expands r t') : t'.checkCalled = t.checkCalled := by
  induction h with
  | mapping typeString origin hkey hvalue ihkey ihvalue =>
    simp only [Ty.checkCalled, ihkey, ihvalue, hkey.called, hvalue.called]
  | array typeString origin length helement ih => simp only [Ty.checkCalled, ih, helement.called]
  | _ => rfl

theorem checkName (h : t.Expands r t') : t'.checkName = t.checkName := by
  rw [Ty.checkName, Ty.checkName, h.checkCalled, h.called]

theorem isPointer (h : t.Expands r t') : t'.isPointer = t.isPointer := by
  cases h <;> rfl

/-! ### Faults about types -/

theorem noStaticSize (h : t.Expands r t') :
    Fault.Alike (.layout (.noStaticSize t)) (.layout (.noStaticSize t')) := by
  apply Fault.Alike.layout
  dsimp only [LayoutError.message]
  rw [h.source]

theorem largerThanWord (h : t.Expands r t') :
    Fault.Alike (.layout (.largerThanWord t)) (.layout (.largerThanWord t')) := by
  apply Fault.Alike.layout
  dsimp only [LayoutError.message]
  rw [h.source]

theorem notFresh (h : t.Expands r t') (c : Cursor) :
    Fault.Alike (.layout (.notFresh t c)) (.layout (.notFresh t' c)) := by
  apply Fault.Alike.layout
  dsimp only [LayoutError.message]
  rw [h.source]

theorem mappingContents (h : t.Expands r t') (c : Cursor) :
    Fault.Alike (.unsupported (.mappingContents t c)) (.unsupported (.mappingContents t' c)) := by
  apply Fault.Alike.unsupported
  dsimp only [UnsupportedType.message]
  rw [h.source]

/-! ### Sizes and places -/

/-- With its parts attached a type has the same size. No resolver is needed any more. -/
theorem sizeOf (h : t.Expands r t') (r' : Resolver) :
    Traced.Alike Fault.Alike (r.sizeOf t) (r'.sizeOf t') := by
  have hnone {t t' : Ty} (h : t.Expands r t') :
      Traced.Alike Fault.Alike
        (do Fault.lift t.checkName; Traced.fail (.layout (.noStaticSize t)) : Traced Fault Nat)
        (do Fault.lift t'.checkName; Traced.fail (.layout (.noStaticSize t'))) := by
    rw [h.checkName]
    exact .bind (.of_eq .refl rfl) fun _ => .error [] h.noStaticSize
  induction h with
  | aliasOf d h ih =>
    rw [Resolver.sizeOf, Resolver.sizeOf]
    exact ih
  | aliasNode d he =>
    change Traced.Alike _ (r.elementaryOfAlias d _ >>= Resolver.sizeOfElementary) _
    rw [Resolver.elementaryOfAlias_eq_pure he]
    exact .of_eq .refl rfl
  | elementary | enum | contract => exact .of_eq .refl rfl
  | bytes => exact hnone .bytes
  | string => exact hnone .string
  | mapping typeString origin hkey hvalue => exact hnone (.mapping typeString origin hkey hvalue)
  | array typeString origin length helement =>
    exact hnone (.array typeString origin length helement)
  | struct d htype hexpands => exact hnone (.struct d htype hexpands)

theorem place (h : t.Expands r t') (r' : Resolver) (c : Cursor) :
    Traced.Alike Fault.Alike (r.place t c) (r'.place t' c) := by
  refine .bind ?_ fun fits => .of_eq .refl rfl
  unfold Resolver.fits
  rw [h.isPointer]
  split
  next => exact .of_eq .refl rfl
  next =>
    refine .bind (h.sizeOf r') fun size => ?_
    split
    next =>
      rw [h.checkName]
      exact .bind (.of_eq .refl rfl) fun _ => .error [] h.largerThanWord
    next => exact .of_eq .refl rfl

end Ty.Expands

/-! ## Decoding -/

namespace Decode

open Traced (Alike)

variable {ctx : Context} {r' : Resolver} {nested nested' : Nested} {t t' : Ty}

theorem alike_step {α : Type} {x y : Traced Fault α} (h : Alike Fault.Alike x y) :
    Alike Halt.Alike (step x) (step y) := by
  cases h with
  | ok trace a => exact .ok trace a
  | error trace h => exact .error trace (.fault h)

/-- A part is not told apart by what it is a part of. -/
theorem alike_entering (h : t.Expands ctx.resolver t') (c : Cursor)
    {body body' : Decoding (Decoded Value)} (hbody : Alike Halt.Alike body body') :
    Alike Halt.Alike (entering t c body) (entering t' c body') := by
  unfold entering checkName
  rw [h.checkName, h.source]
  refine .bind (.of_eq .refl rfl) fun _ => .bind (.of_eq .refl rfl) fun _ => ?_
  cases hbody with
  | ok trace a => exact .ok trace a
  | error trace hhalt =>
    cases hhalt with
    | abort => exact .of_eq .refl rfl
    | fault hf =>
      cases hf with
      | refl f => exact .of_eq .refl rfl
      | layout hmessage =>
        exact .error _ (.fault (.layout hmessage))
      | unsupported hmessage =>
        exact .error _ (.fault (.unsupported hmessage))

theorem alike_elements (h : t.Expands ctx.resolver t')
    (hnested : ∀ c, Alike Halt.Alike (nested t c) (nested' t' c)) (count : Nat) (done : List Value)
    (c : Cursor) :
    Alike Halt.Alike (elements ctx nested t count done c)
      (elements { ctx with resolver := r' } nested' t' count done c) := by
  induction count generalizing done c with
  | zero => exact .of_eq .refl rfl
  | succ count ih =>
    rw [elements, elements]
    refine .bind (hnested c) fun v => .bind (alike_step (h.place r' v.2)) fun place => ?_
    exact ih (v.1 :: done) place

theorem alike_fields {ms : List Member} {type type' : Member → Ty}
    (htype : ∀ m ∈ ms, (ctx.resolver.memberType m).result = .ok (type m))
    (hexpands : ∀ m ∈ ms, (type m).Expands ctx.resolver (type' m))
    (hnested : ∀ m ∈ ms, ∀ c, Alike Halt.Alike (nested (type m) c) (nested' (type' m) c))
    (done : List (Datum × Value)) (c : Cursor) :
    Alike Halt.Alike (fields ctx nested done ms c)
      (fields { ctx with resolver := r' } nested' done
        (ms.map fun m => .attached m.name (type' m)) c) := by
  induction ms generalizing done c with
  | nil => exact .of_eq .refl rfl
  | cons m ms ih =>
    have hm : m ∈ m :: ms := List.mem_cons_self
    have htail : ∀ n ∈ ms, n ∈ m :: ms := fun n hn => List.mem_cons_of_mem m hn
    rw [List.map_cons, fields, fields, Resolver.memberType_eq_pure (htype m hm)]
    change Alike _ (pure (type m) >>= _) (pure (type' m) >>= _)
    rw [pure_bind, pure_bind]
    refine .bind (alike_step ((hexpands m hm).place r' c)) fun place => ?_
    refine .bind (hnested m hm place) fun v => ?_
    exact ih (fun n hn => htype n (htail n hn)) (fun n hn => hexpands n (htail n hn))
      (fun n hn => hnested n (htail n hn)) _ _

theorem alike_checkFresh (h : t.Expands ctx.resolver t') (c : Cursor) :
    Alike Halt.Alike (stepExcept (checkFresh t c)) (stepExcept (checkFresh t' c)) := by
  unfold checkFresh
  rw [h.checkName]
  split
  next => exact .of_eq .refl rfl
  next =>
    cases Fault.lift t.checkName with
    | ok => exact .error [] (.fault (h.notFresh c))
    | error f => exact .of_eq .refl rfl

/-- A type is decoded like the type with its parts attached if its parts are. -/
theorem alike_atType (hnested : ∀ t t' c, t.Expands ctx.resolver t' →
      Alike Halt.Alike (nested t c) (nested' t' c))
    (h : t.Expands ctx.resolver t') (c : Cursor) :
    Alike Halt.Alike (atType ctx nested t c)
      (atType { ctx with resolver := r' } nested' t' c) := by
  induction h with
  | elementary | bytes | string | enum | contract => exact .of_eq .refl rfl
  | aliasOf d h ih =>
    rw [atType, atType]
    exact alike_entering (.aliasOf d h) c ih
  | aliasNode d he =>
    refine alike_entering (.aliasNode d he) c (.of_eq .refl ?_)
    rw [Resolver.elementaryOfAlias_eq_pure he]
    rfl
  | mapping typeString origin hkey hvalue =>
    have hmapping := Ty.Expands.mapping typeString origin hkey hvalue
    exact alike_entering hmapping c (.error [] (.fault (hmapping.mappingContents c)))
  | array typeString origin length helement =>
    have harray := Ty.Expands.array typeString origin length helement
    refine alike_entering harray c (.bind ?_ fun start => .bind ?_ fun vs => .of_eq .refl rfl)
    · refine .of_eq .refl ?_
      unfold elementsOf
      rw [harray.source]
    · exact alike_elements helement (fun c => hnested _ _ c helement) start.1 [] start.2
  | struct d htype hexpands =>
    have hstruct := Ty.Expands.struct d htype hexpands
    refine alike_entering hstruct c (.bind (alike_checkFresh hstruct c) fun _ => .bind ?_ fun fs =>
      .of_eq .refl rfl)
    exact alike_fields htype hexpands (fun m hm c => hnested _ _ c (hexpands m hm)) [] c

theorem alike_within {deeper deeper' : Nested}
    (hdeeper : ∀ t t' c, t.Expands ctx.resolver t' →
      Alike Halt.Alike (deeper t c) (deeper' t' c)) (budget : Nat)
    (h : t.Expands ctx.resolver t') (c : Cursor) :
    Alike Halt.Alike (within ctx deeper budget t c)
      (within { ctx with resolver := r' } deeper' budget t' c) := by
  induction budget generalizing t t' c with
  | zero => exact hdeeper t t' c h
  | succ budget ih => exact alike_atType (fun t t' c h => ih h c) h c

theorem alike_tooDeep (h : t.Expands ctx.resolver t') (c : Cursor) :
    Alike Halt.Alike (tooDeep ctx t c) (tooDeep { ctx with resolver := r' } t' c) := by
  unfold tooDeep checkName
  rw [h.checkName, h.source]
  exact .of_eq .refl rfl

/--
A type whose parts are looked up is decoded like the type with its parts attached, which needs no
resolver any more: both leave the same records, and both yield the same value and place, give up, or
end in the same fault. They have the same size as well.
-/
theorem value_expands (ctx : Context) (r' : Resolver) (h : t.Expands ctx.resolver t') :
    (∀ depth c,
      Alike Halt.Alike (value ctx depth t c)
        (value { ctx with resolver := r' } depth t' c) ∧
      Alike Halt.Alike (boundedValue ctx depth t c)
        (boundedValue { ctx with resolver := r' } depth t' c)) ∧
    Alike Fault.Alike (ctx.resolver.sizeOf t) (r'.sizeOf t') := by
  have hvalue (depth : Int) (c : Cursor) :
      Alike Halt.Alike (value ctx depth t c) (value { ctx with resolver := r' } depth t' c) :=
    alike_within (fun _ _ c h => alike_tooDeep h c) (budget ctx depth) h c
  refine ⟨fun depth c => ⟨hvalue depth c, ?_⟩, h.sizeOf r'⟩
  unfold boundedValue
  split
  next hbudget => exact if_pos hbudget ▸ hvalue depth c
  next hbudget =>
    refine if_neg hbudget ▸ ?_
    exact alike_within (fun _ _ _ _ => .of_eq .refl rfl) mostNested h c

/-! ## A line between points -/

namespace Line

def uint8Name : Datum :=
  .object [("nodeType", .text "ElementaryTypeName"), ("name", .text "uint8")]

def nameOf (id : Int) : Datum :=
  .object [("nodeType", .text "UserDefinedTypeName"), ("referencedDeclaration", .int id)]

def endsName : Datum :=
  .object [("nodeType", .text "ArrayTypeName"), ("baseType", nameOf 2), ("length",
    .object [("nodeType", .text "Literal"), ("value", .text "2")]),
    ("typeDescriptions", .object [("typeString", .text "struct Point[2]")])]

/-- A value type of numbers, a struct with one of them, and a struct with an array of these. -/
def index : Ast.Index where
  nodes := [
    (1, .object [("nodeType", .text "UserDefinedValueTypeDefinition"), ("id", .int 1),
      ("name", .text "Height"), ("canonicalName", .text "Height"), ("underlyingType", uint8Name)]),
    (2, .object [("nodeType", .text "StructDefinition"), ("id", .int 2), ("name", .text "Point"),
      ("canonicalName", .text "Point"), ("members", .list [
        .object [("name", .text "x"), ("typeName", uint8Name)],
        .object [("name", .text "height"), ("typeName", nameOf 1)]])]),
    (3, .object [("nodeType", .text "StructDefinition"), ("id", .int 3), ("name", .text "Line"),
      ("canonicalName", .text "Line"), ("members", .list [
        .object [("name", .text "color"), ("typeName", uint8Name)],
        .object [("name", .text "ends"), ("typeName", endsName)]])])]

def height : Declaration := ⟨⟨none, .int 1⟩, .text "Height", .text "Height"⟩
def point : Declaration := ⟨⟨none, .int 2⟩, .text "Point", .text "Point"⟩
def line : Declaration := ⟨⟨none, .int 3⟩, .text "Line", .text "Line"⟩

def pointOfNodes : Ty :=
  .struct point [.node (.text "x") uint8Name, .node (.text "height") (nameOf 1)]

def lineOfNodes : Ty :=
  .struct line [.node (.text "color") uint8Name, .node (.text "ends") endsName]

/-- The points of a line. -/
def endsOf (point : Ty) : Ty := .array (.text "struct Point[2]") ⟨none, .int 0⟩ point (some 2)

def pointAttached : Ty :=
  .struct point [.attached (.text "x") (.int .uint8),
    .attached (.text "height") (.aliasOf height (.int .uint8))]

def lineAttached : Ty :=
  .struct line [.attached (.text "color") (.int .uint8),
    .attached (.text "ends") (endsOf pointAttached)]

def context : Context where
  store := { words := [(0, [3]), (1, [8, 7]), (2, [10, 9])] }
  resolver := index.resolver
  limits := {}

theorem typeOfName_uint8 : (index.resolver.typeOfName uint8Name).result = .ok (.int .uint8) := by
  rw [Resolver.typeOfName, Ast.typeOfName]
  rfl

theorem typeOfName_height :
    (index.resolver.typeOfName (nameOf 1)).result = .ok (.aliasNode height uint8Name) := by
  rw [Resolver.typeOfName, Ast.typeOfName]
  rfl

theorem typeOfName_ends :
    (index.resolver.typeOfName endsName).result = .ok (endsOf pointOfNodes) := by
  have hpoint : Ast.typeOfName index.node (nameOf 2) = .ok pointOfNodes := by
    rw [Ast.typeOfName]
    rfl
  have hends : Ast.typeOfName index.node endsName = .ok (endsOf pointOfNodes) := by
    rw [Ast.typeOfName]
    change Ast.resolving (Ast.typeOfName index.node (nameOf 2) >>= fun element =>
      Ast.lengthOfNode index.node endsName >>= fun length =>
      .ok (Ty.array (.text "struct Point[2]") ⟨none, .int 0⟩ element length)) = _
    rw [hpoint]
    rfl
  have hlookup : Ast.typeOfName index.resolver.lookup endsName = .ok (endsOf pointOfNodes) := hends
  rw [Resolver.typeOfName, hlookup]
  rfl

theorem typeOfName_line :
    (index.resolver.typeOfName (nameOf 3)).result = .ok lineOfNodes := by
  rw [Resolver.typeOfName, Ast.typeOfName]
  rfl

/-- The types of the members of points and lines. -/
def memberType : Member → Ty
  | .node (.text "height") _ => .aliasNode height uint8Name
  | .node (.text "ends") _ => endsOf pointOfNodes
  | _ => .int .uint8

def memberAttached : Member → Ty
  | .node (.text "height") _ => .aliasOf height (.int .uint8)
  | .node (.text "ends") _ => endsOf pointAttached
  | _ => .int .uint8

theorem expands_point : pointOfNodes.Expands index.resolver pointAttached := by
  have helementary : (index.resolver.elementaryOfAlias height uint8Name).result =
      .ok ⟨"uint8", .text "uint8", .int .uint8⟩ := by
    rw [Resolver.elementaryOfAlias, Traced.result_bind, typeOfName_uint8]
    rfl
  refine @Ty.Expands.struct _ point _ memberType memberAttached ?_ ?_
  · intro m hm
    simp only [List.mem_cons, List.not_mem_nil, or_false] at hm
    rcases hm with rfl | rfl
    · exact typeOfName_uint8
    · exact typeOfName_height
  · intro m hm
    simp only [List.mem_cons, List.not_mem_nil, or_false] at hm
    rcases hm with rfl | rfl
    · exact .elementary _
    · exact .aliasNode height helementary

theorem expands_line : lineOfNodes.Expands index.resolver lineAttached := by
  refine @Ty.Expands.struct _ line _ memberType memberAttached ?_ ?_
  · intro m hm
    simp only [List.mem_cons, List.not_mem_nil, or_false] at hm
    rcases hm with rfl | rfl
    · exact typeOfName_uint8
    · exact typeOfName_ends
  · intro m hm
    simp only [List.mem_cons, List.not_mem_nil, or_false] at hm
    rcases hm with rfl | rfl
    · exact .elementary _
    · exact .array _ _ _ expands_point

end Line

/-- A line has its value, whether its parts are looked up or attached. -/
theorem value_expands_line :
    (Line.index.resolver.typeOfName (Line.nameOf 3)).result = .ok Line.lineOfNodes ∧
    Line.lineOfNodes.Expands Line.index.resolver Line.lineAttached ∧
    ∃ next,
      (value { Line.context with resolver := .plain } 0 Line.lineAttached (.fresh 0)).result =
        .ok (.struct [(.text "color", .int 3), (.text "ends", .array [
          .struct [(.text "x", .int 7), (.text "height", .int 8)],
          .struct [(.text "x", .int 9), (.text "height", .int 10)]])], next) ∧
      Alike Halt.Alike (value Line.context 0 Line.lineOfNodes (.fresh 0))
        (value { Line.context with resolver := .plain } 0 Line.lineAttached (.fresh 0)) :=
  ⟨Line.typeOfName_line, Line.expands_line, _, rfl,
    ((value_expands Line.context .plain Line.expands_line).1 0 (.fresh 0)).1⟩

end Decode

end StorageSnapshot
