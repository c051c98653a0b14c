-- SUMMARY: Resolving type names: what it fails with, and for which nodes it only fails to resolve.
import StorageSnapshot.Proofs.Failure
import StorageSnapshot.Proofs.WellFormed

/-!
# Failures of resolving

A type name that is not known, or a node without a member that it needs, is an unresolved type. It
is not the only way to fail: members are read, iterated, joined and shown as what they are expected
to be, and a node that has them otherwise fails with a defect. What is expected of each kind of node
is said here, and a node that is as expected fails only by being unresolved.
-/

namespace StorageSnapshot

/-! ## Kinds of faults -/

namespace Fault

def IsUnresolved : Fault → Prop
  | .unresolved _ => True
  | _ => False

/-- What a node can lead to whose members are not as they are expected to be. -/
def IsDefect : Fault → Prop
  | .unresolved _ | .data _ => True
  | .broken (.memberWithoutType _) | .broken (.aliasWithoutType _) => True
  | _ => False

/-- Faults of a kind, and the lack of a member. -/
def OrMissing (P : Fault → Prop) : Fault → Prop
  | .missing _ => True
  | e => P e

theorem OrMissing.of {P : Fault → Prop} {e : Fault} (h : P e) : OrMissing P e := by
  cases e with
  | missing => trivial
  | _ => exact h

/-- What a node can lead to whose members are as they are expected to be: an unresolved type, or the
lack of a member whose name can be written. -/
def IsOpen : Fault → Prop
  | .unresolved _ => True
  | .missing name => name.isWritable = true
  | _ => False

theorem IsUnresolved.isOpen {e : Fault} (h : IsUnresolved e) : IsOpen e := by
  cases e with
  | unresolved => trivial
  | _ => exact h.elim

end Fault

namespace Ast

variable {lookup : Lookup} {node : Datum} {ms : List (String × Datum)} {name : String}

def IsObject (d : Datum) : Prop := ∃ ms, d = .object ms

/-- Where types are resolved, a missing member leaves one unresolved. -/
theorem ends_resolving {P : Fault → Prop} {α : Type} {Q : α → Prop} {x : Except Fault α}
    (hmissing : ∀ name, x = .error (.missing name) → P (.ofUnresolved (.nodeWithout name)))
    (h : EndsIn (Fault.OrMissing P) Q x) : EndsIn P Q (resolving x) := by
  cases x with
  | ok a => exact h
  | error e =>
    cases e with
    | missing name => exact hmissing name rfl
    | _ => exact h

/-- As `ends_resolving`, where the name of a missing member can be written. -/
theorem ends_resolving_open {α : Type} {Q : α → Prop} {x : Except Fault α}
    (h : EndsIn Fault.IsOpen Q x) : EndsIn Fault.IsUnresolved Q (resolving x) := by
  refine ends_resolving (fun name hname => ?_) (h.mono (fun e he => ?_) fun _ h => h)
  · have hcheck : (Unresolved.nodeWithout name).check = .ok () :=
      Datum.checkText_eq_ok.2 (h.of_error hname)
    rw [Fault.ofUnresolved_of_check hcheck]
    trivial
  · cases e with
    | unresolved => trivial
    | missing => trivial
    | _ => exact he.elim

/-! ## Defects -/

section Defects

/-- Whether a computation ends in values, defects and missing members only. -/
abbrev EndsInDefect {α : Type} (x : Except Fault α) : Prop :=
  EndsIn (Fault.OrMissing Fault.IsDefect) (fun _ => True) x

theorem endsInDefect_lift {α : Type} (x : Except DataError α) : EndsInDefect (Fault.lift x) :=
  EndsIn.lift (by cases x <;> trivial)

theorem isDefect_ofUnresolved (u : Unresolved) : Fault.IsDefect (.ofUnresolved u) :=
  Fault.holds_raised trivial (shows_of_data (fun _ => trivial) _)

theorem endsInDefect_ofUnresolved {α : Type} (u : Unresolved) :
    EndsInDefect (.error (.ofUnresolved u) : Except Fault α) := .of (isDefect_ofUnresolved u)

theorem endsInDefect_field (node : Datum) (name : String) : EndsInDefect (field node name) :=
  ends_field (fun _ => trivial) node name

theorem endsInDefect_require (node : Datum) (name : String) : EndsInDefect (require node name) :=
  ends_require (fun _ => trivial) (fun _ => trivial) node name

theorem endsInDefect_child (node : Datum) (name : String) : EndsInDefect (child node name) := by
  cases node with
  | object ms =>
    unfold child
    dsimp only
    split <;> trivial
  | _ => trivial

theorem typeString_ends_in_defect (node : Datum) :
    EndsIn Fault.IsDefect (fun _ => True) (typeString node) := by
  cases node with
  | object ms =>
    unfold typeString field
    dsimp only
    split <;> trivial
  | _ => trivial

theorem endsInDefect_typeString (node : Datum) : EndsInDefect (typeString node) :=
  (typeString_ends_in_defect node).mono (fun _ => .of) fun _ h => h

theorem endsInDefect_typeStringOr (node : Datum) (default : Except DataError String) :
    EndsInDefect (typeStringOr node default) := by
  refine (endsInDefect_typeString node).bind fun given _ => .ite (fun _ => trivial) fun _ => ?_
  exact (endsInDefect_lift default).bind fun _ _ => trivial

theorem endsInDefect_contract? (node : Datum) : EndsInDefect (contract? node) := by
  refine (endsInDefect_field node contractMark).bind fun name _ => ?_
  cases name <;> trivial

theorem endsInDefect_itemsOf (node : Datum) (name : String) : EndsInDefect (itemsOf node name) :=
  (endsInDefect_require node name).bind fun _ _ => endsInDefect_lift _

theorem endsInDefect_memberOfNode (node : Datum) : EndsInDefect (memberOfNode node) := by
  refine (endsInDefect_require node "name").bind fun _ _ => ?_
  refine (endsInDefect_require node "typeName").bind fun typeName _ => ?_
  cases typeName with
  | null => exact .of (Fault.holds_raised trivial (shows_of_data (fun _ => trivial) _))
  | _ => trivial

theorem endsInDefect_enumOfNode (node : Datum) : EndsInDefect (enumOfNode node) := by
  refine (endsInDefect_require node "canonicalName").bind fun canonicalName _ => ?_
  refine (endsInDefect_require node "name").bind fun _ _ => ?_
  refine (endsInDefect_typeStringOr node _).bind fun _ _ => ?_
  refine (endsInDefect_itemsOf node "members").bind fun items _ => ?_
  refine (EndsIn.mapM fun m _ => endsInDefect_require m "name").bind fun _ _ => ?_
  refine (endsInDefect_contract? node).bind fun _ _ => ?_
  exact (endsInDefect_require node "id").bind fun _ _ => trivial

theorem endsInDefect_structOfNode (node : Datum) : EndsInDefect (structOfNode node) := by
  refine (endsInDefect_require node "canonicalName").bind fun canonicalName _ => ?_
  refine (endsInDefect_require node "name").bind fun _ _ => ?_
  refine (endsInDefect_lift _).bind fun _ _ => ?_
  refine (endsInDefect_itemsOf node "members").bind fun items _ => ?_
  refine (EndsIn.mapM fun m _ => endsInDefect_memberOfNode m).bind fun _ _ => ?_
  refine (endsInDefect_contract? node).bind fun _ _ => ?_
  exact (endsInDefect_require node "id").bind fun _ _ => trivial

theorem endsInDefect_aliasOfNode (node : Datum) : EndsInDefect (aliasOfNode node) := by
  refine (endsInDefect_require node "name").bind fun _ _ => ?_
  refine (endsInDefect_require node "canonicalName").bind fun _ _ => ?_
  refine (endsInDefect_contract? node).bind fun _ _ => ?_
  refine (endsInDefect_require node "id").bind fun _ _ => ?_
  refine (endsInDefect_require node "underlyingType").bind fun underlying _ => ?_
  cases underlying with
  | null => exact .of (Fault.holds_raised trivial (shows_of_data (fun _ => trivial) _))
  | _ => trivial

theorem endsInDefect_contractOfNode (node : Datum) : EndsInDefect (contractOfNode node) :=
  (endsInDefect_require node "name").bind fun _ _ =>
    (endsInDefect_require node "id").bind fun _ _ => (endsInDefect_lift _).bind fun _ _ => trivial

theorem endsInDefect_typeOfDefinition (node : Datum) : EndsInDefect (typeOfDefinition node) := by
  refine (endsInDefect_field node "nodeType").bind fun nodeType _ => ?_
  split
  next => exact endsInDefect_enumOfNode node
  next => exact endsInDefect_structOfNode node
  next => exact endsInDefect_aliasOfNode node
  next => exact endsInDefect_contractOfNode node
  next => exact endsInDefect_ofUnresolved _

theorem endsInDefect_elementaryOfNode (node : Datum) : EndsInDefect (elementaryOfNode node) := by
  refine (endsInDefect_require node "name").bind fun name _ => ?_
  refine .ite (fun _ => trivial) fun _ => ?_
  split
  next s =>
    split
    next =>
      exact (endsInDefect_typeStringOr node _).bind fun _ _ => trivial
    next =>
      exact .ite (fun _ => trivial) fun _ => .ite (fun _ => trivial) fun _ => trivial
  next => exact endsInDefect_ofUnresolved _

theorem endsInDefect_lengthLiteral (hlookup : ∀ reference, EndsInDefect (lookup reference))
    (length : Datum) : EndsInDefect (lengthLiteral lookup length) := by
  refine (endsInDefect_field length "nodeType").bind fun _ _ => .ite (fun _ => ?_) fun _ => trivial
  refine (endsInDefect_field length "referencedDeclaration").bind fun reference _ => ?_
  refine (hlookup reference).bind fun declaration _ => ?_
  refine (endsInDefect_field declaration "constant").bind fun _ _ => ?_
  exact .ite (fun _ => endsInDefect_field declaration "value") fun _ => trivial

theorem endsInDefect_lengthOfNode (hlookup : ∀ reference, EndsInDefect (lookup reference))
    (node : Datum) : EndsInDefect (lengthOfNode lookup node) := by
  refine (endsInDefect_field node "length").bind fun length _ => ?_
  split
  next => trivial
  next =>
    refine (endsInDefect_lengthLiteral hlookup length).bind fun literal _ => ?_
    refine .ite (fun _ => ?_) fun _ => ?_
    · exact (endsInDefect_typeString node).bind fun _ _ => endsInDefect_ofUnresolved _
    · refine (endsInDefect_field literal "value").bind fun value _ => ?_
      split
      next => trivial
      next => exact (endsInDefect_typeString node).bind fun _ _ => endsInDefect_ofUnresolved _

theorem endsInDefect_originOfNode (node : Datum) : EndsInDefect (originOfNode node) := by
  refine (endsInDefect_contract? node).bind fun _ _ => .ite (fun _ => ?_) fun _ => trivial
  exact (endsInDefect_field node "id").bind fun _ _ => trivial

/-- Whatever a type name is like, no more than a defect comes of it. -/
theorem typeOfName_ends_in_defect (hlookup : ∀ reference, EndsInDefect (lookup reference))
    (node : Datum) : EndsIn Fault.IsDefect (fun _ => True) (typeOfName lookup node) := by
  induction hsize : sizeOf node using Nat.strongRecOn generalizing node with
  | ind size ih =>
    subst hsize
    have hpart : ∀ d : Datum, sizeOf d < sizeOf node → EndsInDefect (typeOfName lookup d) :=
      fun d hd => (ih _ hd d rfl).mono (fun _ => .of) fun _ _ => trivial
    rw [typeOfName]
    refine ends_resolving (fun _ _ => isDefect_ofUnresolved _) ?_
    refine (endsInDefect_require node "nodeType").bind fun nodeType _ => ?_
    refine .ite (fun _ => endsInDefect_elementaryOfNode node) fun _ => .ite (fun _ => ?named)
      fun _ => .ite (fun _ => ?mapping) fun _ => .ite (fun _ => ?array) fun _ =>
        endsInDefect_ofUnresolved _
    case named =>
      refine (endsInDefect_require node "referencedDeclaration").bind fun reference _ => ?_
      exact (hlookup reference).bind fun _ _ => endsInDefect_typeOfDefinition _
    case mapping =>
      refine (endsInDefect_child node "keyType").bind fun key _ => ?_
      refine (hpart key.val key.property).bind fun _ _ => ?_
      refine (endsInDefect_child node "valueType").bind fun value _ => ?_
      refine (hpart value.val value.property).bind fun _ _ => ?_
      refine (endsInDefect_originOfNode node).bind fun _ _ => ?_
      refine (endsInDefect_typeStringOr node _).bind fun _ _ => ?_
      exact (endsInDefect_lift _).bind fun _ _ => (endsInDefect_lift _).bind fun _ _ => trivial
    case array =>
      refine (endsInDefect_child node "baseType").bind fun element _ => ?_
      refine (hpart element.val element.property).bind fun _ _ => ?_
      refine (endsInDefect_lengthOfNode hlookup node).bind fun _ _ => ?_
      refine (endsInDefect_originOfNode node).bind fun _ _ => ?_
      exact (endsInDefect_typeStringOr node _).bind fun _ _ => trivial

end Defects

/-! ## Expected members -/

/-- Whether a member is of a kind, if there is one. -/
def Holds (ms : List (String × Datum)) (name : String) (P : Datum → Prop) : Prop :=
  ∀ d, Datum.find? name ms = some d → P d

/-- Whether a value runs through items of a kind. -/
def HasItems (P : Datum → Prop) (d : Datum) : Prop := ∃ xs, d.items = .ok xs ∧ ∀ x ∈ xs, P x

/-- Whether the type of a struct's member is not left open, if there is one. -/
def IsMemberNode (d : Datum) : Prop := ∃ ms, d = .object ms ∧ Holds ms "typeName" (· ≠ .null)

/-- What is expected of a node that defines a type. Any of the members may be missing. -/
def IsDefinition (ms : List (String × Datum)) : Prop :=
  (Datum.object ms).isWritable = true ∧ match typeKind? (.object ms) with
  | some .enum =>
    Holds ms "typeDescriptions" IsObject ∧ Holds ms "name" Datum.IsText ∧
      Holds ms "members" (HasItems IsObject)
  | some .struct => Holds ms "members" (HasItems IsMemberNode)
  | some .valueType => Holds ms "name" Datum.IsText ∧ Holds ms "underlyingType" (· ≠ .null)
  | some .contract => Holds ms "name" Datum.IsText
  | _ => True

/-- Whether the node of a reference, if there is one, is an object of a kind. -/
def Finds (lookup : Lookup) (P : List (String × Datum) → Prop) (reference : Datum) : Prop :=
  EndsIn Fault.IsOpen (fun d => ∃ ms, d = .object ms ∧ P ms) (lookup reference)

/-- Whether the number that is the value of a literal can be written, if there is one. -/
def IsWritableLiteral (ms : List (String × Datum)) : Prop :=
  Holds ms "value" fun d => ∀ n, d.toInteger = .ok n → Text.isWritable n = true

/-- What is expected of a constant: its value is a literal as it is expected to be. -/
def IsConstant (ms : List (String × Datum)) : Prop :=
  Holds ms "value" fun d => ∀ ms', d = .object ms' → IsWritableLiteral ms'

/-- What is expected of the length of an array: an object, which may name a constant. -/
def IsLength (lookup : Lookup) (d : Datum) : Prop :=
  d = .null ∨ ∃ ms, d = .object ms ∧ IsWritableLiteral ms ∧
    Holds ms "referencedDeclaration" (Finds lookup IsConstant)

/-- Whether a node says that it is a type name of a kind. -/
def IsKind (ms : List (String × Datum)) (kind : String) : Prop :=
  ∃ nodeType, Datum.find? "nodeType" ms = some nodeType ∧ nodeType.display = kind

theorem IsKind.eq {kind t : String} (h : IsKind ms kind)
    (ht : Datum.find? "nodeType" ms = some (.text t)) : t = kind := by
  obtain ⟨nodeType, hfind, rfl⟩ := h
  cases hfind.symm.trans ht
  rfl

/-- What is expected of a type name, and of the definition that it refers to. Any of the members may
be missing. -/
inductive IsTypeName (lookup : Lookup) : Datum → Prop
  | object {ms : List (String × Datum)} (writable : (Datum.object ms).isWritable = true)
    (descriptions : Holds ms "typeDescriptions" IsObject)
    (keyword : IsKind ms "ElementaryTypeName" → Holds ms "name" fun d => d.isKey = true)
    (definition : IsKind ms "UserDefinedTypeName" →
      Holds ms "referencedDeclaration" (Finds lookup IsDefinition))
    (key : IsKind ms "Mapping" → ∀ d, Datum.find? "keyType" ms = some d → IsTypeName lookup d)
    (value : IsKind ms "Mapping" → ∀ d, Datum.find? "valueType" ms = some d → IsTypeName lookup d)
    (element : IsKind ms "ArrayTypeName" →
      ∀ d, Datum.find? "baseType" ms = some d → IsTypeName lookup d)
    (length : IsKind ms "ArrayTypeName" → Holds ms "length" (IsLength lookup)) :
    IsTypeName lookup (.object ms)

/-- Whether a computation ends in values of a kind, unresolved types and missing members only. -/
abbrev EndsOpen {α : Type} (Q : α → Prop) (x : Except Fault α) : Prop := EndsIn Fault.IsOpen Q x

theorem endsOpen_require (ms : List (String × Datum)) (name : String) :
    EndsOpen (fun d => Datum.find? name ms = some d) (require (.object ms) name) := by
  unfold require
  dsimp only
  split
  next v h => exact h
  next => exact rfl

/-- What is said of an unresolved type is said if it can be written. -/
theorem endsOpen_ofUnresolved {α : Type} {Q : α → Prop} {u : Unresolved} (h : u.check = .ok ()) :
    EndsOpen Q (.error (.ofUnresolved u)) := by
  rw [Fault.ofUnresolved_of_check h]
  trivial

theorem endsOpen_checkText {d : Datum} (h : d.isWritable = true) :
    EndsOpen (fun _ => True) (Fault.lift d.checkText) := by
  rw [Datum.checkText_eq_ok.2 h]
  trivial

theorem endsOpen_child (ms : List (String × Datum)) (name : String) :
    EndsOpen (fun d => Datum.find? name ms = some d.val) (child (.object ms) name) := by
  unfold child
  dsimp only
  split
  next v h => exact h
  next => exact rfl

/-- The type string of a node is read without any failure, and can be written if the node can. -/
theorem ends_typeString {P : Fault → Prop} (hms : (Datum.object ms).isWritable = true)
    (h : Holds ms "typeDescriptions" IsObject) :
    EndsIn P (fun d => d.isWritable = true) (typeString (.object ms)) := by
  unfold typeString
  dsimp only
  cases hfind : Datum.find? "typeDescriptions" ms with
  | none => exact rfl
  | some d =>
    obtain ⟨ms', rfl⟩ := h d hfind
    have hms' := Datum.isWritable_of_find? hms hfind
    change ((Datum.find? "typeString" ms').getD .null).isWritable = true
    cases hstring : Datum.find? "typeString" ms' with
    | none => exact rfl
    | some d => exact Datum.isWritable_of_find? hms' hstring

theorem endsOpen_typeStringOr (hms : (Datum.object ms).isWritable = true)
    (h : Holds ms "typeDescriptions" IsObject) {default : Except DataError String}
    (hdefault : ∃ s, default = .ok s) :
    EndsOpen (fun d => d.isWritable = true) (typeStringOr (.object ms) default) := by
  obtain ⟨s, rfl⟩ := hdefault
  exact (ends_typeString hms h).bind fun given hgiven => .ite (fun _ => hgiven) fun _ => rfl

theorem endsOpen_contract? (hms : (Datum.object ms).isWritable = true) :
    EndsOpen (fun contract => ∀ outer, contract = some outer → outer.isWritable = true)
      (contract? (.object ms)) := by
  unfold contract?
  rw [field, ok_bind]
  cases hfind : Datum.find? contractMark ms with
  | none =>
    intro outer houter
    cases houter
  | some d =>
    have hd := Datum.isWritable_of_find? hms hfind
    rw [Option.getD_some]
    split <;> intro outer houter <;> cases houter
    exact hd

theorem endsOpen_itemsOf {P : Datum → Prop} (h : Holds ms name (HasItems P)) :
    EndsOpen (fun xs => ∀ x ∈ xs, P x) (itemsOf (.object ms) name) := by
  refine (endsOpen_require ms name).bind fun d hd => ?_
  obtain ⟨xs, hxs, hitems⟩ := h d hd
  rw [hxs]
  exact hitems

/-! ## Written types -/

/-- Whether all that is said of a type can be written. -/
structure IsWritten (t : Ty) : Prop where
  checkCalled : t.checkCalled = .ok ()
  isText : t.called.IsText
  name : t.name.isWritable = true

theorem IsWritten.checkName {t : Ty} (h : IsWritten t) : t.checkName = .ok () := by
  rw [Ty.checkName_eq_checkCalled h.isText.checkText, h.checkCalled]

theorem IsWritten.writtenSource {t : Ty} (h : IsWritten t) : ∃ s, t.writtenSource = .ok s := by
  rw [Ty.writtenSource, h.checkName]
  exact ⟨_, rfl⟩

theorem IsWritten.shownSource {t : Ty} (h : IsWritten t) : ∃ s, t.shownSource = .ok s := by
  obtain ⟨s, hs⟩ := h.isText
  rw [Ty.shownSource, h.checkCalled, ok_bind, hs]
  exact ⟨s, rfl⟩

theorem IsWritten.mapping {key value : Ty} (hkey : IsWritten key) (hvalue : IsWritten value)
    (typeString : Datum) (origin : Origin) : IsWritten (.mapping typeString origin key value) := by
  refine ⟨?_, ⟨_, rfl⟩, rfl⟩
  rw [Ty.checkCalled, hkey.checkCalled, ok_bind, hkey.isText.checkText, ok_bind,
    hvalue.checkCalled, ok_bind, hvalue.isText.checkText]

theorem IsWritten.array {element : Ty} (h : IsWritten element) {typeString : Datum}
    (hstring : typeString.isWritable = true) (origin : Origin) {length : Option Int}
    (hlength : ∀ n, length = some n → Text.isWritable n = true) :
    IsWritten (.array typeString origin element length) := by
  obtain ⟨s, hs⟩ := h.isText
  refine ⟨?_, ⟨_, rfl⟩, hstring⟩
  rw [Ty.checkCalled, h.checkCalled, ok_bind, Ty.checkBrackets_eq_ok.2 hlength, ok_bind, hs]

/-! ## Nodes as expected -/

theorem endsOpen_memberOfNode (h : IsMemberNode node) :
    EndsOpen (fun _ => True) (memberOfNode node) := by
  obtain ⟨ms, rfl, htype⟩ := h
  refine (endsOpen_require ms "name").bind fun _ _ => ?_
  refine (endsOpen_require ms "typeName").bind fun typeName hfind => ?_
  cases typeName with
  | null => exact (htype _ hfind rfl).elim
  | _ => trivial

theorem endsOpen_enumOfNode (hms : (Datum.object ms).isWritable = true)
    (hdescriptions : Holds ms "typeDescriptions" IsObject) (hname : Holds ms "name" Datum.IsText)
    (hmembers : Holds ms "members" (HasItems IsObject)) :
    EndsOpen IsWritten (enumOfNode (.object ms)) := by
  refine (endsOpen_require ms "canonicalName").bind fun canonicalName hcanonical => ?_
  have hcanonical := Datum.checkText_eq_ok.2 (Datum.isWritable_of_find? hms hcanonical)
  refine (endsOpen_require ms "name").bind fun name hfind => ?_
  refine (endsOpen_typeStringOr hms hdescriptions ⟨_, bind_eq_ok.2 ⟨(), hcanonical, rfl⟩⟩).bind
    fun typeString _ => ?_
  refine (endsOpen_itemsOf hmembers).bind fun items hitems => ?_
  refine (EndsIn.mapM (Q := fun _ => True) fun m hm => ?_).bind fun members _ => ?_
  · obtain ⟨ms', rfl⟩ := hitems m hm
    exact (endsOpen_require ms' "name").mono (fun _ h => h) fun _ _ => trivial
  · refine (endsOpen_contract? hms).bind fun contract hcontract => ?_
    refine (endsOpen_require ms "id").bind fun id _ => ?_
    have hwritable : Declaration.IsWritable ⟨⟨contract, id⟩, name, canonicalName⟩ :=
      ⟨Datum.isWritable_of_find? hms hfind, hcontract⟩
    exact ⟨hwritable.checkQualifiedName, isText_qualifiedName (hname name hfind), hwritable.1⟩

theorem endsOpen_structOfNode (hms : (Datum.object ms).isWritable = true)
    (hmembers : Holds ms "members" (HasItems IsMemberNode)) :
    EndsOpen IsWritten (structOfNode (.object ms)) := by
  refine (endsOpen_require ms "canonicalName").bind fun canonicalName hcanonical => ?_
  have hcanonical := Datum.isWritable_of_find? hms hcanonical
  refine (endsOpen_require ms "name").bind fun name hname => ?_
  refine (endsOpen_checkText hcanonical).bind fun _ _ => ?_
  refine (endsOpen_itemsOf hmembers).bind fun items hitems => ?_
  refine (EndsIn.mapM fun m hm => endsOpen_memberOfNode (hitems m hm)).bind fun members _ => ?_
  refine (endsOpen_contract? hms).bind fun contract _ => ?_
  exact (endsOpen_require ms "id").bind fun _ _ =>
    ⟨Datum.checkText_eq_ok.2 hcanonical, ⟨_, rfl⟩, Datum.isWritable_of_find? hms hname⟩

theorem endsOpen_aliasOfNode (hms : (Datum.object ms).isWritable = true)
    (hname : Holds ms "name" Datum.IsText) (hunderlying : Holds ms "underlyingType" (· ≠ .null)) :
    EndsOpen IsWritten (aliasOfNode (.object ms)) := by
  refine (endsOpen_require ms "name").bind fun name hfind => ?_
  refine (endsOpen_require ms "canonicalName").bind fun canonicalName _ => ?_
  refine (endsOpen_contract? hms).bind fun contract hcontract => ?_
  refine (endsOpen_require ms "id").bind fun id _ => ?_
  have hwritable : Declaration.IsWritable ⟨⟨contract, id⟩, name, canonicalName⟩ :=
    ⟨Datum.isWritable_of_find? hms hfind, hcontract⟩
  refine (endsOpen_require ms "underlyingType").bind fun underlying htype => ?_
  cases underlying with
  | null => exact (hunderlying _ htype rfl).elim
  | _ =>
    exact ⟨hwritable.checkQualifiedName, isText_qualifiedName (hname name hfind), hwritable.1⟩

theorem endsOpen_contractOfNode (hname : Holds ms "name" Datum.IsText) :
    EndsOpen IsWritten (contractOfNode (.object ms)) := by
  refine (endsOpen_require ms "name").bind fun name hfind => ?_
  obtain ⟨s, rfl⟩ := hname name hfind
  exact (endsOpen_require ms "id").bind fun _ _ => ⟨rfl, ⟨s, rfl⟩, rfl⟩

theorem endsOpen_typeOfDefinition (h : IsDefinition ms) :
    EndsOpen IsWritten (typeOfDefinition (.object ms)) := by
  obtain ⟨hms, h⟩ := h
  rw [typeOfDefinition, field, ok_bind]
  have hnone : EndsOpen IsWritten (.error (.ofUnresolved (.notADefinition (.object ms)
      ((Datum.find? "nodeType" ms).getD .null)))) := by
    refine endsOpen_ofUnresolved ?_
    have hnodeType : ((Datum.find? "nodeType" ms).getD .null).isWritable = true := by
      cases hfind : Datum.find? "nodeType" ms with
      | none => rfl
      | some d => exact Datum.isWritable_of_find? hms hfind
    rw [Unresolved.check, Datum.checkText_eq_ok.2 hms, ok_bind, Datum.checkText_eq_ok.2 hnodeType]
  cases hkind : typeKind? (.object ms) with
  | none => exact hnone
  | some kind =>
    rw [hkind] at h
    cases kind with
    | enum => exact endsOpen_enumOfNode hms h.1 h.2.1 h.2.2
    | struct => exact endsOpen_structOfNode hms h
    | valueType => exact endsOpen_aliasOfNode hms h.1 h.2
    | contract => exact endsOpen_contractOfNode h
    | «variable» => exact hnone

theorem endsOpen_elementaryOfNode (hms : (Datum.object ms).isWritable = true)
    (hdescriptions : Holds ms "typeDescriptions" IsObject)
    (hname : Holds ms "name" fun d => d.isKey = true) :
    EndsOpen IsWritten (elementaryOfNode (.object ms)) := by
  refine (endsOpen_require ms "name").bind fun name hfind => ?_
  refine .ite (fun hkey => by simp [hname name hfind] at hkey) fun _ => ?_
  have hwritten := Datum.checkText_eq_ok.2 (Datum.isWritable_of_find? hms hfind)
  split
  next s =>
    split
    next =>
      exact (endsOpen_typeStringOr hms hdescriptions ⟨_, rfl⟩).bind fun _ _ => ⟨rfl, ⟨_, rfl⟩, rfl⟩
    next =>
      exact .ite (fun _ => ⟨rfl, ⟨_, rfl⟩, rfl⟩) fun _ =>
        .ite (fun _ => ⟨rfl, ⟨_, rfl⟩, rfl⟩) fun _ => trivial
  next => exact endsOpen_ofUnresolved hwritten

/-- What the length of an array is read from: a literal, or the value of a constant. -/
theorem endsOpen_lengthLiteral (hliteral : IsWritableLiteral ms)
    (h : Holds ms "referencedDeclaration" (Finds lookup IsConstant)) :
    EndsOpen (fun d => ∀ ms', d = .object ms' → IsWritableLiteral ms')
      (lengthLiteral lookup (.object ms)) := by
  unfold lengthLiteral
  rw [field, ok_bind]
  refine .ite (fun hnamed => ?_) fun _ ms' hms' => by cases hms'; exact hliteral
  obtain ⟨reference, hfind⟩ := Option.isSome_iff_exists.1 hnamed.2
  rw [field, ok_bind, hfind]
  refine (h reference hfind).bind fun declaration hobject => ?_
  obtain ⟨ms', rfl, hconstant⟩ := hobject
  rw [field, ok_bind]
  refine .ite (fun _ => ?_) fun _ _ hnull => by cases hnull
  cases hvalue : Datum.find? "value" ms' with
  | none =>
    rw [field, hvalue]
    intro _ hnull
    cases hnull
  | some d =>
    rw [field, hvalue]
    exact hconstant d hvalue

theorem endsOpen_lengthOfNode (hms : (Datum.object ms).isWritable = true)
    (hdescriptions : Holds ms "typeDescriptions" IsObject)
    (hlength : Holds ms "length" (IsLength lookup)) :
    EndsOpen (fun length => ∀ n, length = some n → Text.isWritable n = true)
      (lengthOfNode lookup (.object ms)) := by
  have hopen {Q : Option Int → Prop} {u : Datum → Unresolved}
      (hu : ∀ d, (u d).check = d.checkText) :
      EndsOpen Q (typeString (.object ms) >>= fun d => .error (.ofUnresolved (u d))) :=
    (ends_typeString hms hdescriptions).bind fun d hd =>
      endsOpen_ofUnresolved ((hu d).trans (Datum.checkText_eq_ok.2 hd))
  unfold lengthOfNode
  rw [field, ok_bind]
  cases hfind : Datum.find? "length" ms with
  | none =>
    intro _ hnone
    cases hnone
  | some length =>
    rcases hlength length hfind with rfl | ⟨length, rfl, hliteral, hreference⟩
    · intro _ hnone
      cases hnone
    · refine (endsOpen_lengthLiteral hliteral hreference).bind fun literal hvalues =>
        .ite (fun _ => ?_) fun hvalue => ?_
      · exact hopen fun _ => rfl
      · -- What has a value is an object.
        cases literal with
        | object ms' =>
          obtain ⟨value, hfound⟩ : ∃ d, Datum.find? "value" ms' = some d :=
            Option.ne_none_iff_exists'.1 (by simpa [has] using hvalue)
          rw [field, ok_bind, hfound, Option.getD_some]
          split
          next n hn =>
            intro m hm
            cases hm
            exact hvalues ms' rfl value hfound n hn
          next => exact hopen fun _ => rfl
        | _ => simp [has] at hvalue

theorem endsOpen_originOfNode (hms : (Datum.object ms).isWritable = true) :
    EndsOpen (fun _ => True) (originOfNode (.object ms)) :=
  (endsOpen_contract? hms).bind fun _ _ => .ite (fun _ => trivial) fun _ => trivial

/-- A type name that is as expected is the name of a type that can be written, or unresolved. -/
theorem IsTypeName.ends (h : IsTypeName lookup node) :
    EndsIn Fault.IsUnresolved IsWritten (typeOfName lookup node) := by
  induction h with
  | @object ms hms hdescriptions hkeyword hdefinition _ _ _ hlength ihkey ihvalue ihelement =>
    have hpart : ∀ {d}, EndsIn Fault.IsUnresolved IsWritten (typeOfName lookup d) →
        EndsOpen IsWritten (typeOfName lookup d) :=
      fun h => h.mono (fun _ => Fault.IsUnresolved.isOpen) fun _ h => h
    rw [typeOfName]
    refine ends_resolving_open ?_
    refine (endsOpen_require ms "nodeType").bind fun nodeType hnodeType => ?_
    have hkind : ∀ {kind}, nodeType.display = kind → IsKind ms kind :=
      fun h => ⟨nodeType, hnodeType, h⟩
    have hwritten := Datum.checkText_eq_ok.2 (Datum.isWritable_of_find? hms hnodeType)
    refine .ite (fun h => endsOpen_elementaryOfNode hms hdescriptions (hkeyword (hkind h)))
      fun _ => .ite (fun h => ?named) fun _ => .ite (fun h => ?mapping) fun _ =>
        .ite (fun h => ?array) fun _ => endsOpen_ofUnresolved hwritten
    case named =>
      refine (endsOpen_require ms "referencedDeclaration").bind fun reference hfind => ?_
      refine (hdefinition (hkind h) reference hfind).bind fun declaration hfound => ?_
      obtain ⟨ms', rfl, hexpected⟩ := hfound
      exact endsOpen_typeOfDefinition hexpected
    case mapping =>
      refine (endsOpen_child ms "keyType").bind fun keyNode hkey => ?_
      refine (hpart (ihkey (hkind h) _ hkey)).bind fun key hkey => ?_
      refine (endsOpen_child ms "valueType").bind fun valueNode hvalue => ?_
      refine (hpart (ihvalue (hkind h) _ hvalue)).bind fun value hvalue => ?_
      refine (endsOpen_originOfNode hms).bind fun origin _ => ?_
      refine (endsOpen_typeStringOr hms hdescriptions (hkey.mapping hvalue _ _).writtenSource).bind
        fun typeString _ => ?_
      refine (endsOpen_checkText hkey.name).bind fun _ _ => ?_
      exact (endsOpen_checkText hvalue.name).bind fun _ _ => hkey.mapping hvalue typeString origin
    case array =>
      refine (endsOpen_child ms "baseType").bind fun elementNode helement => ?_
      refine (hpart (ihelement (hkind h) _ helement)).bind fun element helement => ?_
      refine (endsOpen_lengthOfNode hms hdescriptions (hlength (hkind h))).bind fun length hn => ?_
      refine (endsOpen_originOfNode hms).bind fun origin _ => ?_
      have hplain : IsWritten (.array .null origin element length) := helement.array rfl origin hn
      refine (endsOpen_typeStringOr hms hdescriptions hplain.writtenSource).bind
        fun typeString hstring => ?_
      exact helement.array hstring origin hn

end Ast

/-! ## Resolvers -/

namespace Resolver

variable {r : Resolver} {node : Datum}

/-- A type name that does not resolve leaves a record, for which its type string is read. -/
theorem result_typeOfName {P : Fault → Prop} {Q : Ty → Prop}
    (h : EndsIn P Q (Ast.typeOfName r.lookup node))
    (hrecord : EndsIn P (fun _ => True) (shownTypeString node)) :
    EndsIn P Q (r.typeOfName node).result := by
  unfold typeOfName
  split
  next e he =>
    cases hstring : shownTypeString node with
    | ok typeString => exact h.of_error he
    | error fault => exact hrecord.of_error hstring
  next => exact h

theorem ends_elementaryOfAlias {P : Fault → Prop} {Q : Ty → Prop} (d : Declaration)
    (h : EndsIn P Q (r.typeOfName node).result)
    (hunresolved : ∀ t, Q t → P (.ofUnresolved (.notElementary t d))) :
    EndsIn P (fun _ => True) (r.elementaryOfAlias d node).result := by
  rw [elementaryOfAlias, Traced.result_bind]
  refine h.bind fun t ht => ?_
  split
  next => trivial
  next => exact hunresolved t ht

theorem typeOfName_ends_in_defect (hlookup : ∀ reference, Ast.EndsInDefect (r.lookup reference))
    (node : Datum) : EndsIn Fault.IsDefect (fun _ => True) (r.typeOfName node).result :=
  result_typeOfName (Ast.typeOfName_ends_in_defect hlookup node)
    ((Ast.typeString_ends_in_defect node).bind fun typeString _ => EndsIn.bind
      (shows_of_data (fun _ => trivial) typeString.checkText) fun _ _ => trivial)

theorem ends_typeOfName (h : Ast.IsTypeName r.lookup node) :
    EndsIn Fault.IsUnresolved Ast.IsWritten (r.typeOfName node).result := by
  refine result_typeOfName h.ends ?_
  cases h with
  | object hms descriptions =>
    refine (Ast.ends_typeString hms descriptions).bind fun typeString hstring => ?_
    rw [Datum.checkText_eq_ok.2 hstring]
    trivial

theorem boundedTypeOfName_of_le (r : Resolver) (h : Ast.nesting node ≤ Ast.mostNested) :
    r.boundedTypeOfName node = r.typeOfName node := if_pos h

/-- A resolver fails to resolve what it is given, or meets a defect in it. On type names that are as
expected, with lookups that find what is expected, it only ever fails to resolve. -/
theorem fails_unresolved (hlookup : ∀ reference, Ast.EndsInDefect (r.lookup reference)) :
    (∀ node, EndsIn Fault.IsDefect (fun _ => True) (r.typeOfName node).result ∧
        EndsIn Fault.IsDefect (fun _ => True) (r.boundedTypeOfName node).result) ∧
      (∀ m, EndsIn Fault.IsDefect (fun _ => True) (r.memberType m).result) ∧
      (∀ d node, EndsIn Fault.IsDefect (fun _ => True) (r.elementaryOfAlias d node).result) ∧
      ∀ node, Ast.IsTypeName r.lookup node →
        EndsIn Fault.IsUnresolved (fun _ => True) (r.typeOfName node).result ∧
          (Ast.nesting node ≤ Ast.mostNested →
            EndsIn Fault.IsUnresolved (fun _ => True) (r.boundedTypeOfName node).result) ∧
          (∀ name,
            EndsIn Fault.IsUnresolved (fun _ => True) (r.memberType (.node name node)).result) ∧
          ∀ d : Declaration, d.IsWritable →
            EndsIn Fault.IsUnresolved (fun _ => True) (r.elementaryOfAlias d node).result := by
  have hdefect := typeOfName_ends_in_defect hlookup
  refine ⟨fun node => ⟨hdefect node, ?bounded⟩, ?member, ?elementary, fun node h => ?expected⟩
  case bounded =>
    unfold boundedTypeOfName
    split
    next => exact hdefect node
    next => trivial
  case member =>
    intro m
    cases m with
    | attached => trivial
    | node name node => exact hdefect node
  case elementary =>
    intro d node
    exact ends_elementaryOfAlias d (hdefect node) fun t _ => Ast.isDefect_ofUnresolved _
  case expected =>
    have hends := ends_typeOfName h
    have htype := hends.mono (fun _ h => h) fun _ _ => trivial
    refine ⟨htype, fun hle => ?_, fun _ => htype, fun d hd => ?_⟩
    · rw [boundedTypeOfName_of_le r hle]
      exact htype
    · refine ends_elementaryOfAlias d hends fun t ht => ?_
      obtain ⟨s, hs⟩ := ht.shownSource
      rw [Fault.ofUnresolved_of_check]
      · trivial
      · rw [Unresolved.check, hs, ok_bind, hd.checkQualifiedName, ok_bind, hd.checkText]

/-- The lookup of a table meets a defect in what is no key, and nothing worse. -/
theorem endsInDefect_inTable (nodes : List (Int × Datum)) (absent : Datum → Unresolved)
    (reference : Datum) : Ast.EndsInDefect (inTable nodes absent reference) := by
  refine .ite (fun _ => trivial) fun _ => ?_
  split
  next => trivial
  next => exact Ast.endsInDefect_ofUnresolved _

/-! An array of an enum. -/

namespace Ballots

def choice : List (String × Datum) :=
  [("nodeType", .text "EnumDefinition"), ("id", .int 7), ("name", .text "Choice"),
    ("canonicalName", .text "Choice"),
    ("members", .list [.object [("name", .text "Yes")], .object [("name", .text "No")]])]

def choiceName : List (String × Datum) :=
  [("nodeType", .text "UserDefinedTypeName"), ("referencedDeclaration", .int 7)]

def choices (length : Datum) : List (String × Datum) :=
  [("nodeType", .text "ArrayTypeName"), ("baseType", .object choiceName), ("length", length)]

def resolver : Resolver := ofNodes [(7, .object choice)]

theorem isDefinition_choice : Ast.IsDefinition choice := by
  refine ⟨rfl, ?_, ?_, ?_⟩
  · intro d hd
    cases hd
  · intro d hd
    cases hd
    exact ⟨_, rfl⟩
  · intro d hd
    cases hd
    refine ⟨_, rfl, fun x hx => ?_⟩
    simp only [List.mem_cons, List.not_mem_nil, or_false] at hx
    rcases hx with rfl | rfl <;> exact ⟨_, rfl⟩

theorem isTypeName_choiceName : Ast.IsTypeName resolver.lookup (.object choiceName) := by
  refine .object rfl ?_ ?_ ?_ ?_ ?_ ?_ ?_
  · intro d hd
    cases hd
  · intro hkind
    exact absurd (hkind.eq rfl) (by decide)
  · intro _ d hd
    cases hd
    exact ⟨choice, rfl, isDefinition_choice⟩
  all_goals
    intro hkind
    exact absurd (hkind.eq rfl) (by decide)

theorem isTypeName_choices :
    Ast.IsTypeName resolver.lookup (.object (choices (.object [("value", .text "3")]))) := by
  refine .object rfl ?_ ?_ ?_ ?_ ?_ ?_ ?_
  · intro d hd
    cases hd
  · intro hkind
    exact absurd (hkind.eq rfl) (by decide)
  · intro hkind
    exact absurd (hkind.eq rfl) (by decide)
  · intro hkind
    exact absurd (hkind.eq rfl) (by decide)
  · intro hkind
    exact absurd (hkind.eq rfl) (by decide)
  · intro _ d hd
    cases hd
    exact isTypeName_choiceName
  · intro _ d hd
    cases hd
    refine .inr ⟨_, rfl, fun d hd n hn => ?_, fun d hd => ?_⟩
    · cases hd
      cases hn
      rfl
    · cases hd

/-- An array of three choices resolves, or says that it does not. -/
theorem choices_resolve :
    (∀ reference, Ast.EndsInDefect (resolver.lookup reference)) ∧
      EndsIn Fault.IsUnresolved (fun _ => True)
        (resolver.typeOfName (.object (choices (.object [("value", .text "3")])))).result := by
  have hlookup : ∀ reference, Ast.EndsInDefect (resolver.lookup reference) :=
    endsInDefect_inTable _ _
  exact ⟨hlookup, ((fails_unresolved hlookup).2.2.2 _ isTypeName_choices).1⟩

def uint8Name : Datum :=
  .object [("nodeType", .text "ElementaryTypeName"), ("name", .text "uint8")]

def textLength : Datum :=
  .object [("nodeType", .text "ArrayTypeName"), ("baseType", uint8Name), ("length", .text "3")]

/-- A resolver that knows no node. -/
def unknowing : Resolver where
  lookup reference := .error (.missing reference)

/-- A length that is a text is neither read nor said not to resolve. -/
theorem textLength_defect :
    (∀ reference,
      EndsIn (Fault.OrMissing Fault.IsUnresolved) Ast.IsObject (unknowing.lookup reference)) ∧
      (unknowing.typeOfName textLength).result = .error (.data (.notATable (.text "3"))) := by
  have helement : Ast.typeOfName unknowing.lookup uint8Name = .ok (.int .uint8) := by
    rw [Ast.typeOfName]
    rfl
  have hlength : Ast.typeOfName unknowing.lookup textLength =
      .error (.data (.notATable (.text "3"))) := by
    rw [Ast.typeOfName]
    change Ast.resolving (Ast.typeOfName unknowing.lookup uint8Name >>= fun element =>
      Ast.lengthOfNode unknowing.lookup textLength >>= _) = _
    rw [helement]
    rfl
  refine ⟨fun _ => trivial, ?_⟩
  rw [typeOfName, hlength]
  rfl

end Ballots

end Resolver

end StorageSnapshot
