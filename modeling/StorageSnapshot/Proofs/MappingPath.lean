-- SUMMARY: The value for a path of keys: a slot for each key, and the first key that fails.
import StorageSnapshot.Decode.MappingPath
import StorageSnapshot.Proofs.Limits
import StorageSnapshot.Proofs.Writable

/-!
# Paths of keys

Nested mappings take a key for each level, the outermost first. Each key leads from the slot of its
level to the slot of the next one, so that some of the keys of a path lead to an inner mapping,
where the keys behind them are looked up. The innermost value is decoded as deep as there are
levels, and that is all that tells a path from its parts.
-/

namespace StorageSnapshot

variable {r : Resolver} {t : Ty} {types : List Ty} {c : Cursor} {n : Nat}
  {keys first rest : List Datum} {raws : List Bytes} {f : Fault}

/-! ## Levels -/

namespace Ty

/-- What a mapping holds behind some levels. -/
def behind : Nat → Ty → Ty
  | n + 1, .mapping _ _ _ value => behind n value
  | _, t => t

theorem keyTypes_behind (n : Nat) (t : Ty) : (t.behind n).keyTypes = t.keyTypes.drop n := by
  induction n generalizing t with
  | zero => cases t <;> rfl
  | succ n ih =>
    cases t with
    | mapping typeString origin keyType value => exact ih value
    | _ => rfl

theorem behind_length_keyTypes (h : n = t.keyTypes.length) : t.behind n = t.valueType := by
  induction n generalizing t with
  | zero =>
    cases t with
    | mapping => cases h
    | _ => rfl
  | succ n ih =>
    cases t with
    | mapping typeString origin keyType value => exact ih (Nat.succ.inj h)
    | _ => rfl

/-- Each level that takes a key is a mapping. -/
theorem behind_eq_mapping {keyType : Ty} (h : t.keyTypes[n]? = some keyType) :
    ∃ typeString origin value, t.behind n = .mapping typeString origin keyType value := by
  have hhead : (t.behind n).keyTypes[0]? = some keyType := by
    rw [keyTypes_behind, List.getElem?_drop, Nat.add_zero, h]
  cases hlevel : t.behind n with
  | mapping typeString origin keyType' value =>
    rw [hlevel] at hhead
    obtain rfl : keyType' = keyType := Option.some.inj hhead
    exact ⟨typeString, origin, value, rfl⟩
  | _ =>
    rw [hlevel] at hhead
    cases hhead

theorem checkName_behind (n : Nat) (h : t.checkName = .ok ()) :
    (t.behind n).checkName = .ok () := by
  induction n generalizing t with
  | zero => cases t <;> exact h
  | succ n ih =>
    cases t with
    | mapping typeString origin keyType value => exact ih (checkName_of_mapping h)
    | _ => exact h

end Ty

/-- Where the keys of nested mappings lead from the slot of the outermost, each key encoded. A key
leads to the digest of its bytes and the 32 bytes of the slot that it is looked up in. -/
def Slot.path (s : Slot) (raws : List Bytes) : Slot :=
  raws.foldl (fun s raw =>
    BitVec.ofNat 256 (Bytes.toNat (Keccak.digest (raw ++ Bytes.ofNat wordSize s.toNat)))) s

/-- Decoding looks for each entry where the path leads. -/
theorem Slot.path_cons (s : Slot) (raw : Bytes) (raws : List Bytes) :
    s.path (raw :: raws) = (s.entry raw).path raws := rfl

theorem Slot.path_append (s : Slot) (raws raws' : List Bytes) :
    s.path (raws ++ raws') = (s.path raws).path raws' := List.foldl_append

/-! ## Keys -/

namespace Key

/-- Whether keys, the outermost first, are encoded at the types of their levels as these bytes. -/
inductive Encodes (r : Resolver) : List Ty → List Datum → List Bytes → Prop
  | nil {types : List Ty} : Encodes r types [] []
  | cons {type : Ty} {types : List Ty} {key : Datum} {keys : List Datum} {raw : Bytes}
      {raws : List Bytes} (hkey : (encode r type key).result = .ok raw)
      (hkeys : Encodes r types keys raws) : Encodes r (type :: types) (key :: keys) (raw :: raws)

theorem Encodes.eq_nil (h : Encodes r types [] raws) : raws = [] := by
  cases h
  rfl

/-- Whether there is a key that can't be encoded, for some fault, and all keys in front of it
can. -/
def FirstFails (r : Resolver) (types : List Ty) (keys : List Datum) (f : Fault) : Prop :=
  ∃ first key rest raws type, keys = first ++ key :: rest ∧ Encodes r types first raws ∧
    types[first.length]? = some type ∧ (encode r type key).result = .error f

/-- As many keys as levels are all encoded, or there is a first one that is not. -/
theorem encodes_or_fails (r : Resolver) (h : keys.length = types.length) :
    (∃ raws, Encodes r types keys raws) ∨ ∃ f, FirstFails r types keys f := by
  induction keys generalizing types with
  | nil => exact .inl ⟨[], .nil⟩
  | cons key keys ih =>
    obtain ⟨type, types, rfl⟩ := List.exists_cons_of_length_eq_add_one h.symm
    cases hkey : (encode r type key).result with
    | error f => exact .inr ⟨f, [], key, keys, [], type, rfl, .nil, rfl, hkey⟩
    | ok raw =>
      rcases ih (Nat.succ.inj h) with
        ⟨raws, hraws⟩ | ⟨f, first, key', rest, raws, type', rfl, hfirst, htype, hf⟩
      · exact .inl ⟨raw :: raws, .cons hkey hraws⟩
      · exact .inr ⟨f, key :: first, key', rest, raw :: raws, type', rfl, .cons hkey hfirst, htype,
          hf⟩

end Key

/-- The limits that admit values that many levels further down. -/
def Limits.deeper (l : Limits) (levels : Nat) : Limits := ⟨l.length, .ofNat (l.maxDepth + levels)⟩

namespace Decode

variable {ctx : Context}

/-! ## Steps -/

/-- What decoding comes to if a key can't be encoded: a type that does not resolve gives up the
value. -/
def unencoded : Fault → Halt
  | .unresolved _ => .abort
  | f => .fault f

/-- A level leads to the slot of the key, if the key can be encoded. -/
theorem result_entryPlace (hname : t.checkName = .ok ()) (keyType : Ty) (c : Cursor)
    {key : Datum} (hwritable : key.isWritable = true) :
    (entryPlace ctx t keyType c key).result =
      match (Key.encode ctx.resolver keyType key).result with
      | .ok raw => .ok (.fresh (c.slot.entry raw))
      | .error f => .error (unencoded f) := by
  rw [entryPlace, Traced.result_bind, Traced.rescue]
  cases hkey : (Key.encode ctx.resolver keyType key).result with
  | ok raw =>
    rw [ok_bind, Traced.result_bind, result_stepExcept, Datum.checkText_eq_ok.2 hwritable]
    rw [Fault.lift, mapError_ok, ok_bind, Traced.result_bind, result_checkName hname]
    rfl
  | error f =>
    cases f with
    | unresolved e =>
      rw [Traced.result_bind, result_checkName hname]
      rfl
    | _ => rfl

/-- Keys are followed with the resolver only. -/
theorem followKeys_limits (ctx : Context) (limits : Limits) (t : Ty) (c : Cursor)
    (keys : List Datum) : followKeys ctx t c keys = followKeys { ctx with limits } t c keys := by
  induction keys generalizing t c with
  | nil => cases t <;> rfl
  | cons key keys ih =>
    cases t with
    | mapping typeString origin keyType value => exact bind_congr fun place => ih value place
    | _ => rfl

/-! ## Runs -/

/-- Keys that are encoded lead to the level behind them, and to the slot that they lead to. -/
theorem followKeys_append (hname : t.checkName = .ok ()) (hc : c.isFresh = true)
    (hwritable : ∀ key ∈ first, key.isWritable = true)
    (h : Key.Encodes ctx.resolver t.keyTypes first raws) (rest : List Datum) :
    (followKeys ctx t c (first ++ rest)).result =
      (followKeys ctx (t.behind first.length) (.fresh (c.slot.path raws)) rest).result := by
  induction first generalizing t c raws with
  | nil =>
    obtain rfl := h.eq_nil
    rw [Cursor.eq_fresh_of_isFresh hc]
    cases t <;> rfl
  | cons key first ih =>
    cases t with
    | mapping typeString origin keyType value =>
      obtain _ | ⟨hkey, hfirst⟩ := h
      have hkeyWritable := hwritable key List.mem_cons_self
      rw [List.cons_append, followKeys, Traced.result_bind,
        result_entryPlace hname _ _ hkeyWritable, hkey, Slot.path_cons]
      exact ih (Ty.checkName_of_mapping hname) rfl
        (fun key' hkey' => hwritable key' (List.mem_cons_of_mem _ hkey')) hfirst
    | _ => cases h

/-- Keys that are all encoded lead to the innermost type and the last slot. -/
theorem followKeys_of_encodes (hname : t.checkName = .ok ()) (hc : c.isFresh = true)
    (hwritable : ∀ key ∈ keys, key.isWritable = true) (hlength : keys.length = t.keyTypes.length)
    (h : Key.Encodes ctx.resolver t.keyTypes keys raws) :
    (followKeys ctx t c keys).result = .ok (t.valueType, .fresh (c.slot.path raws)) := by
  rw [← List.append_nil keys, followKeys_append hname hc hwritable h,
    Ty.behind_length_keyTypes hlength, followKeys]
  rfl

/-- The first key that can't be encoded ends the loop, and no key behind it matters. -/
theorem followKeys_of_firstFails (hname : t.checkName = .ok ()) (hc : c.isFresh = true)
    (hwritable : ∀ key ∈ keys, key.isWritable = true)
    (h : Key.FirstFails ctx.resolver t.keyTypes keys f) :
    (followKeys ctx t c keys).result = .error (unencoded f) := by
  obtain ⟨first, key, rest, raws, keyType, rfl, hfirst, hkeyType, hf⟩ := h
  obtain ⟨typeString, origin, value, hlevel⟩ := Ty.behind_eq_mapping hkeyType
  have hlevelName := Ty.checkName_behind first.length hname
  rw [hlevel] at hlevelName
  have hfirstWritable : ∀ key' ∈ first, key'.isWritable = true := fun key' hkey' =>
    hwritable key' (List.mem_append_left _ hkey')
  rw [followKeys_append hname hc hfirstWritable hfirst, hlevel, followKeys, Traced.result_bind,
    result_entryPlace hlevelName _ _ (hwritable key (by simp)), hf]
  rfl

/-! ## Paths -/

/-- What refuses another number of keys than there are levels shows all of them. -/
theorem ofInput_wrongKeyCount (hname : t.checkName = .ok ()) (keys : List Datum) :
    Fault.ofInput (.wrongKeyCount t keys) =
      if (Datum.list keys).isWritable then .input (.wrongKeyCount t keys)
      else .data .unwritable := by
  have hcheck : (InputError.wrongKeyCount t keys).check = (Datum.list keys).checkText := by
    rw [InputError.check, hname, ok_bind]
  rw [Fault.ofInput, hcheck, Fault.raised_checkText]

/-- Another number of keys than there are levels is refused, with nothing done before. -/
theorem mappingPathBy_refuses (decode : (depth : Int) → Nested) (ht : t.keyTypes ≠ [])
    (hc : c.isFresh = true) (hlength : keys.length ≠ t.keyTypes.length) :
    mappingPathBy decode ctx t c keys =
      Traced.fail (.fault (.ofInput (.wrongKeyCount t keys))) := by
  have hfresh : checkFresh t c = .ok () := if_pos hc
  have hkeys : checkKeys t keys = .error (.ofInput (.wrongKeyCount t keys)) := by
    rw [checkKeys, if_neg (by rwa [List.isEmpty_iff]), if_pos hlength]
  rw [mappingPathBy, hfresh, hkeys]
  rfl

theorem boundedMappingPath_eq_mappingPath (h : budget ctx keys.length ≤ mostNested) (t : Ty)
    (c : Cursor) : boundedMappingPath ctx t c keys = mappingPath ctx t c keys := by
  simp only [boundedMappingPath, mappingPath, mappingPathBy, boundedValue_eq_value h]

/-- As many keys as levels are followed, and what they lead to is decoded as deep as they are. -/
theorem result_mappingPath (ht : t.keyTypes ≠ []) (hc : c.isFresh = true)
    (hlength : keys.length = t.keyTypes.length) :
    (mappingPath ctx t c keys).result =
      (followKeys ctx t c keys).result >>= fun entry =>
        (value ctx keys.length entry.1 entry.2).result.map fun found => (found.1, c.nextWord) := by
  have hfresh : checkFresh t c = .ok () := if_pos hc
  have hkeys : checkKeys t keys = .ok () := by
    rw [checkKeys, if_neg (by rwa [List.isEmpty_iff]), if_neg (not_not_intro hlength)]
  simp only [mappingPath, mappingPathBy, Traced.result_bind, result_stepExcept, hfresh, hkeys,
    mapError_ok, ok_bind]
  rfl

/-- The place behind a value is no part of the value. -/
theorem map_fst_map {x : Except Halt (Decoded Value)} {next : Cursor} :
    (x.map fun found => (found.1, next)).map Prod.fst = x.map Prod.fst := by
  cases x <;> rfl

/-- Whether decoding a path comes to the same under all limits that admit as much. -/
def KeepsLimits (ctx : Context) (t : Ty) (c : Cursor) (keys : List Datum) : Prop :=
  ∀ limits : Limits, ctx.limits.maxLength ≤ limits.maxLength →
    ctx.limits.maxDepth ≤ limits.maxDepth →
    (mappingPath { ctx with limits } t c keys).result = (mappingPath ctx t c keys).result

theorem Agrees.antisymm {α : Type} {halt : Halt} {a b : Except Halt α} (h : Agrees halt a b)
    (h' : Agrees halt b a) : a = b := by
  rcases h with rfl | rfl
  · rfl
  · rcases h' with rfl | rfl <;> rfl

/-- A value further down is the same or given up. -/
theorem value_agrees_deeper (ctx : Context) (depth levels : Nat) (t : Ty) (c : Cursor) :
    Agrees .abort (value ctx (levels + depth : Nat) t c).result (value ctx depth t c).result := by
  have hbudget : budget ctx (levels + depth : Nat) ≤ budget ctx depth := by
    simp only [budget]
    omega
  have hlength : ctx.limits.maxLength ≤ ctx.limits.maxLength := Nat.le_refl _
  exact within_agrees_of_le hlength hbudget t c

/-- A value further down is the same if as many more levels are admitted. -/
theorem value_deeper (ctx : Context) (depth levels : Nat) (t : Ty) (c : Cursor) :
    (value { ctx with limits := ctx.limits.deeper levels } (levels + depth : Nat) t c).result =
      (value ctx depth t c).result := by
  have hbudget : budget { ctx with limits := ctx.limits.deeper levels } (levels + depth : Nat) =
      budget ctx depth := by
    simp only [budget, Limits.maxDepth, Limits.deeper, Bound.ofNat]
    omega
  have hlength : ctx.limits.maxLength = (ctx.limits.deeper levels).maxLength := rfl
  have hdeeper : Agrees .abort (value ctx depth t c).result
      (value { ctx with limits := ctx.limits.deeper levels } (levels + depth : Nat) t c).result :=
    within_agrees_of_le (Nat.le_of_eq hlength) (Nat.le_of_eq hbudget.symm) t c
  have hback : Agrees .abort
      (value { ctx with limits := ctx.limits.deeper levels } (levels + depth : Nat) t c).result
      (value ctx depth t c).result :=
    @within_agrees_of_le { ctx with limits := ctx.limits.deeper levels } ctx.limits
      (Nat.le_of_eq hlength.symm) _ _ (Nat.le_of_eq hbudget) t c
  exact hback.antisymm hdeeper

/-- Some keys of a path lead to an inner mapping. What the keys behind them lead to there is what
the whole path leads to, unless the whole path is given up and larger limits would not. -/
theorem mappingPath_split (hname : t.checkName = .ok ()) (hc : c.isFresh = true)
    (hrest : rest ≠ []) (hlength : (first ++ rest).length = t.keyTypes.length)
    (hwritable : ∀ key ∈ first, key.isWritable = true)
    (hfirst : Key.Encodes ctx.resolver t.keyTypes first raws) :
    (mappingPath ctx t c (first ++ rest)).result.map Prod.fst =
        (mappingPath ctx (t.behind first.length) (.fresh (c.slot.path raws)) rest).result.map
          Prod.fst ∨
      (mappingPath ctx t c (first ++ rest)).result = .error .abort ∧
        ¬KeepsLimits ctx t c (first ++ rest) := by
  have hinner : rest.length = (t.behind first.length).keyTypes.length := by
    rw [Ty.keyTypes_behind, List.length_drop, ← hlength, List.length_append]
    omega
  have hmapping : (t.behind first.length).keyTypes ≠ [] := by
    intro hnil
    rw [hnil] at hinner
    exact hrest (List.length_eq_zero_iff.1 hinner)
  have hwhole : t.keyTypes ≠ [] := by
    intro hnil
    rw [hnil, List.length_append] at hlength
    exact hrest (List.length_eq_zero_iff.1 (Nat.eq_zero_of_add_eq_zero_left hlength))
  have hfollow : (followKeys ctx t c (first ++ rest)).result =
      (followKeys ctx (t.behind first.length) (.fresh (c.slot.path raws)) rest).result :=
    followKeys_append hname hc hwritable hfirst rest
  -- Limits that admit as many more levels as there are first keys make both depths the same.
  have hkept : ∀ entry, (followKeys ctx t c (first ++ rest)).result = .ok entry →
      KeepsLimits ctx t c (first ++ rest) →
      (value ctx rest.length entry.1 entry.2).result.map Prod.fst =
        (value ctx (first.length + rest.length : Nat) entry.1 entry.2).result.map Prod.fst := by
    intro entry hentry hkeeps
    have hsame := hkeeps (ctx.limits.deeper first.length) (Nat.le_refl _) (Nat.le_add_right _ _)
    rw [result_mappingPath hwhole hc hlength, result_mappingPath hwhole hc hlength,
      ← followKeys_limits, hentry, ok_bind, ok_bind, List.length_append, value_deeper] at hsame
    have hfst := congrArg (Except.map Prod.fst) hsame
    rwa [map_fst_map, map_fst_map] at hfst
  rw [result_mappingPath hwhole hc hlength, result_mappingPath hmapping rfl hinner, ← hfollow,
    List.length_append]
  cases hentry : (followKeys ctx t c (first ++ rest)).result with
  | error halt => exact .inl rfl
  | ok entry =>
    rw [ok_bind, ok_bind, map_fst_map, map_fst_map]
    rcases value_agrees_deeper ctx rest.length first.length entry.1 entry.2 with hsame | habort
    · rw [hsame]
      exact .inl rfl
    · by_cases hkeeps : KeepsLimits ctx t c (first ++ rest)
      · exact .inl (hkept entry hentry hkeeps).symm
      · rw [habort]
        exact .inr ⟨rfl, hkeeps⟩

/--
Nested mappings take as many keys as they have levels, and refuse others before any key is encoded,
which shows the keys. Keys that can be written are followed from the outermost on, and the first
that can't be encoded decides what decoding comes to. If all are encoded, each leads to a slot of
the next level, and the innermost value is decoded in the last slot. Whatever takes a key is a
mapping, so that only keys can end the loop. Some of the keys of a path lead to an inner mapping,
where the others have the value of the whole path, if the limits are kept.
-/
theorem mappingPath_follows (hname : t.checkName = .ok ()) (ht : t.keyTypes ≠ [])
    (hc : c.isFresh = true) :
    (∀ keys, keys.length ≠ t.keyTypes.length →
        mappingPath ctx t c keys = Traced.fail (.fault
          (if (Datum.list keys).isWritable then .input (.wrongKeyCount t keys)
          else .data .unwritable))) ∧
      ∀ keys, keys.length = t.keyTypes.length → (Datum.list keys).isWritable = true →
        ((∃ raws, Key.Encodes ctx.resolver t.keyTypes keys raws) ∨
          ∃ f, Key.FirstFails ctx.resolver t.keyTypes keys f) ∧
        (∀ f, Key.FirstFails ctx.resolver t.keyTypes keys f →
          (mappingPath ctx t c keys).result = .error (unencoded f)) ∧
        (∀ raws, Key.Encodes ctx.resolver t.keyTypes keys raws →
          (mappingPath ctx t c keys).result =
            (value ctx keys.length t.valueType (.fresh (c.slot.path raws))).result.map
              fun found => (found.1, c.nextWord)) ∧
        (∀ i < keys.length, ∃ typeString origin keyType value,
          t.behind i = .mapping typeString origin keyType value) ∧
        (∀ halt, (followKeys ctx t c keys).result = .error halt →
          ∃ f, Key.FirstFails ctx.resolver t.keyTypes keys f ∧ halt = unencoded f) ∧
        ∀ first rest raws, keys = first ++ rest → rest ≠ [] →
          Key.Encodes ctx.resolver t.keyTypes first raws →
            (mappingPath ctx t c keys).result.map Prod.fst =
                (mappingPath ctx (t.behind first.length) (.fresh (c.slot.path raws))
                  rest).result.map Prod.fst ∨
              (mappingPath ctx t c keys).result = .error .abort ∧ ¬KeepsLimits ctx t c keys := by
  refine ⟨fun keys hlength => ?_, ?_⟩
  · rw [mappingPath, mappingPathBy_refuses (value ctx) ht hc hlength, ofInput_wrongKeyCount hname]
  intro keys hlength hlist
  have hwritable := Datum.areWritable_iff.1 hlist
  have hcases := Key.encodes_or_fails ctx.resolver hlength
  refine ⟨hcases, ?_, ?_, ?_, ?_, ?_⟩
  · intro f hfails
    rw [result_mappingPath ht hc hlength, followKeys_of_firstFails hname hc hwritable hfails]
    rfl
  · intro raws hraws
    rw [result_mappingPath ht hc hlength, followKeys_of_encodes hname hc hwritable hlength hraws]
    rfl
  · intro i hi
    have hkeyType := List.getElem?_eq_getElem (hlength ▸ hi)
    obtain ⟨typeString, origin, value, hlevel⟩ := Ty.behind_eq_mapping hkeyType
    exact ⟨typeString, origin, _, value, hlevel⟩
  · intro halt hhalt
    rcases hcases with ⟨raws, hraws⟩ | ⟨f, hfails⟩
    · rw [followKeys_of_encodes hname hc hwritable hlength hraws] at hhalt
      cases hhalt
    · rw [followKeys_of_firstFails hname hc hwritable hfails, Except.error.injEq] at hhalt
      exact ⟨f, hfails, hhalt.symm⟩
  · rintro first rest raws rfl hrest hfirst
    have hfirstWritable : ∀ key ∈ first, key.isWritable = true := fun key hkey =>
      hwritable key (List.mem_append_left _ hkey)
    exact mappingPath_split hname hc hrest hlength hfirstWritable hfirst

/-! ## Flags by number and by truth value -/

namespace Flags

def truth : Ty := .elementary ⟨"bool", .text "bool", .bool⟩

def type : Ty :=
  .mapping (.text "mapping(uint256 => mapping(bool => uint8))") ⟨none, .int 0⟩ (.int .uint256)
    (.mapping (.text "mapping(bool => uint8)") ⟨none, .int 0⟩ truth (.int .uint8))

/-- The number of the slot that the key 7 leads to from slot 3. -/
def seven : Nat := 0xf2c49132ed1cee2a7e75bde50d332a2f81f1d01e5456d8a19d1df09bd561dbd2

/-- The number of the slot that the truth value leads to from there. -/
def sevenTrue : Nat := 0xf2765ed1a8e4fa38c47c9afbf58318c263e7f6449165451963e15db6898124ed

set_option maxRecDepth 100000 in
theorem digest_seven :
    Bytes.toNat (Keccak.digest (Bytes.ofNat 32 7 ++ Bytes.ofNat 32 3)) = seven := by
  decide +kernel

set_option maxRecDepth 100000 in
theorem digest_sevenTrue :
    Bytes.toNat (Keccak.digest (Bytes.ofNat 32 1 ++ Bytes.ofNat 32 seven)) = sevenTrue := by
  decide +kernel

def store : Store where
  words := [(3, [1]), (4, [2]), (seven, [3]), (sevenTrue, [5])]

def context : Context := ⟨store, .plain, {}⟩

theorem encodes : Key.Encodes context.resolver type.keyTypes [.int 7, .bool true]
    [Bytes.ofNat 32 7, Bytes.ofNat 32 1] :=
  .cons rfl (.cons rfl .nil)

theorem encodes_seven :
    Key.Encodes context.resolver type.keyTypes [.int 7] [Bytes.ofNat 32 7] :=
  .cons rfl .nil

theorem firstFails : Key.FirstFails context.resolver type.keyTypes [.int 7, .text "maybe"]
    (.input (.badKey (.text "maybe") .notBool)) :=
  ⟨[.int 7], .text "maybe", [], [Bytes.ofNat 32 7], truth, rfl, .cons rfl .nil, rfl, rfl⟩

theorem path_seven : Slot.path 3 [Bytes.ofNat 32 7] = BitVec.ofNat 256 seven :=
  congrArg (BitVec.ofNat 256) digest_seven

theorem path_sevenTrue :
    Slot.path 3 [Bytes.ofNat 32 7, Bytes.ofNat 32 1] = BitVec.ofNat 256 sevenTrue := by
  have hseven : (BitVec.ofNat 256 seven).toNat = seven := rfl
  have hsplit := Slot.path_append 3 [Bytes.ofNat 32 7] [Bytes.ofNat 32 1]
  rw [List.singleton_append, path_seven] at hsplit
  rw [hsplit, Slot.path, List.foldl_cons, List.foldl_nil, hseven, wordSize,
    digest_sevenTrue]

theorem value_sevenTrue :
    (value context 2 (.int .uint8) (.fresh (BitVec.ofNat 256 sevenTrue))).result.map
      (fun found => (found.1, Cursor.fresh 4)) = .ok (.int 5, .fresh 4) := rfl

end Flags

/-- A flag is read from the slot that its keys lead to, and the inner mapping has it at the slot of
the first key. A key that is no truth value is refused, and so is a path that ends at the inner
mapping. -/
theorem mappingPath_follows_flags :
    (mappingPath Flags.context Flags.type (.fresh 3) [.int 7, .bool true]).result =
        .ok (.int 5, .fresh 4) ∧
      ((mappingPath Flags.context (Flags.type.behind 1) (.fresh (BitVec.ofNat 256 Flags.seven))
          [.bool true]).result.map Prod.fst = .ok (.int 5)) ∧
      (mappingPath Flags.context Flags.type (.fresh 3) [.int 7, .text "maybe"]).result =
        .error (.fault (.input (.badKey (.text "maybe") .notBool))) ∧
      (mappingPath Flags.context Flags.type (.fresh 3) [.int 7]).result =
        .error (.fault (.input (.wrongKeyCount Flags.type [.int 7]))) := by
  obtain ⟨hrefused, hfollowed⟩ :=
    @mappingPath_follows Flags.type (.fresh 3) Flags.context rfl (by simp [Flags.type, Ty.keyTypes])
      rfl
  obtain ⟨-, -, hvalue, -, -, hsplit⟩ := hfollowed [.int 7, .bool true] rfl rfl
  obtain ⟨-, hfails, -⟩ := hfollowed [.int 7, .text "maybe"] rfl rfl
  have hpath : (mappingPath Flags.context Flags.type (.fresh 3) [.int 7, .bool true]).result =
      .ok (.int 5, .fresh 4) := by
    rw [hvalue _ Flags.encodes]
    change ((value _ _ _ (.fresh (Slot.path 3 _))).result.map _) = _
    rw [Flags.path_sevenTrue]
    exact Flags.value_sevenTrue
  refine ⟨hpath, ?_, hfails _ Flags.firstFails, ?_⟩
  · rcases hsplit [.int 7] [.bool true] _ rfl (by simp) Flags.encodes_seven with hsame | ⟨habort, -⟩
    · rw [hpath] at hsame
      rw [← Flags.path_seven]
      exact hsame.symm
    · rw [hpath] at habort
      cases habort
  · rw [hrefused [.int 7] (by decide)]
    rfl

/-! A mapping to an array that is too long to be written, and a key that is. -/

namespace Unwritable

def plain : Ty :=
  .mapping (.text "mapping(uint8 => uint8)") ⟨none, .int 0⟩ (.int .uint8) (.int .uint8)

def tables : Ty :=
  .mapping (.text "tables") ⟨none, .int 0⟩ (.int .uint8)
    (.array (.text "table") ⟨none, .int 0⟩ (.int .uint8) (some (Text.largest 3600)))

def key : Datum := .int (Text.largest 3600)

theorem keyTypes_plain : plain.keyTypes = [.int .uint8] := rfl

theorem keyTypes_tables : tables.keyTypes = [.int .uint8] := rfl

theorem checkText_key : key.checkText = .error .unwritable :=
  Datum.checkText_eq_error.2 Text.isWritable_largest

theorem checkName_tables : tables.checkName = .error .unwritable := by
  have hbrackets : Ty.checkBrackets (some (Text.largest 3600)) = .error .unwritable := checkText_key
  have helement : (Ty.int .uint8).checkCalled = .ok () := rfl
  have hkey : (Ty.int .uint8).checkName = .ok () := rfl
  rw [tables, Ty.checkName_mapping, hkey, ok_bind, Ty.checkName_eq_checkCalled rfl, Ty.checkCalled,
    helement, ok_bind, hbrackets]
  rfl

theorem isWritable_keys : (Datum.list [.int 1, key]).isWritable = false := by
  have hkey : key.isWritable = false := Text.isWritable_largest
  rw [Datum.isWritable, Datum.areWritable, Datum.areWritable, hkey, Bool.false_and, Bool.and_false]

end Unwritable

/-- A key too many is refused with the name of the mapping and with the keys. If one of them has no
text, the refusal has none. -/
theorem mappingPath_unwritable :
    Unwritable.tables.keyTypes = [.int .uint8] ∧
      (mappingPath Flags.context Unwritable.tables (.fresh 3) [.int 1, .int 2]).result =
        .error (.fault (.data .unwritable)) ∧
      Unwritable.plain.keyTypes = [.int .uint8] ∧
      (mappingPath Flags.context Unwritable.plain (.fresh 3) [.int 1, Unwritable.key]).result =
        .error (.fault (.data .unwritable)) := by
  have hname (keys : List Datum) :
      Fault.ofInput (.wrongKeyCount Unwritable.tables keys) = .data .unwritable := by
    rw [Fault.ofInput, InputError.check, Unwritable.checkName_tables]
    rfl
  refine ⟨Unwritable.keyTypes_tables, ?_, Unwritable.keyTypes_plain, ?_⟩
  · rw [mappingPath, mappingPathBy_refuses _ (by simp [Unwritable.keyTypes_tables]) rfl
      (by simp [Unwritable.keyTypes_tables]), hname]
    rfl
  · rw [mappingPath, mappingPathBy_refuses _ (by simp [Unwritable.keyTypes_plain]) rfl
      (by simp [Unwritable.keyTypes_plain]), ofInput_wrongKeyCount rfl, Unwritable.isWritable_keys]
    rfl

end Decode

end StorageSnapshot
