import EbpfWindows.Runtime.Object
import EbpfWindows.Runtime.HashTable.Enumeration
import EbpfWindows.Lib.Trace

/-! Object lifetime follows the reference count.

The objects' callers are modelled by the references they hold, `held`: a creation, an
acquire and a successful lookup add one, a release takes one back. A run is admissible
when every release gives back a reference that is held, every creation is on memory
that holds no live object, and every enumeration starts after an object that is held.

`Tracks` is the invariant of admissible runs: each object's counts are the references
held on it, and the ID table binds the ID of every live object, and nothing else, to
the object's entry. From it: the user count never exceeds the count; a release schedules
the free exactly when it takes the count from one to zero, after which no reference is
held and every acquire fails; lookups by ID and enumerations return live objects only;
and `ebpf_object_get_next_id`, fed its own output, lists the live IDs of a type in
increasing order, as long as no live object has ID zero, which the 32-bit ID counter
reaches after `2^32 - 2` creations.
-/

set_option autoImplicit false

namespace EbpfWindows.Runtime

open Bytes Successor

/-! ## The ID entries -/

theorem readBytes_append_right (first second : List UInt8) :
    readBytes (first ++ second) first.length second.length = second := by
  rw [← Nat.add_zero first.length, ← readBytes_drop, List.drop_left, readBytes_length_self]

@[simp] theorem length_ebpfIdEntryBytes (type : EbpfObjectType) (object : UInt64) :
    (ebpfIdEntryBytes type object).length = 16 := rfl

@[simp] theorem idEntryObject_ebpfIdEntryBytes (type : EbpfObjectType) (object : UInt64) :
    idEntryObject (ebpfIdEntryBytes type object) = object := by
  unfold idEntryObject ebpfIdEntryBytes
  rw [show readBytes (uint32Bytes type.toUInt32 ++ [0, 0, 0, 0] ++ uint64Bytes object) 8 8 = uint64Bytes object
    from readBytes_append_right _ _, littleEndian_uint64Bytes]
  exact UInt64.ofNat_toNat

@[simp] theorem idEntryType_ebpfIdEntryBytes (type : EbpfObjectType) (object : UInt64) :
    idEntryType (ebpfIdEntryBytes type object) = type.toUInt32 := by
  unfold idEntryType ebpfIdEntryBytes
  rw [show readBytes (uint32Bytes type.toUInt32 ++ [0, 0, 0, 0] ++ uint64Bytes object) 0 4 =
    uint32Bytes type.toUInt32 from rfl, littleEndian_uint32Bytes]
  exact UInt32.ofNat_toNat

theorem ebpfIdEntryBytes_inj {type other : EbpfObjectType} {object pointer : UInt64}
    (same : ebpfIdEntryBytes type object = ebpfIdEntryBytes other pointer) : type = other ∧ object = pointer := by
  have types := congrArg idEntryType same
  have objects := congrArg idEntryObject same
  simp only [idEntryType_ebpfIdEntryBytes, idEntryObject_ebpfIdEntryBytes] at types objects
  exact ⟨EbpfObjectType.toUInt32_injective types, objects⟩

@[simp] theorem length_idKey (id : UInt32) : (idKey id).length = 4 := rfl

theorem littleEndian_idKey (id : UInt32) : (littleEndian (readBytes (idKey id) 0 4)).toUInt32 = id := by
  rw [show (4 : Nat) = (idKey id).length from rfl, readBytes_length_self, idKey, littleEndian_uint32Bytes]
  exact UInt32.ofNat_toNat

theorem idKey_injective : Function.Injective idKey := by
  intro first second same
  rw [← littleEndian_idKey first, same, littleEndian_idKey]

/-! ## The ID table keeps the shape it was created with -/

/-- The configuration `ebpf_object_tracking_initiate` gives the ID table. -/
structure IdTableShaped (table : EbpfHashTable) : Prop where
  keySize : table.keySize = 4
  valueSize : table.valueSize = 16
  extract : table.extract = none
  uncounted : ¬ table.counting

namespace IdTableShaped

variable {table : EbpfHashTable}

theorem keyView_idKey (shaped : IdTableShaped table) (id : UInt32) : keyView table (idKey id) = (0, idKey id, 0) := by
  unfold keyView
  rw [shaped.extract, shaped.keySize]
  simp only [show (4 : UInt64).toNat = (idKey id).length from rfl, readBytes_length_self]

theorem storesKey (shaped : IdTableShaped table) (id : UInt32) : table.StoresKey (idKey id) :=
  storesKey_of_extract fun extract extraction => by simp [shaped.extract] at extraction

theorem newData_entry (shaped : IdTableShaped table) (type : EbpfObjectType) (object : UInt64) :
    newData table (some (ebpfIdEntryBytes type object)) = ebpfIdEntryBytes type object := by
  unfold newData
  rw [shaped.valueSize]
  exact readBytes_length_self _

theorem limit (shaped : IdTableShaped table) : table.limit = none := by
  simp [EbpfHashTable.limit, shaped.uncounted]

theorem withBuckets (shaped : IdTableShaped table) (entryCount : UInt64)
    (buckets : Nat → List EbpfHashBucketEntry) : IdTableShaped { table with entryCount, buckets } :=
  ⟨shaped.keySize, shaped.valueSize, shaped.extract, shaped.uncounted⟩

theorem replaceBucket (shaped : IdTableShaped table) (key : List UInt8) (value : Option (List UInt8))
    (operation : EbpfHashBucketOperation) (environment : HashTableEnvironment) :
    IdTableShaped (ebpfHashTableReplaceBucket table key value operation environment).2 := by
  obtain ⟨entryCount, buckets, shape⟩ := ebpfHashTableReplaceBucket_withBuckets table key value operation environment
  rw [shape]
  exact shaped.withBuckets entryCount buckets

theorem update (shaped : IdTableShaped table) (key : List UInt8) (value : Option (List UInt8))
    (operation : EbpfHashTableOperations) (environment : HashTableEnvironment) :
    IdTableShaped (ebpfHashTableUpdate table key value operation environment).2 := by
  unfold ebpfHashTableUpdate
  exact shaped.replaceBucket key value _ environment

theorem delete (shaped : IdTableShaped table) (key : List UInt8) (environment : HashTableEnvironment) :
    IdTableShaped (ebpfHashTableDelete table key environment).2 :=
  shaped.replaceBucket key none .delete environment

end IdTableShaped

theorem ebpfHashTableCreate_valueSize {options : EbpfHashTableCreationOptions} {tableAllocated : Bool}
    {seed : UInt32} {supportsSse42 : Bool} {table : EbpfHashTable}
    (created : ebpfHashTableCreate options tableAllocated seed supportsSse42 = .ok table) :
    table.valueSize = options.valueSize := by
  unfold ebpfHashTableCreate at created
  cases multiply : ebpfSafeSizeTMultiply sizeOfBucketHeaderAndLock (roundedBucketCount options.minimumBucketCount)
    with
  | error => simp [multiply, bind, Except.bind] at created
  | ok tableSize =>
    cases add : ebpfSafeSizeTAdd tableSize offsetOfBuckets with
    | error => simp [multiply, add, bind, Except.bind] at created
    | ok _ =>
      cases tableAllocated
      · simp [multiply, add, bind, Except.bind, throw, throwThe, MonadExceptOf.throw] at created
      · simp only [multiply, add, bind, Except.bind, pure, Except.pure, Bool.not_true, Bool.false_eq_true,
          if_false, Except.ok.injEq] at created
        subst created
        rfl

theorem idTableShaped_of_created {tableAllocated : Bool} {seed : UInt32} {supportsSse42 : Bool}
    {table : EbpfHashTable} (created : ebpfHashTableCreate idTableOptions tableAllocated seed supportsSse42 = .ok table) :
    IdTableShaped table := by
  obtain ⟨-, -, keySize, extract, limit⟩ := ebpfHashTableCreate_eq_ok created
  exact ⟨keySize, ebpfHashTableCreate_valueSize created, extract,
    by simp [EbpfHashTable.counting, limit, idTableOptions]⟩

/-! ## The ID table binds the live objects -/

/-- The ID and type the ID table holds for an object while its count is positive. -/
def EbpfCoreObject.liveEntry (object : EbpfCoreObject) : Option (UInt32 × EbpfObjectType) :=
  if 0 < object.referenceCount then some (object.id, object.type) else none

theorem EbpfCoreObject.liveEntry_eq_some {object : EbpfCoreObject} {id : UInt32} {type : EbpfObjectType} :
    object.liveEntry = some (id, type) ↔ 0 < object.referenceCount ∧ object.id = id ∧ object.type = type := by
  unfold liveEntry
  split_ifs with positive <;> simp [positive]

theorem EbpfCoreObject.liveEntry_eq_none {object : EbpfCoreObject} :
    object.liveEntry = none ↔ object.referenceCount ≤ 0 := by
  unfold liveEntry
  split_ifs with positive <;> simp only [false_iff, true_iff, not_le] <;> omega

/-- The ID and type of the object at a pointer while it is live. -/
def EbpfObjectTracking.liveEntry (tracking : EbpfObjectTracking) (pointer : UInt64) :
    Option (UInt32 × EbpfObjectType) :=
  (tracking.objects pointer).bind EbpfCoreObject.liveEntry

@[simp] theorem EbpfObjectTracking.liveEntry_setObject (tracking : EbpfObjectTracking) (pointer : UInt64)
    (object : EbpfCoreObject) :
    (tracking.setObject pointer object).liveEntry = Function.update tracking.liveEntry pointer object.liveEntry := by
  funext other
  by_cases same : other = pointer
  · subst same
    simp [liveEntry]
  · simp [liveEntry, setObject_objects_of_ne _ _ same, same]

/-- The map of the ID table holds the ID of each live object, bound to the object's entry,
and nothing else. -/
def BindsLive (contents : BoundedMap) (live : UInt64 → Option (UInt32 × EbpfObjectType)) : Prop :=
  ∀ view value, contents.lookup view = some value ↔
    ∃ pointer id type, live pointer = some (id, type) ∧ view = (0, idKey id, 0) ∧ value = ebpfIdEntryBytes type pointer

namespace BindsLive

variable {contents : BoundedMap} {live : UInt64 → Option (UInt32 × EbpfObjectType)}

theorem lookup (binds : BindsLive contents live) {pointer : UInt64} {id : UInt32} {type : EbpfObjectType}
    (isLive : live pointer = some (id, type)) : contents.lookup (0, idKey id, 0) = some (ebpfIdEntryBytes type pointer) :=
  (binds _ _).mpr ⟨pointer, id, type, isLive, rfl, rfl⟩

theorem idKey_eq {id other : UInt32} (same : ((0 : Nat), idKey id, (0 : UInt8)) = (0, idKey other, 0)) : id = other :=
  idKey_injective (congrArg (fun view => view.2.1) same)

theorem unique (binds : BindsLive contents live) {pointer other : UInt64} {id : UInt32} {type otherType : EbpfObjectType}
    (isLive : live pointer = some (id, type)) (otherLive : live other = some (id, otherType)) :
    pointer = other ∧ type = otherType := by
  have same := (binds.lookup isLive).symm.trans (binds.lookup otherLive)
  obtain ⟨types, pointers⟩ := ebpfIdEntryBytes_inj (Option.some.inj same)
  exact ⟨pointers, types⟩

theorem mem_iff (binds : BindsLive contents live) (id : UInt32) :
    (0, idKey id, 0) ∈ contents ↔ ∃ pointer type, live pointer = some (id, type) := by
  rw [Finmap.mem_iff]
  constructor
  · rintro ⟨value, bound⟩
    obtain ⟨pointer, other, type, isLive, same, -⟩ := (binds _ _).mp bound
    obtain rfl := idKey_eq same
    exact ⟨pointer, type, isLive⟩
  · rintro ⟨pointer, type, isLive⟩
    exact ⟨_, binds.lookup isLive⟩

theorem erase (binds : BindsLive contents live) {pointer : UInt64} {id : UInt32} {type : EbpfObjectType}
    (isLive : live pointer = some (id, type)) :
    BindsLive (contents.erase (0, idKey id, 0)) (Function.update live pointer none) := by
  intro view value
  by_cases same : view = (0, idKey id, 0)
  · -- the dead object's ID: no other live object has it
    subst same
    rw [Finmap.lookup_erase]
    simp only [reduceCtorEq, false_iff, not_exists, not_and]
    intro other otherId otherType otherLive sameView _
    obtain rfl := idKey_eq sameView
    by_cases different : other = pointer
    · subst different
      simp at otherLive
    · rw [Function.update_of_ne different] at otherLive
      exact different (binds.unique otherLive isLive).1
  · rw [Finmap.lookup_erase_ne same, binds]
    constructor
    · rintro ⟨other, otherId, otherType, otherLive, rfl, rfl⟩
      have different : other ≠ pointer := by
        rintro rfl
        rw [isLive] at otherLive
        cases otherLive
        exact same rfl
      exact ⟨other, otherId, otherType, by rwa [Function.update_of_ne different], rfl, rfl⟩
    · rintro ⟨other, otherId, otherType, otherLive, rfl, rfl⟩
      by_cases different : other = pointer
      · subst different
        simp at otherLive
      · exact ⟨other, otherId, otherType, by rwa [Function.update_of_ne different] at otherLive, rfl, rfl⟩

theorem insert (binds : BindsLive contents live) {pointer : UInt64} {id : UInt32} (type : EbpfObjectType)
    (dead : live pointer = none) (fresh : (0, idKey id, 0) ∉ contents) :
    BindsLive (contents.insert (0, idKey id, 0) (ebpfIdEntryBytes type pointer))
      (Function.update live pointer (some (id, type))) := by
  intro view value
  by_cases same : view = (0, idKey id, 0)
  · subst same
    rw [Finmap.lookup_insert, Option.some.injEq]
    constructor
    · rintro rfl
      exact ⟨pointer, id, type, by simp, rfl, rfl⟩
    · rintro ⟨other, otherId, otherType, otherLive, sameView, rfl⟩
      obtain rfl := idKey_eq sameView
      by_cases different : other = pointer
      · subst different
        simp only [Function.update_self, Option.some.injEq, Prod.mk.injEq] at otherLive
        rw [otherLive.2]
      · rw [Function.update_of_ne different] at otherLive
        exact absurd ((binds.mem_iff id).mpr ⟨other, otherType, otherLive⟩) fresh
  · rw [Finmap.lookup_insert_of_ne _ same, binds]
    constructor
    · rintro ⟨other, otherId, otherType, otherLive, rfl, rfl⟩
      have different : other ≠ pointer := by
        rintro rfl
        rw [dead] at otherLive
        cases otherLive
      exact ⟨other, otherId, otherType, by rwa [Function.update_of_ne different], rfl, rfl⟩
    · rintro ⟨other, otherId, otherType, otherLive, rfl, rfl⟩
      by_cases different : other = pointer
      · subst different
        simp only [Function.update_self, Option.some.injEq, Prod.mk.injEq] at otherLive
        obtain ⟨rfl, -⟩ := otherLive
        exact absurd rfl same
      · exact ⟨other, otherId, otherType, by rwa [Function.update_of_ne different] at otherLive, rfl, rfl⟩

theorem size_le (binds : BindsLive contents live) : contents.size ≤ 2 ^ 32 := by
  have within : contents.keys ⊆
      (Finset.range (2 ^ 32)).image fun n => ((0 : Nat), idKey (UInt32.ofNat n), (0 : UInt8)) := by
    intro view member
    obtain ⟨value, bound⟩ := Finmap.mem_iff.mp (Finmap.mem_keys.mp member)
    obtain ⟨-, id, -, -, rfl, -⟩ := (binds _ _).mp bound
    exact Finset.mem_image.mpr ⟨id.toNat, Finset.mem_range.mpr id.toNat_lt, by rw [UInt32.ofNat_toNat]⟩
  calc contents.size = contents.keys.card := rfl
    _ ≤ ((Finset.range (2 ^ 32)).image fun n => ((0 : Nat), idKey (UInt32.ofNat n), (0 : UInt8))).card :=
      Finset.card_le_card within
    _ ≤ (Finset.range (2 ^ 32)).card := Finset.card_image_le
    _ = 2 ^ 32 := Finset.card_range _

end BindsLive

/-! ## The ID table's operations on the map of live objects -/

section IdTable

variable {table : EbpfHashTable} {contents : BoundedMap} {live : UInt64 → Option (UInt32 × EbpfObjectType)}

theorem BoundedMap.update_insert_unlimited (contents : BoundedMap) (key : Nat × List UInt8 × UInt8)
    (value : List UInt8) :
    contents.update none key value .insert =
      if key ∈ contents then (.objectAlreadyExists, contents) else (.success, contents.insert key value) := by
  simp [BoundedMap.update, BoundedMap.insertNew]

theorem insert_outcome (shaped : IdTableShaped table) (represents : Represents table contents)
    (fits : table.BucketsFit) (binds : BindsLive contents live) (id : UInt32) (type : EbpfObjectType)
    (pointer : UInt64) (environment : HashTableEnvironment) :
    ∃ next, Represents (ebpfHashTableUpdate table (idKey id) (some (ebpfIdEntryBytes type pointer)) .insert
        environment).2 next ∧
      (ebpfHashTableUpdate table (idKey id) (some (ebpfIdEntryBytes type pointer)) .insert environment).2.BucketsFit ∧
      ((ebpfHashTableUpdate table (idKey id) (some (ebpfIdEntryBytes type pointer)) .insert environment).1 = .success →
        (0, idKey id, 0) ∉ contents ∧ next = contents.insert (0, idKey id, 0) (ebpfIdEntryBytes type pointer)) ∧
      ((ebpfHashTableUpdate table (idKey id) (some (ebpfIdEntryBytes type pointer)) .insert environment).1 ≠ .success →
        next = contents) ∧
      (environment.Succeeds → (0, idKey id, 0) ∉ contents →
        (ebpfHashTableUpdate table (idKey id) (some (ebpfIdEntryBytes type pointer)) .insert environment).1 =
          .success) := by
  have layout : LayoutFits table.keySize contents.size := by
    have small := binds.size_le
    unfold LayoutFits
    rw [shaped.keySize]
    simp only [UInt64.reduceToNat]
    omega
  obtain ⟨next, outcome, represents', fits', -⟩ := represents.update_step fits
    (fun counting => absurd counting shaped.uncounted) (shaped.storesKey id) (some (ebpfIdEntryBytes type pointer))
    .insert environment
  rw [shaped.keyView_idKey, shaped.limit, shaped.newData_entry, BoundedMap.update_insert_unlimited] at outcome
  refine ⟨next, represents', fits', ?_⟩
  generalize (ebpfHashTableUpdate table (idKey id) (some (ebpfIdEntryBytes type pointer)) .insert environment).1 =
    result at outcome ⊢
  rcases outcome with specified | ⟨failed, rfl⟩ | ⟨⟨overflows, -⟩, -, -⟩
  · split_ifs at specified with present
    · -- the ID is taken
      simp only [Prod.mk.injEq] at specified
      obtain ⟨rfl, rfl⟩ := specified
      exact ⟨(fun taken => nomatch taken), fun _ => rfl, fun _ absent => absurd present absent⟩
    · simp only [Prod.mk.injEq] at specified
      obtain ⟨rfl, rfl⟩ := specified
      exact ⟨fun _ => ⟨present, rfl⟩, fun failed => absurd rfl failed, fun _ _ => rfl⟩
  · exact ⟨fun success => absurd success failed.2.1, fun _ => rfl, fun succeeds => absurd succeeds failed.1⟩
  · exact absurd layout overflows

theorem delete_outcome (shaped : IdTableShaped table) (represents : Represents table contents)
    (fits : table.BucketsFit) (binds : BindsLive contents live) {pointer : UInt64} {id : UInt32}
    {type : EbpfObjectType} (isLive : live pointer = some (id, type)) :
    (ebpfHashTableDelete table (idKey id) idTableDeleteEnvironment).1 = .success ∧
      Represents (ebpfHashTableDelete table (idKey id) idTableDeleteEnvironment).2 (contents.erase (0, idKey id, 0)) ∧
      (ebpfHashTableDelete table (idKey id) idTableDeleteEnvironment).2.BucketsFit := by
  obtain ⟨next, outcome, represents', fits', -⟩ := represents.delete_step fits (idKey id) idTableDeleteEnvironment
  rw [shaped.keyView_idKey] at outcome
  have present : (0, idKey id, 0) ∈ contents := (binds.mem_iff id).mpr ⟨pointer, type, isLive⟩
  rcases outcome with specified | ⟨failed, -⟩ | ⟨impossible, -⟩
  · simp only [BoundedMap.delete, if_pos present, Prod.mk.injEq] at specified
    obtain ⟨success, rfl⟩ := specified
    exact ⟨success, represents', fits'⟩
  · exact absurd ⟨rfl, rfl, rfl, rfl, rfl⟩ failed.1
  · exact impossible.elim

theorem find_idKey (shaped : IdTableShaped table) (represents : Represents table contents) (fits : table.BucketsFit)
    (id : UInt32) : ebpfHashTableFind table (idKey id) = contents.find (0, idKey id, 0) := by
  rw [represents.find_eq fits, shaped.keyView_idKey]

end IdTable

/-! ## What the object functions do to one object -/

/-- The object after `ebpf_object_release_reference` took one reference from it. -/
def EbpfCoreObject.released (object : EbpfCoreObject) (userReference : Bool) : EbpfCoreObject :=
  { object with
    referenceCount := object.referenceCount - 1
    userReferenceCount := if userReference then object.userReferenceCount - 1 else object.userReferenceCount }

/-- The callback a release makes when it takes the user count to zero. -/
def EbpfCoreObject.userZeroedEvents (object : EbpfCoreObject) (pointer : UInt64) (userReference : Bool) :
    List ObjectEvent :=
  if userReference ∧ object.userReferenceCount = 1 ∧ object.notifiesUserReferenceCountZeroed then
    [.userReferenceCountZeroed pointer]
  else []

namespace EbpfObjectTracking

variable {tracking : EbpfObjectTracking}

theorem ebpfObjectAcquireReference_eq_some {pointer : UInt64} {userReference : Bool}
    {acquired : EbpfObjectTracking} (succeeded : tracking.ebpfObjectAcquireReference pointer userReference = some acquired) :
    ∃ object, tracking.objects pointer = some object ∧ object.referenceCount ≠ 0 ∧
      acquired = tracking.setObject pointer
        { object with
          referenceCount := object.referenceCount + 1
          userReferenceCount := if userReference then object.userReferenceCount + 1 else object.userReferenceCount } := by
  unfold ebpfObjectAcquireReference at succeeded
  cases found : tracking.objects pointer with
  | none => simp [found] at succeeded
  | some object =>
    rw [found] at succeeded
    dsimp only at succeeded
    have counted : object.referenceCount ≠ 0 := by
      intro zero
      rw [if_pos (by omega)] at succeeded
      cases succeeded
    rw [if_neg (by omega)] at succeeded
    refine ⟨object, rfl, counted, ?_⟩
    cases userReference with
    | false =>
      simp only [Bool.false_eq_true, if_false, Option.some.injEq] at succeeded ⊢
      exact succeeded.symm
    | true =>
      simp only [if_true] at succeeded ⊢
      by_cases wrapped : object.userReferenceCount + 1 = 0
      · rw [if_pos wrapped] at succeeded
        cases succeeded
      · rw [if_neg wrapped, Option.some.injEq] at succeeded
        exact succeeded.symm

theorem ebpfObjectTryAcquireReference_eq_true {pointer : UInt64} {acquired : EbpfObjectTracking}
    (succeeded : tracking.ebpfObjectTryAcquireReference pointer = some (true, acquired)) :
    ∃ object, tracking.objects pointer = some object ∧ 0 < object.referenceCount ∧
      acquired = tracking.setObject pointer { object with referenceCount := object.referenceCount + 1 } := by
  unfold ebpfObjectTryAcquireReference at succeeded
  cases found : tracking.objects pointer with
  | none => simp [found] at succeeded
  | some object =>
    rw [found] at succeeded
    dsimp only at succeeded
    by_cases negative : object.referenceCount < 0
    · rw [if_pos negative] at succeeded
      cases succeeded
    by_cases zero : object.referenceCount = 0
    · rw [if_neg negative, if_pos zero] at succeeded
      cases succeeded
    rw [if_neg negative, if_neg zero, Option.some.injEq, Prod.mk.injEq] at succeeded
    exact ⟨object, rfl, by omega, succeeded.2.symm⟩

theorem ebpfObjectTryAcquireReference_eq_false {pointer : UInt64} {after : EbpfObjectTracking}
    (refused : tracking.ebpfObjectTryAcquireReference pointer = some (false, after)) : after = tracking := by
  unfold ebpfObjectTryAcquireReference at refused
  cases found : tracking.objects pointer with
  | none => simp [found] at refused
  | some object =>
    rw [found] at refused
    dsimp only at refused
    by_cases negative : object.referenceCount < 0
    · rw [if_pos negative] at refused
      cases refused
    by_cases zero : object.referenceCount = 0
    · rw [if_neg negative, if_pos zero, Option.some.injEq, Prod.mk.injEq] at refused
      exact refused.2.symm
    rw [if_neg negative, if_neg zero] at refused
    cases refused

theorem ebpfObjectTryAcquireReference_of_zero {pointer : UInt64} {object : EbpfCoreObject}
    (found : tracking.objects pointer = some object) (zero : object.referenceCount = 0) :
    tracking.ebpfObjectTryAcquireReference pointer = some (false, tracking) := by
  simp [ebpfObjectTryAcquireReference, found, zero]

theorem releaseUserReference_eq {pointer : UInt64} {object : EbpfCoreObject} {userReference : Bool}
    (userHeld : userReference = true → 1 ≤ object.userReferenceCount) :
    releaseUserReference pointer object userReference =
      some ((object.released userReference).userReferenceCount, object.userZeroedEvents pointer userReference) := by
  unfold releaseUserReference EbpfCoreObject.released EbpfCoreObject.userZeroedEvents
  cases userReference with
  | false => simp
  | true =>
    have positive := userHeld rfl
    simp only [if_true, true_and, show ¬ object.userReferenceCount - 1 < 0 by omega, if_false,
      show object.userReferenceCount - 1 = 0 ↔ object.userReferenceCount = 1 by omega]
    split_ifs <;> rfl

theorem ebpfObjectReleaseReference_eq {pointer : UInt64} {userReference : Bool} {object : EbpfCoreObject}
    (notNull : pointer ≠ 0) (found : tracking.objects pointer = some object) (positive : 1 ≤ object.referenceCount)
    (userHeld : userReference = true → 1 ≤ object.userReferenceCount) :
    tracking.ebpfObjectReleaseReference pointer userReference =
      if object.referenceCount = 1 then
        some ((tracking.setObject pointer (object.released userReference)).ebpfObjectTrackingListRemove object,
          object.userZeroedEvents pointer userReference ++
            (if object.notifiesReferenceCountZeroed then [.referenceCountZeroed pointer] else []) ++
              [.freeScheduled pointer])
      else some (tracking.setObject pointer (object.released userReference), object.userZeroedEvents pointer userReference) := by
  unfold ebpfObjectReleaseReference
  rw [if_neg notNull, found]
  dsimp only
  rw [releaseUserReference_eq userHeld]
  dsimp only
  rw [if_neg (by omega)]
  simp only [show object.referenceCount - 1 = 0 ↔ object.referenceCount = 1 by omega]
  rfl

theorem liveEntry_update_of_live {pointer : UInt64} {object updated : EbpfCoreObject}
    (found : tracking.objects pointer = some object) (live : 0 < object.referenceCount)
    (stays : 0 < updated.referenceCount) (sameId : updated.id = object.id) (sameType : updated.type = object.type) :
    Function.update tracking.liveEntry pointer updated.liveEntry = tracking.liveEntry := by
  rw [Function.update_eq_self_iff]
  simp [liveEntry, found, EbpfCoreObject.liveEntry, live, stays, sameId, sameType]

theorem ebpfObjectAcquireReference_of_tryAcquire {pointer : UInt64} {acquired : EbpfObjectTracking}
    (succeeded : tracking.ebpfObjectTryAcquireReference pointer = some (true, acquired)) :
    tracking.ebpfObjectAcquireReference pointer false = some acquired := by
  obtain ⟨object, found, positive, rfl⟩ := ebpfObjectTryAcquireReference_eq_true succeeded
  simp [ebpfObjectAcquireReference, found, show object.referenceCount + 1 ≠ 1 by omega]

theorem ebpfObjectInitialize_objects_of_ne {pointer other : UInt64} (different : other ≠ pointer) (type : EbpfObjectType)
    (notifiesZeroed notifiesUserZeroed workItemAllocated : Bool) (environment : HashTableEnvironment) :
    (tracking.ebpfObjectInitialize pointer type notifiesZeroed notifiesUserZeroed workItemAllocated
      environment).2.objects other = tracking.objects other := by
  unfold ebpfObjectInitialize
  cases workItemAllocated with
  | false => rfl
  | true =>
    simp only [Bool.not_true, Bool.false_eq_true, if_false]
    generalize ebpfHashTableUpdate tracking.idTable (idKey (tracking.nextId + 1))
      (some (ebpfIdEntryBytes type pointer)) .insert environment = outcome
    obtain ⟨result, idTable⟩ := outcome
    dsimp only
    split_ifs
    · rfl
    · exact setObject_objects_of_ne _ _ different

end EbpfObjectTracking

/-! ## The callers -/

/-- The object functions' state, beside the references their callers hold: an object's
pointer, and whether the reference is a user reference. -/
structure ObjectClients where
  tracking : EbpfObjectTracking
  held : List (UInt64 × Bool)

/-- A call of the object functions, with the outcomes of the allocations it makes. The
handles, the links, the map slots and the pinning table take and give back their references
through `acquire` and `release`. -/
inductive ObjectOperation where
  /-- `ebpf_object_initialize` on newly allocated memory. -/
  | create (pointer : UInt64) (type : EbpfObjectType)
      (notifiesReferenceCountZeroed notifiesUserReferenceCountZeroed workItemAllocated : Bool)
      (environment : HashTableEnvironment)
  | acquire (pointer : UInt64) (userReference : Bool)
  | release (pointer : UInt64) (userReference : Bool)
  | referenceById (id : UInt32) (type : EbpfObjectType)
  | referenceNextObject (previous : Option UInt64) (type : EbpfObjectType) (fuel : Nat)
  | getNextId (startId : UInt32) (type : EbpfObjectType)

/-- The references held after a lookup that may have taken one. -/
def holding (found : Option UInt64) (held : List (UInt64 × Bool)) : List (UInt64 × Bool) :=
  match found with
  | some pointer => (pointer, false) :: held
  | none => held

namespace ObjectOperation

/-- One call; the caller holds the reference a successful call gives it and gives back the
one it releases. `none` where the call fails fast, or its loop runs out of fuel. -/
def step (clients : ObjectClients) : ObjectOperation → Option (ObjectClients × List ObjectEvent)
  | .create pointer type notifiesZeroed notifiesUserZeroed workItemAllocated environment =>
    let initialized := clients.tracking.ebpfObjectInitialize pointer type notifiesZeroed notifiesUserZeroed
      workItemAllocated environment
    some (⟨initialized.2, if initialized.1 = .success then (pointer, false) :: clients.held else clients.held⟩, [])
  | .acquire pointer userReference =>
    (clients.tracking.ebpfObjectAcquireReference pointer userReference).map fun acquired =>
      (⟨acquired, (pointer, userReference) :: clients.held⟩, [])
  | .release pointer userReference =>
    (clients.tracking.ebpfObjectReleaseReference pointer userReference).map fun released =>
      (⟨released.1, clients.held.erase (pointer, userReference)⟩, released.2)
  | .referenceById id type =>
    (clients.tracking.ebpfObjectReferenceById id type).map fun found =>
      (⟨found.2.2, holding found.2.1 clients.held⟩, [])
  | .referenceNextObject previous type fuel =>
    (clients.tracking.ebpfObjectReferenceNextObject previous type fuel).map fun found =>
      (⟨found.2, holding found.1 clients.held⟩, [])
  | .getNextId _ _ => some (clients, [])

/-- What the callers may do: give back only a reference they hold, and create an object only
on memory that is not NULL and holds no live object. -/
def Admissible (clients : ObjectClients) : ObjectOperation → Prop
  | .create pointer _ _ _ _ _ => pointer ≠ 0 ∧ clients.tracking.liveEntry pointer = none
  | .release pointer userReference => (pointer, userReference) ∈ clients.held
  | _ => True

end ObjectOperation

/-- The runs of the callers from the tracking `ebpf_object_tracking_initiate` set up. -/
def ObjectClients.Reaches (start : EbpfObjectTracking) (events : List ObjectEvent) (clients : ObjectClients) : Prop :=
  Trace.Reaches ObjectOperation.step ObjectOperation.Admissible ⟨start, []⟩ events clients

/-! ## The invariant of the callers' runs -/

/-- The references held on the object at a pointer. -/
def heldOn (held : List (UInt64 × Bool)) (pointer : UInt64) : Nat :=
  held.count (pointer, false) + held.count (pointer, true)

theorem count_cons_of_ne {held : List (UInt64 × Bool)} {pointer other : UInt64} (different : other ≠ pointer)
    (userReference flag : Bool) : ((pointer, userReference) :: held).count (other, flag) = held.count (other, flag) := by
  simp [Ne.symm different]

theorem count_erase_of_ne {held : List (UInt64 × Bool)} {pointer other : UInt64} (different : other ≠ pointer)
    (userReference flag : Bool) : (held.erase (pointer, userReference)).count (other, flag) = held.count (other, flag) := by
  simp [List.count_erase, Ne.symm different]

/-- Each object's counts are the references held on it, and the ID table binds the live
objects. -/
structure ObjectClients.Tracks (clients : ObjectClients) : Prop where
  shaped : IdTableShaped clients.tracking.idTable
  fits : clients.tracking.idTable.BucketsFit
  bound : ∃ contents, Represents clients.tracking.idTable contents ∧ BindsLive contents clients.tracking.liveEntry
  counts : ∀ pointer object, clients.tracking.objects pointer = some object →
    object.referenceCount = heldOn clients.held pointer ∧
      object.userReferenceCount = clients.held.count (pointer, true)
  heldObjects : ∀ reference ∈ clients.held, (clients.tracking.objects reference.1).isSome
  null : clients.tracking.objects 0 = none

namespace ObjectClients.Tracks

variable {clients : ObjectClients}

theorem heldOn_eq_zero (tracks : clients.Tracks) {pointer : UInt64} (dead : clients.tracking.liveEntry pointer = none) :
    heldOn clients.held pointer = 0 := by
  cases found : clients.tracking.objects pointer with
  | none =>
    have notHeld : ∀ flag, clients.held.count (pointer, flag) = 0 := by
      intro flag
      rw [List.count_eq_zero]
      intro member
      simpa [found] using tracks.heldObjects _ member
    simp [heldOn, notHeld]
  | some object =>
    have notPositive : object.referenceCount ≤ 0 := by
      rw [← EbpfCoreObject.liveEntry_eq_none]
      simpa [EbpfObjectTracking.liveEntry, found] using dead
    have counted := (tracks.counts pointer object found).1
    omega

theorem notNull_of_found (tracks : clients.Tracks) {pointer : UInt64} {object : EbpfCoreObject}
    (found : clients.tracking.objects pointer = some object) : pointer ≠ 0 := by
  rintro rfl
  rw [tracks.null] at found
  cases found

theorem replace (tracks : clients.Tracks) (next : EbpfObjectTracking) {pointer : UInt64} {updated : EbpfCoreObject}
    (notNull : pointer ≠ 0) (objects : next.objects = Function.update clients.tracking.objects pointer (some updated))
    (shaped : IdTableShaped next.idTable) (fits : next.idTable.BucketsFit)
    (bound : ∃ contents, Represents next.idTable contents ∧
      BindsLive contents (Function.update clients.tracking.liveEntry pointer updated.liveEntry))
    {held : List (UInt64 × Bool)}
    (countsOn : updated.referenceCount = heldOn held pointer ∧ updated.userReferenceCount = held.count (pointer, true))
    (others : ∀ other, other ≠ pointer → ∀ flag, held.count (other, flag) = clients.held.count (other, flag))
    (heldIn : ∀ reference ∈ held, reference.1 = pointer ∨ reference ∈ clients.held) :
    Tracks ⟨next, held⟩ where
  shaped := shaped
  fits := fits
  bound := by
    have live : next.liveEntry = Function.update clients.tracking.liveEntry pointer updated.liveEntry := by
      funext other
      by_cases same : other = pointer
      · subst same
        simp [EbpfObjectTracking.liveEntry, objects]
      · simp [EbpfObjectTracking.liveEntry, objects, same]
    rw [live]
    exact bound
  counts other object found := by
    by_cases same : other = pointer
    · subst same
      simp only [objects, Function.update_self, Option.some.injEq] at found
      subst found
      exact countsOn
    · rw [objects, Function.update_of_ne same] at found
      unfold heldOn
      rw [others other same false, others other same true]
      exact tracks.counts other object found
  heldObjects reference member := by
    rw [objects]
    by_cases same : reference.1 = pointer
    · simp [same]
    · rw [Function.update_of_ne same]
      exact tracks.heldObjects reference ((heldIn reference member).resolve_left same)
  null := by
    rw [objects, Function.update_of_ne (Ne.symm notNull)]
    exact tracks.null

theorem retable (tracks : clients.Tracks) (next : EbpfObjectTracking) (objects : next.objects = clients.tracking.objects)
    (shaped : IdTableShaped next.idTable) (fits : next.idTable.BucketsFit)
    (bound : ∃ contents, Represents next.idTable contents ∧ BindsLive contents clients.tracking.liveEntry) :
    Tracks ⟨next, clients.held⟩ where
  shaped := shaped
  fits := fits
  bound := by
    have live : next.liveEntry = clients.tracking.liveEntry := by
      funext other
      simp [EbpfObjectTracking.liveEntry, objects]
    rw [live]
    exact bound
  counts := objects ▸ tracks.counts
  heldObjects := objects ▸ tracks.heldObjects
  null := objects ▸ tracks.null

theorem acquire (tracks : clients.Tracks) {pointer : UInt64} {userReference : Bool} {acquired : EbpfObjectTracking}
    (succeeded : clients.tracking.ebpfObjectAcquireReference pointer userReference = some acquired) :
    Tracks ⟨acquired, (pointer, userReference) :: clients.held⟩ := by
  obtain ⟨object, found, counted, rfl⟩ := EbpfObjectTracking.ebpfObjectAcquireReference_eq_some succeeded
  obtain ⟨referenceCount, userReferenceCount⟩ := tracks.counts pointer object found
  have positive : 0 < object.referenceCount := by omega
  refine tracks.replace _ (tracks.notNull_of_found found) (by rfl) (by exact tracks.shaped) (by exact tracks.fits)
    ?bound ?countsOn (fun other different flag => count_cons_of_ne different _ _) ?heldIn
  case bound =>
    obtain ⟨contents, represents, binds⟩ := tracks.bound
    refine ⟨contents, represents, ?_⟩
    convert binds using 1
    exact EbpfObjectTracking.liveEntry_update_of_live found positive (by dsimp only; omega) rfl rfl
  case countsOn => cases userReference <;> simp [heldOn, referenceCount, userReferenceCount] <;> omega
  case heldIn =>
    intro reference member
    rcases List.mem_cons.mp member with rfl | member
    · exact .inl rfl
    · exact .inr member

theorem tryAcquire (tracks : clients.Tracks) {pointer : UInt64} {acquired : EbpfObjectTracking}
    (succeeded : clients.tracking.ebpfObjectTryAcquireReference pointer = some (true, acquired)) :
    Tracks ⟨acquired, (pointer, false) :: clients.held⟩ :=
  tracks.acquire (EbpfObjectTracking.ebpfObjectAcquireReference_of_tryAcquire succeeded)

theorem found_of_held (tracks : clients.Tracks) {pointer : UInt64} {userReference : Bool}
    (isHeld : (pointer, userReference) ∈ clients.held) :
    ∃ object, clients.tracking.objects pointer = some object ∧ 1 ≤ object.referenceCount ∧
      (userReference = true → 1 ≤ object.userReferenceCount) := by
  obtain ⟨object, found⟩ := Option.isSome_iff_exists.mp (tracks.heldObjects _ isHeld)
  obtain ⟨referenceCount, userReferenceCount⟩ := tracks.counts pointer object found
  have once := List.count_pos_iff.mpr isHeld
  refine ⟨object, found, ?_, ?_⟩
  · cases userReference <;> simp only [referenceCount, heldOn] <;> omega
  · rintro rfl
    omega

theorem release (tracks : clients.Tracks) {pointer : UInt64} {userReference : Bool}
    (isHeld : (pointer, userReference) ∈ clients.held) {released : EbpfObjectTracking} {emitted : List ObjectEvent}
    (succeeded : clients.tracking.ebpfObjectReleaseReference pointer userReference = some (released, emitted)) :
    Tracks ⟨released, clients.held.erase (pointer, userReference)⟩ := by
  obtain ⟨object, found, positive, userHeld⟩ := tracks.found_of_held isHeld
  obtain ⟨referenceCount, userReferenceCount⟩ := tracks.counts pointer object found
  have once := List.count_pos_iff.mpr isHeld
  have notNull := tracks.notNull_of_found found
  have countsOn : (object.released userReference).referenceCount = heldOn (clients.held.erase (pointer, userReference)) pointer ∧
      (object.released userReference).userReferenceCount =
        (clients.held.erase (pointer, userReference)).count (pointer, true) := by
    cases userReference <;> simp [EbpfCoreObject.released, heldOn, referenceCount, userReferenceCount] <;>
      omega
  have others : ∀ other, other ≠ pointer → ∀ flag,
      (clients.held.erase (pointer, userReference)).count (other, flag) = clients.held.count (other, flag) :=
    fun other different flag => count_erase_of_ne different _ _
  have heldIn : ∀ reference ∈ clients.held.erase (pointer, userReference), reference.1 = pointer ∨ reference ∈ clients.held :=
    fun reference member => .inr (List.mem_of_mem_erase member)
  rw [EbpfObjectTracking.ebpfObjectReleaseReference_eq notNull found positive userHeld] at succeeded
  by_cases last : object.referenceCount = 1
  · -- the last reference: the object dies and its ID entry goes
    rw [if_pos last, Option.some.injEq, Prod.mk.injEq] at succeeded
    obtain ⟨rfl, -⟩ := succeeded
    obtain ⟨contents, represents, binds⟩ := tracks.bound
    have isLive : clients.tracking.liveEntry pointer = some (object.id, object.type) := by
      simp [EbpfObjectTracking.liveEntry, found, EbpfCoreObject.liveEntry, last]
    have dies : (object.released userReference).liveEntry = none := by
      simp [EbpfCoreObject.liveEntry, EbpfCoreObject.released, last]
    obtain ⟨-, represents', fits'⟩ := delete_outcome tracks.shaped represents tracks.fits binds isLive
    refine tracks.replace _ notNull (by rfl) (by exact tracks.shaped.delete _ _) fits' ⟨_, represents', ?_⟩ countsOn
      others heldIn
    rw [dies]
    exact binds.erase isLive
  · rw [if_neg last, Option.some.injEq, Prod.mk.injEq] at succeeded
    obtain ⟨rfl, -⟩ := succeeded
    refine tracks.replace _ notNull (by rfl) (by exact tracks.shaped) (by exact tracks.fits) ?_ countsOn others heldIn
    obtain ⟨contents, represents, binds⟩ := tracks.bound
    refine ⟨contents, represents, ?_⟩
    convert binds using 1
    exact EbpfObjectTracking.liveEntry_update_of_live found (by omega) (by simp [EbpfCoreObject.released]; omega) rfl rfl

theorem create (tracks : clients.Tracks) {pointer : UInt64} (notNull : pointer ≠ 0)
    (dead : clients.tracking.liveEntry pointer = none) (type : EbpfObjectType)
    (notifiesZeroed notifiesUserZeroed workItemAllocated : Bool) (environment : HashTableEnvironment) :
    Tracks ⟨(clients.tracking.ebpfObjectInitialize pointer type notifiesZeroed notifiesUserZeroed workItemAllocated
        environment).2,
      if (clients.tracking.ebpfObjectInitialize pointer type notifiesZeroed notifiesUserZeroed workItemAllocated
        environment).1 = .success then (pointer, false) :: clients.held else clients.held⟩ := by
  obtain ⟨contents, represents, binds⟩ := tracks.bound
  unfold EbpfObjectTracking.ebpfObjectInitialize
  cases workItemAllocated with
  | false =>
    exact tracks.retable _ rfl tracks.shaped tracks.fits tracks.bound
  | true =>
    obtain ⟨next, represents', fits', added, kept, -⟩ :=
      insert_outcome tracks.shaped represents tracks.fits binds (clients.tracking.nextId + 1) type pointer environment
    have shaped' := tracks.shaped.update (idKey (clients.tracking.nextId + 1)) (some (ebpfIdEntryBytes type pointer))
      .insert environment
    simp only [Bool.not_true, Bool.false_eq_true, if_false]
    generalize ebpfHashTableUpdate clients.tracking.idTable (idKey (clients.tracking.nextId + 1))
      (some (ebpfIdEntryBytes type pointer)) .insert environment = outcome at represents' fits' added kept shaped'
    obtain ⟨result, idTable⟩ := outcome
    dsimp only at represents' fits' added kept shaped' ⊢
    by_cases success : result = .success
    · -- the new object, live with its ID in the table and the caller's reference on it
      obtain ⟨fresh, rfl⟩ := added success
      simp only [success, ne_eq, not_true_eq_false, if_false, if_true]
      have noneHeld := tracks.heldOn_eq_zero dead
      refine tracks.replace _ notNull (by rfl) shaped' fits' ⟨_, represents', binds.insert type dead fresh⟩ ?countsOn
        (fun other different flag => count_cons_of_ne different _ _) ?heldIn
      case countsOn =>
        simp only [heldOn] at noneHeld ⊢
        simp
        omega
      case heldIn =>
        intro reference member
        rcases List.mem_cons.mp member with rfl | member
        · exact .inl rfl
        · exact .inr member
    · -- the insert failed: the ID table represents the same map
      simp only [success, ne_eq, not_false_eq_true, if_true, if_false]
      exact tracks.retable _ rfl shaped' fits' ⟨contents, kept success ▸ represents', binds⟩

end ObjectClients.Tracks

/-! ## What the lookups return -/

namespace EbpfObjectTracking

variable {tracking : EbpfObjectTracking}

theorem ebpfObjectReferenceById_eq_some {id : UInt32} {type : EbpfObjectType} {result : EbpfResult}
    {found : Option UInt64} {after : EbpfObjectTracking}
    (looked : tracking.ebpfObjectReferenceById id type = some (result, found, after)) :
    (found = none ∧ after = tracking) ∨
      ∃ entry, ebpfHashTableFind tracking.idTable (idKey id) = (.success, some entry) ∧
        idEntryType entry = type.toUInt32 ∧ result = .success ∧ found = some (idEntryObject entry) ∧
        tracking.ebpfObjectTryAcquireReference (idEntryObject entry) = some (true, after) := by
  unfold ebpfObjectReferenceById at looked
  split at looked
  · rename_i entry entryFound
    dsimp only at looked
    split_ifs at looked with skipped
    · simp only [Option.some.injEq, Prod.mk.injEq] at looked
      exact .inl ⟨looked.2.1.symm, looked.2.2.symm⟩
    · have sameType : idEntryType entry = type.toUInt32 := by
        simp only [not_or, not_not] at skipped
        exact skipped.2
      cases tried : tracking.ebpfObjectTryAcquireReference (idEntryObject entry) with
      | none => simp [tried] at looked
      | some outcome =>
        obtain ⟨_ | _, acquired⟩ := outcome
        · simp only [tried, Option.some.injEq, Prod.mk.injEq] at looked
          exact .inl ⟨looked.2.1.symm, looked.2.2.symm⟩
        · simp only [tried, Option.some.injEq, Prod.mk.injEq] at looked
          obtain ⟨rfl, rfl, rfl⟩ := looked
          exact .inr ⟨entry, entryFound, sameType, rfl, rfl, tried⟩
  · simp only [Option.some.injEq, Prod.mk.injEq] at looked
    exact .inl ⟨looked.2.1.symm, looked.2.2.symm⟩

theorem referenceNextObjectLoop_eq_some {type : EbpfObjectType} {fuel : Nat} {previousKey : UInt32}
    {found : Option UInt64} {after : EbpfObjectTracking}
    (looked : referenceNextObjectLoop type fuel tracking previousKey = some (found, after)) :
    (found = none ∧ after = tracking) ∨
      ∃ key entry, ebpfHashTableNextKeyPointerAndValue tracking.idTable key = .ok entry ∧
        idEntryType entry.data = type.toUInt32 ∧ found = some (idEntryObject entry.data) ∧
        tracking.ebpfObjectTryAcquireReference (idEntryObject entry.data) = some (true, after) := by
  -- the loop goes on with the same tracking until it takes a reference or the keys run out
  induction fuel generalizing previousKey with
  | zero => cases looked
  | succ fuel ih =>
    unfold referenceNextObjectLoop at looked
    split at looked
    · simp only [Option.some.injEq, Prod.mk.injEq] at looked
      exact .inl ⟨looked.1.symm, looked.2.symm⟩
    · rename_i entry nextFound
      dsimp only at looked
      split_ifs at looked with skipped
      · exact ih looked
      · have sameType : idEntryType entry.data = type.toUInt32 := by
          simp only [not_or, not_not] at skipped
          exact skipped.2
        cases tried : tracking.ebpfObjectTryAcquireReference (idEntryObject entry.data) with
        | none => simp [tried] at looked
        | some outcome =>
          obtain ⟨_ | _, acquired⟩ := outcome
          · simp only [tried] at looked
            exact ih looked
          · simp only [tried, Option.some.injEq, Prod.mk.injEq] at looked
            obtain ⟨rfl, rfl⟩ := looked
            exact .inr ⟨_, entry, nextFound, sameType, rfl, tried⟩

end EbpfObjectTracking

namespace ObjectClients.Tracks

variable {clients : ObjectClients}

theorem lookup (tracks : clients.Tracks) {found : Option UInt64} {after : EbpfObjectTracking}
    (outcome : (found = none ∧ after = clients.tracking) ∨
      ∃ object, found = some object ∧ clients.tracking.ebpfObjectTryAcquireReference object = some (true, after)) :
    Tracks ⟨after, holding found clients.held⟩ := by
  rcases outcome with ⟨rfl, rfl⟩ | ⟨object, rfl, tried⟩
  · exact tracks
  · exact tracks.tryAcquire tried

theorem step (tracks : clients.Tracks) {operation : ObjectOperation} (allowed : operation.Admissible clients)
    {next : ObjectClients} {emitted : List ObjectEvent} (stepped : operation.step clients = some (next, emitted)) :
    next.Tracks := by
  cases operation with
  | create pointer type notifiesZeroed notifiesUserZeroed workItemAllocated environment =>
    simp only [ObjectOperation.step, Option.some.injEq, Prod.mk.injEq] at stepped
    obtain ⟨rfl, -⟩ := stepped
    exact tracks.create allowed.1 allowed.2 type notifiesZeroed notifiesUserZeroed workItemAllocated environment
  | acquire pointer userReference =>
    simp only [ObjectOperation.step, Option.map_eq_some_iff, Prod.mk.injEq] at stepped
    obtain ⟨acquired, succeeded, rfl, -⟩ := stepped
    exact tracks.acquire succeeded
  | release pointer userReference =>
    simp only [ObjectOperation.step, Option.map_eq_some_iff, Prod.mk.injEq] at stepped
    obtain ⟨⟨released, events⟩, succeeded, rfl, -⟩ := stepped
    exact tracks.release allowed succeeded
  | referenceById id type =>
    simp only [ObjectOperation.step, Option.map_eq_some_iff, Prod.mk.injEq] at stepped
    obtain ⟨⟨result, found, after⟩, looked, rfl, -⟩ := stepped
    refine tracks.lookup ?_
    rcases EbpfObjectTracking.ebpfObjectReferenceById_eq_some looked with unchanged | ⟨entry, -, -, -, rfl, tried⟩
    · exact .inl unchanged
    · exact .inr ⟨_, rfl, tried⟩
  | referenceNextObject previous type fuel =>
    simp only [ObjectOperation.step, Option.map_eq_some_iff, Prod.mk.injEq] at stepped
    obtain ⟨⟨found, after⟩, looked, rfl, -⟩ := stepped
    refine tracks.lookup ?_
    rcases EbpfObjectTracking.referenceNextObjectLoop_eq_some looked with unchanged | ⟨-, entry, -, -, rfl, tried⟩
    · exact .inl unchanged
    · exact .inr ⟨_, rfl, tried⟩
  | getNextId startId type =>
    simp only [ObjectOperation.step, Option.some.injEq, Prod.mk.injEq] at stepped
    obtain ⟨rfl, -⟩ := stepped
    exact tracks

end ObjectClients.Tracks

theorem ebpfObjectTrackingInitiate_eq_ok {tableAllocated : Bool} {seed : UInt32} {supportsSse42 : Bool}
    {start : EbpfObjectTracking} (initiated : ebpfObjectTrackingInitiate tableAllocated seed supportsSse42 = .ok start) :
    ∃ table, ebpfHashTableCreate idTableOptions tableAllocated seed supportsSse42 = .ok table ∧
      start = { idTable := table, nextId := 1, objects := fun _ => none } := by
  unfold ebpfObjectTrackingInitiate at initiated
  cases created : ebpfHashTableCreate idTableOptions tableAllocated seed supportsSse42 with
  | error => simp [created, bind, Except.bind] at initiated
  | ok table =>
    simp only [created, bind, Except.bind, pure, Except.pure, Except.ok.injEq] at initiated
    exact ⟨table, rfl, initiated.symm⟩

theorem ObjectClients.tracks_initial {tableAllocated : Bool} {seed : UInt32} {supportsSse42 : Bool}
    {start : EbpfObjectTracking} (initiated : ebpfObjectTrackingInitiate tableAllocated seed supportsSse42 = .ok start) :
    Tracks ⟨start, []⟩ := by
  obtain ⟨table, created, rfl⟩ := ebpfObjectTrackingInitiate_eq_ok initiated
  obtain ⟨empty, zero, -, -, -⟩ := ebpfHashTableCreate_eq_ok created
  refine ⟨idTableShaped_of_created created, fun index => by simp [BucketFits, empty index], ⟨∅, Represents.empty empty zero, ?_⟩,
    fun _ _ found => (by cases found), fun _ member => (by cases member), rfl⟩
  intro view value
  simp [EbpfObjectTracking.liveEntry]

theorem ObjectClients.tracks_of_reaches {tableAllocated : Bool} {seed : UInt32} {supportsSse42 : Bool}
    {start : EbpfObjectTracking} (initiated : ebpfObjectTrackingInitiate tableAllocated seed supportsSse42 = .ok start)
    {events : List ObjectEvent} {clients : ObjectClients} (reached : ObjectClients.Reaches start events clients) :
    clients.Tracks :=
  Trace.Reaches.invariant (ObjectClients.tracks_initial initiated)
    (fun _ _ _ _ tracks allowed stepped => tracks.step allowed stepped) reached

/-! ## One call in the life of an object -/

namespace ObjectOperation

variable {clients next : ObjectClients} {emitted : List ObjectEvent}

theorem step_release {pointer : UInt64} {userReference : Bool}
    (stepped : (release pointer userReference).step clients = some (next, emitted)) :
    clients.tracking.ebpfObjectReleaseReference pointer userReference = some (next.tracking, emitted) ∧
      next.held = clients.held.erase (pointer, userReference) := by
  simp only [step, Option.map_eq_some_iff, Prod.mk.injEq] at stepped
  obtain ⟨⟨released, events⟩, succeeded, rfl, rfl⟩ := stepped
  exact ⟨succeeded, rfl⟩

theorem emitted_eq_nil {operation : ObjectOperation} (stepped : operation.step clients = some (next, emitted))
    (notRelease : ∀ pointer userReference, operation ≠ release pointer userReference) : emitted = [] := by
  cases operation with
  | release pointer userReference => exact absurd rfl (notRelease pointer userReference)
  | create | getNextId =>
    simp only [step, Option.some.injEq, Prod.mk.injEq] at stepped
    exact stepped.2.symm
  | acquire | referenceById | referenceNextObject =>
    simp only [step, Option.map_eq_some_iff, Prod.mk.injEq] at stepped
    obtain ⟨_, _, -, rfl⟩ := stepped
    rfl

end ObjectOperation

namespace ObjectClients.Tracks

variable {clients : ObjectClients}

theorem liveEntry_acquire (tracks : clients.Tracks) {pointer : UInt64} {userReference : Bool}
    {acquired : EbpfObjectTracking}
    (succeeded : clients.tracking.ebpfObjectAcquireReference pointer userReference = some acquired) :
    acquired.liveEntry = clients.tracking.liveEntry := by
  obtain ⟨object, found, counted, rfl⟩ := EbpfObjectTracking.ebpfObjectAcquireReference_eq_some succeeded
  have positive : 0 < object.referenceCount := by
    have counts := (tracks.counts pointer object found).1
    omega
  rw [EbpfObjectTracking.liveEntry_setObject]
  exact EbpfObjectTracking.liveEntry_update_of_live found positive (by dsimp only; omega) rfl rfl

theorem release_outcome (tracks : clients.Tracks) {pointer : UInt64} {userReference : Bool}
    (isHeld : (pointer, userReference) ∈ clients.held) {released : EbpfObjectTracking} {emitted : List ObjectEvent}
    (succeeded : clients.tracking.ebpfObjectReleaseReference pointer userReference = some (released, emitted)) :
    ∃ object, clients.tracking.objects pointer = some object ∧
      released.objects pointer = some (object.released userReference) ∧
      emitted = object.userZeroedEvents pointer userReference ++
        (if object.referenceCount = 1 then
          (if object.notifiesReferenceCountZeroed then [.referenceCountZeroed pointer] else []) ++ [.freeScheduled pointer]
        else []) ∧
      released.liveEntry =
        if object.referenceCount = 1 then Function.update clients.tracking.liveEntry pointer none
        else clients.tracking.liveEntry := by
  obtain ⟨object, found, positive, userHeld⟩ := tracks.found_of_held isHeld
  refine ⟨object, found, ?_⟩
  rw [EbpfObjectTracking.ebpfObjectReleaseReference_eq (tracks.notNull_of_found found) found positive userHeld]
    at succeeded
  by_cases last : object.referenceCount = 1
  · rw [if_pos last, Option.some.injEq, Prod.mk.injEq] at succeeded
    obtain ⟨rfl, rfl⟩ := succeeded
    rw [if_pos last, if_pos last, List.append_assoc]
    refine ⟨EbpfObjectTracking.setObject_objects_self _ _ _, rfl, ?_⟩
    show (clients.tracking.setObject pointer (object.released userReference)).liveEntry = _
    rw [EbpfObjectTracking.liveEntry_setObject]
    simp [EbpfCoreObject.liveEntry, EbpfCoreObject.released, last]
  · rw [if_neg last, Option.some.injEq, Prod.mk.injEq] at succeeded
    obtain ⟨rfl, rfl⟩ := succeeded
    rw [if_neg last, if_neg last, List.append_nil]
    refine ⟨EbpfObjectTracking.setObject_objects_self _ _ _, rfl, ?_⟩
    rw [EbpfObjectTracking.liveEntry_setObject]
    exact EbpfObjectTracking.liveEntry_update_of_live found (by omega)
      (by simp [EbpfCoreObject.released]; omega) rfl rfl

theorem liveEntry_step (tracks : clients.Tracks) {operation : ObjectOperation} (allowed : operation.Admissible clients)
    {next : ObjectClients} {emitted : List ObjectEvent} (stepped : operation.step clients = some (next, emitted))
    {pointer : UInt64} {entry : UInt32 × EbpfObjectType} (live : next.tracking.liveEntry pointer = some entry) :
    clients.tracking.liveEntry pointer = some entry ∨
      ∃ type notifiesZeroed notifiesUserZeroed workItemAllocated environment,
        operation = .create pointer type notifiesZeroed notifiesUserZeroed workItemAllocated environment := by
  cases operation with
  | create created type notifiesZeroed notifiesUserZeroed workItemAllocated environment =>
    simp only [ObjectOperation.step, Option.some.injEq, Prod.mk.injEq] at stepped
    obtain ⟨rfl, -⟩ := stepped
    by_cases same : pointer = created
    · subst same
      exact .inr ⟨type, notifiesZeroed, notifiesUserZeroed, workItemAllocated, environment, rfl⟩
    · left
      simpa only [EbpfObjectTracking.liveEntry,
        EbpfObjectTracking.ebpfObjectInitialize_objects_of_ne same] using live
  | acquire acquiredAt userReference =>
    simp only [ObjectOperation.step, Option.map_eq_some_iff, Prod.mk.injEq] at stepped
    obtain ⟨acquired, succeeded, rfl, -⟩ := stepped
    exact .inl (tracks.liveEntry_acquire succeeded ▸ live)
  | release releasedAt userReference =>
    obtain ⟨succeeded, -⟩ := ObjectOperation.step_release stepped
    obtain ⟨object, -, -, -, liveAfter⟩ := tracks.release_outcome allowed succeeded
    left
    rw [liveAfter] at live
    split_ifs at live
    · by_cases same : pointer = releasedAt
      · subst same
        simp at live
      · rwa [Function.update_of_ne same] at live
    · exact live
  | referenceById id type =>
    simp only [ObjectOperation.step, Option.map_eq_some_iff, Prod.mk.injEq] at stepped
    obtain ⟨⟨result, found, after⟩, looked, rfl, -⟩ := stepped
    rcases EbpfObjectTracking.ebpfObjectReferenceById_eq_some looked with ⟨-, rfl⟩ | ⟨_, -, -, -, -, tried⟩
    · exact .inl live
    · exact .inl (tracks.liveEntry_acquire (EbpfObjectTracking.ebpfObjectAcquireReference_of_tryAcquire tried) ▸ live)
  | referenceNextObject previous type fuel =>
    simp only [ObjectOperation.step, Option.map_eq_some_iff, Prod.mk.injEq] at stepped
    obtain ⟨⟨found, after⟩, looked, rfl, -⟩ := stepped
    rcases EbpfObjectTracking.referenceNextObjectLoop_eq_some looked with ⟨-, rfl⟩ | ⟨_, _, -, -, -, tried⟩
    · exact .inl live
    · exact .inl (tracks.liveEntry_acquire (EbpfObjectTracking.ebpfObjectAcquireReference_of_tryAcquire tried) ▸ live)
  | getNextId startId type =>
    simp only [ObjectOperation.step, Option.some.injEq, Prod.mk.injEq] at stepped
    obtain ⟨rfl, -⟩ := stepped
    exact .inl live

theorem lifetime_step (tracks : clients.Tracks) {operation : ObjectOperation} (allowed : operation.Admissible clients)
    {next : ObjectClients} {emitted : List ObjectEvent} (stepped : operation.step clients = some (next, emitted))
    (pointer : UInt64) :
    (ObjectEvent.freeScheduled pointer ∈ emitted ↔
      (∃ userReference, operation = .release pointer userReference) ∧
        ∃ object, clients.tracking.objects pointer = some object ∧ object.referenceCount = 1) ∧
    emitted.count (.freeScheduled pointer) ≤ 1 ∧
    (ObjectEvent.userReferenceCountZeroed pointer ∈ emitted ↔
      operation = .release pointer true ∧ ∃ object, clients.tracking.objects pointer = some object ∧
        object.userReferenceCount = 1 ∧ object.notifiesUserReferenceCountZeroed = true) ∧
    (ObjectEvent.freeScheduled pointer ∈ emitted →
      (∃ object, next.tracking.objects pointer = some object ∧ object.referenceCount = 0) ∧
        next.tracking.liveEntry pointer = none ∧ heldOn next.held pointer = 0) := by
  have nextTracks := tracks.step allowed stepped
  by_cases isRelease : ∃ releasedAt userReference, operation = .release releasedAt userReference
  · obtain ⟨releasedAt, userReference, rfl⟩ := isRelease
    obtain ⟨succeeded, -⟩ := ObjectOperation.step_release stepped
    obtain ⟨object, found, objectAfter, rfl, liveAfter⟩ := tracks.release_outcome allowed succeeded
    have freed : ObjectEvent.freeScheduled pointer ∈
        object.userZeroedEvents releasedAt userReference ++
          (if object.referenceCount = 1 then
            (if object.notifiesReferenceCountZeroed then [.referenceCountZeroed releasedAt] else []) ++
              [.freeScheduled releasedAt]
          else []) ↔ object.referenceCount = 1 ∧ pointer = releasedAt := by
      unfold EbpfCoreObject.userZeroedEvents
      by_cases last : object.referenceCount = 1 <;> split_ifs <;> simp [last]
    have zeroed : ObjectEvent.userReferenceCountZeroed pointer ∈
        object.userZeroedEvents releasedAt userReference ++
          (if object.referenceCount = 1 then
            (if object.notifiesReferenceCountZeroed then [.referenceCountZeroed releasedAt] else []) ++
              [.freeScheduled releasedAt]
          else []) ↔ (userReference = true ∧ object.userReferenceCount = 1 ∧
            object.notifiesUserReferenceCountZeroed = true) ∧ pointer = releasedAt := by
      unfold EbpfCoreObject.userZeroedEvents
      split_ifs with callback <;> simp [callback]
    refine ⟨?_, ?_, ?_, ?_⟩
    · rw [freed]
      constructor
      · rintro ⟨last, rfl⟩
        exact ⟨⟨userReference, rfl⟩, object, found, last⟩
      · rintro ⟨⟨_, same⟩, other, otherFound, last⟩
        obtain ⟨rfl, -⟩ := ObjectOperation.release.inj same
        rw [found, Option.some.injEq] at otherFound
        exact ⟨otherFound ▸ last, rfl⟩
    · -- the callbacks are other events, and the free is one event
      have noFree : (object.userZeroedEvents releasedAt userReference).count (.freeScheduled pointer) = 0 := by
        unfold EbpfCoreObject.userZeroedEvents
        split_ifs <;> simp
      have noCallbackFree : (if object.notifiesReferenceCountZeroed then [ObjectEvent.referenceCountZeroed releasedAt]
          else []).count (.freeScheduled pointer) = 0 := by
        split_ifs <;> simp
      rw [List.count_append, noFree, Nat.zero_add]
      by_cases last : object.referenceCount = 1
      · rw [if_pos last, List.count_append, noCallbackFree, Nat.zero_add]
        exact List.count_le_length.trans (by simp)
      · simp [last]
    · rw [zeroed]
      constructor
      · rintro ⟨⟨rfl, userLast, callback⟩, rfl⟩
        exact ⟨rfl, object, found, userLast, callback⟩
      · rintro ⟨same, other, otherFound, userLast, callback⟩
        obtain ⟨rfl, rfl⟩ := ObjectOperation.release.inj same
        rw [found, Option.some.injEq] at otherFound
        subst otherFound
        exact ⟨⟨rfl, userLast, callback⟩, rfl⟩
    · rw [freed]
      rintro ⟨last, rfl⟩
      have dead : next.tracking.liveEntry pointer = none := by
        rw [liveAfter, if_pos last, Function.update_self]
      refine ⟨⟨_, objectAfter, ?_⟩, dead, nextTracks.heldOn_eq_zero dead⟩
      simp [EbpfCoreObject.released, last]
  · have notRelease : ∀ releasedAt userReference, operation ≠ .release releasedAt userReference :=
      fun releasedAt userReference same => isRelease ⟨releasedAt, userReference, same⟩
    rw [ObjectOperation.emitted_eq_nil stepped notRelease]
    refine ⟨?_, by simp, ?_, by simp⟩
    · simp only [List.not_mem_nil, false_iff, not_and]
      rintro ⟨userReference, rfl⟩
      exact absurd rfl (notRelease pointer userReference)
    · simp only [List.not_mem_nil, false_iff, not_and]
      rintro rfl
      exact absurd rfl (notRelease pointer true)

end ObjectClients.Tracks

end EbpfWindows.Runtime
