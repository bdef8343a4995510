import EbpfWindows.ExecutionContext.LpmTrie
import EbpfWindows.Runtime.HashTable.Refinement

/-! An LPM map refines its trie of stored prefixes.

The hash table compares two LPM keys by their prefix lengths, the whole bytes of
their prefixes and the high bits of the byte holding the rest (`lpmView`); two keys
compare equal exactly when they stand for one bit string. So the map the hash table
refines and the trie hold one value under a key's view and under its bits
(`Corresponds`), and every table operation is the trie's.

A lookup is correct because every stored prefix length has its bit set in the
bitmap: the cursor returns every set bit up to the key's length from the highest
down, the lengths it skips hold no prefix of the key, and the first probe that hits
is the longest stored prefix.
-/

set_option autoImplicit false

namespace EbpfWindows.ExecutionContext

open EbpfWindows.Runtime Bytes

/-! ## What the hash table compares -/

/-- The view of a key with prefix length `length` and the bytes `suffix` after it. -/
def lpmView (length : UInt32) (suffix : List UInt8) : Nat × List UInt8 × UInt8 :=
  (4 * 8 + length.toNat, uint32Bytes length ++ readBytes suffix 0 (length.toNat / 8),
    if length.toNat % 8 = 0 then 0 else suffix.getD (length.toNat / 8) 0 >>> (8 - length.toNat % 8).toUInt8)

theorem keyView_eq_lpmView {table : EbpfHashTable} (extract : table.extract = some lpmExtract)
    (key : List UInt8) : keyView table key = lpmView (prefixLength key) (key.drop 4) := by
  have bytes : (4 * 8 + (prefixLength key).toNat) / 8 = 4 + (prefixLength key).toNat / 8 := by omega
  have bits : (4 * 8 + (prefixLength key).toNat) % 8 = (prefixLength key).toNat % 8 := by omega
  simp only [keyView, extract, lpmExtract, lpmView, bytes, bits, partialByte, readBytes_add, readBytes_drop,
    getD_drop, Nat.add_zero, Nat.zero_add]
  rw [prefixLength, uint32Bytes_littleEndian]

theorem lpmView_eq_iff {first second : UInt32} {firstSuffix secondSuffix : List UInt8} :
    lpmView first firstSuffix = lpmView second secondSuffix ↔
      msbBits firstSuffix first.toNat = msbBits secondSuffix second.toNat := by
  constructor
  · intro same
    have lengths : first = second := UInt32.toNat_inj.mp (by simpa [lpmView] using congrArg Prod.fst same)
    subst lengths
    simp only [lpmView, Prod.mk.injEq, List.append_cancel_left_eq, true_and] at same
    obtain ⟨bytes, rest⟩ := same
    refine msbBits_eq_iff.mpr ⟨bytes, ?_⟩
    by_cases whole : first.toNat % 8 = 0
    · exact Or.inl whole
    · exact Or.inr (by simpa [whole] using rest)
  · intro same
    have lengths : first = second := UInt32.toNat_inj.mp (by simpa using congrArg List.length same)
    subst lengths
    obtain ⟨bytes, rest⟩ := msbBits_eq_iff.mp same
    rcases rest with whole | shifted
    · simp [lpmView, bytes, whole]
    · simp only [lpmView, bytes, shifted]

theorem hash_compare_is_an_equivalence_the_bucket_index_respects :
    (∀ table : EbpfHashTable,
      Equivalence (fun keyA keyB => ebpfHashTableCompare table keyA keyB = 0) ∧
        ∀ keyA keyB, ebpfHashTableCompare table keyA keyB = 0 →
          ebpfHashTableComputeBucketIndex table keyA = ebpfHashTableComputeBucketIndex table keyB) ∧
      ∀ table : EbpfHashTable, table.extract = some lpmExtract → ∀ keyA keyB : List UInt8,
        ebpfHashTableCompare table keyA keyB = 0 ↔
          prefixLength keyA = prefixLength keyB ∧ keyBits keyA (prefixLength keyA) = keyBits keyB (prefixLength keyB) := by
  refine ⟨fun table => ⟨?_, fun keyA keyB same => ?_⟩, fun table extract keyA keyB => ?_⟩
  · -- comparing equal is having one view
    simp only [EbpfHashTable.compare_eq_zero_iff]
    exact ⟨fun _ => rfl, Eq.symm, Eq.trans⟩
  · exact EbpfHashTable.computeBucketIndex_eq_of_keyView_eq ((EbpfHashTable.compare_eq_zero_iff table keyA keyB).mp same)
  · rw [EbpfHashTable.compare_eq_zero_iff, keyView_eq_lpmView extract, keyView_eq_lpmView extract, lpmView_eq_iff]
    constructor
    · intro same
      have lengths : (prefixLength keyA).toNat = (prefixLength keyB).toNat := by
        simpa using congrArg List.length same
      exact ⟨UInt32.toNat_inj.mp lengths, same⟩
    · rintro ⟨-, bits⟩
      exact bits

theorem hash_compare_is_an_equivalence_the_bucket_index_respects_on_two_routes :
    ∃ table, ebpfHashTableCreate ⟨8, 4, some lpmExtract, 16, ebpfHashTableNoLimit, false, 0⟩ true 0 false = .ok table ∧
      ebpfHashTableCompare table [24, 0, 0, 0, 10, 1, 2, 7] [24, 0, 0, 0, 10, 1, 2, 9] = 0 :=
  ⟨_, rfl, (hash_compare_is_an_equivalence_the_bucket_index_respects.2 _ rfl _ _).mpr ⟨by decide, by decide⟩⟩

theorem storesKey_of_prefixLength_le {table : EbpfHashTable} (extract : table.extract = some lpmExtract)
    {key : List UInt8} (within : (prefixLength key).toNat + 4 * 8 ≤ 8 * table.keySize.toNat) :
    table.StoresKey key := by
  have copied : ∀ index < table.keySize.toNat, (readBytes key 0 table.keySize.toNat).getD index 0 = key.getD index 0 :=
    fun index below => by rw [getD_readBytes key below, Nat.zero_add]
  have samePrefix : prefixLength (readBytes key 0 table.keySize.toNat) = prefixLength key := by
    unfold prefixLength
    rw [readBytes_eq_iff.mpr fun index below => copied (0 + index) (by omega)]
  unfold EbpfHashTable.StoresKey
  rw [keyView_eq_lpmView extract, keyView_eq_lpmView extract, samePrefix, lpmView_eq_iff, msbBits_eq_iff_forall]
  intro index below
  simp only [msbBit, getD_drop]
  rw [copied _ (by omega)]

/-! ## The table's map and the trie -/

/-- The table's map holds under every view the value the trie holds under its bits. -/
def Corresponds (contents : BoundedMap) (trie : LpmTrie) : Prop :=
  ∀ length suffix, contents.lookup (lpmView length suffix) = trie.lookup (msbBits suffix length.toNat)

namespace Corresponds

variable {contents : BoundedMap} {trie : LpmTrie}

theorem empty : Corresponds ∅ ∅ := fun _ _ => by simp

theorem mem_iff (corresponds : Corresponds contents trie) (length : UInt32) (suffix : List UInt8) :
    lpmView length suffix ∈ contents ↔ msbBits suffix length.toNat ∈ trie := by
  rw [← Finmap.lookup_isSome, corresponds, Finmap.lookup_isSome]

theorem insert (corresponds : Corresponds contents trie) (length : UInt32) (suffix : List UInt8)
    (value : List UInt8) :
    Corresponds (contents.insert (lpmView length suffix) value) (trie.insert (msbBits suffix length.toNat) value) := by
  intro other otherSuffix
  by_cases same : lpmView other otherSuffix = lpmView length suffix
  · rw [same, Finmap.lookup_insert, lpmView_eq_iff.mp same, Finmap.lookup_insert]
  · have different : msbBits otherSuffix other.toNat ≠ msbBits suffix length.toNat :=
      fun bits => same (lpmView_eq_iff.mpr bits)
    rw [Finmap.lookup_insert_of_ne _ same, Finmap.lookup_insert_of_ne _ different, corresponds]

theorem erase (corresponds : Corresponds contents trie) (length : UInt32) (suffix : List UInt8) :
    Corresponds (contents.erase (lpmView length suffix)) (trie.erase (msbBits suffix length.toNat)) := by
  intro other otherSuffix
  by_cases same : lpmView other otherSuffix = lpmView length suffix
  · rw [same, Finmap.lookup_erase, lpmView_eq_iff.mp same, Finmap.lookup_erase]
  · have different : msbBits otherSuffix other.toNat ≠ msbBits suffix length.toNat :=
      fun bits => same (lpmView_eq_iff.mpr bits)
    rw [Finmap.lookup_erase_ne same, Finmap.lookup_erase_ne different, corresponds]

theorem update (corresponds : Corresponds contents trie) (length : UInt32) (suffix : List UInt8)
    (value : List UInt8) (operation : EbpfHashTableOperations) :
    (contents.update none (lpmView length suffix) value operation).1 =
        (trie.update (msbBits suffix length.toNat) value operation).1 ∧
      Corresponds (contents.update none (lpmView length suffix) value operation).2
        (trie.update (msbBits suffix length.toNat) value operation).2 := by
  have member := corresponds.mem_iff length suffix
  cases operation <;> by_cases present : msbBits suffix length.toNat ∈ trie <;>
    simp [BoundedMap.update, BoundedMap.insertNew, LpmTrie.update, member, present, corresponds,
      corresponds.insert length suffix value]

theorem delete (corresponds : Corresponds contents trie) (length : UInt32) (suffix : List UInt8) :
    (contents.delete (lpmView length suffix)).1 = (trie.delete (msbBits suffix length.toNat)).1 ∧
      Corresponds (contents.delete (lpmView length suffix)).2 (trie.delete (msbBits suffix length.toNat)).2 := by
  have member := corresponds.mem_iff length suffix
  by_cases present : msbBits suffix length.toNat ∈ trie <;>
    simp [BoundedMap.delete, LpmTrie.delete, member, present, corresponds, corresponds.erase length suffix]

theorem size_le (corresponds : Corresponds contents trie)
    (views : ∀ view ∈ contents, ∃ length suffix, view = lpmView length suffix) :
    contents.size ≤ trie.keys.card := by
  -- a view's prefix bits, read off a key that has the view
  let viewOf : UInt32 × List UInt8 → Nat × List UInt8 × UInt8 := fun key => lpmView key.1 key.2
  let bitsOfView := fun view => msbBits (Function.invFun viewOf view).2 (Function.invFun viewOf view).1.toNat
  have bitsOf : ∀ length suffix, bitsOfView (lpmView length suffix) = msbBits suffix length.toNat :=
    fun length suffix => lpmView_eq_iff.mp
      (Function.invFun_eq (⟨(length, suffix), rfl⟩ : ∃ key, viewOf key = lpmView length suffix))
  apply Finset.card_le_card_of_injOn bitsOfView
  · intro view member
    have bound : view ∈ contents := Finmap.mem_keys.mp (Finset.mem_coe.mp member)
    obtain ⟨length, suffix, rfl⟩ := views view bound
    rw [bitsOf, Finset.mem_coe]
    exact Finmap.mem_keys.mpr ((corresponds.mem_iff length suffix).mp bound)
  · intro first firstMember second secondMember same
    obtain ⟨firstLength, firstSuffix, rfl⟩ := views first (Finmap.mem_keys.mp (Finset.mem_coe.mp firstMember))
    obtain ⟨secondLength, secondSuffix, rfl⟩ := views second (Finmap.mem_keys.mp (Finset.mem_coe.mp secondMember))
    rw [bitsOf, bitsOf] at same
    exact lpmView_eq_iff.mpr same

end Corresponds

/-! ## The hash table of an LPM map -/

/-- The hash table of an LPM map holds a trie: it has the LPM extract function and no
limit, and refines a map that corresponds to the trie. -/
structure TableHolds (table : EbpfHashTable) (trie : LpmTrie) : Prop where
  extract : table.extract = some lpmExtract
  uncounted : ¬ table.counting
  holds : ∃ contents, Runtime.Represents table contents ∧ table.BucketsFit ∧ Corresponds contents trie

namespace TableHolds

variable {table : EbpfHashTable} {trie : LpmTrie}

theorem published (holds : TableHolds table trie) {entryCount : UInt64} {buckets : Nat → List EbpfHashBucketEntry}
    {next : LpmTrie} {contents : BoundedMap} (represents : Runtime.Represents { table with entryCount, buckets } contents)
    (fits : EbpfHashTable.BucketsFit { table with entryCount, buckets }) (corresponds : Corresponds contents next) :
    TableHolds { table with entryCount, buckets } next :=
  ⟨holds.extract, holds.uncounted, contents, represents, fits, corresponds⟩

theorem findHashMapEntry_eq (holds : TableHolds table trie) (probe : List UInt8) {flags : Nat}
    (keep : flags &&& ebpfMapFindFlagDelete = 0) (environment : HashTableEnvironment) :
    findHashMapEntry table probe flags environment =
      match trie.lookup (msbBits (probe.drop 4) (prefixLength probe).toNat) with
      | some value => ((.success, some value), table)
      | none => ((.objectNotFound, none), table) := by
  obtain ⟨contents, represents, fits, corresponds⟩ := holds.holds
  rw [findHashMapEntry_of_not_delete table probe keep environment, represents.find_eq fits,
    keyView_eq_lpmView holds.extract]
  unfold BoundedMap.find
  rw [corresponds]
  cases trie.lookup (msbBits (probe.drop 4) (prefixLength probe).toNat) <;> rfl

theorem update (holds : TableHolds table trie) {key : List UInt8} (stored : table.StoresKey key)
    (data : Option (List UInt8)) (operation : EbpfHashTableOperations) (environment : HashTableEnvironment) :
    ∃ next, (((ebpfHashTableUpdate table key data operation environment).1, next) =
          trie.update (keyBits key (prefixLength key)) (newData table data) operation ∨
        environment.Failure (ebpfHashTableUpdate table key data operation environment).1 ∧ next = trie ∨
        (ebpfHashTableUpdate table key data operation environment).1 = .arithmeticOverflow ∧
          ¬ LayoutFits table.keySize trie.keys.card ∧ keyBits key (prefixLength key) ∉ trie ∧ next = trie) ∧
      TableHolds (ebpfHashTableUpdate table key data operation environment).2 next := by
  obtain ⟨contents, represents, fits, corresponds⟩ := holds.holds
  have noLimit : table.limit = none := by simp [EbpfHashTable.limit, holds.uncounted]
  obtain ⟨next, outcome, nextRepresents, nextFits, -⟩ :=
    represents.update_step fits (fun counting => absurd counting holds.uncounted) stored data operation environment
  obtain ⟨entryCount, buckets, shape⟩ : ∃ entryCount buckets,
      (ebpfHashTableUpdate table key data operation environment).2 = { table with entryCount, buckets } :=
    ebpfHashTableReplaceBucket_withBuckets table key data _ environment
  rw [shape] at nextRepresents nextFits ⊢
  rw [noLimit, keyView_eq_lpmView holds.extract] at outcome
  have sizeLe : contents.size ≤ trie.keys.card := corresponds.size_le fun view member => by
    obtain ⟨stored, rfl⟩ := represents.exists_keyView_of_mem member
    exact ⟨_, _, keyView_eq_lpmView holds.extract stored⟩
  rcases outcome with specified | ⟨failed, rfl⟩ | ⟨⟨full, absent⟩, overflowed, rfl⟩
  · -- the map's update is the trie's
    obtain ⟨sameResult, nextCorresponds⟩ :=
      corresponds.update (prefixLength key) (key.drop 4) (newData table data) operation
    rw [← specified] at sameResult nextCorresponds
    exact ⟨_, Or.inl (Prod.ext sameResult rfl), holds.published nextRepresents nextFits nextCorresponds⟩
  · exact ⟨trie, Or.inr (Or.inl ⟨failed, rfl⟩), holds.published nextRepresents nextFits corresponds⟩
  · have absentBits : keyBits key (prefixLength key) ∉ trie := by
      rw [keyBits, ← corresponds.mem_iff]
      exact absent
    have trieFull : ¬ LayoutFits table.keySize trie.keys.card := fun fits => full (fits.mono sizeLe)
    exact ⟨trie, Or.inr (Or.inr ⟨overflowed, trieFull, absentBits, rfl⟩),
      holds.published nextRepresents nextFits corresponds⟩

theorem delete (holds : TableHolds table trie) (key : List UInt8) (environment : HashTableEnvironment) :
    ∃ next, (((ebpfHashTableDelete table key environment).1, next) = trie.delete (keyBits key (prefixLength key)) ∨
        environment.Failure (ebpfHashTableDelete table key environment).1 ∧ next = trie) ∧
      TableHolds (ebpfHashTableDelete table key environment).2 next := by
  obtain ⟨contents, represents, fits, corresponds⟩ := holds.holds
  obtain ⟨next, outcome, nextRepresents, nextFits, -⟩ := represents.delete_step fits key environment
  obtain ⟨entryCount, buckets, shape⟩ : ∃ entryCount buckets,
      (ebpfHashTableDelete table key environment).2 = { table with entryCount, buckets } :=
    ebpfHashTableReplaceBucket_withBuckets table key none .delete environment
  rw [shape] at nextRepresents nextFits ⊢
  rw [keyView_eq_lpmView holds.extract] at outcome
  rcases outcome with specified | ⟨failed, rfl⟩ | ⟨impossible, -⟩
  · obtain ⟨sameResult, nextCorresponds⟩ := corresponds.delete (prefixLength key) (key.drop 4)
    rw [← specified] at sameResult nextCorresponds
    exact ⟨_, Or.inl (Prod.ext sameResult rfl), holds.published nextRepresents nextFits nextCorresponds⟩
  · exact ⟨trie, Or.inr ⟨failed, rfl⟩, holds.published nextRepresents nextFits corresponds⟩
  · exact impossible.elim

end TableHolds

/-! ## The search -/

section Search

variable {bitmap : EbpfBitmap} {trie : LpmTrie}

theorem nextBit_below {cursor : EbpfBitmapCursor} {bound : Nat}
    (pending : ∀ index, cursor.Pending bitmap index ↔ index < bound ∧ bitmap.ebpfBitmapTestBit index = true) :
    ((ebpfBitmapReverseSearchNextBit bitmap cursor).1 = maxSizeT ∧
        ∀ index < bound, bitmap.ebpfBitmapTestBit index = false) ∨
      ((ebpfBitmapReverseSearchNextBit bitmap cursor).1 < bound ∧
        (∀ index, (ebpfBitmapReverseSearchNextBit bitmap cursor).1 < index → index < bound →
          bitmap.ebpfBitmapTestBit index = false) ∧
        ∀ index, (ebpfBitmapReverseSearchNextBit bitmap cursor).2.Pending bitmap index ↔
          index < (ebpfBitmapReverseSearchNextBit bitmap cursor).1 ∧ bitmap.ebpfBitmapTestBit index = true) := by
  by_cases some : ∃ index, cursor.Pending bitmap index
  · obtain ⟨index, hasIndex⟩ := some
    obtain ⟨returned, highest, rest⟩ := reverseSearchNextBit_some bitmap hasIndex
    have below := (pending _).mp returned
    refine Or.inr ⟨below.1, fun other above under => ?_, fun other => ?_⟩
    · -- a set bit between the returned one and the bound would have come first
      cases set : bitmap.ebpfBitmapTestBit other
      · rfl
      · have := highest other ((pending other).mpr ⟨under, set⟩)
        omega
    · rw [rest, pending]
      constructor
      · rintro ⟨⟨under, set⟩, different⟩
        exact ⟨lt_of_le_of_ne (highest other ((pending other).mpr ⟨under, set⟩)) different, set⟩
      · rintro ⟨under, set⟩
        exact ⟨⟨by omega, set⟩, by omega⟩
  · have nothing : ∀ index, ¬ cursor.Pending bitmap index := fun index pending => some ⟨index, pending⟩
    refine Or.inl ⟨(reverseSearchNextBit_none bitmap nothing).1, fun index under => ?_⟩
    cases set : bitmap.ebpfBitmapTestBit index
    · rfl
    · exact absurd ((pending index).mpr ⟨under, set⟩) (nothing index)

theorem not_mem_of_testBit (covered : ∀ bits ∈ trie, bitmap.ebpfBitmapTestBit bits.length = true)
    {suffix : List UInt8} {length : Nat} (clear : bitmap.ebpfBitmapTestBit length = false) :
    msbBits suffix length ∉ trie := fun stored => by
  have set := covered _ stored
  rw [length_msbBits, clear] at set
  cases set

/-- Where the search for a key of `length` bits with `suffix` after its prefix length
stands once the cursor returned `nextBit`: at the end with no prefix of the key stored,
or at a length of the key with the set bits below it to come and no longer prefix
stored. -/
def SearchState (bitmap : EbpfBitmap) (trie : LpmTrie) (suffix : List UInt8) (length : Nat)
    (cursor : EbpfBitmapCursor) (nextBit : Nat) : Prop :=
  nextBit = maxSizeT ∧ (∀ shorter ≤ length, msbBits suffix shorter ∉ trie) ∨
    nextBit ≤ length ∧
      (∀ index, cursor.Pending bitmap index ↔ index < nextBit ∧ bitmap.ebpfBitmapTestBit index = true) ∧
      ∀ longer, nextBit < longer → longer ≤ length → msbBits suffix longer ∉ trie

theorem searchState_nextBit (covered : ∀ bits ∈ trie, bitmap.ebpfBitmapTestBit bits.length = true)
    {suffix : List UInt8} {length bound : Nat} (within : bound ≤ length + 1) {cursor : EbpfBitmapCursor}
    (pending : ∀ index, cursor.Pending bitmap index ↔ index < bound ∧ bitmap.ebpfBitmapTestBit index = true)
    (absent : ∀ longer, bound ≤ longer → longer ≤ length → msbBits suffix longer ∉ trie) :
    SearchState bitmap trie suffix length (ebpfBitmapReverseSearchNextBit bitmap cursor).2
        (ebpfBitmapReverseSearchNextBit bitmap cursor).1 ∧
      ((ebpfBitmapReverseSearchNextBit bitmap cursor).1 = maxSizeT ∨
        (ebpfBitmapReverseSearchNextBit bitmap cursor).1 < bound) := by
  rcases nextBit_below pending with ⟨ended, clear⟩ | ⟨under, skipped, rest⟩
  · refine ⟨Or.inl ⟨ended, fun shorter le => ?_⟩, Or.inl ended⟩
    by_cases earlier : shorter < bound
    · exact not_mem_of_testBit covered (clear shorter earlier)
    · exact absent shorter (by omega) le
  · refine ⟨Or.inr ⟨by omega, rest, fun longer above le => ?_⟩, Or.inr under⟩
    by_cases earlier : longer < bound
    · exact not_mem_of_testBit covered (skipped longer above earlier)
    · exact absent longer (by omega) le

variable {table : EbpfHashTable}

theorem lpmSearch_eq (holds : TableHolds table trie)
    (covered : ∀ bits ∈ trie, bitmap.ebpfBitmapTestBit bits.length = true) {flags : Nat}
    (keep : flags &&& ebpfMapFindFlagDelete = 0) (environment : HashTableEnvironment) {suffix : List UInt8}
    {length : Nat} (short : length < 2 ^ 32 - 1) :
    ∀ (fuel : Nat) (cursor : EbpfBitmapCursor) (probe : List UInt8) (nextBit : Nat),
      probe.drop 4 = suffix → prefixLength probe = nextBit.toUInt32 →
      SearchState bitmap trie suffix length cursor nextBit → 0 < fuel → (nextBit ≤ length → nextBit + 2 ≤ fuel) →
      ∃ last, last.drop 4 = suffix ∧
        lpmSearch bitmap flags environment fuel table cursor probe = ((trie.find (msbBits suffix length)).2, last, table)
  | 0, _, _, _, _, _, _, positive, _ => absurd positive (Nat.lt_irrefl 0)
  | fuel + 1, cursor, probe, nextBit, sameSuffix, stored, state, _, enough => by
    rcases state with ⟨ended, nothing⟩ | ⟨le, pending, absent⟩
    · -- the cursor returned `MAXSIZE_T`, which the key holds as `MAXUINT32`
      have atEnd : prefixLength probe = maxUInt32 := by
        rw [stored, ended]
        decide
      have none : (trie.find (msbBits suffix length)).2 = none := by
        rw [LpmTrie.find_of_none fun shorter le => by rw [take_msbBits]; exact nothing _ (Nat.min_le_right _ _)]
      rw [lpmSearch, if_pos atEnd, none]
      exact ⟨probe, sameSuffix, rfl⟩
    · have small : nextBit < 2 ^ 32 := by omega
      have lengthNat : (prefixLength probe).toNat = nextBit := by
        rw [stored, Nat.toUInt32_eq, UInt32.toNat_ofNat_of_lt' small]
      have notEnd : prefixLength probe ≠ maxUInt32 := fun atEnd => by
        have := congrArg UInt32.toNat atEnd
        rw [lengthNat] at this
        simp [maxUInt32] at this
        omega
      have probed := holds.findHashMapEntry_eq probe keep environment
      rw [lengthNat, sameSuffix] at probed
      rw [lpmSearch, if_neg notEnd, probed]
      cases found : trie.lookup (msbBits suffix nextBit) with
      | some value =>
        -- the first hit is the longest stored prefix
        have hit : (msbBits suffix length).take nextBit ∈ trie := by
          rw [take_msbBits, Nat.min_eq_left le]
          exact Finmap.mem_iff.mpr ⟨value, found⟩
        have longest : ∀ longer, nextBit < longer → longer ≤ (msbBits suffix length).length →
            (msbBits suffix length).take longer ∉ trie := fun longer above below => by
          rw [length_msbBits] at below
          rw [take_msbBits, Nat.min_eq_left below]
          exact absent longer above below
        rw [LpmTrie.find_of_longest (by simpa using le) hit longest, take_msbBits, Nat.min_eq_left le, found]
        exact ⟨probe, sameSuffix, rfl⟩
      | none =>
        have missed : msbBits suffix nextBit ∉ trie := Finmap.lookup_eq_none.mp found
        obtain ⟨next, lower⟩ := searchState_nextBit covered (show nextBit ≤ length + 1 by omega) pending
          fun longer above below => by
            rcases Nat.eq_or_lt_of_le above with same | later
            · rw [← same]
              exact missed
            · exact absent longer later below
        dsimp only
        generalize ebpfBitmapReverseSearchNextBit bitmap cursor = following at next lower
        obtain ⟨nextBit', cursor'⟩ := following
        dsimp only at next lower ⊢
        have roundsLeft := enough le
        refine lpmSearch_eq holds covered keep environment short fuel cursor' _ nextBit'
          (by rw [drop_setPrefixLength, sameSuffix]) (prefixLength_setPrefixLength _ _) next (by omega)
          fun nextLe => ?_
        rcases lower with ended | under
        · rw [ended] at nextLe
          exact absurd nextLe (by unfold maxSizeT; omega)
        · omega

end Search

/-! ## The map -/

theorem covered_insert {bitmap : EbpfBitmap} {trie : LpmTrie}
    (covered : ∀ bits ∈ trie, bitmap.ebpfBitmapTestBit bits.length = true) {bits : List Bool}
    (set : bitmap.ebpfBitmapTestBit bits.length = true) (value : List UInt8) :
    ∀ other ∈ trie.insert bits value, bitmap.ebpfBitmapTestBit other.length = true := by
  intro other member
  rcases Finmap.mem_insert.mp member with same | old
  · rw [same]
    exact set
  · exact covered other old


/-- An LPM map holds a trie: its table holds it, prefixes of up to `max_prefix` bits lie
within `key_size` bytes and below `MAXUINT32`, and the bitmap, clear past `bit_count`
and with a block for every bit up to `max_prefix`, has the bit of the length of every
stored prefix. -/
structure LpmRepresents (map : EbpfCoreLpmMap) (trie : LpmTrie) : Prop where
  table : TableHolds map.table trie
  stores : map.maxPrefix.toNat + 4 * 8 ≤ 8 * map.table.keySize.toNat
  belowMax : map.maxPrefix.toNat < 2 ^ 32 - 1
  highClear : map.bitmap.HighClear
  bitCount : map.maxPrefix.toNat < map.bitmap.bitCount
  blocks : map.bitmap.bitCount ≤ 64 * map.bitmap.data.length
  covered : ∀ bits ∈ trie, map.bitmap.ebpfBitmapTestBit bits.length = true

namespace LpmRepresents

variable {map : EbpfCoreLpmMap} {trie : LpmTrie}

theorem findLpmMapEntry_eq (represents : LpmRepresents map trie) {key : List UInt8} {flags : Nat}
    (keep : flags &&& ebpfMapFindFlagDelete = 0) (within : prefixLength key ≤ map.maxPrefix)
    (environment : HashTableEnvironment) :
    ∃ last, last.drop 4 = key.drop 4 ∧
      findLpmMapEntry map (some key) flags environment =
        (((trie.find (keyBits key (prefixLength key))).1, (trie.find (keyBits key (prefixLength key))).2,
          some (setPrefixLength last (prefixLength key))), map) := by
  have withinNat : (prefixLength key).toNat ≤ map.maxPrefix.toNat := UInt32.le_iff_toNat_le.mp within
  have positive : 0 < map.bitmap.bitCount := by
    have := represents.bitCount
    omega
  have absentAbove : ∀ longer, (prefixLength key).toNat + 1 ≤ longer → longer ≤ (prefixLength key).toNat →
      msbBits (key.drop 4) longer ∉ trie := fun longer above below => absurd below (by omega)
  obtain ⟨start, -⟩ := searchState_nextBit represents.covered (le_refl _)
    (fun index => (startReverseSearchAt_pending map.bitmap represents.highClear positive _ index).trans
      (by rw [Nat.lt_succ_iff])) absentAbove
  have notDelete : ¬ (flags &&& ebpfMapFindFlagDelete ≠ 0) := not_not.mpr keep
  have notLong : ¬ (prefixLength key > map.maxPrefix) := fun longer => absurd within (UInt32.not_le.mpr longer)
  simp only [findLpmMapEntry, notDelete, notLong, if_false]
  generalize ebpfBitmapReverseSearchNextBit map.bitmap
    (ebpfBitmapStartReverseSearchAt map.bitmap (prefixLength key).toNat) = first at start ⊢
  obtain ⟨firstBit, firstCursor⟩ := first
  have belowMax := represents.belowMax
  obtain ⟨last, lastSuffix, search⟩ := lpmSearch_eq represents.table represents.covered
    (flags_and_not_delete flags) environment (show (prefixLength key).toNat < 2 ^ 32 - 1 by omega)
    ((prefixLength key).toNat + 2) firstCursor _ firstBit (drop_setPrefixLength key _)
    (prefixLength_setPrefixLength key _) start (by omega) fun _ => by omega
  refine ⟨last, lastSuffix, ?_⟩
  dsimp only
  rw [search]
  dsimp only
  have shape := @LpmTrie.find_eq_match trie (keyBits key (prefixLength key))
  rw [keyBits] at shape ⊢
  generalize trie.find (msbBits (key.drop 4) (prefixLength key).toNat) = found at shape ⊢
  obtain ⟨result, _ | value⟩ := found
  · rw [show result = .keyNotFound from (Prod.mk.inj shape).1]
  · rw [show result = .success from (Prod.mk.inj shape).1]

theorem withTable (represents : LpmRepresents map trie) {table : EbpfHashTable} {next : LpmTrie}
    (holds : TableHolds table next) (sameKeySize : table.keySize = map.table.keySize)
    (covered : ∀ bits ∈ next, map.bitmap.ebpfBitmapTestBit bits.length = true) :
    LpmRepresents { map with table } next where
  table := holds
  stores := sameKeySize ▸ represents.stores
  belowMax := represents.belowMax
  highClear := represents.highClear
  bitCount := represents.bitCount
  blocks := represents.blocks
  covered := covered

theorem setBit (represents : LpmRepresents map trie) {length : Nat} (within : length ≤ map.maxPrefix.toNat) :
    LpmRepresents { map with bitmap := (map.bitmap.ebpfBitmapSetBit length).2 } trie := by
  have below : length < map.bitmap.bitCount := Nat.lt_of_le_of_lt within represents.bitCount
  have exists' : length / 64 < map.bitmap.data.length := by
    have := represents.blocks
    omega
  exact {
    table := represents.table
    stores := represents.stores
    belowMax := represents.belowMax
    highClear := represents.highClear.setBit below exists'
    bitCount := represents.bitCount
    blocks := by
      rw [EbpfBitmap.length_setBit]
      exact represents.blocks
    covered := fun bits member => by
      rw [EbpfBitmap.testBit_setBit exists', represents.covered bits member, Bool.true_or] }

theorem testBit_setBit_self (represents : LpmRepresents map trie) {length : Nat}
    (within : length ≤ map.maxPrefix.toNat) : (map.bitmap.ebpfBitmapSetBit length).2.ebpfBitmapTestBit length = true := by
  have exists' : length / 64 < map.bitmap.data.length := by
    have := represents.bitCount
    have := represents.blocks
    omega
  rw [EbpfBitmap.testBit_setBit exists']
  simp

theorem updateLpmMapEntry_step (represents : LpmRepresents map trie) {key : List UInt8}
    (within : ¬ prefixLength key > map.maxPrefix) {option : Nat} {operation : EbpfHashTableOperations}
    (operationOf : tableOperation option = some operation) (data : Option (List UInt8))
    (environment : HashTableEnvironment) :
    ∃ next, (((updateLpmMapEntry map (some key) data option environment).1, next) =
          trie.update (keyBits key (prefixLength key)) (newData map.table data) operation ∨
        environment.Failure (updateLpmMapEntry map (some key) data option environment).1 ∧ next = trie ∨
        (updateLpmMapEntry map (some key) data option environment).1 = .arithmeticOverflow ∧
          ¬ LayoutFits map.table.keySize trie.keys.card ∧ keyBits key (prefixLength key) ∉ trie ∧ next = trie) ∧
      LpmRepresents (updateLpmMapEntry map (some key) data option environment).2 next ∧
      (updateLpmMapEntry map (some key) data option environment).2.maxPrefix = map.maxPrefix ∧
      (updateLpmMapEntry map (some key) data option environment).2.table.keySize = map.table.keySize ∧
      newData (updateLpmMapEntry map (some key) data option environment).2.table = newData map.table := by
  have withinNat : (prefixLength key).toNat ≤ map.maxPrefix.toNat :=
    UInt32.le_iff_toNat_le.mp (UInt32.not_lt.mp within)
  have stored : map.table.StoresKey key :=
    storesKey_of_prefixLength_le represents.table.extract (by have := represents.stores; omega)
  obtain ⟨next, outcome, holds⟩ := represents.table.update stored data operation environment
  obtain ⟨entryCount, buckets, shape⟩ : ∃ entryCount buckets,
      (ebpfHashTableUpdate map.table key data operation environment).2 = { map.table with entryCount, buckets } :=
    ebpfHashTableReplaceBucket_withBuckets map.table key data _ environment
  have grown : next = trie ∨ (ebpfHashTableUpdate map.table key data operation environment).1 = .success ∧
      next = trie.insert (keyBits key (prefixLength key)) (newData map.table data) := by
    rcases outcome with specified | ⟨-, rfl⟩ | ⟨-, -, -, rfl⟩
    · by_cases success : (ebpfHashTableUpdate map.table key data operation environment).1 = .success
      · exact Or.inr ⟨success, LpmTrie.update_of_success _ (success ▸ specified.symm)⟩
      · exact Or.inl (LpmTrie.update_of_ne_success _ specified.symm success)
    · exact Or.inl rfl
    · exact Or.inl rfl
  have sameKeySize : (ebpfHashTableUpdate map.table key data operation environment).2.keySize = map.table.keySize := by
    rw [shape]
  have sameData : newData (ebpfHashTableUpdate map.table key data operation environment).2 = newData map.table := by
    rw [shape, newData_withBuckets]
  have bitsLength : (keyBits key (prefixLength key)).length = (prefixLength key).toNat := length_msbBits _ _
  simp only [updateLpmMapEntry, if_neg within, updateHashMapEntry_eq, operationOf]
  generalize ebpfHashTableUpdate map.table key data operation environment = updated
    at outcome holds grown sameKeySize sameData ⊢
  obtain ⟨result, table⟩ := updated
  dsimp only at outcome holds grown sameKeySize sameData ⊢
  by_cases setting : result = .success ∧ !map.bitmap.ebpfBitmapTestBit (prefixLength key).toNat
  · rw [if_pos setting]
    have setRepresents := represents.setBit withinNat
    refine ⟨next, outcome, setRepresents.withTable holds sameKeySize ?_, rfl, sameKeySize, sameData⟩
    rcases grown with rfl | ⟨-, rfl⟩
    · exact setRepresents.covered
    · have set : (map.bitmap.ebpfBitmapSetBit (prefixLength key).toNat).2.ebpfBitmapTestBit
          (keyBits key (prefixLength key)).length = true := by
        rw [bitsLength]
        exact represents.testBit_setBit_self withinNat
      exact covered_insert setRepresents.covered set _
  · rw [if_neg setting]
    refine ⟨next, outcome, represents.withTable holds sameKeySize ?_, rfl, sameKeySize, sameData⟩
    rcases grown with rfl | ⟨success, rfl⟩
    · exact represents.covered
    · have set : map.bitmap.ebpfBitmapTestBit (keyBits key (prefixLength key)).length = true := by
        rw [bitsLength]
        simpa [success] using setting
      exact covered_insert represents.covered set _

theorem deleteLpmMapEntry_step (represents : LpmRepresents map trie) {key : List UInt8}
    (within : ¬ prefixLength key > map.maxPrefix) (environment : HashTableEnvironment) :
    ∃ next, (((deleteLpmMapEntry map key environment).1, next) = trie.delete (keyBits key (prefixLength key)) ∨
        environment.Failure (deleteLpmMapEntry map key environment).1 ∧ next = trie) ∧
      LpmRepresents (deleteLpmMapEntry map key environment).2 next ∧
      (deleteLpmMapEntry map key environment).2.maxPrefix = map.maxPrefix ∧
      (deleteLpmMapEntry map key environment).2.table.keySize = map.table.keySize ∧
      newData (deleteLpmMapEntry map key environment).2.table = newData map.table := by
  obtain ⟨next, outcome, holds⟩ := represents.table.delete key environment
  obtain ⟨entryCount, buckets, shape⟩ : ∃ entryCount buckets,
      (ebpfHashTableDelete map.table key environment).2 = { map.table with entryCount, buckets } :=
    ebpfHashTableReplaceBucket_withBuckets map.table key none .delete environment
  have covered : ∀ bits ∈ next, map.bitmap.ebpfBitmapTestBit bits.length = true := by
    rcases outcome with specified | ⟨-, rfl⟩
    · intro bits member
      have deleted : next = (trie.delete (keyBits key (prefixLength key))).2 := congrArg Prod.snd specified
      rw [deleted] at member
      exact represents.covered bits (LpmTrie.mem_of_mem_delete member)
    · exact represents.covered
  have sameKeySize : (ebpfHashTableDelete map.table key environment).2.keySize = map.table.keySize := by
    rw [shape]
  have sameData : newData (ebpfHashTableDelete map.table key environment).2 = newData map.table := by
    rw [shape, newData_withBuckets]
  have deleted : deleteLpmMapEntry map key environment = ((ebpfHashTableDelete map.table key environment).1,
      { map with table := (ebpfHashTableDelete map.table key environment).2 }) := by
    simp only [deleteLpmMapEntry, if_neg within, deleteHashMapEntry]
  rw [deleted]
  exact ⟨next, outcome, represents.withTable holds sameKeySize covered, rfl, sameKeySize, sameData⟩

theorem findLpmMapEntry_step (represents : LpmRepresents map trie) (key : List UInt8) (flags : Nat)
    (environment : HashTableEnvironment) :
    LpmStep map.maxPrefix map.table.keySize (newData map.table) trie (.find (some key) flags environment)
        (findLpmMapEntry map (some key) flags environment).1 trie ∧
      (findLpmMapEntry map (some key) flags environment).2 = map := by
  by_cases refused : flags &&& ebpfMapFindFlagDelete ≠ 0 ∨ prefixLength key > map.maxPrefix
  · have invalid : findLpmMapEntry map (some key) flags environment = ((.invalidArgument, none, some key), map) := by
      by_cases deleting : flags &&& ebpfMapFindFlagDelete ≠ 0
      · simp only [findLpmMapEntry, if_pos deleting]
      · simp only [findLpmMapEntry, if_neg deleting, if_pos (refused.resolve_left deleting)]
    rw [invalid]
    refine ⟨⟨rfl, ?_⟩, rfl⟩
    rw [if_pos refused]
  · have keep : flags &&& ebpfMapFindFlagDelete = 0 := not_not.mp fun deleting => refused (Or.inl deleting)
    have within : prefixLength key ≤ map.maxPrefix := UInt32.not_lt.mp fun long => refused (Or.inr long)
    obtain ⟨last, lastSuffix, found⟩ := represents.findLpmMapEntry_eq keep within environment
    rw [found]
    refine ⟨⟨rfl, ?_⟩, rfl⟩
    rw [if_neg refused]
    refine ⟨rfl, fun long => ?_⟩
    rw [setPrefixLength_congr lastSuffix, setPrefixLength_prefixLength long]

theorem apply_step (represents : LpmRepresents map trie) (operation : LpmOperation) :
    ∃ next, LpmStep map.maxPrefix map.table.keySize (newData map.table) trie operation (operation.apply map).1 next ∧
      LpmRepresents (operation.apply map).2 next ∧ (operation.apply map).2.maxPrefix = map.maxPrefix ∧
      (operation.apply map).2.table.keySize = map.table.keySize ∧
      newData (operation.apply map).2.table = newData map.table := by
  cases operation with
  | update key data option environment =>
    simp only [LpmOperation.apply_update]
    cases key with
    | none => exact ⟨trie, ⟨rfl, rfl⟩, represents, rfl, rfl, rfl⟩
    | some key =>
      by_cases long : prefixLength key > map.maxPrefix
      · have refused : updateLpmMapEntry map (some key) data option environment = (.invalidArgument, map) := by
          simp only [updateLpmMapEntry, if_pos long]
        rw [refused]
        refine ⟨trie, ⟨rfl, ?_⟩, represents, rfl, rfl, rfl⟩
        rw [if_pos long]
        exact ⟨rfl, rfl⟩
      · cases operationOf : tableOperation option with
        | none =>
          have refused : updateLpmMapEntry map (some key) data option environment = (.invalidArgument, map) := by
            simp [updateLpmMapEntry, long, updateHashMapEntry_eq, operationOf]
          rw [refused]
          refine ⟨trie, ⟨rfl, ?_⟩, represents, rfl, rfl, rfl⟩
          rw [if_neg long, operationOf]
          exact ⟨rfl, rfl⟩
        | some operation =>
          obtain ⟨next, outcome, nextRepresents, sameMax, sameKeySize, sameData⟩ :=
            represents.updateLpmMapEntry_step long operationOf data environment
          refine ⟨next, ⟨rfl, ?_⟩, nextRepresents, sameMax, sameKeySize, sameData⟩
          rw [if_neg long, operationOf]
          exact outcome
  | delete key environment =>
    simp only [LpmOperation.apply_delete]
    by_cases long : prefixLength key > map.maxPrefix
    · have refused : deleteLpmMapEntry map key environment = (.invalidArgument, map) := by
        simp only [deleteLpmMapEntry, if_pos long]
      rw [refused]
      refine ⟨trie, ⟨rfl, ?_⟩, represents, rfl, rfl, rfl⟩
      rw [if_pos long]
      exact ⟨rfl, rfl⟩
    · obtain ⟨next, outcome, nextRepresents, sameMax, sameKeySize, sameData⟩ :=
        represents.deleteLpmMapEntry_step long environment
      refine ⟨next, ⟨rfl, ?_⟩, nextRepresents, sameMax, sameKeySize, sameData⟩
      rw [if_neg long]
      exact outcome
  | find key flags environment =>
    rw [LpmOperation.apply_find]
    cases key with
    | none => exact ⟨trie, ⟨rfl, rfl⟩, represents, rfl, rfl, rfl⟩
    | some key =>
      obtain ⟨step, same⟩ := represents.findLpmMapEntry_step key flags environment
      rw [same]
      exact ⟨trie, step, represents, rfl, rfl, rfl⟩

theorem run_represents (represents : LpmRepresents map trie) (operations : List LpmOperation) :
    ∃ final, Simulation.Run (LpmStep map.maxPrefix map.table.keySize (newData map.table)) trie operations
        (Simulation.run LpmOperation.apply map operations).1 final ∧
      LpmRepresents (Simulation.run LpmOperation.apply map operations).2 final := by
  -- the maps along the run keep the first one's `max_prefix`, key size and stored values
  obtain ⟨final, run, -, -, -, finalRepresents⟩ := Simulation.run_simulates (fun _ => True)
    (fun _ (state : EbpfCoreLpmMap) (abstract : LpmTrie) =>
      state.maxPrefix = map.maxPrefix ∧ state.table.keySize = map.table.keySize ∧
        newData state.table = newData map.table ∧ LpmRepresents state abstract)
    (fun _ state abstract operation _ ⟨sameMax, sameKeySize, sameData, represents⟩ => by
      obtain ⟨next, step, nextRepresents, nextMax, nextKeySize, nextData⟩ := represents.apply_step operation
      rw [sameMax, sameKeySize, sameData] at step
      exact ⟨next, step, nextMax.trans sameMax, nextKeySize.trans sameKeySize, nextData.trans sameData,
        nextRepresents⟩)
    operations map trie (fun _ _ => trivial) ⟨rfl, rfl, rfl, represents⟩
  exact ⟨final, run, finalRepresents⟩

end LpmRepresents

/-! ## Creation -/

section Creation

variable {definition : EbpfMapDefinitionInMemory} {mapAllocated tableAllocated : Bool} {seed : UInt32}
  {supportsSse42 : Bool}

theorem createHashMapInternal_eq_ok {valueSize : UInt64} {fixedSizeMap : Bool}
    {extractFunction : Option EbpfHashTableExtractFunction} {notificationCallback : Bool} {notificationFlags : UInt32}
    {table : EbpfHashTable}
    (created : createHashMapInternal definition valueSize fixedSizeMap extractFunction notificationCallback
      notificationFlags mapAllocated tableAllocated seed supportsSse42 = .ok table) :
    ebpfHashTableCreate
      { keySize := definition.keySize.toUInt64,
        valueSize := (if valueSize ≠ 0 then valueSize else definition.valueSize.toUInt64), extractFunction,
        minimumBucketCount := definition.maxEntries.toUInt64,
        maxEntries := (if fixedSizeMap then definition.maxEntries.toUInt64 else ebpfHashTableNoLimit),
        notificationCallback, notificationFlags } tableAllocated seed supportsSse42 = .ok table := by
  unfold createHashMapInternal at created
  cases mapAllocated
  · cases created
  · exact created

theorem createLpmMap_eq_ok {innerMapHandleValid : Bool} {map : EbpfCoreLpmMap}
    (created : createLpmMap definition innerMapHandleValid mapAllocated tableAllocated seed supportsSse42 = .ok map) :
    4 ≤ definition.keySize.toNat ∧
      createHashMapInternal definition 0 false (some lpmExtract) false 0 mapAllocated tableAllocated seed
        supportsSse42 = .ok map.table ∧
      map.maxPrefix.toNat = (definition.keySize.toNat - 4) * 8 % 2 ^ 32 ∧
      map.bitmap = EbpfBitmap.mk ((definition.keySize.toNat - 4) * 8 + 1)
        (List.replicate (((definition.keySize.toNat - 4) * 8 + 1 + 63) / 64) 0) := by
  unfold createLpmMap at created
  cases innerMapHandleValid
  · by_cases short : definition.keySize < 4
    · simp [short, throw, throwThe, MonadExceptOf.throw, bind, Except.bind] at created
    · have long : 4 ≤ definition.keySize.toNat := by
        rw [UInt32.lt_iff_toNat_lt] at short
        simpa using short
      have sizeBelow := definition.keySize.toNat_lt
      have suffixFits : (4 : UInt64) ≤ definition.keySize.toUInt64 := by
        rw [UInt64.le_iff_toNat_le]
        simpa using long
      have suffixNat : (definition.keySize.toUInt64 - 4).toNat = definition.keySize.toNat - 4 := by
        rw [UInt64.toNat_sub_of_le _ _ suffixFits]
        simp
      have productFits : (definition.keySize.toUInt64 - 4).toNat * (8 : UInt64).toNat < 2 ^ 64 := by
        rw [suffixNat]
        simp
        omega
      have productNat : ((definition.keySize.toUInt64 - 4) * 8).toNat = (definition.keySize.toNat - 4) * 8 := by
        rw [ebpfSafeSizeTMultiply_toNat productFits, suffixNat]
        rfl
      have countFits : ((definition.keySize.toUInt64 - 4) * 8).toNat + (1 : UInt64).toNat < 2 ^ 64 := by
        rw [productNat]
        simp
        omega
      have countNat : ((definition.keySize.toUInt64 - 4) * 8 + 1).toNat = (definition.keySize.toNat - 4) * 8 + 1 := by
        rw [ebpfSafeSizeTAdd_toNat countFits, productNat]
        rfl
      have small : ((definition.keySize.toUInt64 - 4) * 8 + 1).toNat + 63 < 2 ^ 63 := by
        rw [countNat]
        omega
      have sizeNat := ebpfBitmapSize_toNat small
      have notMax : ebpfBitmapSize ((definition.keySize.toUInt64 - 4) * 8 + 1) ≠ maxSizeT.toUInt64 := fun same => by
        rw [same] at sizeNat
        simp [maxSizeT] at sizeNat
        omega
      simp only [short, if_false, Bool.false_eq_true, ebpfSafeSizeTSubtract_eq_ok suffixFits,
        ebpfSafeSizeTMultiply_eq_ok productFits, ebpfSafeSizeTAdd_eq_ok countFits, bind, Except.bind, pure,
        Except.pure] at created
      rw [if_neg notMax, ebpfBitmapInitialize_eq_ok small, countNat] at created
      cases table : createHashMapInternal definition 0 false (some lpmExtract) false 0 mapAllocated tableAllocated
        seed supportsSse42 with
      | error => simp [table] at created
      | ok table =>
        simp only [table, Except.ok.injEq] at created
        subst created
        refine ⟨long, rfl, ?_, rfl⟩
        rw [UInt64.toNat_toUInt32, productNat]
  · simp [throw, throwThe, MonadExceptOf.throw, bind, Except.bind] at created

theorem createLpmMap_represents {innerMapHandleValid : Bool} {map : EbpfCoreLpmMap}
    (created : createLpmMap definition innerMapHandleValid mapAllocated tableAllocated seed supportsSse42 = .ok map) :
    LpmRepresents map ∅ := by
  obtain ⟨long, tableCreated, maxPrefixNat, bitmap⟩ := createLpmMap_eq_ok created
  obtain ⟨empty, zero, keySize, extract, limit⟩ := ebpfHashTableCreate_eq_ok (createHashMapInternal_eq_ok tableCreated)
  have keySizeNat : map.table.keySize.toNat = definition.keySize.toNat := by
    rw [keySize]
    rfl
  have sizeBelow := definition.keySize.toNat_lt
  have fits : map.table.BucketsFit := fun index => by simp [BucketFits, empty index]
  exact {
    table := ⟨extract, by simp [EbpfHashTable.counting, limit], ∅, Runtime.Represents.empty empty zero, fits,
      Corresponds.empty⟩
    stores := by omega
    belowMax := by omega
    highClear := fun index _ => by
      rw [bitmap]
      exact EbpfBitmap.testBit_replicate _ _ index
    bitCount := by
      rw [bitmap]
      dsimp only
      omega
    blocks := by
      rw [bitmap]
      dsimp only
      rw [List.length_replicate]
      omega
    covered := fun bits member => absurd member (Finmap.notMem_empty) }

end Creation

theorem lpm_lookup_is_longest_prefix_match {definition : EbpfMapDefinitionInMemory} {innerMapHandleValid : Bool}
    {mapAllocated tableAllocated : Bool} {seed : UInt32} {supportsSse42 : Bool} {map : EbpfCoreLpmMap}
    (created : createLpmMap definition innerMapHandleValid mapAllocated tableAllocated seed supportsSse42 = .ok map)
    (operations : List LpmOperation) :
    ∃ final, Simulation.Run (LpmStep map.maxPrefix map.table.keySize (newData map.table)) ∅ operations
        (Simulation.run LpmOperation.apply map operations).1 final ∧
      LpmRepresents (Simulation.run LpmOperation.apply map operations).2 final :=
  (createLpmMap_represents created).run_represents operations

theorem lpm_lookup_is_longest_prefix_match_on_a_route :
    ∃ map, createLpmMap ⟨8, 4, 16⟩ false true true 0 false = .ok map ∧
      ∃ final, Simulation.Run (LpmStep map.maxPrefix map.table.keySize (newData map.table)) ∅
          [.update (some [24, 0, 0, 0, 10, 1, 2, 0]) (some [7, 0, 0, 0]) ebpfAny ⟨true, .success, true, some 4096, .success⟩,
            .find (some [32, 0, 0, 0, 10, 1, 2, 3]) 0 ⟨true, .success, true, some 4096, .success⟩]
          (Simulation.run LpmOperation.apply map
            [.update (some [24, 0, 0, 0, 10, 1, 2, 0]) (some [7, 0, 0, 0]) ebpfAny ⟨true, .success, true, some 4096, .success⟩,
              .find (some [32, 0, 0, 0, 10, 1, 2, 3]) 0 ⟨true, .success, true, some 4096, .success⟩]).1 final ∧
        LpmRepresents (Simulation.run LpmOperation.apply map
          [.update (some [24, 0, 0, 0, 10, 1, 2, 0]) (some [7, 0, 0, 0]) ebpfAny ⟨true, .success, true, some 4096, .success⟩,
            .find (some [32, 0, 0, 0, 10, 1, 2, 3]) 0 ⟨true, .success, true, some 4096, .success⟩]).2 final :=
  ⟨_, rfl, @lpm_lookup_is_longest_prefix_match ⟨8, 4, 16⟩ false true true 0 false _ rfl _⟩

end EbpfWindows.ExecutionContext
