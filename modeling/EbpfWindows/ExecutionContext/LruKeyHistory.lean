import EbpfWindows.ExecutionContext.LruMap
import EbpfWindows.Lib.Except

/-! The key history of an LRU map over every run (`ebpf_maps.c`).

An entry's generation in a partition says where its link of that partition is: on the hot
list when it is the partition's current generation, on the cold list when it is an older
valid one, and on no list when it is zero (never used there, or reaped) or
`EBPF_LRU_INVALID_GENERATION` (being freed). `PartitionHistory` is that agreement for one
partition, with the count the hot list size keeps; `KeyHistory` asks it of every partition
of a map. Each key history operation keeps it: linking an entry to the hot list, merging
the hot list into the cold list, unlinking an entry, allocating and freeing one.

A merge increments the current generation without a check, and only the generations 1 to
2^64 - 2 are valid. The invariant is therefore carried with a budget of merges left
(`Headroom`): a run from a map just created keeps it while fewer than 2^64 - 2 hot lists
have been merged in any partition, and `lru_generation_wraps_and_strands_a_freed_entry`
runs a map past that bound.
-/

set_option autoImplicit false

namespace EbpfWindows.ExecutionContext

open EbpfWindows.Runtime

/-- The generations once entry `id`'s are `generation`. -/
def setGenerations (generations : List (Nat × List UInt64)) (id : Nat) (generation : List UInt64) :
    List (Nat × List UInt64) :=
  generations.map fun live => (live.1, if live.1 = id then generation else live.2)

/-- Partition `p`'s lists and hot list size agree with the generations the entries hold
for it. -/
structure PartitionHistory (part : EbpfLruPartition) (p : Nat) (generations : List (Nat × List UInt64)) :
    Prop where
  hot_nodup : part.hotList.Nodup
  cold_nodup : part.coldList.Nodup
  listed : ∀ id ∈ part.hotList ++ part.coldList, id ∈ generations.map (·.1)
  hotListSize_eq : part.hotListSize.toNat = part.hotList.length
  current_ne_zero : part.currentGeneration ≠ 0
  current_ne_invalid : part.currentGeneration ≠ ebpfLruInvalidGeneration
  hot_iff : ∀ live ∈ generations, live.1 ∈ part.hotList ↔ live.2.getD p 0 = part.currentGeneration
  cold_iff : ∀ live ∈ generations, live.1 ∈ part.coldList ↔
    live.2.getD p 0 ≠ 0 ∧ live.2.getD p 0 ≠ ebpfLruInvalidGeneration ∧ live.2.getD p 0 ≠ part.currentGeneration
  generation_le : ∀ live ∈ generations, live.2.getD p 0 ≠ ebpfLruInvalidGeneration →
    live.2.getD p 0 ≤ part.currentGeneration

theorem toNat_ebpfLruInvalidGeneration : ebpfLruInvalidGeneration.toNat = 2 ^ 64 - 1 := rfl

theorem ids_setGenerations (generations : List (Nat × List UInt64)) (id : Nat) (generation : List UInt64) :
    (setGenerations generations id generation).map (·.1) = generations.map (·.1) := by
  simp only [setGenerations, List.map_map]
  rfl

theorem mem_setGenerations {generations : List (Nat × List UInt64)} {id : Nat} {generation : List UInt64}
    {live : Nat × List UInt64} (member : live ∈ generations) :
    (live.1, if live.1 = id then generation else live.2) ∈ setGenerations generations id generation :=
  List.mem_map_of_mem member

theorem eq_of_mem_of_nodup {generations : List (Nat × List UInt64)} (nodup : (generations.map (·.1)).Nodup)
    {first second : Nat × List UInt64} (firstMember : first ∈ generations) (secondMember : second ∈ generations)
    (same : first.1 = second.1) : first = second :=
  List.inj_on_of_nodup_map nodup firstMember secondMember same

theorem setGenerations_of_mem {generations : List (Nat × List UInt64)} {id : Nat} {generation : List UInt64}
    (nodup : (generations.map (·.1)).Nodup) (member : (id, generation) ∈ generations) :
    setGenerations generations id generation = generations := by
  conv_rhs => rw [← List.map_id generations]
  apply List.map_congr_left
  intro live liveMember
  by_cases named : live.1 = id
  · have same := eq_of_mem_of_nodup nodup liveMember member named
    rw [if_pos named, same]
    rfl
  · rw [if_neg named]
    rfl

namespace PartitionHistory

variable {part : EbpfLruPartition} {p : Nat} {generations : List (Nat × List UInt64)}

theorem not_mem_hotList (history : PartitionHistory part p generations) {live : Nat × List UInt64}
    (member : live ∈ generations) (away : live.2.getD p 0 ≠ part.currentGeneration) : live.1 ∉ part.hotList :=
  fun hot => away ((history.hot_iff live member).mp hot)

theorem not_mem_coldList (history : PartitionHistory part p generations) {live : Nat × List UInt64}
    (member : live ∈ generations) (unused : live.2.getD p 0 = 0 ∨ live.2.getD p 0 = ebpfLruInvalidGeneration) :
    live.1 ∉ part.coldList := by
  intro cold
  obtain ⟨notZero, notInvalid, _⟩ := (history.cold_iff live member).mp cold
  rcases unused with zero | invalid
  · exact notZero zero
  · exact notInvalid invalid

theorem exists_of_listed (history : PartitionHistory part p generations) {id : Nat}
    (listed : id ∈ part.hotList ++ part.coldList) : ∃ live ∈ generations, live.1 = id := by
  obtain ⟨live, member, named⟩ := List.mem_map.mp (history.listed id listed)
  exact ⟨live, member, named⟩

theorem map (history : PartitionHistory part p generations) (f : Nat × List UInt64 → Nat × List UInt64)
    (name : ∀ live ∈ generations, (f live).1 = live.1)
    (reading : ∀ live ∈ generations, (f live).2.getD p 0 = live.2.getD p 0) :
    PartitionHistory part p (generations.map f) := by
  have ids : (generations.map f).map (·.1) = generations.map (·.1) := by
    rw [List.map_map]
    exact List.map_congr_left name
  refine ⟨history.hot_nodup, history.cold_nodup, ?_, history.hotListSize_eq, history.current_ne_zero,
    history.current_ne_invalid, ?_, ?_, ?_⟩
  · rw [ids]
    exact history.listed
  · rw [List.forall_mem_map]
    intro live member
    rw [name live member, reading live member]
    exact history.hot_iff live member
  · rw [List.forall_mem_map]
    intro live member
    rw [name live member, reading live member]
    exact history.cold_iff live member
  · rw [List.forall_mem_map]
    intro live member
    rw [reading live member]
    exact history.generation_le live member

theorem setGenerations_of_getD (history : PartitionHistory part p generations) {id : Nat}
    {generation : List UInt64} (same : ∀ live ∈ generations, live.1 = id → generation.getD p 0 = live.2.getD p 0) :
    PartitionHistory part p (setGenerations generations id generation) := by
  apply history.map
  · intro live _
    rfl
  · intro live member
    by_cases named : live.1 = id
    · simp only [if_pos named]
      exact same live member named
    · simp only [if_neg named]

theorem cons (history : PartitionHistory part p generations) {id : Nat} {generation : List UInt64}
    (fresh : id ∉ generations.map (·.1)) (unused : generation.getD p 0 = 0) :
    PartitionHistory part p ((id, generation) :: generations) := by
  have unlisted : id ∉ part.hotList ++ part.coldList := fun listed => fresh (history.listed id listed)
  refine ⟨history.hot_nodup, history.cold_nodup, ?_, history.hotListSize_eq, history.current_ne_zero,
    history.current_ne_invalid, ?_, ?_, ?_⟩
  · intro other listed
    exact List.mem_cons_of_mem _ (history.listed other listed)
  · rintro live (_ | ⟨_, member⟩)
    · simp only [unused]
      exact iff_of_false (fun hot => unlisted (List.mem_append_left _ hot)) (Ne.symm history.current_ne_zero)
    · exact history.hot_iff live member
  · rintro live (_ | ⟨_, member⟩)
    · simp only [unused]
      exact iff_of_false (fun cold => unlisted (List.mem_append_right _ cold)) (fun ⟨notZero, _⟩ => notZero rfl)
    · exact history.cold_iff live member
  · rintro live (_ | ⟨_, member⟩)
    · simp only [unused]
      exact fun _ => UInt64.zero_le
    · exact history.generation_le live member

theorem filter (history : PartitionHistory part p generations) {id : Nat} (hot : id ∉ part.hotList)
    (cold : id ∉ part.coldList) : PartitionHistory part p (generations.filter (·.1 ≠ id)) := by
  refine ⟨history.hot_nodup, history.cold_nodup, ?_, history.hotListSize_eq, history.current_ne_zero,
    history.current_ne_invalid, ?_, ?_, ?_⟩
  · intro other listed
    obtain ⟨live, member, named⟩ := history.exists_of_listed listed
    have different : other ≠ id := by
      rintro rfl
      rcases List.mem_append.mp listed with onHot | onCold
      · exact hot onHot
      · exact cold onCold
    exact List.mem_map.mpr ⟨live, List.mem_filter.mpr ⟨member, by simpa [named] using different⟩, named⟩
  · intro live member
    exact history.hot_iff live (List.mem_filter.mp member).1
  · intro live member
    exact history.cold_iff live (List.mem_filter.mp member).1
  · intro live member
    exact history.generation_le live (List.mem_filter.mp member).1

theorem link (history : PartitionHistory part p generations) {id : Nat} {generation : List UInt64}
    (live : id ∈ generations.map (·.1))
    (away : ∀ live ∈ generations, live.1 = id → live.2.getD p 0 ≠ part.currentGeneration)
    (linked : generation.getD p 0 = part.currentGeneration) (fits : part.hotListSize.toNat + 1 < 2 ^ 64) :
    PartitionHistory { part with hotList := part.hotList ++ [id], coldList := part.coldList.erase id,
                                 hotListSize := part.hotListSize + 1 } p (setGenerations generations id generation) := by
  have notHot : id ∉ part.hotList := by
    obtain ⟨record, member, named⟩ := List.mem_map.mp live
    exact named ▸ history.not_mem_hotList member (away record member named)
  refine ⟨?_, history.cold_nodup.erase id, ?_, ?_, history.current_ne_zero, history.current_ne_invalid, ?_, ?_, ?_⟩
  · exact List.nodup_append.mpr ⟨history.hot_nodup, List.nodup_singleton id,
      fun other onHot other' single same => notHot (by
        rw [List.mem_singleton] at single
        exact single ▸ same ▸ onHot)⟩
  · rw [ids_setGenerations]
    intro other listed
    simp only [List.mem_append, List.mem_singleton] at listed
    rcases listed with (onHot | rfl) | onCold
    · exact history.listed other (List.mem_append_left _ onHot)
    · exact live
    · exact history.listed other (List.mem_append_right _ (List.mem_of_mem_erase onCold))
  · rw [UInt64.toNat_add, UInt64.toNat_one, Nat.mod_eq_of_lt fits, history.hotListSize_eq, List.length_append,
      List.length_singleton]
  · rw [setGenerations, List.forall_mem_map]
    intro live member
    by_cases named : live.1 = id
    · simp only [named, if_true, linked, List.mem_append, List.mem_singleton, or_true]
    · simp only [named, if_false, List.mem_append, List.mem_singleton, or_false]
      exact history.hot_iff live member
  · rw [setGenerations, List.forall_mem_map]
    intro live member
    by_cases named : live.1 = id
    · simp only [named, if_true, linked, history.cold_nodup.mem_erase_iff, ne_eq, not_true_eq_false, false_and,
        and_false]
    · simp only [named, if_false, history.cold_nodup.mem_erase_iff, ne_eq, not_false_eq_true, true_and]
      exact history.cold_iff live member
  · rw [setGenerations, List.forall_mem_map]
    intro live member
    by_cases named : live.1 = id
    · simp only [named, if_true, linked]
      exact fun _ => UInt64.le_refl _
    · simp only [named, if_false]
      exact history.generation_le live member

theorem merge (history : PartitionHistory part p generations)
    (room : part.currentGeneration.toNat + 1 < ebpfLruInvalidGeneration.toNat) :
    PartitionHistory part.mergeHotIntoColdListIfNeeded p generations := by
  unfold EbpfLruPartition.mergeHotIntoColdListIfNeeded
  split
  · exact history
  · have next : (part.currentGeneration + 1).toNat = part.currentGeneration.toNat + 1 := by
      rw [UInt64.toNat_add, UInt64.toNat_one, Nat.mod_eq_of_lt (by rw [toNat_ebpfLruInvalidGeneration] at room; omega)]
    -- every generation an entry holds in `p` is the current one or older, or invalid
    have older : ∀ live ∈ generations, live.2.getD p 0 ≠ part.currentGeneration + 1 := by
      intro live member same
      by_cases invalid : live.2.getD p 0 = ebpfLruInvalidGeneration
      · rw [invalid, UInt64.ext_iff, next] at same
        omega
      · have below := UInt64.le_iff_toNat_le.mp (history.generation_le live member invalid)
        rw [same, next] at below
        omega
    refine ⟨List.nodup_nil, ?_, ?_, rfl, ?_, ?_, ?_, ?_, ?_⟩
    · refine List.nodup_append.mpr ⟨history.cold_nodup, history.hot_nodup, ?_⟩
      intro other onCold other' onHot same
      subst same
      obtain ⟨live, member, named⟩ := history.exists_of_listed (List.mem_append_right _ onCold)
      have hot := (history.hot_iff live member).mp (named ▸ onHot)
      exact ((history.cold_iff live member).mp (named ▸ onCold)).2.2 hot
    · intro other listed
      simp only [List.nil_append, List.mem_append] at listed
      rcases listed with onCold | onHot
      · exact history.listed other (List.mem_append_right _ onCold)
      · exact history.listed other (List.mem_append_left _ onHot)
    · intro zero
      rw [UInt64.ext_iff, next] at zero
      simp at zero
    · intro invalid
      rw [UInt64.ext_iff, next] at invalid
      omega
    · intro live member
      exact iff_of_false List.not_mem_nil (older live member)
    · intro live member
      rw [List.mem_append, history.cold_iff live member, history.hot_iff live member]
      constructor
      · rintro (⟨notZero, notInvalid, _⟩ | hot)
        · exact ⟨notZero, notInvalid, older live member⟩
        · exact ⟨hot ▸ history.current_ne_zero, hot ▸ history.current_ne_invalid, older live member⟩
      · rintro ⟨notZero, notInvalid, _⟩
        by_cases hot : live.2.getD p 0 = part.currentGeneration
        · exact .inr hot
        · exact .inl ⟨notZero, notInvalid, hot⟩
    · intro live member valid
      have below := UInt64.le_iff_toNat_le.mp (history.generation_le live member valid)
      rw [UInt64.le_iff_toNat_le, next]
      omega

theorem unlink (history : PartitionHistory part p generations) {id : Nat} {generation : List UInt64}
    {next : EbpfLruPartition} (hot : next.hotList = part.hotList.erase id)
    (cold : next.coldList = part.coldList.erase id) (size : next.hotListSize.toNat = next.hotList.length)
    (current : next.currentGeneration = part.currentGeneration)
    (unused : generation.getD p 0 = 0 ∨ generation.getD p 0 = ebpfLruInvalidGeneration) :
    PartitionHistory next p (setGenerations generations id generation) := by
  have notCurrent : generation.getD p 0 ≠ part.currentGeneration := by
    rcases unused with zero | invalid
    · rw [zero]
      exact Ne.symm history.current_ne_zero
    · rw [invalid]
      exact Ne.symm history.current_ne_invalid
  refine ⟨hot ▸ history.hot_nodup.erase id, cold ▸ history.cold_nodup.erase id, ?_, size,
    current ▸ history.current_ne_zero, current ▸ history.current_ne_invalid, ?_, ?_, ?_⟩
  · rw [ids_setGenerations, hot, cold]
    intro other listed
    rcases List.mem_append.mp listed with onHot | onCold
    · exact history.listed other (List.mem_append_left _ (List.mem_of_mem_erase onHot))
    · exact history.listed other (List.mem_append_right _ (List.mem_of_mem_erase onCold))
  · rw [setGenerations, List.forall_mem_map]
    intro live member
    rw [hot, current, history.hot_nodup.mem_erase_iff]
    by_cases named : live.1 = id
    · simp only [named, if_true, ne_eq, not_true_eq_false, false_and]
      exact iff_of_false not_false notCurrent
    · simp only [named, if_false, ne_eq, not_false_eq_true, true_and]
      exact history.hot_iff live member
  · rw [setGenerations, List.forall_mem_map]
    intro live member
    rw [cold, current, history.cold_nodup.mem_erase_iff]
    by_cases named : live.1 = id
    · simp only [named, if_true, ne_eq, not_true_eq_false, false_and]
      refine iff_of_false not_false ?_
      rintro ⟨notZero, notInvalid, _⟩
      rcases unused with zero | invalid
      · exact notZero zero
      · exact notInvalid invalid
    · simp only [named, if_false, ne_eq, not_false_eq_true, true_and]
      exact history.cold_iff live member
  · rw [setGenerations, List.forall_mem_map]
    intro live member
    rw [current]
    by_cases named : live.1 = id
    · simp only [named, if_true]
      intro valid
      rcases unused with zero | invalid
      · rw [zero]
        exact UInt64.zero_le
      · exact absurd invalid valid
    · simp only [named, if_false]
      exact history.generation_le live member

theorem empty {p : Nat} {generation limit : UInt64} (notZero : generation ≠ 0)
    (valid : generation ≠ ebpfLruInvalidGeneration) :
    PartitionHistory
      { hotList := [], coldList := [], currentGeneration := generation, hotListSize := 0, hotListLimit := limit }
      p [] :=
  ⟨List.nodup_nil, List.nodup_nil, (fun _ member => by cases member), rfl, notZero, valid,
    (fun _ member => by cases member), (fun _ member => by cases member), (fun _ member => by cases member)⟩

end PartitionHistory

theorem EbpfLruPartition.mergeHotIntoColdListIfNeeded_hotListSize_le (part : EbpfLruPartition) :
    part.mergeHotIntoColdListIfNeeded.hotListSize ≤ part.mergeHotIntoColdListIfNeeded.hotListLimit := by
  unfold EbpfLruPartition.mergeHotIntoColdListIfNeeded
  split
  · assumption
  · exact UInt64.zero_le

@[simp] theorem EbpfLruPartition.mergeHotIntoColdListIfNeeded_hotListLimit (part : EbpfLruPartition) :
    part.mergeHotIntoColdListIfNeeded.hotListLimit = part.hotListLimit := by
  unfold EbpfLruPartition.mergeHotIntoColdListIfNeeded
  split <;> rfl

theorem EbpfLruPartition.mergeHotIntoColdListIfNeeded_currentGeneration (part : EbpfLruPartition) :
    part.mergeHotIntoColdListIfNeeded.currentGeneration = part.currentGeneration ∨
      part.mergeHotIntoColdListIfNeeded.currentGeneration = part.currentGeneration + 1 := by
  unfold EbpfLruPartition.mergeHotIntoColdListIfNeeded
  split
  · exact .inl rfl
  · exact .inr rfl

theorem EbpfLruPartition.currentGeneration_mergeHotIntoColdListIfNeeded (part : EbpfLruPartition)
    (room : part.currentGeneration.toNat + 1 < ebpfLruInvalidGeneration.toNat) :
    part.currentGeneration.toNat ≤ part.mergeHotIntoColdListIfNeeded.currentGeneration.toNat ∧
      part.mergeHotIntoColdListIfNeeded.currentGeneration.toNat ≤ part.currentGeneration.toNat + 1 := by
  rw [toNat_ebpfLruInvalidGeneration] at room
  rcases part.mergeHotIntoColdListIfNeeded_currentGeneration with same | grown
  · rw [same]
    omega
  · rw [grown, UInt64.toNat_add, UInt64.toNat_one, Nat.mod_eq_of_lt (by omega)]
    omega

namespace EbpfCoreLruMap

/-- Each entry's name with its generations: all the key history invariant reads of an entry. -/
def generations (map : EbpfCoreLruMap) : List (Nat × List UInt64) :=
  map.entries.map fun live => (live.1, live.2.generation)

/-- The key history invariant: one generation per partition in each entry, distinct entry
names, and every partition agreeing with the generations, its hot list within its limit. -/
structure KeyHistory (map : EbpfCoreLruMap) : Prop where
  partitions_length : map.partitions.length = map.partitionCount
  ids_nodup : (map.generations.map (·.1)).Nodup
  generation_length : ∀ live ∈ map.generations, live.2.length = map.partitionCount
  agrees : ∀ p < map.partitionCount, PartitionHistory (map.partition p) p map.generations
  hotListSize_le : ∀ p < map.partitionCount, (map.partition p).hotListSize ≤ (map.partition p).hotListLimit
  hotListLimit_lt : ∀ p < map.partitionCount, (map.partition p).hotListLimit.toNat < 2 ^ 32

/-- At least `merges` more merges fit in every partition before its current generation would
reach `EBPF_LRU_INVALID_GENERATION`. -/
def Headroom (map : EbpfCoreLruMap) (merges : Nat) : Prop :=
  ∀ p < map.partitionCount, (map.partition p).currentGeneration.toNat + merges < ebpfLruInvalidGeneration.toNat

/-- `next` keeps the key history invariant, with the partitions of `map`, whose current
generations grew by at most `merges` and never went down. -/
structure Keeps (merges : Nat) (map next : EbpfCoreLruMap) : Prop where
  history : next.KeyHistory
  partitionCount_eq : next.partitionCount = map.partitionCount
  current_le : ∀ p < map.partitionCount,
    (map.partition p).currentGeneration.toNat ≤ (next.partition p).currentGeneration.toNat
  le_current : ∀ p < map.partitionCount,
    (next.partition p).currentGeneration.toNat ≤ (map.partition p).currentGeneration.toNat + merges

variable {map : EbpfCoreLruMap}

theorem ids_generations (map : EbpfCoreLruMap) : map.generations.map (·.1) = map.entries.map (·.1) := by
  simp only [generations, List.map_map]
  rfl

theorem generations_setEntry (map : EbpfCoreLruMap) (id : Nat) (entry : EbpfLruEntry) :
    (map.setEntry id entry).generations = setGenerations map.generations id entry.generation := by
  simp only [generations, setEntry, setGenerations, List.map_map]
  apply List.map_congr_left
  intro live _
  simp only [Function.comp_apply]
  split <;> rfl

@[simp] theorem generations_setPartition (map : EbpfCoreLruMap) (q : Nat) (part : EbpfLruPartition) :
    (map.setPartition q part).generations = map.generations := rfl

theorem mem_generations_of_entry {id : Nat} {entry : EbpfLruEntry} (looked : map.entry id = some entry) :
    (id, entry.generation) ∈ map.generations := by
  obtain ⟨before, after, split, _⟩ := List.lookup_eq_some_iff.mp looked
  exact List.mem_map.mpr ⟨(id, entry), by rw [split]; simp, rfl⟩

theorem not_mem_of_entry_eq_none {id : Nat} (looked : map.entry id = none) : id ∉ map.generations.map (·.1) := by
  rw [ids_generations]
  intro member
  obtain ⟨live, liveMember, named⟩ := List.mem_map.mp member
  have apart := List.lookup_eq_none_iff.mp looked live liveMember
  simp [named] at apart

theorem partition_of_le {p : Nat} (beyond : map.partitions.length ≤ p) : map.partition p = default :=
  List.getD_eq_default _ _ beyond

theorem partition_setPartition_self {q : Nat} (part : EbpfLruPartition) (inRange : q < map.partitions.length) :
    (map.setPartition q part).partition q = part := by
  simp only [partition, setPartition, List.getD_eq_getElem?_getD, List.getElem?_set_self inRange, Option.getD_some]

theorem partition_setPartition_of_ne {p q : Nat} (part : EbpfLruPartition) (different : p ≠ q) :
    (map.setPartition q part).partition p = map.partition p :=
  getD_set_of_ne _ _ _ (Ne.symm different)

theorem setPartition_of_le {q : Nat} (part : EbpfLruPartition) (beyond : map.partitions.length ≤ q) :
    map.setPartition q part = map := by
  simp only [setPartition, List.set_eq_of_length_le beyond]

theorem setPartition_partition (map : EbpfCoreLruMap) (q : Nat) : map.setPartition q (map.partition q) = map := by
  by_cases inRange : q < map.partitions.length
  · simp only [setPartition, partition, List.getD_eq_getElem _ _ inRange, List.set_getElem_self]
  · exact setPartition_of_le _ (Nat.le_of_not_lt inRange)

namespace KeyHistory

theorem of_eq {next : EbpfCoreLruMap} (history : map.KeyHistory) (count : next.partitionCount = map.partitionCount)
    (partitions : next.partitions = map.partitions) (generations : next.generations = map.generations) :
    next.KeyHistory := by
  have same : ∀ p, next.partition p = map.partition p := fun p => by
    simp only [EbpfCoreLruMap.partition, partitions]
  refine ⟨?_, ?_, ?_, ?_, ?_, ?_⟩
  · rw [partitions, count]
    exact history.partitions_length
  · rw [generations]
    exact history.ids_nodup
  · rw [generations, count]
    exact history.generation_length
  · rw [generations, count]
    intro p inRange
    rw [same]
    exact history.agrees p inRange
  · rw [count]
    intro p inRange
    rw [same]
    exact history.hotListSize_le p inRange
  · rw [count]
    intro p inRange
    rw [same]
    exact history.hotListLimit_lt p inRange

theorem eq_of_mem (history : map.KeyHistory) {id : Nat} {generation : List UInt64}
    (live : (id, generation) ∈ map.generations) {other : Nat × List UInt64} (member : other ∈ map.generations)
    (named : other.1 = id) : other.2 = generation := by
  have same := eq_of_mem_of_nodup history.ids_nodup member live named
  rw [same]

theorem setPartition_setEntry (history : map.KeyHistory) {q id : Nat} {entry : EbpfLruEntry}
    {next : EbpfLruPartition} (inRange : q < map.partitionCount)
    (length : entry.generation.length = map.partitionCount)
    (agrees : PartitionHistory next q (setGenerations map.generations id entry.generation))
    (others : ∀ p < map.partitionCount, p ≠ q → ∀ live ∈ map.generations, live.1 = id →
      entry.generation.getD p 0 = live.2.getD p 0)
    (sizeLe : next.hotListSize ≤ next.hotListLimit) (limit : next.hotListLimit.toNat < 2 ^ 32) :
    ((map.setEntry id entry).setPartition q next).KeyHistory := by
  have below : q < (map.setEntry id entry).partitions.length := history.partitions_length ▸ inRange
  have at_q := partition_setPartition_self next below
  refine ⟨?_, ?_, ?_, ?_, ?_, ?_⟩
  · simp only [setPartition, List.length_set]
    exact history.partitions_length
  · rw [generations_setPartition, generations_setEntry, ids_setGenerations]
    exact history.ids_nodup
  · rw [generations_setPartition, generations_setEntry, setGenerations, List.forall_mem_map]
    intro live member
    by_cases named : live.1 = id
    · simp only [named, if_true]
      exact length
    · simp only [named, if_false]
      exact history.generation_length live member
  · intro p inCount
    rw [generations_setPartition, generations_setEntry]
    by_cases here : p = q
    · subst here
      rw [at_q]
      exact agrees
    · rw [partition_setPartition_of_ne _ here]
      exact (history.agrees p inCount).setGenerations_of_getD (others p inCount here)
  · intro p inCount
    by_cases here : p = q
    · subst here
      rw [at_q]
      exact sizeLe
    · rw [partition_setPartition_of_ne _ here]
      exact history.hotListSize_le p inCount
  · intro p inCount
    by_cases here : p = q
    · subst here
      rw [at_q]
      exact limit
    · rw [partition_setPartition_of_ne _ here]
      exact history.hotListLimit_lt p inCount

end KeyHistory

namespace Keeps

variable {next mid : EbpfCoreLruMap} {merges more : Nat}

theorem of_current (history : next.KeyHistory) (count : next.partitionCount = map.partitionCount)
    (current : ∀ p < map.partitionCount, (next.partition p).currentGeneration = (map.partition p).currentGeneration) :
    Keeps 0 map next :=
  ⟨history, count, fun p inRange => (current p inRange).symm ▸ le_refl _,
    fun p inRange => (current p inRange) ▸ Nat.le_refl _⟩

theorem refl (history : map.KeyHistory) : Keeps 0 map map :=
  of_current history rfl fun _ _ => rfl

theorem trans (first : Keeps merges map mid) (second : Keeps more mid next) : Keeps (merges + more) map next := by
  refine ⟨second.history, second.partitionCount_eq.trans first.partitionCount_eq, ?_, ?_⟩
  · intro p inRange
    exact (first.current_le p inRange).trans (second.current_le p (first.partitionCount_eq ▸ inRange))
  · intro p inRange
    have grown := second.le_current p (first.partitionCount_eq ▸ inRange)
    have before := first.le_current p inRange
    omega

theorem mono (keeps : Keeps merges map next) (le : merges ≤ more) : Keeps more map next :=
  ⟨keeps.history, keeps.partitionCount_eq, keeps.current_le,
    fun p inRange => (keeps.le_current p inRange).trans (Nat.add_le_add_left le _)⟩

end Keeps

theorem Headroom.mono {merges more : Nat} (room : map.Headroom more) (le : merges ≤ more) : map.Headroom merges :=
  fun p inRange => lt_of_le_of_lt (Nat.add_le_add_left le _) (room p inRange)

theorem Headroom.of_keeps {next : EbpfCoreLruMap} {merges left : Nat} (room : map.Headroom (merges + left))
    (keeps : Keeps merges map next) : next.Headroom left := by
  intro p inRange
  have inMap : p < map.partitionCount := keeps.partitionCount_eq ▸ inRange
  have grown := keeps.le_current p inMap
  have fits := room p inMap
  omega

theorem getD_set_self {α : Type} (list : List α) (value fallback : α) {index : Nat} (inRange : index < list.length) :
    (list.set index value).getD index fallback = value := by
  simp only [List.getD_eq_getElem?_getD, List.getElem?_set_self inRange, Option.getD_some]

namespace KeyHistory

theorem others_set (history : map.KeyHistory) {q id : Nat} {entry : EbpfLruEntry}
    (live : (id, entry.generation) ∈ map.generations) (generation : UInt64) :
    ∀ p < map.partitionCount, p ≠ q → ∀ other ∈ map.generations, other.1 = id →
      (entry.generation.set q generation).getD p 0 = other.2.getD p 0 := by
  intro p _ different other member named
  rw [history.eq_of_mem live member named]
  exact getD_set_of_ne _ _ _ (Ne.symm different)

theorem hotListSize_lt (history : map.KeyHistory) {q : Nat} (inRange : q < map.partitionCount) :
    (map.partition q).hotListSize.toNat + 1 < 2 ^ 64 := by
  have sizeLe := UInt64.le_iff_toNat_le.mp (history.hotListSize_le q inRange)
  have limit := history.hotListLimit_lt q inRange
  omega

theorem moveToHotList (history : map.KeyHistory) (room : map.Headroom 1) {q id : Nat} {entry : EbpfLruEntry}
    (time : UInt64) (live : (id, entry.generation) ∈ map.generations)
    (away : q < map.partitionCount → entry.generation.getD q 0 ≠ (map.partition q).currentGeneration) :
    Keeps 1 map (map.moveToHotList q id entry time ((map.partition q).coldList.erase id)) := by
  have length : entry.generation.length = map.partitionCount := history.generation_length _ live
  by_cases inRange : q < map.partitionCount
  · have linked := (history.agrees q inRange).link (List.mem_map_of_mem live)
      (fun other member named => history.eq_of_mem live member named ▸ away inRange)
      (getD_set_self entry.generation (map.partition q).currentGeneration 0 (length ▸ inRange))
      (history.hotListSize_lt inRange)
    have merged := linked.merge (room q inRange)
    have below : q < map.partitions.length := history.partitions_length ▸ inRange
    refine ⟨history.setPartition_setEntry inRange (by rw [List.length_set, length]) merged
      (history.others_set live _) (EbpfLruPartition.mergeHotIntoColdListIfNeeded_hotListSize_le _)
      (by simpa using history.hotListLimit_lt q inRange), rfl, ?_, ?_⟩
    · intro p _
      simp only [EbpfCoreLruMap.moveToHotList]
      by_cases here : p = q
      · subst here
        rw [@partition_setPartition_self (map.setEntry _ _) _ _ below]
        exact (EbpfLruPartition.currentGeneration_mergeHotIntoColdListIfNeeded
          { map.partition p with hotList := (map.partition p).hotList ++ [id],
                                 coldList := (map.partition p).coldList.erase id,
                                 hotListSize := (map.partition p).hotListSize + 1 } (room p inRange)).1
      · rw [partition_setPartition_of_ne _ here]
        exact le_refl _
    · intro p _
      simp only [EbpfCoreLruMap.moveToHotList]
      by_cases here : p = q
      · subst here
        rw [@partition_setPartition_self (map.setEntry _ _) _ _ below]
        exact (EbpfLruPartition.currentGeneration_mergeHotIntoColdListIfNeeded
          { map.partition p with hotList := (map.partition p).hotList ++ [id],
                                 coldList := (map.partition p).coldList.erase id,
                                 hotListSize := (map.partition p).hotListSize + 1 } (room p inRange)).2
      · rw [partition_setPartition_of_ne _ here]
        exact Nat.le_add_right _ _
  · -- a partition past the map's: neither a list nor a generation changes
    have beyond : q ≥ map.partitionCount := Nat.le_of_not_lt inRange
    have unchanged : map.moveToHotList q id entry time ((map.partition q).coldList.erase id) =
        map.setEntry id { entry with generation := entry.generation.set q (map.partition q).currentGeneration,
                                     lastUsedTime := entry.lastUsedTime.set q time } :=
      setPartition_of_le _ (history.partitions_length ▸ beyond)
    have generation : entry.generation.set q (map.partition q).currentGeneration = entry.generation :=
      List.set_eq_of_length_le (length ▸ beyond)
    rw [unchanged]
    refine Keeps.mono ?_ (Nat.zero_le 1)
    refine Keeps.of_current (history.of_eq rfl rfl ?_) rfl fun _ _ => rfl
    rw [generations_setEntry]
    simp only [generation]
    exact setGenerations_of_mem history.ids_nodup live

theorem unlink (history : map.KeyHistory) {q id : Nat} {entry : EbpfLruEntry} {generation : UInt64}
    (inRange : q < map.partitionCount) (live : (id, entry.generation) ∈ map.generations)
    (unused : generation = 0 ∨ generation = ebpfLruInvalidGeneration) {next : EbpfLruPartition}
    (hot : next.hotList = (map.partition q).hotList.erase id) (cold : next.coldList = (map.partition q).coldList.erase id)
    (size : next.hotListSize.toNat = next.hotList.length)
    (current : next.currentGeneration = (map.partition q).currentGeneration)
    (limit : next.hotListLimit = (map.partition q).hotListLimit)
    (shrinks : next.hotListSize ≤ (map.partition q).hotListSize) :
    Keeps 0 map ((map.setEntry id { entry with generation := entry.generation.set q generation }).setPartition q next) := by
  have length : entry.generation.length = map.partitionCount := history.generation_length _ live
  have reading : (entry.generation.set q generation).getD q 0 = generation := getD_set_self _ _ _ (length ▸ inRange)
  have agrees := (history.agrees q inRange).unlink hot cold size current (reading ▸ unused)
  have sizeLe : next.hotListSize ≤ next.hotListLimit := by
    have below := UInt64.le_iff_toNat_le.mp (history.hotListSize_le q inRange)
    rw [UInt64.le_iff_toNat_le, limit]
    exact (UInt64.le_iff_toNat_le.mp shrinks).trans below
  have below : q < map.partitions.length := history.partitions_length ▸ inRange
  refine Keeps.of_current (history.setPartition_setEntry inRange (by rw [List.length_set, length]) agrees
    (history.others_set live _) sizeLe (limit ▸ history.hotListLimit_lt q inRange)) rfl ?_
  intro p _
  by_cases here : p = q
  · subst here
    rw [@partition_setPartition_self (map.setEntry _ _) _ _ below]
    exact current
  · rw [partition_setPartition_of_ne _ here]
    rfl

end KeyHistory

/-! ## The key state an entry's generation gives -/

theorem getKeyState_eq_uninitialized {p : Nat} {entry : EbpfLruEntry}
    (state : map.getKeyState p entry = .uninitialized) : entry.generation.getD p 0 = 0 := by
  unfold getKeyState at state
  dsimp only at state
  split_ifs at state with zero
  exact zero

theorem getKeyState_eq_deleted {p : Nat} {entry : EbpfLruEntry} (state : map.getKeyState p entry = .deleted) :
    entry.generation.getD p 0 = ebpfLruInvalidGeneration := by
  unfold getKeyState at state
  dsimp only at state
  split_ifs at state with zero invalid
  exact invalid

theorem getKeyState_eq_hot {p : Nat} {entry : EbpfLruEntry} (state : map.getKeyState p entry = .hot) :
    entry.generation.getD p 0 = (map.partition p).currentGeneration := by
  unfold getKeyState at state
  dsimp only at state
  split_ifs at state with zero invalid hot
  exact hot

theorem getKeyState_eq_cold {p : Nat} {entry : EbpfLruEntry} (state : map.getKeyState p entry = .cold) :
    entry.generation.getD p 0 ≠ 0 ∧ entry.generation.getD p 0 ≠ ebpfLruInvalidGeneration ∧
      entry.generation.getD p 0 ≠ (map.partition p).currentGeneration := by
  unfold getKeyState at state
  dsimp only at state
  split_ifs at state with zero invalid hot
  exact ⟨zero, invalid, hot⟩

theorem getKeyState_of_cold {p : Nat} {entry : EbpfLruEntry} (notZero : entry.generation.getD p 0 ≠ 0)
    (valid : entry.generation.getD p 0 ≠ ebpfLruInvalidGeneration)
    (older : entry.generation.getD p 0 ≠ (map.partition p).currentGeneration) : map.getKeyState p entry = .cold := by
  unfold getKeyState
  dsimp only
  rw [if_neg notZero, if_neg valid, if_neg older]

/-! ## Allocating an entry and linking it -/

theorem setPartition_of_eq {q : Nat} {part : EbpfLruPartition} (same : part = map.partition q) :
    map.setPartition q part = map := by
  rw [same, setPartition_partition]

theorem generations_allocateEntry (map : EbpfCoreLruMap) (id : Nat) :
    (map.allocateEntry id).generations = (id, List.replicate map.partitionCount 0) :: map.generations := rfl

theorem entry_allocateEntry (map : EbpfCoreLruMap) (id : Nat) :
    (map.allocateEntry id).entry id = some ⟨List.replicate map.partitionCount 0,
      List.replicate map.partitionCount 0, List.replicate map.table.keySize.toNat 0⟩ := by
  simp only [allocateEntry, entry, List.lookup_cons_self]

namespace KeyHistory

theorem coldList_erase (history : map.KeyHistory) {id q : Nat}
    (away : q < map.partitionCount → id ∉ (map.partition q).coldList) :
    (map.partition q).coldList.erase id = (map.partition q).coldList := by
  by_cases inRange : q < map.partitionCount
  · exact List.erase_of_not_mem (away inRange)
  · rw [partition_of_le (history.partitions_length ▸ Nat.le_of_not_lt inRange)]
    rfl

theorem allocateEntry (history : map.KeyHistory) {id : Nat} (fresh : id ∉ map.generations.map (·.1)) :
    Keeps 0 map (map.allocateEntry id) := by
  have unused : ∀ p, (List.replicate map.partitionCount (0 : UInt64)).getD p 0 = 0 := fun p => by
    simp only [List.getD_eq_getElem?_getD, List.getElem?_getD_replicate_default_eq]
  refine Keeps.of_current ⟨history.partitions_length, ?_, ?_, ?_, history.hotListSize_le, history.hotListLimit_lt⟩
    rfl fun _ _ => rfl
  · rw [generations_allocateEntry, List.map_cons]
    exact List.nodup_cons.mpr ⟨fresh, history.ids_nodup⟩
  · rw [generations_allocateEntry]
    rintro live (_ | ⟨_, member⟩)
    · exact List.length_replicate
    · exact history.generation_length live member
  · intro p inRange
    rw [generations_allocateEntry]
    exact (history.agrees p inRange).cons fresh (unused p)

theorem initializeLruEntry_allocateEntry (history : map.KeyHistory) (room : map.Headroom 1) {id : Nat}
    (fresh : id ∉ map.generations.map (·.1)) (q : Nat) (key : List UInt8) (time : UInt64) :
    Keeps 1 map ((map.allocateEntry id).initializeLruEntry id q key time) := by
  have allocated := history.allocateEntry fresh
  have current : ∀ p, (map.allocateEntry id).partition p = map.partition p := fun _ => rfl
  have erased : ((map.allocateEntry id).partition q).coldList.erase id = ((map.allocateEntry id).partition q).coldList :=
    allocated.history.coldList_erase fun inRange cold =>
      fresh ((history.agrees q inRange).listed id (List.mem_append_right _ (current q ▸ cold)))
  unfold initializeLruEntry
  rw [entry_allocateEntry]
  dsimp only
  rw [← erased]
  refine allocated.trans (allocated.history.moveToHotList room time ?_ ?_)
  · rw [generations_allocateEntry]
    exact List.mem_cons_self
  intro inRange
  have unused : (List.replicate map.partitionCount (0 : UInt64)).getD q 0 = 0 := by
    simp only [List.getD_eq_getElem?_getD, List.getElem?_getD_replicate_default_eq]
  rw [unused, current]
  exact Ne.symm (history.agrees q inRange).current_ne_zero

theorem insertIntoHotList (history : map.KeyHistory) (room : map.Headroom 1) (q id : Nat) (time : UInt64) :
    Keeps 1 map (map.insertIntoHotList q id time) := by
  unfold EbpfCoreLruMap.insertIntoHotList
  cases looked : map.entry id with
  | none => exact (Keeps.refl history).mono (Nat.zero_le 1)
  | some entry =>
    have live := mem_generations_of_entry looked
    dsimp only
    cases state : map.getKeyState q entry with
    | uninitialized =>
      have unused := getKeyState_eq_uninitialized state
      rw [← history.coldList_erase fun inRange => (history.agrees q inRange).not_mem_coldList live (.inl unused)]
      refine history.moveToHotList room time live fun inRange => ?_
      rw [unused]
      exact Ne.symm (history.agrees q inRange).current_ne_zero
    | cold => exact history.moveToHotList room time live fun _ => (getKeyState_eq_cold state).2.2
    | hot => exact (Keeps.refl history).mono (Nat.zero_le 1)
    | deleted => exact (Keeps.refl history).mono (Nat.zero_le 1)

theorem mark (history : map.KeyHistory) {q id : Nat} {entry : EbpfLruEntry} {generation : UInt64}
    (inRange : q < map.partitionCount) (live : (id, entry.generation) ∈ map.generations)
    (unused : generation = 0 ∨ generation = ebpfLruInvalidGeneration) (notHot : id ∉ (map.partition q).hotList)
    (notCold : id ∉ (map.partition q).coldList) :
    Keeps 0 map (map.setEntry id { entry with generation := entry.generation.set q generation }) := by
  have kept := history.unlink inRange live unused (List.erase_of_not_mem notHot).symm
    (List.erase_of_not_mem notCold).symm (history.agrees q inRange).hotListSize_eq rfl rfl (UInt64.le_refl _)
  rwa [@setPartition_of_eq (map.setEntry id _) q (map.partition q) rfl] at kept

theorem uninitializeLruEntryIn (history : map.KeyHistory) (id q : Nat) :
    Keeps 0 map (EbpfCoreLruMap.uninitializeLruEntryIn id map q) := by
  unfold EbpfCoreLruMap.uninitializeLruEntryIn
  cases looked : map.entry id with
  | none => exact Keeps.refl history
  | some entry =>
    have live := mem_generations_of_entry looked
    have length := history.generation_length _ live
    dsimp only
    by_cases inRange : q < map.partitionCount
    · have agrees := history.agrees q inRange
      cases state : map.getKeyState q entry <;> dsimp only
      case uninitialized =>
        have unused := getKeyState_eq_uninitialized state
        exact history.mark inRange live (.inr rfl)
          (agrees.not_mem_hotList live (by rw [unused]; exact Ne.symm agrees.current_ne_zero))
          (agrees.not_mem_coldList live (.inl unused))
      case cold =>
        have notHot := agrees.not_mem_hotList live (getKeyState_eq_cold state).2.2
        exact history.unlink inRange live (.inr rfl) (List.erase_of_not_mem notHot).symm rfl agrees.hotListSize_eq
          rfl rfl (UInt64.le_refl _)
      case hot =>
        have onHot := (agrees.hot_iff _ live).mpr (getKeyState_eq_hot state)
        have notCold : id ∉ (map.partition q).coldList := fun onCold =>
          ((agrees.cold_iff _ live).mp onCold).2.2 (getKeyState_eq_hot state)
        have positive : 0 < (map.partition q).hotListSize.toNat := by
          rw [agrees.hotListSize_eq]
          exact List.length_pos_of_mem onHot
        have lower : 1 ≤ (map.partition q).hotListSize := by
          rw [UInt64.le_iff_toNat_le, UInt64.toNat_one]
          exact positive
        refine history.unlink inRange live (.inr rfl) rfl (List.erase_of_not_mem notCold).symm ?_ rfl rfl ?_
        · rw [UInt64.toNat_sub_of_le _ _ lower, agrees.hotListSize_eq]
          exact (List.length_erase_of_mem onHot).symm
        · rw [UInt64.le_iff_toNat_le, UInt64.toNat_sub_of_le _ _ lower]
          exact Nat.sub_le _ _
      case deleted => exact Keeps.refl history
    · -- a partition past the map's: the entry's generations reach no further
      have beyond : entry.generation.length ≤ q := length ▸ Nat.le_of_not_lt inRange
      have state : map.getKeyState q entry = .uninitialized := by
        unfold getKeyState
        dsimp only
        rw [List.getD_eq_default _ _ beyond, if_pos rfl]
      rw [state]
      dsimp only
      refine Keeps.of_current (history.of_eq rfl rfl ?_) rfl fun _ _ => rfl
      rw [generations_setEntry, List.set_eq_of_length_le beyond]
      exact setGenerations_of_mem history.ids_nodup live

end KeyHistory

/-- Every record of entry `id` holds `EBPF_LRU_INVALID_GENERATION` for partition `p`. -/
def Invalidated (map : EbpfCoreLruMap) (id p : Nat) : Prop :=
  ∀ live ∈ map.generations, live.1 = id → live.2.getD p 0 = ebpfLruInvalidGeneration

namespace KeyHistory

theorem not_listed_of_invalidated (history : map.KeyHistory) {id p : Nat} (inRange : p < map.partitionCount)
    (invalidated : map.Invalidated id p) : id ∉ (map.partition p).hotList ∧ id ∉ (map.partition p).coldList := by
  have agrees := history.agrees p inRange
  constructor
  · intro onHot
    obtain ⟨live, member, named⟩ := agrees.exists_of_listed (List.mem_append_left _ onHot)
    exact agrees.not_mem_hotList member (by rw [invalidated live member named]; exact Ne.symm agrees.current_ne_invalid)
      (named ▸ onHot)
  · intro onCold
    obtain ⟨live, member, named⟩ := agrees.exists_of_listed (List.mem_append_right _ onCold)
    exact agrees.not_mem_coldList member (.inr (invalidated live member named)) (named ▸ onCold)

theorem invalidated_set {next : EbpfCoreLruMap} (history : map.KeyHistory) {id q p : Nat} {entry : EbpfLruEntry}
    (live : (id, entry.generation) ∈ map.generations) (inRange : q < map.partitionCount)
    (generations : next.generations =
      setGenerations map.generations id (entry.generation.set q ebpfLruInvalidGeneration))
    (before : p = q ∨ map.Invalidated id p) : next.Invalidated id p := by
  intro record member named
  rw [generations, setGenerations] at member
  obtain ⟨old, oldMember, rfl⟩ := List.mem_map.mp member
  have oldNamed : old.1 = id := named
  simp only [oldNamed, if_true]
  by_cases here : p = q
  · subst here
    exact getD_set_self _ _ _ (history.generation_length _ live ▸ inRange)
  · rw [getD_set_of_ne _ _ _ (Ne.symm here)]
    exact (before.resolve_left here) _ live rfl

theorem invalidated_uninitializeLruEntryIn (history : map.KeyHistory) {id q p : Nat} (inRange : q < map.partitionCount)
    (before : p = q ∨ map.Invalidated id p) : (EbpfCoreLruMap.uninitializeLruEntryIn id map q).Invalidated id p := by
  unfold EbpfCoreLruMap.uninitializeLruEntryIn
  cases looked : map.entry id with
  | none =>
    rcases before with rfl | invalidated
    · intro live member named
      exact absurd (List.mem_map.mpr ⟨live, member, named⟩) (not_mem_of_entry_eq_none looked)
    · exact invalidated
  | some entry =>
    have live := mem_generations_of_entry looked
    dsimp only
    cases state : map.getKeyState q entry with
    | uninitialized => exact history.invalidated_set live inRange (generations_setEntry _ _ _) before
    | cold => exact history.invalidated_set live inRange (generations_setEntry _ _ _) before
    | hot => exact history.invalidated_set live inRange (generations_setEntry _ _ _) before
    | deleted =>
      rcases before with rfl | invalidated
      · intro other member named
        rw [history.eq_of_mem live member named]
        exact getKeyState_eq_deleted state
      · exact invalidated

end KeyHistory

theorem Keeps.foldl {σ α : Type} (view : σ → EbpfCoreLruMap) (step : σ → α → σ)
    (kept : ∀ state item, (view state).KeyHistory → Keeps 0 (view state) (view (step state item))) :
    ∀ (items : List α) (state : σ), (view state).KeyHistory → Keeps 0 (view state) (view (items.foldl step state)) := by
  intro items
  induction items with
  | nil => exact fun state history => Keeps.refl history
  | cons item rest ih =>
    intro state history
    have first := kept state item history
    exact first.trans (ih (step state item) first.history)

namespace KeyHistory

theorem uninitializeLruEntry (history : map.KeyHistory) (id : Nat) : Keeps 0 map (map.uninitializeLruEntry id) :=
  Keeps.foldl (fun map => map) (EbpfCoreLruMap.uninitializeLruEntryIn id)
    (fun _ q kept => kept.uninitializeLruEntryIn id q) _ map history

theorem invalidated_uninitializeLruEntry (history : map.KeyHistory) (id : Nat) :
    ∀ p < map.partitionCount, (map.uninitializeLruEntry id).Invalidated id p := by
  have loop : ∀ (visited : List Nat) (state : EbpfCoreLruMap), state.KeyHistory →
      state.partitionCount = map.partitionCount → (∀ q ∈ visited, q < map.partitionCount) →
      ∀ p, p ∈ visited ∨ state.Invalidated id p →
        (visited.foldl (EbpfCoreLruMap.uninitializeLruEntryIn id) state).Invalidated id p := by
    intro visited
    induction visited with
    | nil =>
      intro state _ _ _ p before
      exact before.resolve_left List.not_mem_nil
    | cons q rest ih =>
      intro state kept count inRange p before
      have step := kept.uninitializeLruEntryIn id q
      refine ih _ step.history (step.partitionCount_eq.trans count)
        (fun later member => inRange later (List.mem_cons_of_mem q member)) p ?_
      by_cases later : p ∈ rest
      · exact .inl later
      · refine .inr (kept.invalidated_uninitializeLruEntryIn (count ▸ inRange q List.mem_cons_self) ?_)
        rcases before with visitedHere | invalidated
        · exact .inl ((List.mem_cons.mp visitedHere).resolve_right later)
        · exact .inr invalidated
  intro p inRange
  exact loop _ map history rfl (fun q member => List.mem_range.mp member) p (.inl (List.mem_range.mpr inRange))

theorem release (history : map.KeyHistory) (id : Nat) : Keeps 0 map (map.release id) := by
  have uninitialized := history.uninitializeLruEntry id
  have unlisted : ∀ p < map.partitionCount, id ∉ ((map.uninitializeLruEntry id).partition p).hotList ∧
      id ∉ ((map.uninitializeLruEntry id).partition p).coldList := fun p inRange =>
    uninitialized.history.not_listed_of_invalidated (uninitialized.partitionCount_eq ▸ inRange)
      (history.invalidated_uninitializeLruEntry id p inRange)
  set freed := map.uninitializeLruEntry id with freedDef
  have generations : (map.release id).generations = freed.generations.filter (·.1 ≠ id) := by
    simp only [EbpfCoreLruMap.release, EbpfCoreLruMap.generations, List.filter_map, freedDef]
    rfl
  have count : freed.partitionCount = map.partitionCount := uninitialized.partitionCount_eq
  have after := uninitialized.history
  have filtered : Keeps 0 freed (map.release id) := by
    refine Keeps.of_current ⟨after.partitions_length, ?_, ?_, ?_, after.hotListSize_le, after.hotListLimit_lt⟩
      rfl fun _ _ => rfl
    · rw [generations]
      exact after.ids_nodup.sublist ((List.filter_sublist).map _)
    · rw [generations]
      intro live member
      exact after.generation_length live (List.mem_filter.mp member).1
    · intro p inRange
      rw [generations]
      exact (after.agrees p inRange).filter (unlisted p (count ▸ inRange)).1 (unlisted p (count ▸ inRange)).2
  exact uninitialized.trans filtered

theorem withTable (history : map.KeyHistory) (table : EbpfHashTable) : Keeps 0 map { map with table } :=
  Keeps.of_current (history.of_eq rfl rfl rfl) rfl fun _ _ => rfl

theorem withOwners (history : map.KeyHistory) (owners : List (List UInt8 × Nat)) : Keeps 0 map { map with owners } :=
  Keeps.of_current (history.of_eq rfl rfl rfl) rfl fun _ _ => rfl

theorem deleteLruHashMapEntry (history : map.KeyHistory) (key : List UInt8) (environment : HashTableEnvironment) :
    Keeps 0 map (map.deleteLruHashMapEntry key environment).2 := by
  unfold EbpfCoreLruMap.deleteLruHashMapEntry
  rcases deleteHashMapEntry map.table key environment with ⟨result, table⟩
  have stored := history.withTable table
  dsimp only
  split
  · exact stored.trans (stored.history.release _)
  · exact stored

end KeyHistory

theorem reapPartition_cases (state : EbpfCoreLruMap × Option Nat × UInt64 × Bool) (p : Nat) :
    (reapPartition state p).1 = state.1 ∨
      ∃ id rest entry, (state.1.partition p).coldList = id :: rest ∧ state.1.entry id = some entry ∧
        state.1.getKeyState p entry = .cold ∧
        (reapPartition state p).1 = (state.1.setEntry id { entry with generation := entry.generation.set p 0 }).setPartition
          p { state.1.partition p with coldList := (state.1.partition p).coldList.erase id } := by
  obtain ⟨map, oldest, oldestTimestamp, found⟩ := state
  unfold reapPartition
  dsimp only
  split
  · exact .inl rfl
  · next id rest coldList =>
    split
    · exact .inl rfl
    · next entry looked =>
      split_ifs
      · split
        · next state => exact .inr ⟨id, rest, entry, coldList, looked, state, rfl⟩
        · exact .inl rfl
      · exact .inl rfl
      · exact .inl rfl

namespace KeyHistory

theorem reapPartition (state : EbpfCoreLruMap × Option Nat × UInt64 × Bool) (p : Nat)
    (history : state.1.KeyHistory) : Keeps 0 state.1 (ExecutionContext.reapPartition state p).1 := by
  rcases reapPartition_cases state p with same | ⟨id, rest, entry, coldList, looked, cold, reaped⟩
  · rw [same]
    exact Keeps.refl history
  · have live := mem_generations_of_entry looked
    have inRange : p < state.1.partitionCount := by
      by_contra beyond
      rw [partition_of_le (history.partitions_length ▸ Nat.le_of_not_lt beyond)] at coldList
      cases coldList
    have agrees := history.agrees p inRange
    have notHot := agrees.not_mem_hotList live (getKeyState_eq_cold cold).2.2
    rw [reaped]
    exact history.unlink inRange live (.inl rfl) (List.erase_of_not_mem notHot).symm rfl agrees.hotListSize_eq rfl
      rfl (UInt64.le_refl _)

theorem reapLruColdLists (history : map.KeyHistory) :
    ∀ {fuel : Nat} {reaped : EbpfCoreLruMap} {oldest : Option Nat},
      ExecutionContext.reapLruColdLists fuel map = some (reaped, oldest) → Keeps 0 map reaped := by
  intro fuel
  induction fuel generalizing map with
  | zero => intro _ _ reaped; cases reaped
  | succ fuel ih =>
    intro reaped oldest looped
    have pass := Keeps.foldl Prod.fst ExecutionContext.reapPartition
      (fun state p kept => kept.reapPartition state p) (List.range map.partitionCount)
      (map, none, 0xFFFFFFFFFFFFFFFF, false) history
    unfold ExecutionContext.reapLruColdLists at looped
    dsimp only at looped
    split_ifs at looped
    · exact pass.trans (ih pass.history looped)
    · cases looped
      exact pass

theorem reapOldestMapEntry (history : map.KeyHistory) {environment : HashTableEnvironment} {reaped : EbpfCoreLruMap}
    (done : map.reapOldestMapEntry environment = some reaped) : Keeps 0 map reaped := by
  unfold EbpfCoreLruMap.reapOldestMapEntry at done
  split at done
  · cases done
  · next scanned looped =>
    cases done
    exact history.reapLruColdLists looped
  · next scanned oldest looped =>
    have scan := history.reapLruColdLists looped
    split at done
    · cases done
      exact scan.trans (scan.history.deleteLruHashMapEntry _ _)
    · cases done
      exact scan

theorem lruHashTableUpdate (history : map.KeyHistory) (room : map.Headroom 1) (key : List UInt8)
    (data : Option (List UInt8)) (operation : EbpfHashTableOperations) (cpu : Nat) (time : UInt64)
    (environment : HashTableEnvironment) :
    Keeps 1 map (map.lruHashTableUpdate key data operation cpu time environment).2 := by
  unfold EbpfCoreLruMap.lruHashTableUpdate
  rcases ebpfHashTableUpdate map.table key data operation { environment with allocateNotification := .success } with
    ⟨result, table⟩
  set initialized := (map.allocateEntry map.freshEntry).initializeLruEntry map.freshEntry (cpu % map.partitionCount)
    key time with initializedDef
  have initializedKeeps : Keeps 1 map initialized := history.initializeLruEntry_allocateEntry room
    (by rw [ids_generations]; exact freshEntry_not_mem map) (cpu % map.partitionCount) key time
  have notified := initializedKeeps.trans (initializedKeeps.history.withTable table)
  dsimp only
  split_ifs with allocated succeeded
  · exact (history.withTable table).mono (Nat.zero_le 1)
  · have stored := notified.trans (notified.history.withOwners ((map.storedKey key, map.freshEntry) :: initialized.owners))
    split
    · exact stored.trans (stored.history.release _)
    · exact stored
  · exact notified.trans (notified.history.release _)

theorem lruUpdateLoop {key : List UInt8} {data : Option (List UInt8)} {operation : EbpfHashTableOperations}
    {cpu : Nat} {time : UInt64} {environment : HashTableEnvironment} :
    ∀ {fuel : Nat} {map : EbpfCoreLruMap} {result : EbpfResult} {final : EbpfCoreLruMap}, map.KeyHistory →
      map.Headroom fuel → ExecutionContext.lruUpdateLoop key data operation cpu time environment fuel map =
        some (result, final) → Keeps fuel map final := by
  intro fuel
  induction fuel with
  | zero => intro _ _ _ _ _ looped; cases looped
  | succ fuel ih =>
    intro map result final history room looped
    have updated := history.lruHashTableUpdate (room.mono (Nat.le_add_left 1 fuel)) key data operation cpu time
      environment
    unfold ExecutionContext.lruUpdateLoop at looped
    split at looped
    · next next refused =>
      rw [refused] at updated
      split at looped
      · next reaped reapedEq =>
        have reap := updated.history.reapOldestMapEntry reapedEq
        have left : next.Headroom fuel := (room.mono (by omega : 1 + fuel ≤ fuel + 1)).of_keeps updated
        have rest := ih reap.history ((left.mono (by omega : 0 + fuel ≤ fuel)).of_keeps reap) looped
        exact ((updated.trans reap).trans rest).mono (by omega)
      · cases looped
    · have returned : (map.lruHashTableUpdate key data operation cpu time environment).2 = final :=
        congrArg Prod.snd (Option.some.inj looped)
      rw [← returned]
      exact updated.mono (by omega)

theorem updateLruHashMapEntry (history : map.KeyHistory) {key data : Option (List UInt8)} {option cpu : Nat}
    {time : UInt64} {environment : HashTableEnvironment} {fuel : Nat} (room : map.Headroom fuel)
    {result : EbpfResult} {final : EbpfCoreLruMap}
    (updated : ExecutionContext.updateLruHashMapEntry map key data option cpu time environment fuel =
      some (result, final)) : Keeps fuel map final := by
  unfold ExecutionContext.updateLruHashMapEntry at updated
  split at updated
  · exact lruUpdateLoop history room updated
  · cases updated
    exact (Keeps.refl history).mono (Nat.zero_le fuel)

theorem findLruHashMapEntry (history : map.KeyHistory) (room : map.Headroom 1) (key : Option (List UInt8))
    (flags cpu : Nat) (time : UInt64) (environment : HashTableEnvironment) :
    Keeps 1 map (ExecutionContext.findLruHashMapEntry map key flags cpu time environment).2 := by
  have same := (Keeps.refl history).mono (Nat.zero_le 1)
  have hotter : ∀ id, Keeps 1 map (map.insertIntoHotList (cpu % map.partitionCount) id time) := fun id =>
    history.insertIntoHotList room _ id time
  unfold ExecutionContext.findLruHashMapEntry
  split
  · exact same
  · next key =>
    have removed := (history.deleteLruHashMapEntry key environment).mono (Nat.zero_le 1)
    dsimp only
    split <;> (try dsimp only) <;> split_ifs <;> split
    all_goals first
      | exact same
      | exact hotter _
      | (rename_i deletedEq; rw [deletedEq] at removed; exact removed)

end KeyHistory

end EbpfCoreLruMap

theorem createLruHashMap_keyHistory {definition : EbpfMapDefinitionInMemory} {innerMapHandleValid : Bool}
    {cpuCount : UInt32} {mapAllocated tableAllocated : Bool} {seed : UInt32} {supportsSse42 : Bool}
    {map : EbpfCoreLruMap}
    (created : createLruHashMap definition innerMapHandleValid cpuCount mapAllocated tableAllocated seed
      supportsSse42 = .ok map) :
    map.KeyHistory ∧ ∀ merges < 2 ^ 64 - 2, map.Headroom merges := by
  unfold createLruHashMap at created
  cases innerMapHandleValid
  · simp only [Bool.false_eq_true, if_false] at created
    obtain ⟨table, _, built⟩ := Except.bind_eq_ok_iff.mp created
    cases built
    have initial : ∀ p < (min cpuCount ebpfLruMaximumPartitions).toNat,
        (List.replicate (min cpuCount ebpfLruMaximumPartitions).toNat
          ({ hotList := [], coldList := [], currentGeneration := ebpfLruInitialGeneration, hotListSize := 0,
             hotListLimit := (max (definition.maxEntries / min cpuCount ebpfLruMaximumPartitions /
               ebpfLruGenerationCount) 1).toUInt64 } : EbpfLruPartition)).getD p default =
          { hotList := [], coldList := [], currentGeneration := ebpfLruInitialGeneration, hotListSize := 0,
            hotListLimit := (max (definition.maxEntries / min cpuCount ebpfLruMaximumPartitions /
              ebpfLruGenerationCount) 1).toUInt64 } := fun p inRange => by
      rw [List.getD_eq_getElem _ _ (by rw [List.length_replicate]; exact inRange), List.getElem_replicate]
    refine ⟨⟨List.length_replicate, List.nodup_nil, (fun _ member => by cases member), ?_, ?_, ?_⟩, ?_⟩
    · intro p inRange
      rw [EbpfCoreLruMap.partition, initial p inRange]
      exact PartitionHistory.empty (by decide) (by decide)
    · intro p inRange
      rw [EbpfCoreLruMap.partition, initial p inRange]
      exact UInt64.zero_le
    · intro p inRange
      rw [EbpfCoreLruMap.partition, initial p inRange, UInt32.toNat_toUInt64]
      exact UInt32.toNat_lt _
    · intro merges below p inRange
      rw [EbpfCoreLruMap.partition, initial p inRange, toNat_ebpfLruInvalidGeneration]
      have one : ebpfLruInitialGeneration.toNat = 1 := rfl
      rw [one]
      omega
  · simp [throw, throwThe, MonadExceptOf.throw, bind, Except.bind] at created

/-! ## Runs of an LRU map -/

/-- A call into an LRU map, with the CPU it runs on, the time, the outcomes of what it
allocates and, for an update, the rounds its retry loop may take. -/
inductive LruOperation where
  | update (key data : Option (List UInt8)) (option cpu : Nat) (time : UInt64) (environment : HashTableEnvironment)
      (fuel : Nat)
  | delete (key : List UInt8) (environment : HashTableEnvironment)
  | find (key : Option (List UInt8)) (flags cpu : Nat) (time : UInt64) (environment : HashTableEnvironment)

/-- The map a call leaves, none for an update whose retries ran out. -/
def LruOperation.apply (map : EbpfCoreLruMap) : LruOperation → Option EbpfCoreLruMap
  | .update key data option cpu time environment fuel =>
    (updateLruHashMapEntry map key data option cpu time environment fuel).map Prod.snd
  | .delete key environment => some (map.deleteLruHashMapEntry key environment).2
  | .find key flags cpu time environment => some (findLruHashMapEntry map key flags cpu time environment).2

/-- The hot list merges a call can do at most: one per round of an update, one for a lookup. -/
def LruOperation.rounds : LruOperation → Nat
  | .update _ _ _ _ _ _ fuel => fuel
  | .delete _ _ => 0
  | .find _ _ _ _ _ => 1

/-- The map after a sequence of calls, none once one of them does not return. -/
def runLru (map : EbpfCoreLruMap) : List LruOperation → Option EbpfCoreLruMap
  | [] => some map
  | operation :: operations => (operation.apply map).bind fun next => runLru next operations

theorem LruOperation.apply_keeps {map next : EbpfCoreLruMap} (history : map.KeyHistory) (operation : LruOperation)
    (room : map.Headroom operation.rounds) (applied : operation.apply map = some next) :
    EbpfCoreLruMap.Keeps operation.rounds map next := by
  cases operation with
  | update key data option cpu time environment fuel =>
    obtain ⟨⟨result, final⟩, updated, rfl⟩ := Option.map_eq_some_iff.mp applied
    exact history.updateLruHashMapEntry room updated
  | delete key environment =>
    cases applied
    exact history.deleteLruHashMapEntry key environment
  | find key flags cpu time environment =>
    cases applied
    exact history.findLruHashMapEntry room key flags cpu time environment

theorem runLru_keeps : ∀ (operations : List LruOperation) {map final : EbpfCoreLruMap}, map.KeyHistory →
    map.Headroom (operations.map LruOperation.rounds).sum → runLru map operations = some final →
      EbpfCoreLruMap.Keeps (operations.map LruOperation.rounds).sum map final := by
  intro operations
  induction operations with
  | nil =>
    intro map final history _ ran
    cases ran
    exact EbpfCoreLruMap.Keeps.refl history
  | cons operation rest ih =>
    intro map final history room ran
    rw [List.map_cons, List.sum_cons] at room ⊢
    obtain ⟨next, applied, continued⟩ := Option.bind_eq_some_iff.mp ran
    have first := LruOperation.apply_keeps history operation (room.mono (Nat.le_add_right _ _)) applied
    exact first.trans (ih first.history (room.of_keeps first) continued)

namespace EbpfCoreLruMap

theorem ids_setEntry (map : EbpfCoreLruMap) (id : Nat) (entry : EbpfLruEntry) :
    (map.setEntry id entry).entries.map (·.1) = map.entries.map (·.1) := by
  simp only [setEntry, List.map_map]
  rfl

theorem ids_uninitializeLruEntryIn (id : Nat) (map : EbpfCoreLruMap) (q : Nat) :
    (uninitializeLruEntryIn id map q).entries.map (·.1) = map.entries.map (·.1) := by
  unfold uninitializeLruEntryIn
  split
  · rfl
  · dsimp only
    split
    all_goals first
      | rfl
      | exact ids_setEntry _ _ _

theorem ids_uninitializeLruEntry (map : EbpfCoreLruMap) (id : Nat) :
    (map.uninitializeLruEntry id).entries.map (·.1) = map.entries.map (·.1) := by
  unfold uninitializeLruEntry
  generalize List.range map.partitionCount = partitions
  induction partitions generalizing map with
  | nil => rfl
  | cons q rest ih => rw [List.foldl_cons, ih, ids_uninitializeLruEntryIn]

variable {map : EbpfCoreLruMap}

namespace KeyHistory

theorem freed_invalidated (history : map.KeyHistory) {id : Nat} (live : id ∈ map.entries.map (·.1)) :
    ∃ entry, (map.uninitializeLruEntry id).entry id = some entry ∧
      ∀ p < map.partitionCount, entry.generation.getD p 0 = ebpfLruInvalidGeneration := by
  have stillLive : id ∈ (map.uninitializeLruEntry id).entries.map (·.1) := by
    rw [ids_uninitializeLruEntry]
    exact live
  obtain ⟨record, member, named⟩ := List.mem_map.mp stillLive
  have found : ((map.uninitializeLruEntry id).entries.lookup id).isSome :=
    List.lookup_isSome_iff.mpr ⟨record, member, by simp [named]⟩
  obtain ⟨entry, looked⟩ := Option.isSome_iff_exists.mp found
  refine ⟨entry, looked, fun p inRange => ?_⟩
  exact history.invalidated_uninitializeLruEntry id p inRange _ (mem_generations_of_entry looked) rfl

theorem not_listed_of_not_mem (history : map.KeyHistory) {id : Nat} (gone : id ∉ map.entries.map (·.1)) (p : Nat) :
    id ∉ (map.partition p).hotList ∧ id ∉ (map.partition p).coldList := by
  by_cases inRange : p < map.partitionCount
  · have unlisted : id ∉ (map.partition p).hotList ++ (map.partition p).coldList := fun listed =>
      gone (ids_generations map ▸ (history.agrees p inRange).listed id listed)
    exact ⟨fun hot => unlisted (List.mem_append_left _ hot), fun cold => unlisted (List.mem_append_right _ cold)⟩
  · rw [partition_of_le (history.partitions_length ▸ Nat.le_of_not_lt inRange)]
    exact ⟨List.not_mem_nil, List.not_mem_nil⟩

theorem entry_agrees (history : map.KeyHistory) {p : Nat} (inRange : p < map.partitionCount)
    {live : Nat × EbpfLruEntry} (member : live ∈ map.entries) :
    (live.1 ∈ (map.partition p).hotList ↔ live.2.generation.getD p 0 = (map.partition p).currentGeneration) ∧
      (live.1 ∈ (map.partition p).coldList ↔ live.2.generation.getD p 0 ≠ 0 ∧
        live.2.generation.getD p 0 ≠ ebpfLruInvalidGeneration ∧
        live.2.generation.getD p 0 ≠ (map.partition p).currentGeneration) :=
  have record : (live.1, live.2.generation) ∈ map.generations := List.mem_map_of_mem member
  ⟨(history.agrees p inRange).hot_iff _ record, (history.agrees p inRange).cold_iff _ record⟩

end KeyHistory

end EbpfCoreLruMap

/-- The key history of an LRU map in every state a run from its creation reaches, while
fewer than 2^64 - 2 hot lists have been merged: each hot list size counts its hot list
within its limit, an entry's link of a partition is on the hot list exactly when its
generation there is the current one and on the cold list exactly when it is an older
valid one; the next call moves no current generation back and leaves no entry it frees
on a list; and the `FREE` of a value finds its entry marked deleted in every partition. -/
theorem lru_key_history_holds_while_generations_stay_valid {definition : EbpfMapDefinitionInMemory}
    {innerMapHandleValid : Bool} {cpuCount : UInt32} {mapAllocated tableAllocated : Bool} {seed : UInt32}
    {supportsSse42 : Bool} {created : EbpfCoreLruMap}
    (create : createLruHashMap definition innerMapHandleValid cpuCount mapAllocated tableAllocated seed
      supportsSse42 = .ok created)
    {operations : List LruOperation} {map : EbpfCoreLruMap} (reached : runLru created operations = some map)
    {operation : LruOperation} {next : EbpfCoreLruMap} (stepped : operation.apply map = some next)
    (budget : ((operations ++ [operation]).map LruOperation.rounds).sum < 2 ^ 64 - 2) :
    (∀ p < map.partitionCount,
      (map.partition p).hotListSize.toNat = (map.partition p).hotList.length ∧
      (map.partition p).hotListSize ≤ (map.partition p).hotListLimit ∧
      (map.partition p).currentGeneration ≠ 0 ∧ (map.partition p).currentGeneration ≠ ebpfLruInvalidGeneration ∧
      ∀ live ∈ map.entries,
        (live.1 ∈ (map.partition p).hotList ↔ live.2.generation.getD p 0 = (map.partition p).currentGeneration) ∧
        (live.1 ∈ (map.partition p).coldList ↔ live.2.generation.getD p 0 ≠ 0 ∧
          live.2.generation.getD p 0 ≠ ebpfLruInvalidGeneration ∧
          live.2.generation.getD p 0 ≠ (map.partition p).currentGeneration)) ∧
    (∀ p < map.partitionCount, (map.partition p).currentGeneration ≤ (next.partition p).currentGeneration) ∧
    (∀ id ∈ map.entries.map (·.1), id ∉ next.entries.map (·.1) →
      ∀ p, id ∉ (next.partition p).hotList ∧ id ∉ (next.partition p).coldList) ∧
    (∀ live ∈ map.entries, ∃ entry, (map.uninitializeLruEntry live.1).entry live.1 = some entry ∧
      ∀ p < map.partitionCount, entry.generation.getD p 0 = ebpfLruInvalidGeneration) := by
  obtain ⟨initial, room⟩ := createLruHashMap_keyHistory create
  rw [List.map_append, List.sum_append, List.map_singleton, List.sum_singleton] at budget
  have start := room _ budget
  have run := runLru_keeps operations initial (start.mono (Nat.le_add_right _ _)) reached
  have history := run.history
  have step := LruOperation.apply_keeps history operation (start.of_keeps run) stepped
  refine ⟨fun p inRange => ⟨(history.agrees p inRange).hotListSize_eq, history.hotListSize_le p inRange,
    (history.agrees p inRange).current_ne_zero, (history.agrees p inRange).current_ne_invalid,
    fun live member => history.entry_agrees inRange member⟩, fun p inRange => ?_,
    fun id _ gone p => step.history.not_listed_of_not_mem gone p,
    fun live member => history.freed_invalidated (List.mem_map_of_mem member)⟩
  exact UInt64.le_iff_toNat_le.mpr (step.current_le p inRange)

theorem lru_key_history_holds_after_an_insert_and_a_lookup :
    ∃ created map next, createLruHashMap ⟨4, 4, 2⟩ false 1 true true 0 false = .ok created ∧
      runLru created [.update (some [1, 0, 0, 0]) (some [10, 0, 0, 0]) ebpfAny 0 0
        ⟨true, .success, true, some 4096, .success⟩ 1] = some map ∧
      (LruOperation.find (some [1, 0, 0, 0]) ebpfMapFlagHelper 0 0 ⟨true, .success, true, some 4096, .success⟩).apply map =
        some next ∧
      (∀ p < map.partitionCount,
        (map.partition p).hotListSize.toNat = (map.partition p).hotList.length ∧
        (map.partition p).hotListSize ≤ (map.partition p).hotListLimit ∧
        (map.partition p).currentGeneration ≠ 0 ∧ (map.partition p).currentGeneration ≠ ebpfLruInvalidGeneration ∧
        ∀ live ∈ map.entries,
          (live.1 ∈ (map.partition p).hotList ↔ live.2.generation.getD p 0 = (map.partition p).currentGeneration) ∧
          (live.1 ∈ (map.partition p).coldList ↔ live.2.generation.getD p 0 ≠ 0 ∧
            live.2.generation.getD p 0 ≠ ebpfLruInvalidGeneration ∧
            live.2.generation.getD p 0 ≠ (map.partition p).currentGeneration)) ∧
      (∀ p < map.partitionCount, (map.partition p).currentGeneration ≤ (next.partition p).currentGeneration) ∧
      (∀ id ∈ map.entries.map (·.1), id ∉ next.entries.map (·.1) →
        ∀ p, id ∉ (next.partition p).hotList ∧ id ∉ (next.partition p).coldList) ∧
      (∀ live ∈ map.entries, ∃ entry, (map.uninitializeLruEntry live.1).entry live.1 = some entry ∧
        ∀ p < map.partitionCount, entry.generation.getD p 0 = ebpfLruInvalidGeneration) :=
  ⟨_, _, _, rfl, rfl, rfl, @lru_key_history_holds_while_generations_stay_valid ⟨4, 4, 2⟩ false 1 true true 0 false _ rfl
    [.update (some [1, 0, 0, 0]) (some [10, 0, 0, 0]) ebpfAny 0 0 ⟨true, .success, true, some 4096, .success⟩ 1] _ rfl
    (.find (some [1, 0, 0, 0]) ebpfMapFlagHelper 0 0 ⟨true, .success, true, some 4096, .success⟩) _ rfl (by decide)⟩

theorem runLru_append (map : EbpfCoreLruMap) (first second : List LruOperation) :
    runLru map (first ++ second) = (runLru map first).bind fun middle => runLru middle second := by
  induction first generalizing map with
  | nil => rfl
  | cons operation rest ih =>
    simp only [List.cons_append, runLru]
    cases operation.apply map with
    | none => rfl
    | some next => exact ih next

theorem findLruHashMapEntry_of_helper {map : EbpfCoreLruMap} {key value : List UInt8} {id : Nat}
    (found : ebpfHashTableFind map.table key = (.success, some value)) (owned : map.owner key = some id)
    (cpu : Nat) (time : UInt64) (environment : HashTableEnvironment) :
    (findLruHashMapEntry map (some key) ebpfMapFlagHelper cpu time environment).2 =
      map.insertIntoHotList (cpu % map.partitionCount) id time := by
  unfold findLruHashMapEntry
  simp only [found, owned]
  rfl

/-! ## Past the last valid generation -/

/-- The insert of keys `[1, 0, 0, 0]` and `[2, 0, 0, 0]` from CPU 0 at time 0. -/
def wrapSetup : List LruOperation :=
  [.update (some [1, 0, 0, 0]) (some [10, 0, 0, 0]) ebpfAny 0 0 ⟨true, .success, true, some 4096, .success⟩ 1,
   .update (some [2, 0, 0, 0]) (some [20, 0, 0, 0]) ebpfAny 0 0 ⟨true, .success, true, some 4096, .success⟩ 1]

/-- Their lookup by an eBPF program on CPU 0 at time 0, first one key and then the other. -/
def wrapRound : List LruOperation :=
  [.find (some [1, 0, 0, 0]) ebpfMapFlagHelper 0 0 ⟨true, .success, true, some 4096, .success⟩,
   .find (some [2, 0, 0, 0]) ebpfMapFlagHelper 0 0 ⟨true, .success, true, some 4096, .success⟩]

/-- The one-partition map after the inserts and any number of rounds: both entries on the
cold list, one generation old. -/
def wrapState (table : EbpfHashTable) (generation : UInt64) : EbpfCoreLruMap :=
  { table, partitionCount := 1,
    partitions := [{ hotList := [], coldList := [0, 1], currentGeneration := generation, hotListSize := 0,
                     hotListLimit := 1 }],
    entries := [(1, ⟨[generation - 1], [0], [2, 0, 0, 0]⟩), (0, ⟨[generation - 1], [0], [1, 0, 0, 0]⟩)],
    owners := [([2, 0, 0, 0], 1), ([1, 0, 0, 0], 0)] }

theorem wrapSetup_run :
    ∃ created table, createLruHashMap ⟨4, 4, 2⟩ false 1 true true 0 false = .ok created ∧
      runLru created wrapSetup = some (wrapState table 2) ∧ table.keySize = 4 ∧
      (∃ value, ebpfHashTableFind table [1, 0, 0, 0] = (.success, some value)) ∧
      (∃ value, ebpfHashTableFind table [2, 0, 0, 0] = (.success, some value)) ∧
      (deleteHashMapEntry table [1, 0, 0, 0] ⟨true, .success, true, some 4096, .success⟩).1 = .success :=
  ⟨_, _, rfl, rfl, rfl, ⟨_, rfl⟩, ⟨_, rfl⟩, rfl⟩

/-- The same map after the round's first lookup: the first key's entry is hot, at the
current generation. -/
def wrapHalfState (table : EbpfHashTable) (generation : UInt64) : EbpfCoreLruMap :=
  { wrapState table generation with
    partitions := [{ hotList := [0], coldList := [1], currentGeneration := generation, hotListSize := 1,
                     hotListLimit := 1 }],
    entries := [(1, ⟨[generation - 1], [0], [2, 0, 0, 0]⟩), (0, ⟨[generation], [0], [1, 0, 0, 0]⟩)] }

theorem wrap_older {generation : UInt64} (notZero : generation ≠ 0) (notOne : generation ≠ 1) :
    generation - 1 ≠ 0 ∧ generation - 1 ≠ ebpfLruInvalidGeneration ∧ generation - 1 ≠ generation := by
  have zero : generation.toNat ≠ 0 := fun same => notZero (UInt64.toNat_inj.mp same)
  have one : generation.toNat ≠ 1 := fun same => notOne (UInt64.toNat_inj.mp same)
  have lower : 1 ≤ generation := by
    rw [UInt64.le_iff_toNat_le, UInt64.toNat_one]
    omega
  have previous : (generation - 1).toNat = generation.toNat - 1 := by
    rw [UInt64.toNat_sub_of_le _ _ lower, UInt64.toNat_one]
  refine ⟨fun same => ?_, fun same => ?_, fun same => ?_⟩ <;> rw [UInt64.ext_iff, previous] at same
  · simp only [UInt64.toNat_zero] at same
    omega
  · rw [toNat_ebpfLruInvalidGeneration] at same
    have := generation.toNat_lt
    omega
  · omega

theorem insertIntoHotList_wrapState {table : EbpfHashTable} {generation : UInt64}
    (older : generation - 1 ≠ 0 ∧ generation - 1 ≠ ebpfLruInvalidGeneration ∧ generation - 1 ≠ generation) :
    (wrapState table generation).insertIntoHotList 0 0 0 = wrapHalfState table generation := by
  unfold EbpfCoreLruMap.insertIntoHotList
  rw [show (wrapState table generation).entry 0 = some ⟨[generation - 1], [0], [1, 0, 0, 0]⟩ from rfl]
  dsimp only
  rw [@EbpfCoreLruMap.getKeyState_of_cold (wrapState table generation) 0 ⟨[generation - 1], [0], [1, 0, 0, 0]⟩
    older.1 older.2.1 older.2.2]
  rfl

theorem insertIntoHotList_wrapHalfState {table : EbpfHashTable} {generation : UInt64}
    (older : generation - 1 ≠ 0 ∧ generation - 1 ≠ ebpfLruInvalidGeneration ∧ generation - 1 ≠ generation) :
    (wrapHalfState table generation).insertIntoHotList 0 1 0 = wrapState table (generation + 1) := by
  unfold EbpfCoreLruMap.insertIntoHotList
  rw [show (wrapHalfState table generation).entry 1 = some ⟨[generation - 1], [0], [2, 0, 0, 0]⟩ from rfl]
  dsimp only
  rw [@EbpfCoreLruMap.getKeyState_of_cold (wrapHalfState table generation) 0 ⟨[generation - 1], [0], [2, 0, 0, 0]⟩
    older.1 older.2.1 older.2.2]
  simp only [wrapState, UInt64.add_sub_cancel]
  rfl

theorem runLru_wrapRound {table : EbpfHashTable} (keySize : table.keySize = 4)
    (foundFirst : ∃ value, ebpfHashTableFind table [1, 0, 0, 0] = (.success, some value))
    (foundSecond : ∃ value, ebpfHashTableFind table [2, 0, 0, 0] = (.success, some value))
    {generation : UInt64} (notZero : generation ≠ 0) (notOne : generation ≠ 1) :
    runLru (wrapState table generation) wrapRound = some (wrapState table (generation + 1)) := by
  obtain ⟨first, foundFirst⟩ := foundFirst
  obtain ⟨second, foundSecond⟩ := foundSecond
  have older := wrap_older notZero notOne
  have keys : ∀ key : List UInt8, key.length = 4 → Bytes.readBytes key 0 table.keySize.toNat = key :=
    fun key long => by
      rw [keySize, show (4 : UInt64).toNat = key.length by rw [long]; rfl]
      exact Bytes.readBytes_length_self key
  have ownedFirst : (wrapState table generation).owner [1, 0, 0, 0] = some 0 := by
    simp only [EbpfCoreLruMap.owner, EbpfCoreLruMap.storedKey, wrapState, keys [1, 0, 0, 0] rfl]
    rfl
  have ownedSecond : (wrapHalfState table generation).owner [2, 0, 0, 0] = some 1 := by
    simp only [EbpfCoreLruMap.owner, EbpfCoreLruMap.storedKey, wrapHalfState, wrapState, keys [2, 0, 0, 0] rfl]
    rfl
  simp only [wrapRound, runLru, LruOperation.apply, Option.bind_some]
  rw [@findLruHashMapEntry_of_helper (wrapState table generation) _ _ 0 foundFirst ownedFirst 0 0 _,
    Nat.zero_mod, insertIntoHotList_wrapState older,
    @findLruHashMapEntry_of_helper (wrapHalfState table generation) _ _ 1 foundSecond ownedSecond 0 0 _,
    Nat.zero_mod, insertIntoHotList_wrapHalfState older]

theorem runLru_wrapRounds {table : EbpfHashTable} (keySize : table.keySize = 4)
    (foundFirst : ∃ value, ebpfHashTableFind table [1, 0, 0, 0] = (.success, some value))
    (foundSecond : ∃ value, ebpfHashTableFind table [2, 0, 0, 0] = (.success, some value))
    (rounds : Nat) {generation : UInt64} (twoLe : 2 ≤ generation.toNat) (fits : generation.toNat + rounds < 2 ^ 64) :
    runLru (wrapState table generation) (List.replicate rounds wrapRound).flatten =
      some (wrapState table (UInt64.ofNat (generation.toNat + rounds))) := by
  induction rounds generalizing generation with
  | zero => simp [runLru]
  | succ rounds ih =>
    have notZero : generation ≠ 0 := fun same => by simp [same] at twoLe
    have notOne : generation ≠ 1 := fun same => by simp [same] at twoLe
    have following : (generation + 1).toNat = generation.toNat + 1 := by
      rw [UInt64.toNat_add, UInt64.toNat_one, Nat.mod_eq_of_lt (by omega)]
    rw [List.replicate_succ, List.flatten_cons, runLru_append,
      runLru_wrapRound keySize foundFirst foundSecond notZero notOne, Option.bind_some,
      ih (by omega) (by omega), following, Nat.add_assoc, Nat.add_comm 1 rounds]

theorem deleteLruHashMapEntry_wrapState {table : EbpfHashTable} (keySize : table.keySize = 4)
    {environment : HashTableEnvironment}
    (deleted : (deleteHashMapEntry table [1, 0, 0, 0] environment).1 = .success) :
    ((wrapState table 0).deleteLruHashMapEntry [1, 0, 0, 0] environment).2 =
      { wrapState table 0 with
        table := (deleteHashMapEntry table [1, 0, 0, 0] environment).2,
        entries := [(1, ⟨[0 - 1], [0], [2, 0, 0, 0]⟩)], owners := [([2, 0, 0, 0], 1)] } := by
  have owned : (wrapState table 0).owner [1, 0, 0, 0] = some 0 := by
    simp only [EbpfCoreLruMap.owner, EbpfCoreLruMap.storedKey, wrapState, keySize]
    rfl
  have split : deleteHashMapEntry table [1, 0, 0, 0] environment =
      (.success, (deleteHashMapEntry table [1, 0, 0, 0] environment).2) := by
    rw [← deleted]
  unfold EbpfCoreLruMap.deleteLruHashMapEntry
  rw [show (wrapState table 0).table = table from rfl, split, owned]
  rfl

theorem lru_generation_wraps_and_strands_a_freed_entry :
    ∃ created before map next, createLruHashMap ⟨4, 4, 2⟩ false 1 true true 0 false = .ok created ∧
      runLru created (wrapSetup ++ (List.replicate (2 ^ 64 - 3) wrapRound).flatten) = some before ∧
      (before.partition 0).currentGeneration = ebpfLruInvalidGeneration ∧
      runLru before wrapRound = some map ∧ (map.partition 0).currentGeneration = 0 ∧
      (LruOperation.delete [1, 0, 0, 0] ⟨true, .success, true, some 4096, .success⟩).apply map = some next ∧
      0 ∈ map.entries.map (·.1) ∧ 0 ∉ next.entries.map (·.1) ∧ 0 ∈ (next.partition 0).coldList := by
  obtain ⟨created, table, create, setup, keySize, foundFirst, foundSecond, deleted⟩ := wrapSetup_run
  have top : UInt64.ofNat ((2 : UInt64).toNat + (2 ^ 64 - 3)) = ebpfLruInvalidGeneration := by decide
  have wrapped : ebpfLruInvalidGeneration + 1 = 0 := by decide
  refine ⟨created, wrapState table ebpfLruInvalidGeneration, wrapState table 0, _, create, ?_, rfl, ?_, rfl, rfl,
    ?_, ?_, ?_⟩
  · -- the rounds up to the last valid generation and one more
    rw [runLru_append, setup, Option.bind_some,
      runLru_wrapRounds keySize foundFirst foundSecond (2 ^ 64 - 3) (by decide : 2 ≤ (2 : UInt64).toNat)
        (by decide), top]
  · rw [runLru_wrapRound keySize foundFirst foundSecond (by decide : ebpfLruInvalidGeneration ≠ 0) (by decide),
      wrapped]
  · simp [wrapState]
  · rw [deleteLruHashMapEntry_wrapState keySize deleted]
    simp
  · rw [deleteLruHashMapEntry_wrapState keySize deleted]
    simp [EbpfCoreLruMap.partition, wrapState]

end EbpfWindows.ExecutionContext
