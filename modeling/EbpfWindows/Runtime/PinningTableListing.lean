import EbpfWindows.Runtime.PinningTableSpec

/-! Listing the pinning table.

Two functions list what is pinned. A listing of paths, each call given the path the call
before returned, lists the paths of a type in increasing order of their bytes. An
enumeration copies every entry whose object has the type into an array, in the order of
the hash table's buckets, with a reference on each object, and gives back every reference
it took when a copy fails.
-/

set_option autoImplicit false

namespace EbpfWindows.Runtime

open Bytes EbpfHashTable Successor
open EbpfWindows.ExecutionContext (ebpfMaxPinPathLength)

variable {clients : PinningClients}
/-! ## Listing the paths -/

namespace PinningState

/-- `_ebpf_pinning_table_match_object_type` on the entry at an address. -/
def matchesType (state : PinningState) (objectType : EbpfObjectType) (entry : UInt64) : Bool :=
  ebpfPinningTableMatchObjectType state.memory state.tracking objectType (uint64Bytes entry) (uint64Bytes entry)

variable {state : PinningState} {contents : BoundedMap}

theorem leastAbove_pinnedEntries (holds : PinningTableHolds state.table state.memory contents)
    (objectType : EbpfObjectType) (previousKey : Option (List UInt8)) :
    (leastAbove EbpfHashBucketEntry.key (ebpfPinningTableCompare state.memory) previousKey
        (fun entry => ebpfPinningTableMatchObjectType state.memory state.tracking objectType entry.key entry.data)
        state.table.entries).map (fun entry => pointerAt entry.data) =
      leastAbove state.memory.strings compareUtf8Strings
        (previousKey.map fun key => state.memory.strings (pointerAt key)) (state.matchesType objectType)
        state.table.pinnedEntries := by
  have compares : ebpfPinningTableCompare state.memory =
      fun first second => compareUtf8Strings (state.memory.strings (pointerAt first))
        (state.memory.strings (pointerAt second)) := rfl
  have throughEntry : leastAbove ((fun key => state.memory.strings (pointerAt key)) ∘ EbpfHashBucketEntry.key)
      compareUtf8Strings (previousKey.map fun key => state.memory.strings (pointerAt key))
      (fun entry => ebpfPinningTableMatchObjectType state.memory state.tracking objectType entry.key entry.data)
      state.table.entries =
      leastAbove (state.memory.strings ∘ fun entry => pointerAt entry.data) compareUtf8Strings
        (previousKey.map fun key => state.memory.strings (pointerAt key))
        (state.matchesType objectType ∘ fun entry => pointerAt entry.data) state.table.entries := by
    refine leastAbove_congr fun entry member => ⟨?_, ?_⟩
    · simp only [Function.comp_apply]
      rw [(holds.entry_stored member).1, pointerAt_uint64Bytes]
    · simp [matchesType, ebpfPinningTableMatchObjectType]
  rw [compares, leastAbove_comp, throughEntry, leastAbove_map]
  rfl

theorem ebpfPinningTableGetNextPath_eq (holds : PinningTableHolds state.table state.memory contents)
    (objectType : EbpfObjectType) {startPath nextPath : UInt64} (startNotNull : startPath ≠ 0)
    (nextNotNull : nextPath ≠ 0) :
    state.ebpfPinningTableGetNextPath objectType startPath nextPath =
      match leastAbove state.memory.strings compareUtf8Strings
          (if (state.memory.strings startPath).length = 0 then none else some (state.memory.strings startPath))
          (state.matchesType objectType) state.table.pinnedEntries with
      | none => some (.noMoreKeys, objectType, state.memory)
      | some entry =>
        if (state.memory.strings nextPath).length < (state.memory.strings entry).length then
          some (.insufficientBuffer, objectType, state.memory)
        else (state.tracking.objectType (state.memory.entryObjects entry)).map fun type =>
          (.success, type, state.memory.writeString nextPath (state.memory.strings entry)) := by
  have startBound : ((if (state.memory.strings startPath).length = 0 then none else some (uint64Bytes startPath)).map
      fun key => state.memory.strings (pointerAt key)) =
      if (state.memory.strings startPath).length = 0 then none else some (state.memory.strings startPath) := by
    split_ifs <;> simp
  have fits : (state.table.readingMemory state.memory).BucketsFit := holds.fits
  unfold ebpfPinningTableGetNextPath
  rw [if_neg (by tauto)]
  dsimp only
  rw [fits.nextKeyAndValueSorted_eq]
  rw [readingMemory_entries, ← startBound, ← leastAbove_pinnedEntries holds]
  generalize leastAbove _ _ _ _ state.table.entries = found
  cases found <;> rfl

/-- The state a caller makes a listing call in: its string at `startPath` holds the path it
starts after, and its string at `nextPath` the buffer for the answer. -/
def asking (state : PinningState) (startPath : UInt64) (previous : List UInt8) (nextPath : UInt64)
    (buffer : List UInt8) : PinningState :=
  { state with memory := (state.memory.writeString startPath previous).writeString nextPath buffer }

/-- What a listing call answers when it lists `next`, or when no path is left. -/
def listingAnswer (state : PinningState) (objectType : EbpfObjectType) (nextPath : UInt64) :
    Option (List UInt8) → Option (EbpfResult × EbpfObjectType × PinningMemory)
  | none => some (.noMoreKeys, objectType, state.memory)
  | some path => ((state.pinnedObject path).bind state.tracking.objectType).map fun type =>
    (.success, type, state.memory.writeString nextPath path)

theorem ebpfPinningTableGetNextPath_asking (holds : PinningTableHolds state.table state.memory contents)
    (objectType : EbpfObjectType) {startPath nextPath : UInt64} (startNotNull : startPath ≠ 0)
    (nextNotNull : nextPath ≠ 0) (distinct : startPath ≠ nextPath)
    (startMine : startPath ∉ state.table.pinnedEntries) (nextMine : nextPath ∉ state.table.pinnedEntries)
    (previous : List UInt8) {buffer : List UInt8}
    (room : ∀ entry ∈ state.table.pinnedEntries, (state.memory.strings entry).length ≤ buffer.length) :
    (state.asking startPath previous nextPath buffer).ebpfPinningTableGetNextPath objectType startPath nextPath =
      (state.asking startPath previous nextPath buffer).listingAnswer objectType nextPath
        ((leastAbove state.memory.strings compareUtf8Strings (if previous.length = 0 then none else some previous)
          (state.matchesType objectType) state.table.pinnedEntries).map state.memory.strings) := by
  have agree : ∀ entry ∈ state.table.pinnedEntries,
      (state.asking startPath previous nextPath buffer).memory.strings entry = state.memory.strings entry := by
    intro entry member
    have notStart : entry ≠ startPath := fun same => startMine (same ▸ member)
    have notNext : entry ≠ nextPath := fun same => nextMine (same ▸ member)
    simp [asking, PinningMemory.writeString, notStart, notNext]
  have askingHolds : PinningTableHolds (state.asking startPath previous nextPath buffer).table
      (state.asking startPath previous nextPath buffer).memory contents := holds.write agree
  have atStart : (state.asking startPath previous nextPath buffer).memory.strings startPath = previous := by
    simp [asking, PinningMemory.writeString, distinct]
  have atNext : (state.asking startPath previous nextPath buffer).memory.strings nextPath = buffer := by
    simp [asking, PinningMemory.writeString]
  have sameScan : leastAbove (state.asking startPath previous nextPath buffer).memory.strings compareUtf8Strings
      (if previous.length = 0 then none else some previous)
      ((state.asking startPath previous nextPath buffer).matchesType objectType) state.table.pinnedEntries =
      leastAbove state.memory.strings compareUtf8Strings (if previous.length = 0 then none else some previous)
        (state.matchesType objectType) state.table.pinnedEntries :=
    leastAbove_congr fun entry member => ⟨agree entry member, rfl⟩
  rw [ebpfPinningTableGetNextPath_eq askingHolds objectType startNotNull nextNotNull, atStart]
  change (match leastAbove (state.asking startPath previous nextPath buffer).memory.strings compareUtf8Strings
      (if previous.length = 0 then none else some previous)
      ((state.asking startPath previous nextPath buffer).matchesType objectType) state.table.pinnedEntries with
    | none => _ | some entry => _) = _
  rw [sameScan]
  cases found : leastAbove state.memory.strings compareUtf8Strings (if previous.length = 0 then none else some previous)
      (state.matchesType objectType) state.table.pinnedEntries with
  | none => rfl
  | some entry =>
    have member := mem_of_leastAbove_eq_some found
    have pinned : (state.asking startPath previous nextPath buffer).pinnedObject (state.memory.strings entry) =
        some (state.memory.entryObjects entry) :=
      (pinnedObject_eq_some_iff askingHolds).mpr ⟨entry, member, agree entry member, rfl⟩
    dsimp only
    rw [atNext, agree entry member, if_neg (Nat.not_lt.mpr (room entry member)), Option.map_some, listingAnswer,
      pinned, Option.bind_some]
    rfl

end PinningState

/-- Listing the pinned paths of a type, each call from the path the call before returned:
the calls answer the paths of the type, in increasing order of their bytes and each once,
with the type of each one's object, and then `EBPF_NO_MORE_KEYS`. -/
theorem pinning_table_get_next_path_lists_the_paths_in_order (tracks : clients.Tracks)
    (objectType : EbpfObjectType) {startPath nextPath : UInt64} (startNotNull : startPath ≠ 0)
    (nextNotNull : nextPath ≠ 0) (distinct : startPath ≠ nextPath)
    (startMine : startPath ∉ clients.state.table.pinnedEntries) (nextMine : nextPath ∉ clients.state.table.pinnedEntries)
    {buffer : List UInt8} (room : ebpfMaxPinPathLength ≤ buffer.length + 1) :
    ∃ sorted : List (List UInt8), sorted.Pairwise (· < ·) ∧
      (∀ path, path ∈ sorted ↔ ∃ target type, clients.state.pinnedObject path = some target ∧
        clients.state.tracking.objectType target = some type ∧ (objectType = .unknown ∨ type = objectType)) ∧
      (clients.state.asking startPath [] nextPath buffer).ebpfPinningTableGetNextPath objectType startPath nextPath =
        (clients.state.asking startPath [] nextPath buffer).listingAnswer objectType nextPath sorted[0]? ∧
      ∀ i (h : i < sorted.length),
        (clients.state.asking startPath sorted[i] nextPath buffer).ebpfPinningTableGetNextPath objectType startPath
            nextPath =
          (clients.state.asking startPath sorted[i] nextPath buffer).listingAnswer objectType nextPath sorted[i + 1]? := by
  obtain ⟨contents, holds⟩ := tracks.holds
  have inKeys : ∀ entry ∈ clients.state.table.pinnedEntries, clients.state.memory.strings entry ∈ Set.univ :=
    fun _ _ => Set.mem_univ _
  have distinctPaths := holds.nodup_paths
  have sortedExists : ∃ sorted : List UInt64,
      sorted.Pairwise (fun first second => compareUtf8Strings (clients.state.memory.strings first)
        (clients.state.memory.strings second) < 0) ∧
      sorted.Perm (clients.state.table.pinnedEntries.filter (clients.state.matchesType objectType)) :=
    exists_sorted compareUtf8Strings_threeWayOn (fun _ _ => Set.mem_univ _)
      (distinctPaths.sublist (List.filter_sublist.map _))
  obtain ⟨sorted, ordered, perm⟩ := sortedExists
  have exactly : ∀ entry, entry ∈ sorted ↔
      entry ∈ clients.state.table.pinnedEntries ∧ clients.state.matchesType objectType entry = true :=
    fun entry => perm.mem_iff.trans List.mem_filter
  have fits : ∀ entry ∈ clients.state.table.pinnedEntries,
      (clients.state.memory.strings entry).length ≤ buffer.length := by
    intro entry member
    have shorter := (holds.accepted entry member).2.1
    omega
  have asked := fun previous => PinningState.ebpfPinningTableGetNextPath_asking holds objectType startNotNull
    nextNotNull distinct startMine nextMine previous fits
  refine ⟨sorted.map clients.state.memory.strings, ?_, fun path => ?_, ?_, fun i h => ?_⟩
  · exact List.pairwise_map.mpr (ordered.imp compareUtf8Strings_neg_iff.mp)
  · -- a listed path is the path of an admitted entry, whose object is live and of the type
    rw [List.mem_map]
    constructor
    · rintro ⟨entry, listed, rfl⟩
      obtain ⟨member, admitted⟩ := (exactly entry).mp listed
      obtain ⟨object, found⟩ : ∃ object,
          clients.state.tracking.objects (clients.state.memory.entryObjects entry) = some object :=
        Option.isSome_iff_exists.mp
          (tracks.objects.heldObjects _ (List.mem_append_right _ (List.mem_map_of_mem member)))
      refine ⟨_, object.type, (PinningState.pinnedObject_eq_some_iff holds).mpr ⟨entry, member, rfl, rfl⟩,
        by simp [EbpfObjectTracking.objectType, found], ?_⟩
      simp only [PinningState.matchesType, ebpfPinningTableMatchObjectType, pointerAt_uint64Bytes] at admitted
      split_ifs at admitted with unknown
      · exact .inl unknown
      · simp only [EbpfObjectTracking.objectType, found, Option.map_some, decide_eq_true_eq,
          Option.some.injEq] at admitted
        exact .inr admitted
    · rintro ⟨target, type, pinned, typed, admits⟩
      obtain ⟨entry, member, rfl, rfl⟩ := (PinningState.pinnedObject_eq_some_iff holds).mp pinned
      refine ⟨entry, (exactly entry).mpr ⟨member, ?_⟩, rfl⟩
      simp only [PinningState.matchesType, ebpfPinningTableMatchObjectType, pointerAt_uint64Bytes]
      rcases admits with unknown | rfl
      · simp [unknown]
      · split_ifs
        · rfl
        · simpa using typed
  · -- the first call starts from the empty path: no bound
    rw [asked, if_pos List.length_nil, leastAbove_none_eq_head? compareUtf8Strings_threeWayOn inKeys distinctPaths ordered exactly,
      List.getElem?_map]
  · -- a later call starts from the path the one before returned, which is not empty
    have within : i < sorted.length := by simpa using h
    have nonEmpty := (holds.accepted _ ((exactly _).mp (List.getElem_mem within)).1).1
    rw [List.getElem_map, asked, if_neg (by omega),
      leastAbove_getElem compareUtf8Strings_threeWayOn inKeys distinctPaths ordered exactly within, List.getElem?_map]

theorem pinning_table_get_next_path_lists_the_pinned_map :
    ∃ table tracking events clients,
      ebpfPinningTableAllocate mapPathMemory true true 0 false = .ok table ∧
      ebpfObjectTrackingInitiate true 0 false = .ok tracking ∧
      PinningClients.Reaches ⟨table, mapPathMemory, tracking⟩ events clients ∧
      ∃ sorted : List (List UInt8), sorted.Pairwise (· < ·) ∧
        (∀ path, path ∈ sorted ↔ ∃ target type, clients.state.pinnedObject path = some target ∧
          clients.state.tracking.objectType target = some type ∧ (EbpfObjectType.map = .unknown ∨ type = .map)) ∧
        (clients.state.asking 80 [] 96 (List.replicate 255 0)).ebpfPinningTableGetNextPath .map 80 96 =
          (clients.state.asking 80 [] 96 (List.replicate 255 0)).listingAnswer .map 96 sorted[0]? ∧
        ∀ i (h : i < sorted.length),
          (clients.state.asking 80 sorted[i] 96 (List.replicate 255 0)).ebpfPinningTableGetNextPath .map 80 96 =
            (clients.state.asking 80 sorted[i] 96 (List.replicate 255 0)).listingAnswer .map 96 sorted[i + 1]? :=
  ⟨_, _, _, _, rfl, rfl, (.step (.step .start (show PinningOperation.Admissible _ .createMap from ⟨by decide, by decide⟩) rfl)
      (show PinningOperation.Admissible _ .pinMap from ⟨⟨false, List.mem_singleton_self _⟩, by decide⟩) rfl),
    pinning_table_get_next_path_lists_the_paths_in_order (PinningClients.tracks_of_reaches
        (show ebpfPinningTableAllocate mapPathMemory true true 0 false = .ok _ from rfl)
        (show ebpfObjectTrackingInitiate true 0 false = .ok _ from rfl)
        (.step (.step .start (show PinningOperation.Admissible _ .createMap from ⟨by decide, by decide⟩) rfl)
          (show PinningOperation.Admissible _ .pinMap from ⟨⟨false, List.mem_singleton_self _⟩, by decide⟩) rfl))
      .map (by decide) (by decide) (by decide) (by decide) (by decide)
      (by rw [List.length_replicate]; decide)⟩

/-! ## Enumerating the entries -/

/-- The reference each entry of an enumeration holds on its object. -/
def entryReferences (entries : List (UInt64 × List UInt8)) : List (UInt64 × Bool) :=
  entries.map fun entry => (entry.1, false)

@[simp] theorem entryReferences_nil : entryReferences [] = [] := rfl

@[simp] theorem entryReferences_append (first second : List (UInt64 × List UInt8)) :
    entryReferences (first ++ second) = entryReferences first ++ entryReferences second :=
  List.map_append

namespace PinningEnumerateEnvironment

variable (environment : PinningEnumerateEnvironment)

/-- What the copies of the paths make of the entries `todo` to list after those `listed`:
the result of the first copy that fails and the entries listed up to it, or success and all
of them. -/
def copyPaths : List (UInt64 × List UInt8) → List (UInt64 × List UInt8) → EbpfResult × List (UInt64 × List UInt8)
  | listed, [] => (.success, listed)
  | listed, entry :: todo =>
    if environment.duplicateResults listed.length ≠ .success then
      (environment.duplicateResults listed.length, listed ++ [entry])
    else copyPaths (listed ++ [entry]) todo

variable {environment}

theorem copyPaths_of_success :
    ∀ {listed todo : List (UInt64 × List UInt8)},
      (∀ i < todo.length, environment.duplicateResults (listed.length + i) = .success) →
        environment.copyPaths listed todo = (.success, listed ++ todo)
  | listed, [], _ => by rw [copyPaths, List.append_nil]
  | listed, entry :: todo, copied => by
    have first : environment.duplicateResults listed.length = .success := copied 0 (by simp)
    have later : ∀ i < todo.length, environment.duplicateResults ((listed ++ [entry]).length + i) = .success := by
      intro i within
      have shifted := copied (i + 1) (by simp; omega)
      rwa [List.length_append, List.length_singleton, Nat.add_assoc, Nat.add_comm 1]
    rw [copyPaths, if_neg (not_not.mpr first), copyPaths_of_success later, List.append_assoc, List.singleton_append]

theorem copyPaths_of_failure :
    ∀ {listed todo : List (UInt64 × List UInt8)} {failed : Nat}, failed < todo.length →
      environment.duplicateResults (listed.length + failed) ≠ .success →
      (∀ i < failed, environment.duplicateResults (listed.length + i) = .success) →
        environment.copyPaths listed todo =
          (environment.duplicateResults (listed.length + failed), listed ++ todo.take (failed + 1))
  | _, [], _, within, _, _ => absurd within (Nat.not_lt_zero _)
  | listed, entry :: todo, 0, _, fails, _ => by
    rw [Nat.add_zero] at fails
    rw [copyPaths, if_pos fails, Nat.add_zero, List.take_succ_cons, List.take_zero]
  | listed, entry :: todo, failed + 1, within, fails, before => by
    have first : environment.duplicateResults listed.length = .success := before 0 (by omega)
    have shift : ∀ i, (listed ++ [entry]).length + i = listed.length + (i + 1) := by
      intro i
      rw [List.length_append, List.length_singleton]
      omega
    have later := @copyPaths_of_failure (listed ++ [entry]) todo failed (by simpa using within)
      (by rwa [shift]) (fun i below => by rw [shift]; exact before (i + 1) (by omega))
    rw [copyPaths, if_neg (not_not.mpr first), later, shift, List.take_succ_cons, List.append_assoc,
      List.singleton_append]

theorem copyPaths_of_fst_eq_success :
    ∀ {listed todo : List (UInt64 × List UInt8)}, (environment.copyPaths listed todo).1 = .success →
      (environment.copyPaths listed todo).2 = listed ++ todo
  | listed, [], _ => by rw [copyPaths, List.append_nil]
  | listed, entry :: todo, succeeded => by
    rw [copyPaths] at succeeded ⊢
    split_ifs at succeeded ⊢ with failed
    · exact absurd succeeded failed
    · rw [copyPaths_of_fst_eq_success succeeded, List.append_assoc, List.singleton_append]

theorem length_copyPaths_le :
    ∀ (listed todo : List (UInt64 × List UInt8)),
      (environment.copyPaths listed todo).2.length ≤ listed.length + todo.length
  | listed, [] => by rw [copyPaths]; exact Nat.le_add_right _ _
  | listed, entry :: todo => by
    have later := length_copyPaths_le (listed ++ [entry]) todo
    rw [List.length_append, List.length_singleton] at later
    rw [copyPaths]
    split_ifs
    · simp
    · simp only [List.length_cons]
      omega

end PinningEnumerateEnvironment

namespace EbpfObjectTracking

variable {tracking : EbpfObjectTracking}

theorem setObject_objectType {pointer : UInt64} {object updated : EbpfCoreObject}
    (found : tracking.objects pointer = some object) (same : updated.type = object.type) :
    (tracking.setObject pointer updated).objectType = tracking.objectType := by
  funext other
  by_cases here : other = pointer
  · subst here
    simp [objectType, found, same]
  · simp [objectType, tracking.setObject_objects_of_ne updated here]

theorem ebpfObjectAcquireReference_objectType {pointer : UInt64} {userReference : Bool}
    {acquired : EbpfObjectTracking} (succeeded : tracking.ebpfObjectAcquireReference pointer userReference = some acquired) :
    acquired.objectType = tracking.objectType := by
  obtain ⟨object, found, -, rfl⟩ := ebpfObjectAcquireReference_eq_some succeeded
  exact setObject_objectType found rfl

end EbpfObjectTracking

namespace ObjectClients.Tracks

theorem ebpfPinningEntriesReleaseLoop_eq_some {rest : List (UInt64 × Bool)} :
    ∀ (entries : List (UInt64 × List UInt8)) (tracking : EbpfObjectTracking),
      Tracks ⟨tracking, entryReferences entries ++ rest⟩ →
      ∃ released events, ebpfPinningEntriesReleaseLoop tracking entries = some (released, events) ∧
        Tracks ⟨released, rest⟩ ∧ released.pinnedPathCounts = tracking.pinnedPathCounts
  | [], tracking, tracks => ⟨tracking, [], rfl, tracks, rfl⟩
  | (object, path) :: entries, tracking, tracks => by
    have isHeld : (object, false) ∈ entryReferences ((object, path) :: entries) ++ rest := List.mem_cons_self
    obtain ⟨⟨released, events⟩, release⟩ := Option.isSome_iff_exists.mp (tracks.release_isSome isHeld)
    have releasedTracks := tracks.release isHeld release
    rw [entryReferences, List.map_cons, List.cons_append, List.erase_cons_head] at releasedTracks
    obtain ⟨final, later, loop, finalTracks, finalCounts⟩ :=
      ebpfPinningEntriesReleaseLoop_eq_some entries released releasedTracks
    refine ⟨final, events ++ later, ?_, finalTracks, ?_⟩
    · rw [ebpfPinningEntriesReleaseLoop, release, Option.bind_some]
      dsimp only
      rw [loop, Option.map_some]
    · rw [finalCounts, EbpfObjectTracking.ebpfObjectReleaseReference_pinnedPathCounts release]

end ObjectClients.Tracks

namespace PinningState

variable (state : PinningState)

/-- The object and path of the entry at `entry`, where its object has the type. -/
def typedEntry (objectType : EbpfObjectType) (entry : UInt64) : Option (UInt64 × List UInt8) :=
  if state.tracking.objectType (state.memory.entryObjects entry) = some objectType then
    some (state.memory.entryObjects entry, state.memory.strings entry)
  else none

/-- What an enumeration of the type lists: the object and path of each entry whose object
has the type, in bucket order. -/
def enumeration (objectType : EbpfObjectType) : List (UInt64 × List UInt8) :=
  state.table.pinnedEntries.filterMap (state.typedEntry objectType)

/-- `typedEntry` on the entries of a list of the hash table's. -/
def typedEntries (objectType : EbpfObjectType) (walked : List EbpfHashBucketEntry) : List (UInt64 × List UInt8) :=
  walked.filterMap fun entry => state.typedEntry objectType (pointerAt entry.data)

theorem enumeration_eq_typedEntries (objectType : EbpfObjectType) :
    state.enumeration objectType = state.typedEntries objectType state.table.entries :=
  List.filterMap_map

/-- The loop of `ebpf_pinning_table_enumerate_entries` as a walk down a list of the hash
table's entries instead of key after key. -/
def enumerateEntriesWalk (objectType : EbpfObjectType) (length : UInt16) (environment : PinningEnumerateEnvironment) :
    List EbpfHashBucketEntry → EbpfObjectTracking → List (UInt64 × List UInt8) →
      Option (EbpfResult × List (UInt64 × List UInt8) × EbpfObjectTracking)
  | [], tracking, listed => some (.success, listed, tracking)
  | next :: rest, tracking, listed =>
    let object := state.memory.entryObjects (pointerAt next.data)
    (tracking.objectType object).bind fun type =>
      if objectType ≠ type then enumerateEntriesWalk objectType length environment rest tracking listed
      else if length.toNat < listed.length + 1 then none
      else
        (tracking.ebpfObjectAcquireReference object false).bind fun acquired =>
          let result := environment.duplicateResults listed.length
          let listed := listed ++ [(object, state.memory.strings (pointerAt next.data))]
          if result ≠ .success then some (result, listed, acquired)
          else enumerateEntriesWalk objectType length environment rest acquired listed

variable {state} {contents : BoundedMap}

theorem enumerateEntriesLoop_eq_walk (holds : PinningTableHolds state.table state.memory contents)
    (notNull : 0 ∉ state.table.pinnedEntries) (objectType : EbpfObjectType) (length : UInt16)
    (environment : PinningEnumerateEnvironment) :
    ∀ (fuel position : Nat) (previousKey : Option (List UInt8)),
      ebpfHashTableNextKeyPointerAndValue (state.table.readingMemory state.memory) previousKey =
        resultOr .noMoreKeys state.table.entries[position]? →
      state.table.entries.length - position < fuel →
      ∀ tracking listed, state.enumerateEntriesLoop objectType length environment fuel previousKey tracking listed =
        state.enumerateEntriesWalk objectType length environment (state.table.entries.drop position) tracking listed := by
  intro fuel
  induction fuel with
  | zero => intro position previousKey _ enough; omega
  | succ fuel ih =>
    intro position previousKey next enough tracking listed
    rw [enumerateEntriesLoop, next]
    by_cases within : position < state.table.entries.length
    · -- the entry at `position`; its key points to it, so it is not NULL and is passed on
      have stored := holds.entry_stored (List.getElem_mem within)
      have keyNotNull : pointerAt state.table.entries[position].key ≠ 0 := by
        rw [stored.1, pointerAt_uint64Bytes]
        intro zero
        exact notNull (zero ▸ List.mem_map_of_mem (List.getElem_mem within))
      have following : ebpfHashTableNextKeyPointerAndValue (state.table.readingMemory state.memory)
          (some state.table.entries[position].key) = resultOr .noMoreKeys state.table.entries[position + 1]? :=
        holds.represents.nextKeyPointerAndValue_getElem holds.fits position within
      rw [List.getElem?_eq_getElem within, List.drop_eq_getElem_cons within]
      simp only [resultOr, if_neg keyNotNull, ih (position + 1) _ following (by omega)]
      rfl
    · rw [List.getElem?_eq_none (by omega), List.drop_eq_nil_of_le (by omega)]
      rfl

theorem enumerateEntriesWalk_eq_copyPaths {objectType : EbpfObjectType} {length : UInt16}
    {environment : PinningEnumerateEnvironment} {rest : List (UInt64 × Bool)} :
    ∀ (walked : List EbpfHashBucketEntry) (tracking : EbpfObjectTracking) (listed : List (UInt64 × List UInt8)),
      (∀ entry ∈ walked, (state.memory.entryObjects (pointerAt entry.data), true) ∈ rest) →
      ObjectClients.Tracks ⟨tracking, entryReferences listed ++ rest⟩ →
      tracking.objectType = state.tracking.objectType →
      listed.length + (state.typedEntries objectType walked).length ≤ length.toNat →
      ∃ after, state.enumerateEntriesWalk objectType length environment walked tracking listed =
          some ((environment.copyPaths listed (state.typedEntries objectType walked)).1,
            (environment.copyPaths listed (state.typedEntries objectType walked)).2, after) ∧
        ObjectClients.Tracks ⟨after, entryReferences (environment.copyPaths listed (state.typedEntries objectType walked)).2 ++ rest⟩ ∧
        after.pinnedPathCounts = tracking.pinnedPathCounts
  | [], tracking, listed, _, tracks, _, _ => ⟨tracking, rfl, tracks, rfl⟩
  | entry :: walked, tracking, listed, pinned, tracks, types, room => by
    have isHeld : (state.memory.entryObjects (pointerAt entry.data), true) ∈ entryReferences listed ++ rest :=
      List.mem_append_right _ (pinned entry List.mem_cons_self)
    obtain ⟨object, found, -, -⟩ := tracks.found_of_held isHeld
    replace found : tracking.objects (state.memory.entryObjects (pointerAt entry.data)) = some object := found
    have typed : tracking.objectType (state.memory.entryObjects (pointerAt entry.data)) = some object.type := by
      rw [EbpfObjectTracking.objectType, found, Option.map_some]
    have rested : ∀ other ∈ walked, (state.memory.entryObjects (pointerAt other.data), true) ∈ rest :=
      fun other member => pinned other (List.mem_cons_of_mem _ member)
    by_cases listedHere : objectType = object.type
    · -- listed: a reference on the object, then the copy of the path
      have typedCons : state.typedEntries objectType (entry :: walked) =
          (state.memory.entryObjects (pointerAt entry.data), state.memory.strings (pointerAt entry.data)) ::
            state.typedEntries objectType walked := by
        have here : state.typedEntry objectType (pointerAt entry.data) =
            some (state.memory.entryObjects (pointerAt entry.data), state.memory.strings (pointerAt entry.data)) := by
          rw [typedEntry, ← types, typed, if_pos (congrArg some listedHere.symm)]
        simp only [typedEntries, List.filterMap_cons, here]
      obtain ⟨acquired, acquire⟩ := Option.isSome_iff_exists.mp (tracks.acquire_isSome isHeld false)
      have acquiredTracks : ObjectClients.Tracks ⟨acquired, entryReferences (listed ++
          [(state.memory.entryObjects (pointerAt entry.data), state.memory.strings (pointerAt entry.data))]) ++ rest⟩ :=
        (tracks.acquire acquire).perm (by simp [entryReferences, List.perm_middle])
      have acquiredTypes : acquired.objectType = state.tracking.objectType :=
        (EbpfObjectTracking.ebpfObjectAcquireReference_objectType acquire).trans types
      rw [typedCons, List.length_cons] at room
      rw [typedCons]
      simp only [enumerateEntriesWalk, typed, Option.bind_some, if_neg (not_not.mpr listedHere),
        if_neg (show ¬ length.toNat < listed.length + 1 by omega), acquire, PinningEnumerateEnvironment.copyPaths]
      by_cases copied : environment.duplicateResults listed.length = .success
      · -- the copy succeeds and the walk goes on
        obtain ⟨after, walk, afterTracks, afterCounts⟩ := @enumerateEntriesWalk_eq_copyPaths objectType length environment rest walked acquired _ rested
          acquiredTracks acquiredTypes (by rw [List.length_append, List.length_singleton]; omega)
        simp only [if_neg (not_not.mpr copied)]
        refine ⟨after, walk, afterTracks, ?_⟩
        rw [afterCounts, EbpfObjectTracking.ebpfObjectAcquireReference_pinnedPathCounts acquire]
      · simp only [if_pos (show environment.duplicateResults listed.length ≠ .success from copied)]
        exact ⟨acquired, rfl, acquiredTracks, EbpfObjectTracking.ebpfObjectAcquireReference_pinnedPathCounts acquire⟩
    · -- skipped
      have typedCons : state.typedEntries objectType (entry :: walked) = state.typedEntries objectType walked := by
        have here : state.typedEntry objectType (pointerAt entry.data) = none := by
          rw [typedEntry, ← types, typed, if_neg fun same => listedHere (Option.some.inj same).symm]
        simp only [typedEntries, List.filterMap_cons, here]
      rw [typedCons] at room ⊢
      simp only [enumerateEntriesWalk, typed, Option.bind_some, if_pos listedHere]
      exact enumerateEntriesWalk_eq_copyPaths walked tracking listed rested tracks types room

end PinningState

theorem PinningTableHolds.keyCount_toUInt16 {table : EbpfHashTable} {memory : PinningMemory} {contents : BoundedMap}
    (holds : PinningTableHolds table memory contents) :
    (ebpfHashTableKeyCount table).toUInt16 = table.pinnedEntries.length.toUInt16 := by
  rw [EbpfHashTable.keyCount_of_uncounted holds.shaped.uncounted, UInt64.toUInt16_ofNat', EbpfHashTable.pinnedEntries,
    List.length_map]

namespace PinningClients.Tracks

theorem ebpfPinningTableEnumerateEntries_eq_copyPaths (tracks : clients.Tracks) (objectType : EbpfObjectType)
    (environment : PinningEnumerateEnvironment) (allocated : environment.arrayAllocated = true)
    (few : clients.state.table.pinnedEntries.length < 2 ^ 16) (nonempty : clients.state.table.pinnedEntries.length ≠ 0) :
    ∃ after, ObjectClients.Tracks ⟨after, entryReferences (environment.copyPaths [] (clients.state.enumeration objectType)).2 ++
        (clients.held ++ clients.state.pins)⟩ ∧
      after.pinnedPathCounts = clients.state.tracking.pinnedPathCounts ∧
      clients.state.ebpfPinningTableEnumerateEntries objectType environment (clients.state.table.pinnedEntries.length + 1) =
        if (environment.copyPaths [] (clients.state.enumeration objectType)).1 = .success then
          some (.success, (environment.copyPaths [] (clients.state.enumeration objectType)).2.length.toUInt16,
            (environment.copyPaths [] (clients.state.enumeration objectType)).2, after, [])
        else
          (ebpfPinningEntriesRelease after (environment.copyPaths [] (clients.state.enumeration objectType)).2.length.toUInt16
              (environment.copyPaths [] (clients.state.enumeration objectType)).2).map fun (released, events) =>
            ((environment.copyPaths [] (clients.state.enumeration objectType)).1, 0, [], released, events) := by
  obtain ⟨contents, holds⟩ := tracks.holds
  have lengthNat : clients.state.table.pinnedEntries.length.toUInt16.toNat = clients.state.table.pinnedEntries.length := by
    rw [UInt16.toNat_ofNat']
    exact Nat.mod_eq_of_lt few
  have nonzero : clients.state.table.pinnedEntries.length.toUInt16 ≠ 0 :=
    fun zero => nonempty (by rw [← lengthNat, zero]; rfl)
  have fits : sizeOfPinningEntry.toNat * clients.state.table.pinnedEntries.length.toUInt16.toUInt64.toNat < 2 ^ 64 := by
    rw [UInt16.toNat_toUInt64, lengthNat]
    show 24 * _ < _
    omega
  have start : ebpfHashTableNextKeyPointerAndValue (clients.state.table.readingMemory clients.state.memory) none =
      resultOr .noMoreKeys clients.state.table.entries[0]? := by
    rw [nextKeyPointerAndValue_none (show (clients.state.table.readingMemory clients.state.memory).BucketsFit from holds.fits),
      readingMemory_entries, List.head?_eq_getElem?]
  have pinned : ∀ entry ∈ clients.state.table.entries,
      (clients.state.memory.entryObjects (pointerAt entry.data), true) ∈ clients.held ++ clients.state.pins :=
    fun entry member => List.mem_append_right _ (List.mem_map_of_mem (List.mem_map_of_mem member))
  have room : ([] : List (UInt64 × List UInt8)).length +
      (clients.state.typedEntries objectType clients.state.table.entries).length ≤
        clients.state.table.pinnedEntries.length.toUInt16.toNat := by
    rw [lengthNat, List.length_nil, Nat.zero_add, EbpfHashTable.pinnedEntries, List.length_map]
    exact List.length_filterMap_le _ _
  obtain ⟨after, walk, afterTracks, afterCounts⟩ := @PinningState.enumerateEntriesWalk_eq_copyPaths clients.state
    objectType _ environment (clients.held ++ clients.state.pins) clients.state.table.entries clients.state.tracking []
    pinned tracks.objects rfl room
  rw [← PinningState.enumeration_eq_typedEntries] at walk afterTracks
  refine ⟨after, afterTracks, afterCounts, ?_⟩
  rw [PinningState.ebpfPinningTableEnumerateEntries]
  dsimp only
  rw [holds.keyCount_toUInt16, if_neg nonzero, ebpfSafeSizeTMultiply_eq_ok fits]
  dsimp only
  rw [allocated, Bool.not_true, if_neg Bool.false_ne_true,
    PinningState.enumerateEntriesLoop_eq_walk holds tracks.notNull objectType _ environment _ 0 none start
      (by rw [Nat.sub_zero, EbpfHashTable.pinnedEntries, List.length_map] at *; omega),
    List.drop_zero, walk, Option.bind_some]

end PinningClients.Tracks

/-- `ebpf_pinning_table_enumerate_entries` in every state of the callers' runs with fewer than
`2 ^ 16` entries and the array allocated. It lists the object and path of every entry whose
object has the type, in bucket order, with a reference on each object that the caller then
holds. When a path's copy fails it returns that copy's error with no entry, and the
references it took are given back. -/
theorem pinning_table_enumerate_entries_lists_the_entries_of_the_type (tracks : clients.Tracks)
    (objectType : EbpfObjectType) (environment : PinningEnumerateEnvironment)
    (allocated : environment.arrayAllocated = true) (few : clients.state.table.pinnedEntries.length < 2 ^ 16) :
    ∃ result count entries tracking events,
      clients.state.ebpfPinningTableEnumerateEntries objectType environment
          (clients.state.table.pinnedEntries.length + 1) = some (result, count, entries, tracking, events) ∧
      ((∀ i < (clients.state.enumeration objectType).length, environment.duplicateResults i = .success) →
        result = .success ∧ entries = clients.state.enumeration objectType ∧ count = entries.length.toUInt16 ∧
          events = [] ∧ PinningClients.Tracks ⟨{ clients.state with tracking }, entryReferences entries ++ clients.held⟩) ∧
      (∀ failed < (clients.state.enumeration objectType).length, environment.duplicateResults failed ≠ .success →
        (∀ i < failed, environment.duplicateResults i = .success) →
          result = environment.duplicateResults failed ∧ count = 0 ∧ entries = [] ∧
            PinningClients.Tracks ⟨{ clients.state with tracking }, clients.held⟩) := by
  by_cases empty : clients.state.table.pinnedEntries.length = 0
  · -- nothing pinned: the count is zero and nothing is listed
    obtain ⟨contents, holds⟩ := tracks.holds
    have nothing : clients.state.enumeration objectType = [] := by
      rw [PinningState.enumeration, List.eq_nil_of_length_eq_zero empty, List.filterMap_nil]
    rw [PinningState.ebpfPinningTableEnumerateEntries]
    dsimp only
    rw [holds.keyCount_toUInt16, empty, if_pos (show Nat.toUInt16 0 = 0 from rfl), nothing]
    exact ⟨_, _, _, _, _, rfl, fun _ => ⟨rfl, rfl, rfl, rfl, tracks⟩, fun failed within => absurd within (Nat.not_lt_zero _)⟩
  obtain ⟨after, afterTracks, afterCounts, enumerated⟩ :=
    tracks.ebpfPinningTableEnumerateEntries_eq_copyPaths objectType environment allocated few empty
  rw [enumerated]
  have shift : ∀ i, ([] : List (UInt64 × List UInt8)).length + i = i := fun i => by rw [List.length_nil, Nat.zero_add]
  have ofSuccess : (∀ i < (clients.state.enumeration objectType).length, environment.duplicateResults i = .success) →
      environment.copyPaths [] (clients.state.enumeration objectType) = (.success, clients.state.enumeration objectType) :=
    fun copied => PinningEnumerateEnvironment.copyPaths_of_success fun i below => by rw [shift]; exact copied i below
  have ofFailure : ∀ failed < (clients.state.enumeration objectType).length,
      environment.duplicateResults failed ≠ .success → (∀ i < failed, environment.duplicateResults i = .success) →
        (environment.copyPaths [] (clients.state.enumeration objectType)).1 = environment.duplicateResults failed :=
    fun failed within fails before => by
      rw [@PinningEnumerateEnvironment.copyPaths_of_failure environment [] _ failed within (by rwa [shift])
        (fun i below => by rw [shift]; exact before i below), shift]
  by_cases succeeded : (environment.copyPaths [] (clients.state.enumeration objectType)).1 = .success
  · -- every copy succeeded: the caller holds a reference on each entry's object
    have listedAll := PinningEnumerateEnvironment.copyPaths_of_fst_eq_success succeeded
    rw [List.nil_append] at listedAll
    have retracked : PinningClients.Tracks ⟨{ clients.state with tracking := after },
        entryReferences (environment.copyPaths [] (clients.state.enumeration objectType)).2 ++ clients.held⟩ :=
      tracks.retrack (by rw [List.append_assoc]; exact afterTracks) afterCounts
    rw [if_pos succeeded]
    refine ⟨_, _, _, _, _, rfl, fun _ => ⟨rfl, listedAll, rfl, rfl, retracked⟩, fun failed within fails before => ?_⟩
    exact absurd ((ofFailure failed within fails before).symm.trans succeeded) fails
  · -- a copy failed: the references on the entries copied so far are given back
    have copiedLength : (environment.copyPaths [] (clients.state.enumeration objectType)).2.length < 2 ^ 16 := by
      have bound := environment.length_copyPaths_le [] (clients.state.enumeration objectType)
      have listedFew : (clients.state.enumeration objectType).length ≤ clients.state.table.pinnedEntries.length :=
        List.length_filterMap_le _ _
      rw [List.length_nil, Nat.zero_add] at bound
      omega
    obtain ⟨released, events, loop, releasedTracks, releasedCounts⟩ :=
      ObjectClients.Tracks.ebpfPinningEntriesReleaseLoop_eq_some _ after afterTracks
    have release : ebpfPinningEntriesRelease after
        (environment.copyPaths [] (clients.state.enumeration objectType)).2.length.toUInt16
        (environment.copyPaths [] (clients.state.enumeration objectType)).2 = some (released, events) := by
      rw [ebpfPinningEntriesRelease, UInt16.toNat_ofNat', Nat.mod_eq_of_lt copiedLength, if_neg (Nat.lt_irrefl _),
        List.take_length, loop]
    rw [if_neg succeeded, release, Option.map_some]
    refine ⟨_, _, _, _, _, rfl, fun copied => absurd (by rw [ofSuccess copied]) succeeded,
      fun failed within fails before => ⟨ofFailure failed within fails before, rfl, rfl, ?_⟩⟩
    exact tracks.retrack releasedTracks (releasedCounts.trans afterCounts)

theorem pinning_table_enumerate_entries_lists_the_pinned_map :
    ∃ table tracking events clients,
      ebpfPinningTableAllocate mapPathMemory true true 0 false = .ok table ∧
      ebpfObjectTrackingInitiate true 0 false = .ok tracking ∧
      PinningClients.Reaches ⟨table, mapPathMemory, tracking⟩ events clients ∧
      clients.state.enumeration .map = [(16, [47, 109])] ∧
      ∃ result count entries tracking events,
        clients.state.ebpfPinningTableEnumerateEntries .map ⟨true, fun _ => .success⟩
            (clients.state.table.pinnedEntries.length + 1) = some (result, count, entries, tracking, events) ∧
        ((∀ i < (clients.state.enumeration .map).length, EbpfResult.success = .success) →
          result = .success ∧ entries = clients.state.enumeration .map ∧ count = entries.length.toUInt16 ∧
            events = [] ∧ PinningClients.Tracks ⟨{ clients.state with tracking }, entryReferences entries ++ clients.held⟩) ∧
        (∀ failed < (clients.state.enumeration .map).length, EbpfResult.success ≠ .success →
          (∀ i < failed, EbpfResult.success = .success) →
            result = .success ∧ count = 0 ∧ entries = [] ∧
              PinningClients.Tracks ⟨{ clients.state with tracking }, clients.held⟩) :=
  ⟨_, _, _, _, rfl, rfl, (.step (.step .start (show PinningOperation.Admissible _ .createMap from ⟨by decide, by decide⟩) rfl)
      (show PinningOperation.Admissible _ .pinMap from ⟨⟨false, List.mem_singleton_self _⟩, by decide⟩) rfl), by decide,
    pinning_table_enumerate_entries_lists_the_entries_of_the_type (PinningClients.tracks_of_reaches
        (show ebpfPinningTableAllocate mapPathMemory true true 0 false = .ok _ from rfl)
        (show ebpfObjectTrackingInitiate true 0 false = .ok _ from rfl)
        (.step (.step .start (show PinningOperation.Admissible _ .createMap from ⟨by decide, by decide⟩) rfl)
          (show PinningOperation.Admissible _ .pinMap from ⟨⟨false, List.mem_singleton_self _⟩, by decide⟩) rfl))
      .map ⟨true, fun _ => .success⟩ rfl (by decide)⟩

end EbpfWindows.Runtime
