import EbpfWindows.ExecutionContext.HashMap
import EbpfWindows.Lib.Except

/-! Batch enumeration of a map (`ebpf_map_get_next_key_and_value_batch`, `ebpf_maps.c`).

The call copies records, each a key and its value, into the caller's buffer while the
next one fits. Each round asks the map's `next_key_and_value` for the key after
`previous_key`, written at the end of the output, copies its value behind it, and then,
when the caller asked for a delete, deletes `previous_key`; the key just written becomes
the previous key. After the loop the last key written is deleted too. A loop that finds
no more keys after writing a record reports success.

The maps modelled here copy their values; a nested map's record holds the inner object's
ID instead, a store the model leaves out. The loop is given `fuel` rounds and returns
`none` when they run out; a round that copies a record advances `output_length` by a
record, so a loop with room for `n` records ends within `n + 1` rounds.
-/

set_option autoImplicit false

namespace EbpfWindows.ExecutionContext

open EbpfWindows.Runtime

/-- The two entries of `ebpf_map_metadata_table_properties_t` a batch calls, `NULL` as
`none`: `next_key_and_value`, from the map and the previous key to the next key and its
value, and `delete_entry`, with the map afterwards. -/
structure EbpfMapMetadataTableProperties (Map : Type) where
  nextKeyAndValue : Option (Map → Option (List UInt8) → Except EbpfResult (List UInt8 × List UInt8))
  deleteEntry : Option (Map → List UInt8 → EbpfResult × Map)

/-- Where the copy loop stands: the map, `previous_key`, `output_length`, and the records
written below `output_length`. -/
structure BatchCursor (Map : Type) where
  map : Map
  previousKey : Option (List UInt8)
  outputLength : UInt64
  output : List UInt8

section Loop

variable {Map : Type} (nextKeyAndValue : Map → Option (List UInt8) → Except EbpfResult (List UInt8 × List UInt8))
  (deleteEntry : Map → List UInt8 → EbpfResult × Map) (keySize valueSize maximumOutputLength : UInt64)
  (delete : Bool)

/-- A checked step of a round: its value, or a `break` with its result at `cursor`. -/
def orBreak {α : Type} (cursor : BatchCursor Map) : Except EbpfResult α → Except (EbpfResult × BatchCursor Map) α
  | .ok value => .ok value
  | .error result => .error (result, cursor)

/-- The delete of `previous_key` in a round, made when the caller asked for deletes: the
map afterwards, or a `break` with the delete's result. -/
def deletePrevious (cursor : BatchCursor Map) : Except (EbpfResult × BatchCursor Map) Map :=
  match delete, cursor.previousKey with
  | true, some previousKey =>
    match deleteEntry cursor.map previousKey with
    | (.success, map) => .ok map
    | (result, map) => .error (result, { cursor with map })
  | _, _ => .ok cursor.map

/-- The rest of a round once the record fits: the next key written at `output_length`, its
value behind it, the delete of `previous_key`, and `output_length` advanced. -/
def batchCopy (cursor : BatchCursor Map) : Except (EbpfResult × BatchCursor Map) (BatchCursor Map) := do
  let next ← orBreak cursor (nextKeyAndValue cursor.map cursor.previousKey)
  let valueOffset ← orBreak cursor (ebpfSafeSizeTAdd cursor.outputLength keySize)
  let map ← deletePrevious deleteEntry delete cursor
  -- `previous_key` moves to the key just written before `output_length` is advanced
  let outputLength ← orBreak { cursor with map, previousKey := some next.1 } (ebpfSafeSizeTAdd valueOffset valueSize)
  pure { map, previousKey := some next.1, outputLength, output := cursor.output ++ next.1 ++ next.2 }

/-- One round of the `for (;;)` loop: the cursor after one more record, or the result the
loop breaks with and the cursor it leaves. -/
def batchRound (cursor : BatchCursor Map) : Except (EbpfResult × BatchCursor Map) (BatchCursor Map) := do
  let recordLength ← orBreak cursor (ebpfSafeSizeTAdd keySize valueSize)
  let valueOffset ← orBreak cursor (ebpfSafeSizeTAdd cursor.outputLength recordLength)
  -- a full buffer breaks with the add's `EBPF_SUCCESS`
  if valueOffset > maximumOutputLength then .error (.success, cursor)
  else batchCopy nextKeyAndValue deleteEntry keySize valueSize delete cursor

/-- The copy loop with `fuel` rounds: the result it breaks with and its cursor then. -/
def batchLoop : Nat → BatchCursor Map → Option (EbpfResult × BatchCursor Map)
  | 0, _ => none
  | fuel + 1, cursor =>
    match batchRound nextKeyAndValue deleteEntry keySize valueSize maximumOutputLength delete cursor with
    | .ok cursor => batchLoop fuel cursor
    | .error stop => some stop

/-- What follows the loop: `EBPF_NO_MORE_KEYS` after a record becomes success, and the
last key written is deleted when the caller asked for a delete. -/
def batchFinish (stop : EbpfResult × BatchCursor Map) : EbpfResult × UInt64 × List UInt8 × Map :=
  let (result, cursor) := stop
  let result := if result = .noMoreKeys ∧ cursor.outputLength ≠ 0 then .success else result
  match delete, cursor.previousKey with
  | true, some previousKey =>
    if cursor.outputLength ≠ 0 then
      match deleteEntry cursor.map previousKey with
      | (.success, map) => (result, cursor.outputLength, cursor.output, map)
      | (deleteResult, map) => (deleteResult, cursor.outputLength, cursor.output, map)
    else (result, cursor.outputLength, cursor.output, cursor.map)
  | _, _ => (result, cursor.outputLength, cursor.output, cursor.map)

end Loop

/-- `ebpf_map_get_next_key_and_value_batch` on a map of the given key and value sizes, with
`maximum_output_length` bytes of room and the loop given `fuel` rounds: the result,
`*key_and_value_length` and the records below it, and the map. -/
def ebpfMapGetNextKeyAndValueBatch {Map : Type} (properties : Option (EbpfMapMetadataTableProperties Map))
    (keySize valueSize : UInt64) (map : Map) (previousKey : Option (List UInt8)) (maximumOutputLength : UInt64)
    (flags : Nat) (fuel : Nat) : Option (EbpfResult × UInt64 × List UInt8 × Map) :=
  match properties.bind (·.nextKeyAndValue), properties.bind (·.deleteEntry) with
  | none, _ => some (.operationNotSupported, maximumOutputLength, [], map)
  | some _, none => some (.operationNotSupported, maximumOutputLength, [], map)
  | some nextKeyAndValue, some deleteEntry =>
    if previousKey.any (·.length ≠ keySize.toNat) then some (.invalidArgument, maximumOutputLength, [], map)
    else
      let delete := flags &&& ebpfMapFindFlagDelete ≠ 0
      (batchLoop nextKeyAndValue deleteEntry keySize valueSize maximumOutputLength delete fuel
          { map, previousKey, outputLength := 0, output := [] }).map
        (batchFinish deleteEntry delete)

/-! ## What a round does -/

section Round

variable {Map : Type} {nextKeyAndValue : Map → Option (List UInt8) → Except EbpfResult (List UInt8 × List UInt8)}
  {deleteEntry : Map → List UInt8 → EbpfResult × Map} {keySize valueSize maximumOutputLength : UInt64}
  {delete : Bool}

theorem orBreak_eq_ok {α : Type} {cursor : BatchCursor Map} {step : Except EbpfResult α} {value : α} :
    orBreak cursor step = .ok value ↔ step = .ok value := by
  cases step <;> simp [orBreak]

theorem orBreak_eq_error {α : Type} {cursor stop : BatchCursor Map} {step : Except EbpfResult α}
    {result : EbpfResult} (broke : orBreak cursor step = .error (result, stop)) :
    stop.outputLength = cursor.outputLength ∧ stop.output = cursor.output := by
  cases step with
  | ok value => cases broke
  | error failure =>
    cases broke
    exact ⟨rfl, rfl⟩

theorem deletePrevious_eq_error {cursor stop : BatchCursor Map} {result : EbpfResult}
    (broke : deletePrevious deleteEntry delete cursor = .error (result, stop)) :
    stop.outputLength = cursor.outputLength ∧ stop.output = cursor.output := by
  unfold deletePrevious at broke
  split at broke
  · split at broke
    · cases broke
    · cases broke
      exact ⟨rfl, rfl⟩
  · cases broke

theorem batchCopy_eq_ok {cursor next : BatchCursor Map}
    (copied : batchCopy nextKeyAndValue deleteEntry keySize valueSize delete cursor = .ok next) :
    ∃ key value, nextKeyAndValue cursor.map cursor.previousKey = .ok (key, value) ∧
      next.previousKey = some key ∧ next.output = cursor.output ++ key ++ value ∧
      next.outputLength.toNat = cursor.outputLength.toNat + keySize.toNat + valueSize.toNat := by
  unfold batchCopy at copied
  obtain ⟨⟨key, value⟩, found, copied⟩ := Except.bind_eq_ok_iff.mp copied
  obtain ⟨valueOffset, keyAdd, copied⟩ := Except.bind_eq_ok_iff.mp copied
  obtain ⟨map, _, copied⟩ := Except.bind_eq_ok_iff.mp copied
  obtain ⟨outputLength, lengthAdd, copied⟩ := Except.bind_eq_ok_iff.mp copied
  cases copied
  have keyNat := ebpfSafeSizeTAdd_ok_toNat (orBreak_eq_ok.mp keyAdd)
  have lengthNat := ebpfSafeSizeTAdd_ok_toNat (orBreak_eq_ok.mp lengthAdd)
  refine ⟨key, value, orBreak_eq_ok.mp found, rfl, rfl, ?_⟩
  dsimp only
  omega

theorem batchCopy_eq_error {cursor stop : BatchCursor Map} {result : EbpfResult}
    (copied : batchCopy nextKeyAndValue deleteEntry keySize valueSize delete cursor = .error (result, stop)) :
    stop.outputLength = cursor.outputLength ∧ stop.output = cursor.output := by
  unfold batchCopy at copied
  rcases Except.bind_eq_error_iff.mp copied with broke | ⟨_, _, copied⟩
  · exact orBreak_eq_error broke
  rcases Except.bind_eq_error_iff.mp copied with broke | ⟨_, _, copied⟩
  · exact orBreak_eq_error broke
  rcases Except.bind_eq_error_iff.mp copied with broke | ⟨_, _, copied⟩
  · exact deletePrevious_eq_error broke
  rcases Except.bind_eq_error_iff.mp copied with broke | ⟨_, _, copied⟩
  · obtain ⟨length, output⟩ := orBreak_eq_error broke
    exact ⟨length, output⟩
  · cases copied

theorem batchRound_eq_ok {cursor next : BatchCursor Map}
    (round : batchRound nextKeyAndValue deleteEntry keySize valueSize maximumOutputLength delete cursor = .ok next) :
    ∃ key value, nextKeyAndValue cursor.map cursor.previousKey = .ok (key, value) ∧
      next.previousKey = some key ∧ next.output = cursor.output ++ key ++ value ∧
      next.outputLength.toNat = cursor.outputLength.toNat + keySize.toNat + valueSize.toNat ∧
      next.outputLength ≤ maximumOutputLength := by
  unfold batchRound at round
  obtain ⟨recordLength, recordAdd, round⟩ := Except.bind_eq_ok_iff.mp round
  obtain ⟨valueOffset, offsetAdd, round⟩ := Except.bind_eq_ok_iff.mp round
  split_ifs at round with full
  obtain ⟨key, value, found, previous, output, length⟩ := batchCopy_eq_ok round
  have recordNat := ebpfSafeSizeTAdd_ok_toNat (orBreak_eq_ok.mp recordAdd)
  have offsetNat := ebpfSafeSizeTAdd_ok_toNat (orBreak_eq_ok.mp offsetAdd)
  have fits := UInt64.le_iff_toNat_le.mp (UInt64.not_lt.mp full)
  refine ⟨key, value, found, previous, output, length, ?_⟩
  rw [UInt64.le_iff_toNat_le]
  omega

theorem batchRound_eq_error {cursor stop : BatchCursor Map} {result : EbpfResult}
    (round : batchRound nextKeyAndValue deleteEntry keySize valueSize maximumOutputLength delete cursor =
      .error (result, stop)) :
    stop.outputLength = cursor.outputLength ∧ stop.output = cursor.output := by
  unfold batchRound at round
  rcases Except.bind_eq_error_iff.mp round with broke | ⟨_, _, round⟩
  · exact orBreak_eq_error broke
  rcases Except.bind_eq_error_iff.mp round with broke | ⟨_, _, round⟩
  · exact orBreak_eq_error broke
  split_ifs at round
  · cases round
    exact ⟨rfl, rfl⟩
  · exact batchCopy_eq_error round

end Round

/-! ## The records a batch reports -/

section Records

variable {Map : Type} {nextKeyAndValue : Map → Option (List UInt8) → Except EbpfResult (List UInt8 × List UInt8)}
  {deleteEntry : Map → List UInt8 → EbpfResult × Map} {keySize valueSize maximumOutputLength : UInt64}
  {delete : Bool}

/-- `next_key_and_value` writes whole keys and hands back whole values. -/
def RecordSized (nextKeyAndValue : Map → Option (List UInt8) → Except EbpfResult (List UInt8 × List UInt8))
    (keySize valueSize : UInt64) : Prop :=
  ∀ map previousKey key value, nextKeyAndValue map previousKey = .ok (key, value) →
    key.length = keySize.toNat ∧ value.length = valueSize.toNat

/-- The bytes below `output_length` are whole records, and `output_length` is within the
caller's room. -/
structure BatchCursor.Fills (keySize valueSize maximumOutputLength : UInt64) (cursor : BatchCursor Map) :
    Prop where
  length : cursor.output.length = cursor.outputLength.toNat
  whole : keySize.toNat + valueSize.toNat ∣ cursor.outputLength.toNat
  room : cursor.outputLength ≤ maximumOutputLength

theorem BatchCursor.Fills.frame {cursor stop : BatchCursor Map}
    (fills : cursor.Fills keySize valueSize maximumOutputLength)
    (same : stop.outputLength = cursor.outputLength ∧ stop.output = cursor.output) :
    stop.Fills keySize valueSize maximumOutputLength := by
  obtain ⟨sameLength, sameOutput⟩ := same
  exact ⟨sameOutput ▸ sameLength ▸ fills.length, sameLength ▸ fills.whole, sameLength ▸ fills.room⟩

theorem batchRound_fills (sized : RecordSized nextKeyAndValue keySize valueSize) {cursor next : BatchCursor Map}
    (fills : cursor.Fills keySize valueSize maximumOutputLength)
    (round : batchRound nextKeyAndValue deleteEntry keySize valueSize maximumOutputLength delete cursor = .ok next) :
    next.Fills keySize valueSize maximumOutputLength := by
  obtain ⟨key, value, found, _, output, length, room⟩ := batchRound_eq_ok round
  obtain ⟨keyLength, valueLength⟩ := sized _ _ _ _ found
  refine ⟨?_, ?_, room⟩
  · rw [output, List.length_append, List.length_append, fills.length, keyLength, valueLength, length]
  · rw [length, Nat.add_assoc]
    exact Nat.dvd_add fills.whole (dvd_refl _)

theorem batchLoop_fills (sized : RecordSized nextKeyAndValue keySize valueSize) :
    ∀ (fuel : Nat) (cursor : BatchCursor Map) {result : EbpfResult} {stop : BatchCursor Map},
      cursor.Fills keySize valueSize maximumOutputLength →
      batchLoop nextKeyAndValue deleteEntry keySize valueSize maximumOutputLength delete fuel cursor =
        some (result, stop) →
      stop.Fills keySize valueSize maximumOutputLength := by
  intro fuel
  induction fuel with
  | zero => intro cursor result stop _ loop; cases loop
  | succ fuel ih =>
    intro cursor result stop fills loop
    unfold batchLoop at loop
    split at loop
    case h_1 next round => exact ih next (batchRound_fills sized fills round) loop
    case h_2 broke round =>
      cases loop
      exact fills.frame (batchRound_eq_error round)

theorem batchFinish_records (stop : EbpfResult × BatchCursor Map) :
    (batchFinish deleteEntry delete stop).2.1 = stop.2.outputLength ∧
      (batchFinish deleteEntry delete stop).2.2.1 = stop.2.output := by
  obtain ⟨result, cursor⟩ := stop
  simp only [batchFinish]
  split
  · split
    · split <;> exact ⟨rfl, rfl⟩
    · exact ⟨rfl, rfl⟩
  · exact ⟨rfl, rfl⟩

theorem batch_reports_whole_records (sized : RecordSized nextKeyAndValue keySize valueSize) {map final : Map}
    {previousKey : Option (List UInt8)} {flags fuel : Nat} {result : EbpfResult} {length : UInt64}
    {output : List UInt8} (keyed : previousKey.all (·.length = keySize.toNat))
    (batch : ebpfMapGetNextKeyAndValueBatch (some ⟨some nextKeyAndValue, some deleteEntry⟩) keySize valueSize map
      previousKey maximumOutputLength flags fuel = some (result, length, output, final)) :
    output.length = length.toNat ∧ keySize.toNat + valueSize.toNat ∣ length.toNat ∧ length ≤ maximumOutputLength := by
  have rightLength : previousKey.any (·.length ≠ keySize.toNat) = false := by
    cases previousKey <;> simp_all
  simp only [ebpfMapGetNextKeyAndValueBatch, Option.bind_some, rightLength, Bool.false_eq_true, if_false] at batch
  obtain ⟨stop, loop, finished⟩ := Option.map_eq_some_iff.mp batch
  have start : BatchCursor.Fills keySize valueSize maximumOutputLength
      { map, previousKey, outputLength := 0, output := [] } :=
    ⟨rfl, Nat.dvd_zero _, UInt64.zero_le⟩
  have stopped := batchLoop_fills sized fuel _ start loop
  have reported : (batchFinish deleteEntry (flags &&& ebpfMapFindFlagDelete ≠ 0) stop).2.1 = stop.2.outputLength ∧
      (batchFinish deleteEntry (flags &&& ebpfMapFindFlagDelete ≠ 0) stop).2.2.1 = stop.2.output :=
    batchFinish_records stop
  obtain ⟨reportedLength, reportedOutput⟩ := reported
  rw [finished] at reportedLength reportedOutput
  dsimp only at reportedLength reportedOutput
  rw [reportedLength, reportedOutput]
  exact ⟨stopped.length, stopped.whole, stopped.room⟩

end Records

/-! ## The loop ends -/

section Termination

variable {Map : Type} {nextKeyAndValue : Map → Option (List UInt8) → Except EbpfResult (List UInt8 × List UInt8)}
  {deleteEntry : Map → List UInt8 → EbpfResult × Map} {keySize valueSize maximumOutputLength : UInt64}
  {delete : Bool}

theorem batchLoop_isSome (positive : 0 < keySize.toNat + valueSize.toNat) :
    ∀ (fuel : Nat) (cursor : BatchCursor Map), maximumOutputLength.toNat - cursor.outputLength.toNat < fuel →
      (batchLoop nextKeyAndValue deleteEntry keySize valueSize maximumOutputLength delete fuel cursor).isSome := by
  intro fuel
  induction fuel with
  | zero => intro cursor enough; omega
  | succ fuel ih =>
    intro cursor enough
    unfold batchLoop
    split
    case h_1 next round =>
      obtain ⟨_, _, _, _, _, length, room⟩ := batchRound_eq_ok round
      rw [UInt64.le_iff_toNat_le] at room
      exact ih next (by omega)
    case h_2 => rfl

theorem ebpfMapGetNextKeyAndValueBatch_isSome {properties : Option (EbpfMapMetadataTableProperties Map)}
    {map : Map} {previousKey : Option (List UInt8)} {flags fuel : Nat}
    (positive : 0 < keySize.toNat + valueSize.toNat) (enough : maximumOutputLength.toNat < fuel) :
    (ebpfMapGetNextKeyAndValueBatch properties keySize valueSize map previousKey maximumOutputLength flags
      fuel).isSome := by
  unfold ebpfMapGetNextKeyAndValueBatch
  split
  · rfl
  · rfl
  · split
    · rfl
    · rw [Option.isSome_map]
      exact batchLoop_isSome positive fuel _ (by simpa using enough)

end Termination

theorem batch_without_room_succeeds_with_nothing {Map : Type}
    {nextKeyAndValue : Map → Option (List UInt8) → Except EbpfResult (List UInt8 × List UInt8)}
    {deleteEntry : Map → List UInt8 → EbpfResult × Map} {keySize valueSize maximumOutputLength : UInt64}
    {map : Map} {previousKey : Option (List UInt8)} {flags fuel : Nat}
    (fits : keySize.toNat + valueSize.toNat < 2 ^ 64) (short : maximumOutputLength.toNat < keySize.toNat + valueSize.toNat)
    (keyed : previousKey.all (·.length = keySize.toNat)) :
    ebpfMapGetNextKeyAndValueBatch (some ⟨some nextKeyAndValue, some deleteEntry⟩) keySize valueSize map previousKey
      maximumOutputLength flags (fuel + 1) = some (.success, 0, [], map) := by
  have rightLength : previousKey.any (·.length ≠ keySize.toNat) = false := by
    cases previousKey <;> simp_all
  have recordFits : (0 : UInt64).toNat + (keySize + valueSize).toNat < 2 ^ 64 := by
    rw [ebpfSafeSizeTAdd_toNat fits]
    simpa using fits
  have full : 0 + (keySize + valueSize) > maximumOutputLength := by
    rw [gt_iff_lt, UInt64.lt_iff_toNat_lt, ebpfSafeSizeTAdd_toNat recordFits, ebpfSafeSizeTAdd_toNat fits]
    simpa using short
  simp only [ebpfMapGetNextKeyAndValueBatch, Option.bind_some, rightLength, batchLoop, batchRound,
    ebpfSafeSizeTAdd_eq_ok fits, ebpfSafeSizeTAdd_eq_ok recordFits, orBreak, Except.ok_bind, if_pos full,
    Bool.false_eq_true, if_false, Option.map_some, Option.some.injEq]
  simp only [batchFinish]
  split <;> simp

/-! ## Hash maps -/

/-- `_next_hash_map_key_and_value`: the key after the previous one and its value. -/
def nextHashMapKeyAndValue (table : EbpfHashTable) (previousKey : Option (List UInt8)) :
    Except EbpfResult (List UInt8 × List UInt8) :=
  (ebpfHashTableNextKeyPointerAndValue table previousKey).map fun entry => (entry.key, entry.data)

/-- The batch entries of `BPF_MAP_TYPE_HASH`, whose deletes meet `environment`. -/
def hashMapProperties (environment : HashTableEnvironment) : EbpfMapMetadataTableProperties EbpfHashTable where
  nextKeyAndValue := some nextHashMapKeyAndValue
  deleteEntry := some fun table key => deleteHashMapEntry table key environment

/-- On a hash map holding keys 2 and 1 in that order, a batch with
`EBPF_MAP_FIND_FLAG_DELETE` after key 2 returns the one record of key 1 and deletes key 2
as well, a key it never returned; and a batch after key 1, which has no successor, into a
buffer shorter than a record reports success with nothing written. -/
theorem batch_deletes_the_previous_key_and_succeeds_without_records :
    ∃ table, ebpfHashTableCreate ⟨4, 4, none, 0, 0, false, 0⟩ true 0 false = .ok table ∧
      let environment : HashTableEnvironment := ⟨true, .success, true, some 4096, .success⟩
      let stored := (ebpfHashTableUpdate (ebpfHashTableUpdate table [1, 0, 0, 0] (some [10, 0, 0, 0]) .any
        environment).2 [2, 0, 0, 0] (some [20, 0, 0, 0]) .any environment).2
      nextHashMapKeyAndValue stored none = .ok ([2, 0, 0, 0], [20, 0, 0, 0]) ∧
      nextHashMapKeyAndValue stored (some [2, 0, 0, 0]) = .ok ([1, 0, 0, 0], [10, 0, 0, 0]) ∧
      nextHashMapKeyAndValue stored (some [1, 0, 0, 0]) = .error .noMoreKeys ∧
      (∃ after, ebpfMapGetNextKeyAndValueBatch (some (hashMapProperties environment)) 4 4 stored
          (some [2, 0, 0, 0]) 16 ebpfMapFindFlagDelete 3 = some (.success, 8, [1, 0, 0, 0, 10, 0, 0, 0], after) ∧
        (ebpfHashTableFind after [2, 0, 0, 0]).1 = .keyNotFound) ∧
      (ebpfMapGetNextKeyAndValueBatch (some (hashMapProperties environment)) 4 4 stored (some [1, 0, 0, 0]) 4 0
        1).map (fun outcome => (outcome.1, outcome.2.1)) = some (.success, 0) :=
  ⟨_, rfl, by decide, by decide, by decide, ⟨_, rfl, by decide⟩, by decide⟩

end EbpfWindows.ExecutionContext
