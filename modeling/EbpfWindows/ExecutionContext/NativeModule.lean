import EbpfWindows.Runtime.Result
import Mathlib.Data.List.Basic

/-! A native module's instance (`ebpf_native.c`): its maps and programs, the lookups by name,
and `_ebpf_native_set_initial_map_values`.

A map's entry is the `map_entry_t` the module declares, with its `ebpf_map_definition_in_file_t`
flattened into it; `ebpf_handle_invalid` is `none`. The instance's arrays are lists, and a
pointer into the map array (`inner_map`) is an index into it.

The initial values are the table a module's `map_initial_values` returns: for each named map,
a list of names (a NULL hole is `none`) of the maps or programs whose handles go into slots
`0, 1, ...`. `ebpf_core_update_map_with_handle` is a parameter, and the run returns the calls
it made. The source reads `native_map_to_insert->handle` after a test of the wrong pointer:
a run that would read through NULL ends in `nullDereference` instead of a result.
-/

set_option autoImplicit false

namespace EbpfWindows.ExecutionContext

/-- The map types that `ebpf_native.c` tells apart; every other type is `other`. -/
inductive BpfMapType where
  | hash
  | array
  | progArray
  | hashOfMaps
  | arrayOfMaps
  | other
  deriving DecidableEq, Repr

structure MapEntry where
  name : List Char
  type : BpfMapType
  keySize : Nat
  valueSize : Nat
  maxEntries : Nat
  pinning : Nat
  id : Nat
  innerId : Nat
  innerMapIdx : UInt32
  deriving DecidableEq, Repr

/-- `ebpf_native_map_t`, without the entry pointer and `inner_map_handle`, which nothing here
reads. The original ids are the source's `int32_t`, `-1` for no template; `innerMap` is the
index of the cached template, `pinPath` the canonical pin path. -/
structure EbpfNativeMap where
  entry : MapEntry
  originalId : Int32
  innerMapOriginalId : Int32
  handle : Option Nat
  innerMap : Option Nat
  pinPath : Option (List Char)
  pinned : Bool
  reused : Bool
  deriving DecidableEq, Repr

structure EbpfNativeProgram where
  name : List Char
  handle : Option Nat
  deriving DecidableEq, Repr

structure EbpfNativeModuleInstance where
  maps : List EbpfNativeMap
  programs : List EbpfNativeProgram
  deriving DecidableEq, Repr

def ebpfNativeIsMapInMap (map : EbpfNativeMap) : Bool :=
  map.entry.type == .hashOfMaps || map.entry.type == .arrayOfMaps

def ebpfNativeFindMapByName (moduleInstance : EbpfNativeModuleInstance) (name : List Char) : Option EbpfNativeMap :=
  moduleInstance.maps.find? fun map => map.entry.name == name

def ebpfNativeFindProgramByName (moduleInstance : EbpfNativeModuleInstance) (name : List Char) :
    Option EbpfNativeProgram :=
  moduleInstance.programs.find? fun program => program.name == name

structure MapInitialValues where
  name : List Char
  values : List (Option (List Char))
  deriving DecidableEq, Repr

/-- The arguments of one `ebpf_core_update_map_with_handle` call; the key is `(uint32_t)j`. -/
structure MapUpdate where
  mapHandle : Option Nat
  key : Nat
  keySize : Nat
  value : Option Nat
  deriving DecidableEq, Repr

inductive InitialValuesOutcome where
  | returned (result : EbpfResult)
  | nullDereference
  deriving DecidableEq, Repr

/-- The handle that value `value` of `mapToUpdate` names, or how the run stops. -/
def handleToInsert (moduleInstance : EbpfNativeModuleInstance) (mapToUpdate : EbpfNativeMap) (value : List Char) :
    Except InitialValuesOutcome (Option Nat) :=
  if ebpfNativeIsMapInMap mapToUpdate then
    -- the check after the lookup tests `native_map_to_update`, which is not NULL here, so a
    -- name that finds no map has its handle read through NULL
    match ebpfNativeFindMapByName moduleInstance value with
    | none => .error .nullDereference
    | some mapToInsert => .ok mapToInsert.handle
  else if mapToUpdate.entry.type = .progArray then
    match ebpfNativeFindProgramByName moduleInstance value with
    | none => .error (.returned .invalidArgument)
    | some program => .ok program.handle
  else .error (.returned .invalidArgument)

/-- The inner loop over the values of one map, from slot `j` on. -/
def setMapValues (moduleInstance : EbpfNativeModuleInstance) (update : MapUpdate → EbpfResult)
    (mapToUpdate : EbpfNativeMap) : Nat → List (Option (List Char)) → List MapUpdate →
      InitialValuesOutcome × List MapUpdate
  | _, [], updates => (.returned .success, updates)
  | j, none :: rest, updates => setMapValues moduleInstance update mapToUpdate (j + 1) rest updates
  | j, some value :: rest, updates =>
    match handleToInsert moduleInstance mapToUpdate value with
    | .error outcome => (outcome, updates)
    | .ok handle =>
      let call : MapUpdate := ⟨mapToUpdate.handle, j, mapToUpdate.entry.keySize, handle⟩
      if update call = .success then setMapValues moduleInstance update mapToUpdate (j + 1) rest (updates ++ [call])
      else (.returned (update call), updates ++ [call])

/-- The outer loop over the table, with the update calls made so far. -/
def setInitialValuesLoop (moduleInstance : EbpfNativeModuleInstance) (update : MapUpdate → EbpfResult) :
    List MapInitialValues → List MapUpdate → InitialValuesOutcome × List MapUpdate
  | [], updates => (.returned .success, updates)
  | initial :: rest, updates =>
    match ebpfNativeFindMapByName moduleInstance initial.name with
    | none => (.returned .invalidArgument, updates)
    | some mapToUpdate =>
      if mapToUpdate.reused then setInitialValuesLoop moduleInstance update rest updates
      else
        match setMapValues moduleInstance update mapToUpdate 0 initial.values updates with
        | (.returned .success, updates) => setInitialValuesLoop moduleInstance update rest updates
        | stopped => stopped

def ebpfNativeSetInitialMapValues (moduleInstance : EbpfNativeModuleInstance) (update : MapUpdate → EbpfResult)
    (table : List MapInitialValues) : InitialValuesOutcome × List MapUpdate :=
  setInitialValuesLoop moduleInstance update table []

theorem handleToInsert_eq_nullDereference {moduleInstance : EbpfNativeModuleInstance}
    {mapToUpdate : EbpfNativeMap} {value : List Char} :
    handleToInsert moduleInstance mapToUpdate value = .error .nullDereference ↔
      ebpfNativeIsMapInMap mapToUpdate = true ∧ ebpfNativeFindMapByName moduleInstance value = none := by
  unfold handleToInsert
  split_ifs with mapInMap
  · cases ebpfNativeFindMapByName moduleInstance value <;> simp [mapInMap]
  · split <;> simp [mapInMap]
  · simp [mapInMap]

theorem handleToInsert_error {moduleInstance : EbpfNativeModuleInstance} {mapToUpdate : EbpfNativeMap}
    {value : List Char} {outcome : InitialValuesOutcome}
    (refused : handleToInsert moduleInstance mapToUpdate value = .error outcome) :
    outcome = .nullDereference ∨ outcome = .returned .invalidArgument := by
  unfold handleToInsert at refused
  split_ifs at refused
  · split at refused
    · exact .inl (Except.error.inj refused).symm
    · cases refused
  · split at refused
    · exact .inr (Except.error.inj refused).symm
    · cases refused
  · exact .inr (Except.error.inj refused).symm

theorem setMapValues_nullDereference {moduleInstance : EbpfNativeModuleInstance}
    {update : MapUpdate → EbpfResult} {mapToUpdate : EbpfNativeMap} :
    ∀ {j : Nat} {values : List (Option (List Char))} {updates out : List MapUpdate},
      setMapValues moduleInstance update mapToUpdate j values updates = (.nullDereference, out) →
      ebpfNativeIsMapInMap mapToUpdate = true ∧
        ∃ name, some name ∈ values ∧ ebpfNativeFindMapByName moduleInstance name = none
  | _, [], _, _, stopped => by simp [setMapValues] at stopped
  | j, none :: rest, updates, out, stopped => by
    simp only [setMapValues] at stopped
    obtain ⟨mapInMap, name, member, missing⟩ := setMapValues_nullDereference stopped
    exact ⟨mapInMap, name, List.mem_cons_of_mem _ member, missing⟩
  | j, some value :: rest, updates, out, stopped => by
    simp only [setMapValues] at stopped
    split at stopped
    · next outcome inserted =>
      obtain ⟨rfl, -⟩ := Prod.mk.inj stopped
      obtain ⟨mapInMap, missing⟩ := handleToInsert_eq_nullDereference.mp inserted
      exact ⟨mapInMap, value, List.mem_cons_self, missing⟩
    · split_ifs at stopped
      · obtain ⟨mapInMap, name, member, missing⟩ := setMapValues_nullDereference stopped
        exact ⟨mapInMap, name, List.mem_cons_of_mem _ member, missing⟩
      · cases stopped

theorem setMapValues_success {moduleInstance : EbpfNativeModuleInstance}
    {update : MapUpdate → EbpfResult} {mapToUpdate : EbpfNativeMap} :
    ∀ {j : Nat} {values : List (Option (List Char))} {updates out : List MapUpdate},
      setMapValues moduleInstance update mapToUpdate j values updates = (.returned .success, out) →
      (∀ call ∈ updates, call ∈ out) ∧
        ∀ k name, values[k]? = some (some name) → ∃ handle,
          handleToInsert moduleInstance mapToUpdate name = .ok handle ∧
            ⟨mapToUpdate.handle, j + k, mapToUpdate.entry.keySize, handle⟩ ∈ out
  | _, [], updates, out, finished => by
    obtain ⟨-, rfl⟩ := Prod.mk.inj finished
    exact ⟨fun _ member => member, fun k name found => by simp at found⟩
  | j, none :: rest, updates, out, finished => by
    simp only [setMapValues] at finished
    obtain ⟨kept, filled⟩ := setMapValues_success finished
    refine ⟨kept, fun k name found => ?_⟩
    cases k with
    | zero => simp at found
    | succ k =>
      obtain ⟨handle, inserted, written⟩ := filled k name (by simpa using found)
      exact ⟨handle, inserted, by rw [Nat.add_comm k 1, ← Nat.add_assoc]; exact written⟩
  | j, some value :: rest, updates, out, finished => by
    simp only [setMapValues] at finished
    split at finished
    · next outcome inserted =>
      obtain ⟨rfl, -⟩ := Prod.mk.inj finished
      rcases handleToInsert_error inserted with wrong | wrong <;> cases wrong
    · next handle inserted =>
      split_ifs at finished with succeeded
      · obtain ⟨kept, filled⟩ := setMapValues_success finished
        refine ⟨fun call member => kept call (List.mem_append_left _ member), fun k name found => ?_⟩
        cases k with
        | zero =>
          obtain rfl : value = name := by simpa using found
          exact ⟨handle, inserted, kept _ (List.mem_append_right _ (List.mem_singleton_self _))⟩
        | succ k =>
          obtain ⟨handle, inserted, written⟩ := filled k name (by simpa using found)
          exact ⟨handle, inserted, by rw [Nat.add_comm k 1, ← Nat.add_assoc]; exact written⟩
      · obtain ⟨same, -⟩ := Prod.mk.inj finished
        exact absurd (InitialValuesOutcome.returned.inj same) succeeded

theorem setInitialValuesLoop_nullDereference {moduleInstance : EbpfNativeModuleInstance}
    {update : MapUpdate → EbpfResult} :
    ∀ {table : List MapInitialValues} {updates out : List MapUpdate},
      setInitialValuesLoop moduleInstance update table updates = (.nullDereference, out) →
      ∃ initial ∈ table, ∃ mapToUpdate, ebpfNativeFindMapByName moduleInstance initial.name = some mapToUpdate ∧
        mapToUpdate.reused = false ∧ ebpfNativeIsMapInMap mapToUpdate = true ∧
        ∃ name, some name ∈ initial.values ∧ ebpfNativeFindMapByName moduleInstance name = none
  | [], _, _, stopped => by simp [setInitialValuesLoop] at stopped
  | initial :: rest, updates, out, stopped => by
    simp only [setInitialValuesLoop] at stopped
    split at stopped
    · cases stopped
    · next mapToUpdate found =>
      split_ifs at stopped with reused
      · obtain ⟨other, member, found⟩ := setInitialValuesLoop_nullDereference stopped
        exact ⟨other, List.mem_cons_of_mem _ member, found⟩
      · split at stopped
        · obtain ⟨other, member, found⟩ := setInitialValuesLoop_nullDereference stopped
          exact ⟨other, List.mem_cons_of_mem _ member, found⟩
        · obtain ⟨mapInMap, name, member, missing⟩ := setMapValues_nullDereference stopped
          exact ⟨initial, List.mem_cons_self, mapToUpdate, found, by simpa using reused, mapInMap, name, member,
            missing⟩

theorem setInitialValuesLoop_success {moduleInstance : EbpfNativeModuleInstance}
    {update : MapUpdate → EbpfResult} :
    ∀ {table : List MapInitialValues} {updates out : List MapUpdate},
      setInitialValuesLoop moduleInstance update table updates = (.returned .success, out) →
      (∀ call ∈ updates, call ∈ out) ∧
        ∀ initial ∈ table, ∃ mapToUpdate, ebpfNativeFindMapByName moduleInstance initial.name = some mapToUpdate ∧
          (mapToUpdate.reused = true ∨ ∀ j name, initial.values[j]? = some (some name) → ∃ handle,
            handleToInsert moduleInstance mapToUpdate name = .ok handle ∧
              ⟨mapToUpdate.handle, j, mapToUpdate.entry.keySize, handle⟩ ∈ out)
  | [], updates, out, finished => by
    obtain ⟨-, rfl⟩ := Prod.mk.inj finished
    exact ⟨fun _ member => member, fun _ member => by cases member⟩
  | initial :: rest, updates, out, finished => by
    simp only [setInitialValuesLoop] at finished
    split at finished
    · cases finished
    · next mapToUpdate found =>
      split_ifs at finished with reused
      · obtain ⟨kept, filled⟩ := setInitialValuesLoop_success finished
        refine ⟨kept, fun other member => ?_⟩
        rcases List.mem_cons.mp member with rfl | member
        · exact ⟨mapToUpdate, found, .inl reused⟩
        · exact filled other member
      · split at finished
        · next middle valued =>
          obtain ⟨kept, filled⟩ := setInitialValuesLoop_success finished
          obtain ⟨keptValues, written⟩ := setMapValues_success valued
          refine ⟨fun call member => kept call (keptValues call member), fun other member => ?_⟩
          rcases List.mem_cons.mp member with rfl | member
          · refine ⟨mapToUpdate, found, .inr fun j name named => ?_⟩
            obtain ⟨handle, inserted, call⟩ := written j name named
            exact ⟨handle, inserted, kept _ (by simpa using call)⟩
          · exact filled other member
        · next notSuccess =>
          exact absurd finished (notSuccess out)

/-- A hash of maps whose initial value names a map the module does not have: the source reads
the handle of the missing map through NULL before any update is made. -/
theorem native_initial_values_read_a_missing_inner_map_through_null :
    ebpfNativeFindMapByName
        ⟨[⟨⟨"outer".toList, .hashOfMaps, 4, 4, 1, 0, 0, 0, 0⟩, 1, -1, some 7, none, none, false, false⟩], []⟩
        "inner".toList = none ∧
      ebpfNativeSetInitialMapValues
        ⟨[⟨⟨"outer".toList, .hashOfMaps, 4, 4, 1, 0, 0, 0, 0⟩, 1, -1, some 7, none, none, false, false⟩], []⟩
        (fun _ => .success) [⟨"outer".toList, [some "inner".toList]⟩] = (.nullDereference, []) := by
  decide

end EbpfWindows.ExecutionContext
