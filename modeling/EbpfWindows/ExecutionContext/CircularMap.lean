import EbpfWindows.Runtime.Result
import EbpfWindows.Lib.CircularIndex
import EbpfWindows.ExecutionContext.MapDefinition
import Mathlib.Data.List.Induction

/-! Queue and stack maps (`ebpf_core_circular_map_t` in `ebpf_maps.c`).

The map keeps one slot per entry and two `size_t` cursors. A queue reads and
removes at `begin`; a stack reads and removes just before `end`; both push at
`end`. A full map and an empty one both have `begin = end` and are told apart
only by whether the slot at `end` holds a value. Each slot holds a pointer to a
private copy of a pushed value; the copy is modelled by the value itself, and
the epoch-deferred frees of popped or replaced copies are not modelled.

The abstract model is a list of at most `max_entries` values. The
representation `Represents` ties the slots and cursors to that list, and every
operation on the map is shown to act on the list as the abstract operations
below do.
-/

set_option autoImplicit false

namespace EbpfWindows.ExecutionContext

open CircularIndex

/-- The two kinds of circular map: `EBPF_CORE_QUEUE` and `EBPF_CORE_STACK`. -/
inductive CircularMapType where
  | queue
  | stack
  deriving DecidableEq, Repr

structure EbpfCoreCircularMap (V : Type) where
  maxEntries : UInt32
  begin : UInt64
  «end» : UInt64
  type : CircularMapType
  slots : Nat → Option V

variable {V : Type}

/-- `_ebpf_core_circular_map_add`: the sum is computed in `size_t`, where
`(size_t)delta` of a negative `delta` wraps. Proofs use it through the two
lemmas of the cursor section only. -/
@[irreducible] def ebpfCoreCircularMapAdd (map : EbpfCoreCircularMap V) (value : UInt64) (delta : Int) : UInt64 :=
  (map.maxEntries.toUInt64 + value + UInt64.ofInt delta) % map.maxEntries.toUInt64

/-- `_ebpf_core_circular_map_peek_or_pop`: the value read (the copy a pointer
designates in the source) and the map afterwards. -/
def ebpfCoreCircularMapPeekOrPop (map : EbpfCoreCircularMap V) (pop : Bool) :
    Option V × EbpfCoreCircularMap V :=
  match map.type with
  | .queue =>
    match map.slots map.begin.toNat with
    | none => (none, map)
    | some value =>
      if pop then
        (some value, { map with
          slots := Function.update map.slots map.begin.toNat none
          begin := ebpfCoreCircularMapAdd map map.begin 1 })
      else (some value, map)
  | .stack =>
    -- `new_end` is the cell just before `end`.
    match map.slots (ebpfCoreCircularMapAdd map map.«end» (-1)).toNat with
    | none => (none, map)
    | some value =>
      if pop then
        (some value, { map with
          slots := Function.update map.slots (ebpfCoreCircularMapAdd map map.«end» (-1)).toNat none
          «end» := ebpfCoreCircularMapAdd map map.«end» (-1) })
      else (some value, map)

/-- The tail of `_ebpf_core_circular_map_push`: insert at the end. -/
def ebpfCoreCircularMapInsertAtEnd (map : EbpfCoreCircularMap V) (data : V) :
    EbpfCoreCircularMap V :=
  { map with
    slots := Function.update map.slots map.«end».toNat (some data)
    «end» := ebpfCoreCircularMapAdd map map.«end» 1 }

/-- `_ebpf_core_circular_map_push`. `newDataAllocated` is the outcome of the
allocation of the value copy, which happens before anything else. -/
def ebpfCoreCircularMapPush (map : EbpfCoreCircularMap V) (data : V) (replace : Bool)
    (newDataAllocated : Bool) : EbpfResult × EbpfCoreCircularMap V :=
  if newDataAllocated = false then (.noMemory, map)
  else
    match map.slots map.«end».toNat with
    | none => (.success, ebpfCoreCircularMapInsertAtEnd map data)
    | some _ =>
      if replace then
        -- The oldest value is dropped: its slot is cleared and `begin` moves on.
        let dropped : EbpfCoreCircularMap V := { map with
          slots := Function.update map.slots map.«end».toNat none
          begin := ebpfCoreCircularMapAdd map map.begin 1 }
        (.success, ebpfCoreCircularMapInsertAtEnd dropped data)
      else (.outOfSpace, map)

/-- `_find_circular_map_entry`: peek, or pop when `EBPF_MAP_FIND_FLAG_DELETE` is set. -/
def findCircularMapEntry (map : EbpfCoreCircularMap V) (flags : Nat) :
    (EbpfResult × Option V) × EbpfCoreCircularMap V :=
  let read := ebpfCoreCircularMapPeekOrPop map (flags &&& ebpfMapFindFlagDelete != 0)
  ((if read.1.isNone then .objectNotFound else .success, read.1), read.2)

/-- `_update_circular_map_entry`: push, replacing the oldest value on a full map
when `option` has `BPF_EXIST`. -/
def updateCircularMapEntry (map : EbpfCoreCircularMap V) (data : Option V) (option : Nat)
    (newDataAllocated : Bool) : EbpfResult × EbpfCoreCircularMap V :=
  match data with
  | none => (.invalidArgument, map)
  | some data => ebpfCoreCircularMapPush map data (option &&& bpfExist != 0) newDataAllocated

/-- The map `_create_queue_map` and `_create_stack_map` return: its memory is
zeroed, so both cursors are `0` and every slot is `NULL`. -/
def emptyCircularMap (maxEntries : UInt32) (type : CircularMapType) : EbpfCoreCircularMap V :=
  { maxEntries, begin := 0, «end» := 0, type, slots := fun _ => none }

/-- Creation, after `ebpf_map_create` has refused `max_entries = 0`. -/
def createCircularMap (maxEntries : UInt32) (type : CircularMapType) :
    Except EbpfResult (EbpfCoreCircularMap V) :=
  if maxEntries = 0 then .error .invalidArgument else .ok (emptyCircularMap maxEntries type)

@[simp] theorem ebpfCoreCircularMapInsertAtEnd_maxEntries (map : EbpfCoreCircularMap V) (data : V) :
    (ebpfCoreCircularMapInsertAtEnd map data).maxEntries = map.maxEntries := rfl

@[simp] theorem ebpfCoreCircularMapInsertAtEnd_begin (map : EbpfCoreCircularMap V) (data : V) :
    (ebpfCoreCircularMapInsertAtEnd map data).begin = map.begin := rfl

@[simp] theorem ebpfCoreCircularMapInsertAtEnd_type (map : EbpfCoreCircularMap V) (data : V) :
    (ebpfCoreCircularMapInsertAtEnd map data).type = map.type := rfl

/-! ## Cursor arithmetic -/

section Cursor

variable (map : EbpfCoreCircularMap V)

theorem ebpfCoreCircularMapAdd_one (value : UInt64) (hv : value.toNat < map.maxEntries.toNat) :
    (ebpfCoreCircularMapAdd map value 1).toNat = (value.toNat + 1) % map.maxEntries.toNat := by
  have bound := map.maxEntries.toNat_lt
  have one : (UInt64.ofInt 1).toNat = 1 := by decide
  have noWrap : (map.maxEntries.toNat + value.toNat + 1) % 2 ^ 64 =
      map.maxEntries.toNat + value.toNat + 1 := Nat.mod_eq_of_lt (by omega)
  simp only [ebpfCoreCircularMapAdd, UInt64.toNat_mod, UInt64.toNat_add, UInt32.toNat_toUInt64,
    one, Nat.mod_add_mod]
  rw [noWrap, Nat.add_assoc, Nat.add_mod_left]

theorem ebpfCoreCircularMapAdd_neg_one (value : UInt64) (hv : value.toNat < map.maxEntries.toNat) :
    (ebpfCoreCircularMapAdd map value (-1)).toNat =
      (value.toNat + (map.maxEntries.toNat - 1)) % map.maxEntries.toNat := by
  have bound := map.maxEntries.toNat_lt
  have minusOne : (UInt64.ofInt (-1)).toNat = 2 ^ 64 - 1 := by decide
  have wrap : (map.maxEntries.toNat + value.toNat + (2 ^ 64 - 1)) % 2 ^ 64 =
      value.toNat + (map.maxEntries.toNat - 1) := by
    have shift : map.maxEntries.toNat + value.toNat + (2 ^ 64 - 1) =
        (value.toNat + (map.maxEntries.toNat - 1)) + 2 ^ 64 := by omega
    rw [shift, Nat.add_mod_right, Nat.mod_eq_of_lt (by omega)]
  simp only [ebpfCoreCircularMapAdd, UInt64.toNat_mod, UInt64.toNat_add, UInt32.toNat_toUInt64,
    minusOne, Nat.mod_add_mod]
  rw [wrap]

end Cursor

/-! ## The abstract queue and stack -/

/-- The value a peek reads: the oldest value of a queue, the newest of a stack. -/
def boundedListPeek : CircularMapType → List V → Option V
  | .queue, contents => contents.head?
  | .stack, contents => contents.getLast?

def boundedListPop : CircularMapType → List V → List V
  | .queue, contents => contents.tail
  | .stack, contents => contents.dropLast

/-- A push onto a list of at most `capacity` values: append while there is
room; when full, drop the oldest value first (`replace`) or refuse. -/
def boundedListPush (capacity : Nat) (contents : List V) (value : V) (replace : Bool) :
    EbpfResult × List V :=
  if contents.length < capacity then (.success, contents ++ [value])
  else if replace then (.success, contents.tail ++ [value])
  else (.outOfSpace, contents)

/-- A call of `_update_circular_map_entry` or `_find_circular_map_entry`. -/
inductive CircularMapOperation (V : Type) where
  | update (data : Option V) (option : Nat) (newDataAllocated : Bool)
  | find (flags : Nat)

def CircularMapOperation.apply (map : EbpfCoreCircularMap V) :
    CircularMapOperation V → (EbpfResult × Option V) × EbpfCoreCircularMap V
  | .update data option newDataAllocated =>
    let updated := updateCircularMapEntry map data option newDataAllocated
    ((updated.1, none), updated.2)
  | .find flags => findCircularMapEntry map flags

/-- What the operation does to the abstract list: the specification. -/
def CircularMapOperation.specify (type : CircularMapType) (capacity : Nat) (contents : List V) :
    CircularMapOperation V → (EbpfResult × Option V) × List V
  | .update none _ _ => ((.invalidArgument, none), contents)
  | .update (some value) option newDataAllocated =>
    if newDataAllocated then
      let pushed := boundedListPush capacity contents value (option &&& bpfExist != 0)
      ((pushed.1, none), pushed.2)
    else ((.noMemory, none), contents)
  | .find flags =>
    match boundedListPeek type contents with
    | none => ((.objectNotFound, none), contents)
    | some value =>
      ((.success, some value),
        if flags &&& ebpfMapFindFlagDelete != 0 then boundedListPop type contents else contents)

def runCircularMap (map : EbpfCoreCircularMap V) :
    List (CircularMapOperation V) → List (EbpfResult × Option V) × EbpfCoreCircularMap V
  | [] => ([], map)
  | operation :: operations =>
    let step := operation.apply map
    let rest := runCircularMap step.2 operations
    (step.1 :: rest.1, rest.2)

def runBoundedList (type : CircularMapType) (capacity : Nat) (contents : List V) :
    List (CircularMapOperation V) → List (EbpfResult × Option V) × List V
  | [] => ([], contents)
  | operation :: operations =>
    let step := operation.specify type capacity contents
    let rest := runBoundedList type capacity step.2 operations
    (step.1 :: rest.1, rest.2)

/-! ## Representation -/

/-- The map holds `contents`: position `i` of the list is the slot `i` cells
after `begin`, every other slot is empty, and `end` is one past the last
position. -/
structure Represents (map : EbpfCoreCircularMap V) (contents : List V) : Prop where
  positive : 0 < map.maxEntries.toNat
  bounded : contents.length ≤ map.maxEntries.toNat
  begin_lt : map.begin.toNat < map.maxEntries.toNat
  end_eq : map.«end».toNat = (map.begin.toNat + contents.length) % map.maxEntries.toNat
  occupied : ∀ i (h : i < contents.length),
    map.slots ((map.begin.toNat + i) % map.maxEntries.toNat) = some contents[i]
  vacant : ∀ i, contents.length ≤ i → i < map.maxEntries.toNat →
    map.slots ((map.begin.toNat + i) % map.maxEntries.toNat) = none

namespace Represents

variable {map : EbpfCoreCircularMap V} {contents : List V}

theorem end_lt (h : Represents map contents) : map.«end».toNat < map.maxEntries.toNat := by
  rw [h.end_eq]
  exact cell_lt h.positive _ _

theorem begin_cell (h : Represents map contents) :
    (map.begin.toNat + 0) % map.maxEntries.toNat = map.begin.toNat :=
  cell_of_lt h.begin_lt

theorem slot_isSome_iff (h : Represents map contents) {j : Nat} (hj : j < map.maxEntries.toNat) :
    (map.slots j).isSome ↔ ∃ i < contents.length, j = (map.begin.toNat + i) % map.maxEntries.toNat := by
  obtain ⟨i, hi, rfl⟩ : ∃ i < map.maxEntries.toNat, (map.begin.toNat + i) % map.maxEntries.toNat = j := by
    refine ⟨(j + map.maxEntries.toNat - map.begin.toNat) % map.maxEntries.toNat,
      Nat.mod_lt _ h.positive, ?_⟩
    rw [Nat.add_mod_mod]
    have shift : map.begin.toNat + (j + map.maxEntries.toNat - map.begin.toNat) =
        j + map.maxEntries.toNat := by have := h.begin_lt; omega
    rw [shift, Nat.add_mod_right, Nat.mod_eq_of_lt hj]
  by_cases inside : i < contents.length
  · simp only [h.occupied i inside, Option.isSome_some, true_iff]
    exact ⟨i, inside, rfl⟩
  · simp only [h.vacant i (by omega) hi, Option.isSome_none, Bool.false_eq_true, false_iff]
    rintro ⟨k, hk, same⟩
    have := (cell_injective hi (by have := h.bounded; omega)).mp same
    omega

theorem slot_end_of_lt (h : Represents map contents) (room : contents.length < map.maxEntries.toNat) :
    map.slots map.«end».toNat = none := by
  rw [h.end_eq]
  exact h.vacant _ le_rfl room

theorem end_eq_begin_of_full (h : Represents map contents)
    (full : contents.length = map.maxEntries.toNat) : map.«end».toNat = map.begin.toNat := by
  rw [h.end_eq, full, cell_full_turn, Nat.mod_eq_of_lt h.begin_lt]

theorem slot_begin (h : Represents map contents) : map.slots map.begin.toNat = contents.head? := by
  rw [← h.begin_cell]
  cases contents with
  | nil => exact h.vacant 0 le_rfl h.positive
  | cons first rest => exact h.occupied 0 (by simp)

theorem slot_before_end (h : Represents map contents) :
    map.slots (ebpfCoreCircularMapAdd map map.«end» (-1)).toNat = contents.getLast? := by
  rw [ebpfCoreCircularMapAdd_neg_one map _ h.end_lt, h.end_eq]
  cases contents using List.reverseRec with
  | nil =>
    have last := h.vacant (map.maxEntries.toNat - 1) (by simp) (by have := h.positive; omega)
    simpa [Nat.mod_add_mod] using last
  | append_singleton rest last =>
    have before := h.occupied rest.length (by simp)
    rw [List.length_append, List.length_singleton, cell_pred h.positive]
    simpa using before

/-! Each of the three writes the operations make keeps the representation. -/

theorem insertAtEnd (h : Represents map contents) (room : contents.length < map.maxEntries.toNat)
    (value : V) : Represents (ebpfCoreCircularMapInsertAtEnd map value) (contents ++ [value]) := by
  have hb := h.begin_lt
  constructor
  case positive => exact h.positive
  case bounded =>
    simp only [ebpfCoreCircularMapInsertAtEnd_maxEntries, List.length_append, List.length_singleton]
    omega
  case begin_lt => exact h.begin_lt
  case end_eq =>
    simp only [ebpfCoreCircularMapInsertAtEnd, ebpfCoreCircularMapAdd_one map _ h.end_lt, h.end_eq,
      List.length_append, List.length_singleton, cell_succ]
  case occupied =>
    intro i hi
    simp only [ebpfCoreCircularMapInsertAtEnd, h.end_eq]
    by_cases last : i = contents.length
    · subst last
      simp
    · have other : (map.begin.toNat + i) % map.maxEntries.toNat ≠
          (map.begin.toNat + contents.length) % map.maxEntries.toNat := by
        rw [Ne, cell_injective (by simp at hi; omega) room]
        exact last
      have old : i < contents.length := by simp at hi; omega
      rw [Function.update_of_ne other, h.occupied i old, List.getElem_append_left old]
  case vacant =>
    intro i hi hN
    simp only [List.length_append, List.length_singleton] at hi
    simp only [ebpfCoreCircularMapInsertAtEnd_maxEntries] at hN
    have other : (map.begin.toNat + i) % map.maxEntries.toNat ≠
        (map.begin.toNat + contents.length) % map.maxEntries.toNat := by
      rw [Ne, cell_injective hN room]
      omega
    simp only [ebpfCoreCircularMapInsertAtEnd, h.end_eq]
    rw [Function.update_of_ne other]
    exact h.vacant i (by omega) hN

theorem popFront (h : Represents map contents) (nonempty : contents ≠ []) :
    Represents { map with
      slots := Function.update map.slots map.begin.toNat none
      begin := ebpfCoreCircularMapAdd map map.begin 1 } contents.tail := by
  have hb := h.begin_lt
  have length : 0 < contents.length := List.length_pos_iff.mpr nonempty
  have start := ebpfCoreCircularMapAdd_one map _ h.begin_lt
  have shifted : ∀ i, ((map.begin.toNat + 1) % map.maxEntries.toNat + i) % map.maxEntries.toNat =
      (map.begin.toNat + (i + 1)) % map.maxEntries.toNat := by
    intro i
    rw [Nat.mod_add_mod, Nat.add_assoc, Nat.add_comm 1 i]
  have freed : ∀ i, i + 1 < map.maxEntries.toNat →
      (map.begin.toNat + (i + 1)) % map.maxEntries.toNat ≠ map.begin.toNat := by
    intro i hi same
    have := (cell_injective hi h.positive).mp (same.trans (cell_of_lt hb).symm)
    omega
  constructor
  case positive => exact h.positive
  case bounded => simp only [List.length_tail]; have := h.bounded; omega
  case begin_lt => simp only [start]; exact Nat.mod_lt _ h.positive
  case end_eq =>
    simp only [start, h.end_eq, List.length_tail, shifted]
    congr 2
    omega
  case occupied =>
    intro i hi
    simp only [List.length_tail] at hi
    simp only [start, shifted]
    rw [Function.update_of_ne (freed i (by have := h.bounded; omega)),
      h.occupied (i + 1) (by omega), List.getElem_tail]
  case vacant =>
    intro i hi hN
    simp only [List.length_tail] at hi
    dsimp only at hN
    simp only [start, shifted]
    by_cases wrapped : i + 1 = map.maxEntries.toNat
    · rw [wrapped, cell_full_turn, Nat.mod_eq_of_lt hb]
      simp
    · rw [Function.update_of_ne (freed i (by omega))]
      exact h.vacant (i + 1) (by omega) (by omega)

theorem popBack (h : Represents map contents) (nonempty : contents ≠ []) :
    Represents { map with
      slots := Function.update map.slots (ebpfCoreCircularMapAdd map map.«end» (-1)).toNat none
      «end» := ebpfCoreCircularMapAdd map map.«end» (-1) } contents.dropLast := by
  have length : 0 < contents.length := List.length_pos_iff.mpr nonempty
  have newEnd : (ebpfCoreCircularMapAdd map map.«end» (-1)).toNat =
      (map.begin.toNat + (contents.length - 1)) % map.maxEntries.toNat := by
    rw [ebpfCoreCircularMapAdd_neg_one map _ h.end_lt, h.end_eq]
    have := cell_pred h.positive map.begin.toNat (contents.length - 1)
    rwa [Nat.sub_add_cancel length] at this
  constructor
  case positive => exact h.positive
  case bounded => simp only [List.length_dropLast]; have := h.bounded; omega
  case begin_lt => exact h.begin_lt
  case end_eq => simp only [newEnd, List.length_dropLast]
  case occupied =>
    intro i hi
    simp only [List.length_dropLast] at hi
    have other : (map.begin.toNat + i) % map.maxEntries.toNat ≠
        (map.begin.toNat + (contents.length - 1)) % map.maxEntries.toNat := by
      rw [Ne, cell_injective (by have := h.bounded; omega) (by have := h.bounded; omega)]
      omega
    simp only [newEnd]
    rw [Function.update_of_ne other, h.occupied i (by omega), List.getElem_dropLast]
  case vacant =>
    intro i hi hN
    simp only [List.length_dropLast] at hi
    dsimp only at hN
    simp only [newEnd]
    by_cases last : i = contents.length - 1
    · subst last
      simp
    · have other : (map.begin.toNat + i) % map.maxEntries.toNat ≠
          (map.begin.toNat + (contents.length - 1)) % map.maxEntries.toNat := by
        rw [Ne, cell_injective hN (by have := h.bounded; omega)]
        exact last
      rw [Function.update_of_ne other]
      exact h.vacant i (by omega) hN

end Represents

/-! ## Each operation refines its specification -/

section Operations

variable {map : EbpfCoreCircularMap V} {contents : List V}

theorem ebpfCoreCircularMapPeekOrPop_represents (h : Represents map contents) (pop : Bool) :
    (ebpfCoreCircularMapPeekOrPop map pop).1 = boundedListPeek map.type contents ∧
      Represents (ebpfCoreCircularMapPeekOrPop map pop).2
        (if pop then boundedListPop map.type contents else contents) := by
  by_cases empty : contents = []
  · -- An empty map reads no value and is left as it is.
    subst empty
    cases kind : map.type with
    | queue =>
      have slot : map.slots map.begin.toNat = none := h.slot_begin
      cases pop <;> simp [ebpfCoreCircularMapPeekOrPop, kind, slot, boundedListPeek, boundedListPop, h]
    | stack =>
      have slot : map.slots (ebpfCoreCircularMapAdd map map.«end» (-1)).toNat = none :=
        h.slot_before_end
      cases pop <;> simp [ebpfCoreCircularMapPeekOrPop, kind, slot, boundedListPeek, boundedListPop, h]
  · cases kind : map.type with
    | queue =>
      have slot : map.slots map.begin.toNat = some (contents.head empty) := by
        rw [h.slot_begin, List.head?_eq_some_head empty]
      cases pop
      · simp [ebpfCoreCircularMapPeekOrPop, kind, slot, boundedListPeek, h,
          List.head?_eq_some_head empty]
      · simpa [ebpfCoreCircularMapPeekOrPop, kind, slot, boundedListPeek, boundedListPop,
          List.head?_eq_some_head empty] using h.popFront empty
    | stack =>
      have slot : map.slots (ebpfCoreCircularMapAdd map map.«end» (-1)).toNat =
          some (contents.getLast empty) := by
        rw [h.slot_before_end, List.getLast?_eq_some_getLast empty]
      cases pop
      · simp [ebpfCoreCircularMapPeekOrPop, kind, slot, boundedListPeek, h,
          List.getLast?_eq_some_getLast empty]
      · simpa [ebpfCoreCircularMapPeekOrPop, kind, slot, boundedListPeek, boundedListPop,
          List.getLast?_eq_some_getLast empty] using h.popBack empty

theorem ebpfCoreCircularMapPush_represents (h : Represents map contents) (data : V)
    (replace newDataAllocated : Bool) :
    let pushed := ebpfCoreCircularMapPush map data replace newDataAllocated
    let specified := if newDataAllocated then boundedListPush map.maxEntries.toNat contents data replace
      else (.noMemory, contents)
    pushed.1 = specified.1 ∧ Represents pushed.2 specified.2 := by
  cases newDataAllocated with
  | false => exact ⟨rfl, h⟩
  | true =>
    by_cases room : contents.length < map.maxEntries.toNat
    · -- There is room: the slot at `end` is free and the value goes there.
      have slot := h.slot_end_of_lt room
      simp only [ebpfCoreCircularMapPush, slot, boundedListPush, room, if_true]
      exact ⟨rfl, h.insertAtEnd room data⟩
    · -- Full: `end` is `begin`, whose slot holds the oldest value.
      have full : contents.length = map.maxEntries.toNat := by have := h.bounded; omega
      have nonempty : contents ≠ [] := by
        rw [← List.length_pos_iff, full]
        exact h.positive
      have atBegin := h.end_eq_begin_of_full full
      have slot : map.slots map.«end».toNat = some (contents.head nonempty) := by
        rw [atBegin, h.slot_begin, List.head?_eq_some_head nonempty]
      cases replace with
      | false =>
        simp only [ebpfCoreCircularMapPush, slot, boundedListPush, room, if_false]
        exact ⟨rfl, h⟩
      | true =>
        simp only [ebpfCoreCircularMapPush, slot, boundedListPush, room, if_false, if_true]
        have dropped := h.popFront nonempty
        rw [← atBegin] at dropped
        have room : contents.tail.length < map.maxEntries.toNat := by
          simp only [List.length_tail]
          have := h.positive
          omega
        exact ⟨rfl, dropped.insertAtEnd room data⟩

theorem findCircularMapEntry_represents (h : Represents map contents) (flags : Nat) :
    let found := findCircularMapEntry map flags
    let specified := (CircularMapOperation.find flags).specify map.type map.maxEntries.toNat contents
    found.1 = specified.1 ∧ Represents found.2 specified.2 := by
  obtain ⟨read, kept⟩ := ebpfCoreCircularMapPeekOrPop_represents h (flags &&& ebpfMapFindFlagDelete != 0)
  simp only [findCircularMapEntry, CircularMapOperation.specify, read]
  cases peeked : boundedListPeek map.type contents with
  | none =>
    have unchanged : (if (flags &&& ebpfMapFindFlagDelete != 0) = true then
        boundedListPop map.type contents else contents) = contents := by
      cases kind : map.type <;> cases contents <;>
        simp_all [boundedListPeek, boundedListPop]
    rw [unchanged] at kept
    exact ⟨rfl, kept⟩
  | some value => exact ⟨rfl, kept⟩

theorem CircularMapOperation.apply_represents (h : Represents map contents)
    (operation : CircularMapOperation V) :
    (operation.apply map).1 = (operation.specify map.type map.maxEntries.toNat contents).1 ∧
      Represents (operation.apply map).2 (operation.specify map.type map.maxEntries.toNat contents).2 := by
  cases operation with
  | update data option newDataAllocated =>
    cases data with
    | none => exact ⟨rfl, h⟩
    | some data =>
      obtain ⟨result, pushed⟩ := ebpfCoreCircularMapPush_represents h data
        (option &&& bpfExist != 0) newDataAllocated
      cases newDataAllocated <;>
        exact ⟨by simpa [apply, specify, updateCircularMapEntry] using result, pushed⟩
  | find flags => exact findCircularMapEntry_represents h flags

theorem ebpfCoreCircularMapPeekOrPop_fixed (map : EbpfCoreCircularMap V) (pop : Bool) :
    (ebpfCoreCircularMapPeekOrPop map pop).2.type = map.type ∧
      (ebpfCoreCircularMapPeekOrPop map pop).2.maxEntries = map.maxEntries := by
  cases kind : map.type with
  | queue =>
    cases slot : map.slots map.begin.toNat <;> cases pop <;>
      simp [ebpfCoreCircularMapPeekOrPop, kind, slot]
  | stack =>
    cases slot : map.slots (ebpfCoreCircularMapAdd map map.«end» (-1)).toNat <;> cases pop <;>
      simp [ebpfCoreCircularMapPeekOrPop, kind, slot]

theorem ebpfCoreCircularMapPush_fixed (map : EbpfCoreCircularMap V) (data : V)
    (replace newDataAllocated : Bool) :
    (ebpfCoreCircularMapPush map data replace newDataAllocated).2.type = map.type ∧
      (ebpfCoreCircularMapPush map data replace newDataAllocated).2.maxEntries = map.maxEntries := by
  cases newDataAllocated with
  | false => exact ⟨rfl, rfl⟩
  | true =>
    cases slot : map.slots map.«end».toNat <;> cases replace <;>
      simp [ebpfCoreCircularMapPush, slot]

theorem CircularMapOperation.apply_fixed (map : EbpfCoreCircularMap V)
    (operation : CircularMapOperation V) :
    (operation.apply map).2.type = map.type ∧ (operation.apply map).2.maxEntries = map.maxEntries := by
  cases operation with
  | update data option newDataAllocated =>
    cases data with
    | none => exact ⟨rfl, rfl⟩
    | some data => exact ebpfCoreCircularMapPush_fixed map data _ newDataAllocated
  | find flags => exact ebpfCoreCircularMapPeekOrPop_fixed map _

theorem runCircularMap_represents (h : Represents map contents)
    (operations : List (CircularMapOperation V)) :
    (runCircularMap map operations).1 =
        (runBoundedList map.type map.maxEntries.toNat contents operations).1 ∧
      Represents (runCircularMap map operations).2
        (runBoundedList map.type map.maxEntries.toNat contents operations).2 := by
  induction operations generalizing map contents with
  | nil => exact ⟨rfl, h⟩
  | cons operation operations ih =>
    obtain ⟨output, step⟩ := operation.apply_represents h
    obtain ⟨sameType, sameCapacity⟩ := operation.apply_fixed map
    obtain ⟨outputs, final⟩ := ih step
    rw [sameType, sameCapacity] at outputs final
    refine ⟨?_, final⟩
    simp only [runCircularMap, runBoundedList, output, outputs]

theorem runCircularMap_fixed (map : EbpfCoreCircularMap V) (operations : List (CircularMapOperation V)) :
    (runCircularMap map operations).2.type = map.type ∧
      (runCircularMap map operations).2.maxEntries = map.maxEntries := by
  induction operations generalizing map with
  | nil => exact ⟨rfl, rfl⟩
  | cons operation operations ih =>
    obtain ⟨sameType, sameCapacity⟩ := operation.apply_fixed map
    simp only [runCircularMap]
    exact ⟨(ih _).1.trans sameType, (ih _).2.trans sameCapacity⟩

end Operations

theorem emptyCircularMap_represents {maxEntries : UInt32} (positive : 0 < maxEntries)
    (type : CircularMapType) : Represents (emptyCircularMap maxEntries type : EbpfCoreCircularMap V) [] := by
  have positive : 0 < maxEntries.toNat := UInt32.lt_iff_toNat_lt.mp positive
  constructor
  case positive => exact positive
  case bounded => simp
  case begin_lt => simpa [emptyCircularMap] using positive
  case end_eq => simp [emptyCircularMap]
  case occupied => simp
  case vacant => simp [emptyCircularMap]

/-- Queue and stack maps refine a list of at most `max_entries` values: from
creation, every run returns what the list specification returns, the map stays
represented by the list, and exactly the slots of the list's positions hold a
value. -/
theorem circular_map_refines_bounded_list (maxEntries : UInt32) (type : CircularMapType)
    (positive : 0 < maxEntries) (operations : List (CircularMapOperation V)) :
    ∃ map : EbpfCoreCircularMap V, createCircularMap maxEntries type = .ok map ∧
      (runCircularMap map operations).1 = (runBoundedList type maxEntries.toNat [] operations).1 ∧
      Represents (runCircularMap map operations).2 (runBoundedList type maxEntries.toNat [] operations).2 ∧
      ∀ j < maxEntries.toNat, ((runCircularMap map operations).2.slots j).isSome ↔
        ∃ i < (runBoundedList type maxEntries.toNat [] operations).2.length,
          j = ((runCircularMap map operations).2.begin.toNat + i) % maxEntries.toNat := by
  have nonzero : maxEntries ≠ 0 := by
    intro zero
    simp [zero] at positive
  refine ⟨emptyCircularMap maxEntries type, by simp [createCircularMap, nonzero], ?_⟩
  obtain ⟨outputs, final⟩ := runCircularMap_represents (emptyCircularMap_represents positive type)
    operations
  obtain ⟨-, sameCapacity⟩ := runCircularMap_fixed (emptyCircularMap maxEntries type) operations
  refine ⟨outputs, final, fun j hj => ?_⟩
  have slots := @Represents.slot_isSome_iff V _ _ final j
  rw [sameCapacity] at slots
  exact slots hj

theorem circular_map_refines_bounded_list_on_a_full_queue :
    (0 : UInt32) < 2 ∧
      ∃ map : EbpfCoreCircularMap Nat, createCircularMap 2 .queue = .ok map ∧
        (runCircularMap map [.update (some 1) 0 true, .update (some 2) 0 true,
          .update (some 3) bpfExist true, .find ebpfMapFindFlagDelete]).1 =
            (runBoundedList .queue (2 : UInt32).toNat [] [.update (some 1) 0 true,
              .update (some 2) 0 true, .update (some 3) bpfExist true, .find ebpfMapFindFlagDelete]).1 ∧
        Represents (runCircularMap map [.update (some 1) 0 true, .update (some 2) 0 true,
          .update (some 3) bpfExist true, .find ebpfMapFindFlagDelete]).2
            (runBoundedList .queue (2 : UInt32).toNat [] [.update (some 1) 0 true,
              .update (some 2) 0 true, .update (some 3) bpfExist true, .find ebpfMapFindFlagDelete]).2 ∧
        ∀ j < (2 : UInt32).toNat, ((runCircularMap map [.update (some 1) 0 true, .update (some 2) 0 true,
          .update (some 3) bpfExist true, .find ebpfMapFindFlagDelete]).2.slots j).isSome ↔
            ∃ i < (runBoundedList .queue (2 : UInt32).toNat [] [.update (some 1) 0 true,
              .update (some 2) 0 true, .update (some 3) bpfExist true,
              .find ebpfMapFindFlagDelete]).2.length,
              j = ((runCircularMap map [.update (some 1) 0 true, .update (some 2) 0 true,
                .update (some 3) bpfExist true, .find ebpfMapFindFlagDelete]).2.begin.toNat + i) %
                  (2 : UInt32).toNat :=
  ⟨by decide, circular_map_refines_bounded_list 2 .queue (by decide) _⟩

/-- On a full queue of two, a plain push is refused, a push with `BPF_EXIST`
drops the oldest value, and a pop then returns the second value pushed. -/
example : (runBoundedList .queue 2 ([] : List Nat) [.update (some 1) 0 true, .update (some 2) 0 true,
    .update (some 3) 0 true, .update (some 3) bpfExist true, .find ebpfMapFindFlagDelete]).1 =
    [(.success, none), (.success, none), (.outOfSpace, none), (.success, none), (.success, some 2)] := by
  decide

example : (runBoundedList .stack 2 ([] : List Nat) [.update (some 1) 0 true, .update (some 2) 0 true,
    .find ebpfMapFindFlagDelete, .find 0, .find ebpfMapFindFlagDelete, .find 0]).1 =
    [(.success, none), (.success, none), (.success, some 2), (.success, some 1), (.success, some 1),
      (.objectNotFound, none)] := by
  decide

end EbpfWindows.ExecutionContext
