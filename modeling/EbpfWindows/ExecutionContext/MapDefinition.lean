import Mathlib.Tactic.Basic

/-! What every map of `ebpf_maps.c` is given: its definition, the flags of a lookup
and the options of an update (`ebpf_structs.h`, `ebpf_maps.h`).

Flags and options are the numbers callers pass; the maps test them bit by bit
or compare them with the named values, and reject the others.
-/

set_option autoImplicit false

namespace EbpfWindows.ExecutionContext

/-- The fields of `ebpf_map_definition_in_memory_t` that the modelled maps read. -/
structure EbpfMapDefinitionInMemory where
  keySize : UInt32
  valueSize : UInt32
  maxEntries : UInt32
  deriving DecidableEq, Repr

def ebpfMapFindFlagDelete : Nat := 0x02

def bpfExist : Nat := 0x2

/-- `EBPF_ANY` of `ebpf_map_option_t`. -/
def ebpfAny : Nat := 0

/-- `EBPF_NOEXIST` of `ebpf_map_option_t`. -/
def ebpfNoexist : Nat := 1

/-- `EBPF_EXIST` of `ebpf_map_option_t`. -/
def ebpfExist : Nat := 2

end EbpfWindows.ExecutionContext
