import Mathlib.Tactic.Basic

/-! Result codes of the runtime, in the order of `ebpf_result_t`.

Every modelled operation returns one of these values; the numeric value of a
code is its position in the enumeration, which no modelled function reads.
-/

set_option autoImplicit false

namespace EbpfWindows

inductive EbpfResult where
  | success
  | verificationFailed
  | jitCompilationFailed
  | programLoadFailed
  | invalidFd
  | invalidObject
  | invalidArgument
  | objectNotFound
  | objectAlreadyExists
  | fileNotFound
  | alreadyPinned
  | notPinned
  | noMemory
  | programTooLarge
  | rpcException
  | alreadyInitialized
  | elfParsingFailed
  | failed
  | operationNotSupported
  | keyNotFound
  | accessDenied
  | blockedByPolicy
  | arithmeticOverflow
  | extensionFailedToLoad
  | insufficientBuffer
  | noMoreKeys
  | keyAlreadyExists
  | noMoreTailCalls
  | pending
  | outOfSpace
  | canceled
  | invalidPointer
  | timeout
  | staleId
  | invalidState
  deriving DecidableEq, Repr

end EbpfWindows
