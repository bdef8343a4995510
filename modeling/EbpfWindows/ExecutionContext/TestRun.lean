import EbpfWindows.Shared.SafeArithmetic
import Mathlib.Data.List.Basic

/-! Program test runs (`ebpf_program_test_run` in `ebpf_api.cpp`, and
`_ebpf_core_protocol_program_test_run` with its completion in `ebpf_core.c`).

The caller's input data and input context travel in one request, the context at
`context_offset`; the reply has room for `data_size_out` bytes of output data and
`context_size_out` bytes of output context. The kernel sizes the buffers again from
the request and the reply: the output context gets as much room as the input
context had, the output data what is left, and the output context buffer starts
right after the output data buffer. The extension's `context_destroy` writes into
both and reports how much it wrote; the completion records the data length as
`context_offset` and the sum in the reply's length. The caller reads its data from
the start of the reply's data and its context from `context_offset` on.

The reply's data area is a list of bytes each either written by the kernel in this
call or not; the caller's copies are read from it.
-/

set_option autoImplicit false

namespace EbpfWindows.ExecutionContext

/-- `EBPF_OFFSET_OF(ebpf_operation_program_test_run_request_t, data)` on x64: the
header, the handle, `repeat_count`, `flags`, `cpu`, `batch_size` and `context_offset`. -/
def testRunRequestDataOffset : UInt64 := 42

/-- `EBPF_OFFSET_OF(ebpf_operation_program_test_run_reply_t, data)` on x64: the header,
`duration`, `return_value` and `context_offset`. -/
def testRunReplyDataOffset : UInt64 := 32

def maxUInt16 : UInt64 := 0xFFFF

/-- The fields of `ebpf_test_run_options_t` that the round trip reads and writes:
the inputs, the room for the outputs, and whether the output buffers are given. -/
structure EbpfTestRunOptions where
  dataIn : List UInt8
  contextIn : List UInt8
  dataSizeOut : UInt64
  contextSizeOut : UInt64
  dataOutGiven : Bool
  contextOutGiven : Bool
  deriving DecidableEq, Repr

/-- The buffer sizes of the kernel's `ebpf_program_test_run_options_t`; its output data
buffer is the reply's data and its output context buffer starts `data_size_out` bytes
into it. -/
structure ProgramTestRunOptions where
  dataSizeIn : UInt64
  contextSizeIn : UInt64
  dataSizeOut : UInt64
  contextSizeOut : UInt64
  deriving DecidableEq, Repr

/-- `_ebpf_core_protocol_program_test_run` up to the hand-off to the work item: the sizes
from the request's length and `context_offset` and from the reply's length. -/
def ebpfCoreProtocolProgramTestRun (requestLength contextOffset replyLength : UInt16) :
    Except EbpfResult ProgramTestRunOptions := do
  let dataSizeIn := contextOffset.toUInt64
  let contextSizeIn ← ebpfSafeSizeTSubtract requestLength.toUInt64 testRunRequestDataOffset
  let contextSizeIn ← ebpfSafeSizeTSubtract contextSizeIn dataSizeIn
  let dataSizeOut ← ebpfSafeSizeTSubtract replyLength.toUInt64 testRunReplyDataOffset
  if contextSizeIn > 0 then
    -- the output context is given the room of the input context
    let dataSizeOut ← ebpfSafeSizeTSubtract dataSizeOut contextSizeIn
    pure { dataSizeIn, contextSizeIn, dataSizeOut, contextSizeOut := contextSizeIn }
  else pure { dataSizeIn, contextSizeIn, dataSizeOut, contextSizeOut := 0 }

/-- The reply's data area after a store of `bytes` at `offset`. -/
def writeArea (area : List (Option UInt8)) (offset : Nat) (bytes : List UInt8) : List (Option UInt8) :=
  (List.range area.length).map fun index =>
    if offset ≤ index ∧ index < offset + bytes.length then some (bytes.getD (index - offset) 0)
    else area.getD index none

/-- The reply as the completion leaves it: `header.length`, `context_offset`, and the
data area with what the kernel wrote. -/
structure TestRunReply where
  length : UInt16
  contextOffset : UInt64
  data : List (Option UInt8)
  deriving DecidableEq, Repr

/-- The work item's `context_destroy` call and `_ebpf_core_protocol_program_test_run_complete`
after a successful run: the extension, given the room of the two output buffers, writes
`written.1` to the data buffer and `written.2` to the context buffer; the reply records
their lengths. -/
def programTestRunComplete (options : ProgramTestRunOptions) (replyLength : UInt16)
    (written : List UInt8 × List UInt8) : TestRunReply :=
  let area := List.replicate (replyLength.toNat - testRunReplyDataOffset.toNat) none
  let area := if options.dataSizeOut ≠ 0 then writeArea area 0 written.1 else area
  let area := if options.contextSizeOut ≠ 0 then writeArea area options.dataSizeOut.toNat written.2 else area
  { length := (testRunReplyDataOffset.toNat + written.1.length + written.2.length).toUInt16,
    contextOffset := written.1.length.toUInt16.toUInt64,
    data := area }

/-- What the caller's options hold after a successful round trip: the output data, its
length, the output context and its length. -/
structure EbpfTestRunOutput where
  dataOut : List (Option UInt8)
  dataSizeOut : UInt64
  contextOut : List (Option UInt8)
  contextSizeOut : UInt64
  deriving DecidableEq, Repr

/-- `ebpf_program_test_run`, with the kernel's side of the round trip: `destroy` is the
extension's `context_destroy`, from the room of the two output buffers to what it writes
into them, and `runResult` the result of the run. -/
def ebpfProgramTestRun (options : EbpfTestRunOptions) (destroy : UInt64 → UInt64 → List UInt8 × List UInt8)
    (runResult : EbpfResult) : Except EbpfResult EbpfTestRunOutput := do
  let dataSizeIn := options.dataIn.length.toUInt64
  let contextSizeIn := options.contextIn.length.toUInt64
  if contextSizeIn.toNat + dataSizeIn.toNat > (maxUInt16 - testRunRequestDataOffset).toNat then
    throw .invalidArgument
  if options.contextSizeOut.toNat + options.dataSizeOut.toNat > (maxUInt16 - testRunReplyDataOffset).toNat then
    throw .invalidArgument
  let inputBufferSize ← ebpfSafeSizeTAdd testRunRequestDataOffset dataSizeIn
  let outputBufferSize ← ebpfSafeSizeTAdd testRunReplyDataOffset options.dataSizeOut
  let inputBufferSize ← ebpfSafeSizeTAdd inputBufferSize contextSizeIn
  let outputBufferSize ← ebpfSafeSizeTAdd outputBufferSize options.contextSizeOut
  -- both sizes fit in the `uint16_t` lengths of the protocol
  let kernel ← ebpfCoreProtocolProgramTestRun inputBufferSize.toUInt16 dataSizeIn.toUInt16 outputBufferSize.toUInt16
  if runResult ≠ .success then throw runResult
  let reply := programTestRunComplete kernel outputBufferSize.toUInt16 (destroy kernel.dataSizeOut kernel.contextSizeOut)
  let (dataOut, dataSizeOut) ←
    if options.dataOutGiven then
      if reply.contextOffset > options.dataSizeOut then throw .insufficientBuffer
      else pure (reply.data.take reply.contextOffset.toNat, reply.contextOffset)
    else pure ([], options.dataSizeOut)
  let (contextOut, contextSizeOut) ←
    if options.contextOutGiven then
      let contextSizeOut ←
        match ebpfSafeSizeTSubtract reply.length.toUInt64 testRunReplyDataOffset with
        | .ok size => pure size
        | .error _ => throw .invalidArgument
      let contextSizeOut ←
        match ebpfSafeSizeTSubtract contextSizeOut reply.contextOffset with
        | .ok size => pure size
        | .error _ => throw .invalidArgument
      if contextSizeOut > options.contextSizeOut then throw .insufficientBuffer
      else pure ((reply.data.drop reply.contextOffset.toNat).take contextSizeOut.toNat, contextSizeOut)
    else pure ([], options.contextSizeOut)
  pure { dataOut, dataSizeOut, contextOut, contextSizeOut }

/-- A run with four bytes of input context and room for eight bytes of data and four of
context, whose extension writes two bytes of data and four of context, hands the caller as
its context four bytes the kernel never wrote: the context went to the eighth byte of the
reply's data, and the caller reads it from the second. -/
theorem test_run_hands_back_unwritten_context :
    ebpfProgramTestRun ⟨[], [1, 2, 3, 4], 8, 4, true, true⟩ (fun _ _ => ([5, 6], [9, 9, 9, 9])) .success =
      .ok ⟨[some 5, some 6], 2, [none, none, none, none], 4⟩ := by
  decide

end EbpfWindows.ExecutionContext
