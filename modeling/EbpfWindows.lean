import EbpfWindows.Runtime.Result
import EbpfWindows.Runtime.RingBuffer
import EbpfWindows.Runtime.RingBufferThreads
import EbpfWindows.Runtime.RingBufferLayout
import EbpfWindows.Runtime.RingBufferDelivery
import EbpfWindows.Shared.SafeArithmetic
import EbpfWindows.Shared.CanonicalizePath
import EbpfWindows.Lib.CircularIndex
import EbpfWindows.Lib.Bytes
import EbpfWindows.Lib.KeyedList
import EbpfWindows.Lib.Simulation
import EbpfWindows.Lib.Bits
import EbpfWindows.Lib.Blocks
import EbpfWindows.Lib.Successor
import EbpfWindows.Lib.BitString
import EbpfWindows.Lib.Dependency
import EbpfWindows.Runtime.HashTable.Hash
import EbpfWindows.Runtime.HashTable.Basic
import EbpfWindows.Runtime.HashTable.Operations
import EbpfWindows.Runtime.HashTable.Spec
import EbpfWindows.Runtime.HashTable.Bounded
import EbpfWindows.Runtime.HashTable.Refinement
import EbpfWindows.Runtime.HashTable.Enumeration
import EbpfWindows.Runtime.Bitmap
import EbpfWindows.ExecutionContext.CircularMap
import EbpfWindows.ExecutionContext.MapDefinition
import EbpfWindows.ExecutionContext.HashMap
import EbpfWindows.ExecutionContext.LpmMap
import EbpfWindows.ExecutionContext.LpmTrie
import EbpfWindows.ExecutionContext.LpmRefinement
import EbpfWindows.ExecutionContext.TestRun
import EbpfWindows.ExecutionContext.MapBatch
import EbpfWindows.ExecutionContext.LruMap
import EbpfWindows.ExecutionContext.AsyncQuery
import EbpfWindows.ExecutionContext.CsumDiff
import EbpfWindows.ExecutionContext.TailCall
import EbpfWindows.ExecutionContext.NativeModule
import EbpfWindows.ExecutionContext.NativeMapCreation
import EbpfWindows.ExecutionContext.LruKeyHistory
import EbpfWindows.Runtime.HashTable.Reachable
import EbpfWindows.Runtime.Object
import EbpfWindows.Lib.Trace
import EbpfWindows.Runtime.ObjectLifetime
import EbpfWindows.Runtime.ObjectIds
import EbpfWindows.Runtime.HashTable.Entries
import EbpfWindows.Runtime.HashTable.Backups
import EbpfWindows.Runtime.PinningTable
import EbpfWindows.Runtime.PinningTableMap
import EbpfWindows.Runtime.PinningTableRuns
import EbpfWindows.Runtime.PinningTableSpec
import EbpfWindows.Runtime.PinningTableListing
import EbpfWindows.Shared.Serialize
