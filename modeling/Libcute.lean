import Libcute.Library.BumpRegions
import Libcute.Library.KeyedList
import Libcute.Library.SlotOwnership
import Libcute.Library.Transition
import Libcute.Core.NoStd
import Libcute.Core.Size
import Libcute.Collection.Bitmap
import Libcute.Memory.ArenaAllocator
import Libcute.Memory.FixedAllocator
import Libcute.Memory.SlabAllocator
import Libcute.Library.LinkedList
import Libcute.Memory.GPAllocator
import Libcute.Memory.GPAllocator.Lists
import Libcute.Memory.GPAllocator.Changes
import Libcute.Memory.GPAllocator.Calls
import Libcute.Memory.GPAllocator.Runs
import Libcute.Memory.GPAllocator.DoubleFree
import Libcute.Collection.HashMap
import Libcute.Collection.HashMap.LeftBehind
import Libcute.Collection.HashMap.Failures
import Libcute.Collection.Blocks
import Libcute.Collection.SkipList
import Libcute.Collection.SkipList.Calls
import Libcute.Collection.SkipList.Runs
import Libcute.Collection.Vector
import Libcute.Collection.Vector.Calls
import Libcute.Collection.Vector.Runs
import Libcute.Io.Error
import Libcute.Io.File
import Libcute.Io.MemStream
import Libcute.Io.MemStream.Runs
import Libcute.Collection.RingBuffer
import Libcute.Io.FStream
import Libcute.Io.FStream.Failures
import Libcute.Io.FStream.Reads
import Libcute.Io.FStream.Tells
import Libcute.Text.CuteString
import Libcute.Text.Format
import Libcute.Text.Format.Calls
import Libcute.Text.StrBuilder
import Libcute.Memory.CAllocator
import Libcute.Memory.CAllocator.Resizes
import Libcute.Memory.ArenaAllocator.Destroy
import Libcute.Memory.ArenaAllocator.Reclaims
import Libcute.Memory.FixedAllocator.Reclaims
import Libcute.Memory.Reclaims
import Libcute.Collection.RingBuffer.Runs
import Libcute.Collection.Vector.PopFront
import Libcute.Memory.SlabAllocator.Destroy
import Libcute.Text.CuteString.Runs
import Libcute.Text.Strtoul
import Libcute.Collection.DoublyLinked
import Libcute.Collection.DoublyLinked.Calls
import Libcute.Collection.DoublyLinked.Runs
import Libcute.Collection.LinkedLists
import Libcute.Object.RefCount
import Libcute.Library.DividedMemory
import Libcute.Memory.GPAllocator.Filling
import Libcute.Memory.WasmAllocator
import Libcute.Memory.WasmAllocator.BigClasses
import Libcute.Memory.WasmAllocator.Calls
import Libcute.Memory.WasmAllocator.Runs
import Libcute.Memory.Destroys
import Libcute.Memory.BumpAlignment
import Libcute.Memory.SlabAllocator.FirstFit
import Libcute.Collection.ByteCounts
import Libcute.Text.StrBuilder.Terminators
import Libcute.Text.Subslices
import Libcute.Memory.Containment
import Libcute.Memory.GPAllocator.Alignment
import Libcute.Collection.RingBuffer.Divisors
import Libcute.Core.NoStd.Copies
import Libcute.Hash
import Libcute.Hash.Published
import Libcute.Io.FStream.Rooms
import Libcute.Io.MemStream.Aborts
import Libcute.Io.Opens
import Libcute.Io.Opens.Paths
import Libcute.Io.Opens.Releases
import Libcute.Library.LongestPrefix
import Libcute.Text.Strtoul.Grammar
import Libcute.Core.Time
import Libcute.Text.CString
import Libcute.Memory.GPAllocator.Indices
import Libcute.Library.IndexSets
import Libcute.Library.BitArray
import Libcute.Memory.Grants
import Libcute.Collection.Bitset
import Libcute.Collection.Bitmap.IndexSets
import Libcute.Library.Congruential
import Libcute.Core.Random
import Libcute.Collection.SkipList.Heights
import Libcute.Library.PagedMemory
import Libcute.Memory.PageAllocator
import Libcute.Memory.Stacking
import Libcute.Memory.Stacking.Allocators
import Libcute.Library.Ledger
import Libcute.Collection.HashMap.Pointers
import Libcute.Collection.HashMap.Lifetimes
import Libcute.Library.StraightLine
import Libcute.Examples.Cpu6502
import Libcute.Examples.Cpu6502.Programs
import Libcute.Examples.Cpu6502.Runs
import Libcute.Library.Mixing
import Libcute.Hash.OneWord
