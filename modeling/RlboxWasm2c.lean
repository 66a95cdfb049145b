import RlboxWasm2c.Base.Words
import RlboxWasm2c.Base.Pages
import RlboxWasm2c.Base.Protection
import RlboxWasm2c.Base.Regions
import RlboxWasm2c.Base.Traced
import RlboxWasm2c.Base.TwoRuns
import RlboxWasm2c.Base.Runs
import RlboxWasm2c.Base.SavedContext
import RlboxWasm2c.Base.Blocks
import RlboxWasm2c.Base.Ownership
import RlboxWasm2c.Base.RwLock
import RlboxWasm2c.Base.Interleave
import RlboxWasm2c.FuncTypes
import RlboxWasm2c.RtMem
import RlboxWasm2c.Reservation
import RlboxWasm2c.CapacityPages
import RlboxWasm2c.AlignedBlock
import RlboxWasm2c.AddressSpace
import RlboxWasm2c.Descriptor
import RlboxWasm2c.Protections
import RlboxWasm2c.LiveMemories
import RlboxWasm2c.WindowsMem
import RlboxWasm2c.MinWasi
import RlboxWasm2c.Confinement
import RlboxWasm2c.Accesses
import RlboxWasm2c.Strings
import RlboxWasm2c.Transfers
import RlboxWasm2c.GatherScatter
import RlboxWasm2c.IovecLimits
import RlboxWasm2c.Clocks
import RlboxWasm2c.TickConversion
import RlboxWasm2c.Surface
import RlboxWasm2c.Secrecy
import RlboxWasm2c.Neighbours
import RlboxWasm2c.CallbackTable
import RlboxWasm2c.Ledger
import RlboxWasm2c.CriticalSections
import RlboxWasm2c.Swizzling
import RlboxWasm2c.Recycling
import RlboxWasm2c.Invocation
import RlboxWasm2c.DataPointers
import RlboxWasm2c.LivePointers
import RlboxWasm2c.ClassCopies
import RlboxWasm2c.Context
import RlboxWasm2c.Interleaving
import RlboxWasm2c.Threads
import RlboxWasm2c.Nesting
import RlboxWasm2c.LocalView
import RlboxWasm2c.Temporaries
import RlboxWasm2c.ReturnSlot
import RlboxWasm2c.Scratch
import RlboxWasm2c.HeldBlocks
import RlboxWasm2c.Lifecycle
import RlboxWasm2c.Resources
import RlboxWasm2c.ClockInit
import RlboxWasm2c.ClockOwners
import RlboxWasm2c.Instances
