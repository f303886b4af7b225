import Gem5.Base.AddrRangeMapRun
import Gem5.Base.AddrRangeSets
import Gem5.Base.IntMath
import Gem5.Base.TrieRun
import Gem5.Cpu.O3.LSQStall
import Gem5.Cpu.O3.LSQViolations
import Gem5.Cpu.O3.MemDepUnitRelease
import Gem5.Garnet.BridgeCredits
import Gem5.Garnet.Ejection
import Gem5.Garnet.FunctionalAccess
import Gem5.Garnet.MeshTables
import Gem5.Garnet.Multicast
import Gem5.Garnet.SerializeWidths
import Gem5.Garnet.Statistics
import Gem5.Garnet.SwitchAllocation
import Gem5.Garnet.WakeupRingRun
import Gem5.Garnet.WakeupRingSearch
import Gem5.Mem.Compressors.MatchLocations
import Gem5.Mem.Compressors.MultiChoice
import Gem5.Mem.MSHRRun
import Gem5.Mem.PacketQueueRun
import Gem5.Mem.SnoopFilterRun
import Gem5.Mem.TreePLRU
import Gem5.Ruby.ConsumerRun
import Gem5.Ruby.HeapBufferCapacity
import Gem5.Ruby.HeapBufferFunctional
import Gem5.Ruby.HeapBufferOrder
import Gem5.Sim.EventQueueVerify
