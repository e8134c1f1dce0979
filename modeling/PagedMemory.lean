import PagedMemory.Main
import PagedMemory.Proofs.Mapping
import PagedMemory.Proofs.Contracts
import PagedMemory.Proofs.SpaceContracts
import PagedMemory.Proofs.Memory
import PagedMemory.Proofs.SpaceMaps
import PagedMemory.Proofs.PageContents
import PagedMemory.Proofs.LoadContracts
import PagedMemory.Proofs.WalkPath
import PagedMemory.Proofs.GuestCalls
import PagedMemory.Proofs.Tracking
import PagedMemory.Proofs.Calls
import PagedMemory.Proofs.LoadedImages
import PagedMemory.Proofs.Hosts
import PagedMemory.Proofs.Isolation
import PagedMemory.Proofs.RegionTables
import PagedMemory.Proofs.ServedContract
import PagedMemory.Proofs.ByteStore
import PagedMemory.Proofs.Lookups
import PagedMemory.Proofs.Marks
import PagedMemory.Proofs.ReadBack
import PagedMemory.Proofs.LoadBudgets
import PagedMemory.Proofs.LoadPrefixes
import PagedMemory.Proofs.LoadProtocol
import PagedMemory.Proofs.SoleImages
import PagedMemory.Proofs.MapOutcomes
import PagedMemory.Proofs.WalkTraces
import PagedMemory.Proofs.RefusedWidths
import PagedMemory.Proofs.OptionWords
import PagedMemory.Proofs.CommandLine
import PagedMemory.Proofs.PoolRuns
import PagedMemory.Proofs.IdentityMaps
import PagedMemory.Proofs.ByteAccesses
import PagedMemory.Proofs.OpenDescriptors
import PagedMemory.Proofs.ChunkedReads
import PagedMemory.Proofs.ServedPlaces
import PagedMemory.Proofs.SetupOrder
import PagedMemory.Proofs.WrappedRanges
import PagedMemory.Proofs.PoolPages
import PagedMemory.Proofs.DumpArguments
import PagedMemory.Proofs.RamAccesses
import PagedMemory.Proofs.SlotArithmetic
import PagedMemory.Proofs.RangeAddresses
