import DemandPaging.Boot
import DemandPaging.Elf.Encode
import DemandPaging.Lock.Session
import DemandPaging.Lock.Threads
import DemandPaging.Log.Console
import DemandPaging.PageTable.Flat
import DemandPaging.Pager.Access
import DemandPaging.Pager.Contents
import DemandPaging.Pager.Run
import DemandPaging.Pager.Threads
import DemandPaging.Frame.Run
import DemandPaging.Swap.Run
import DemandPaging.PageTable.Run
import DemandPaging.Proofs.Ensures
import DemandPaging.Proofs.FramePool
import DemandPaging.Proofs.SwapSlots
import DemandPaging.Proofs.Faults
import DemandPaging.Proofs.Operations
import DemandPaging.Proofs.Ownership
import DemandPaging.Proofs.Accounting
import DemandPaging.Proofs.PageTable
import DemandPaging.Proofs.Translation
import DemandPaging.Proofs.Contents
import DemandPaging.Proofs.Outlook
import DemandPaging.Proofs.PoolSize
import DemandPaging.Proofs.Determined
import DemandPaging.Proofs.Memory
import DemandPaging.Proofs.Ledger
import DemandPaging.Proofs.Outcomes
import DemandPaging.Proofs.Pins
import DemandPaging.Proofs.Teardown
import DemandPaging.Proofs.TableCount
import DemandPaging.Proofs.Transfers
import DemandPaging.Proofs.Availability
import DemandPaging.Proofs.Equipped
import DemandPaging.Proofs.Progress
import DemandPaging.Proofs.Capacity
import DemandPaging.Proofs.PinRanges
import DemandPaging.Proofs.PinContract
import DemandPaging.Proofs.Exit
import DemandPaging.Proofs.Tally
import DemandPaging.Proofs.ThreadOutlook
import DemandPaging.Proofs.ThreadSteps
import DemandPaging.Proofs.ThreadAnswers
import DemandPaging.Proofs.MappedPages
import DemandPaging.Proofs.Coherence
import DemandPaging.Proofs.GivingBack
import DemandPaging.Proofs.Images
import DemandPaging.Proofs.Loading
import DemandPaging.Proofs.LoadedImage
import DemandPaging.Proofs.Interleaving
import DemandPaging.Proofs.SwapStore
import DemandPaging.Proofs.FlatRefinement
import DemandPaging.Proofs.MapOrNothing
import DemandPaging.Proofs.FailedFaults
import DemandPaging.Proofs.RepeatedFaults
import DemandPaging.Proofs.ValidAddress
import DemandPaging.Proofs.PinAndCopy
import DemandPaging.Proofs.Starvation
import DemandPaging.Proofs.StoredBytes
import DemandPaging.Proofs.StoredPrefix
import DemandPaging.Proofs.Stamps
import DemandPaging.Proofs.DueEvictions
import DemandPaging.Proofs.EvictionOrder
import DemandPaging.Proofs.Declarations
import DemandPaging.Proofs.StackGrowth
import DemandPaging.Proofs.Retries
import DemandPaging.Proofs.OpenHandles
import DemandPaging.Proofs.FileUse
import DemandPaging.Proofs.UntrustedImages
import DemandPaging.Proofs.MappingNumbers
import DemandPaging.Proofs.Populating
import DemandPaging.Proofs.HeaderLayout
import DemandPaging.Proofs.ElfRecords
import DemandPaging.Block.Run
import DemandPaging.Proofs.BlockAccounts
import DemandPaging.Proofs.LazyLoading
import DemandPaging.Proofs.LockSessions
import DemandPaging.Proofs.LockThreads
import DemandPaging.Proofs.PoolHistory
import DemandPaging.Proofs.Pieces
