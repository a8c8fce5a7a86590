import Kangaroos.Logic.Chain
import Kangaroos.Logic.Custody
import Kangaroos.Logic.Items
import Kangaroos.Logic.Ledger
import Kangaroos.Logic.Observer
import Kangaroos.Logic.RingBuffer
import Kangaroos.Logic.Rotation
import Kangaroos.Logic.Selection
import Kangaroos.Logic.SharedCell
import Kangaroos.Logic.Transition
import Kangaroos.Logic.Triple
import Kangaroos.Logic.WaitsFor
import Kangaroos.Logic.Words
import Kangaroos.Kernel.State
import Kangaroos.Kernel.Scheduler
import Kangaroos.Kernel.Traversal
import Kangaroos.Kernel.WaitList
import Kangaroos.Sync.Primitives
import Kangaroos.Sync.Channel
import Kangaroos.Sync.Pool
import Kangaroos.Kernel.Task
import Kangaroos.Machine
import Kangaroos.Setup
import Kangaroos.Step
import Kangaroos.Observed
import Kangaroos.Timer
import Kangaroos.TimerMachine
import Kangaroos.Arch.Cpu
import Kangaroos.Arch.PendSV
import Kangaroos.Arch.IntegerPendSV
import Kangaroos.Arch.StackInit
import Kangaroos.Abstract.Spec
import Kangaroos.Abstract.Effect
import Kangaroos.Abstract.Calls
import Kangaroos.Abstract.Scheduling
import Kangaroos.Abstract.Core
import Kangaroos.Abstract.Moves
import Kangaroos.Abstract.Mutexes
import Kangaroos.Abstract.Untouched
import Kangaroos.Abstract.Channels
import Kangaroos.Abstract.ChannelCalls
import Kangaroos.Abstract.Pools
import Kangaroos.Abstract.PoolSteps
import Kangaroos.Abstract.Variants
import Kangaroos.Refine.Rep
import Kangaroos.Refine.WaitChain
import Kangaroos.Refine.Lists
import Kangaroos.Refine.Calls
import Kangaroos.Refine.Machine
import Kangaroos.Refine.Switch
import Kangaroos.Proofs.WaitLists
import Kangaroos.Proofs.PopHighest
import Kangaroos.Proofs.DrainedLists
import Kangaroos.Proofs.SingleRunning
import Kangaroos.Proofs.MutualExclusion
import Kangaroos.Proofs.PriorityInheritance
import Kangaroos.Proofs.Preemption
import Kangaroos.Proofs.FindNext
import Kangaroos.Proofs.Search
import Kangaroos.Proofs.SwitchRace
import Kangaroos.Proofs.RoundRobin
import Kangaroos.Proofs.SoftwareFrame
import Kangaroos.Proofs.FpuRoundTrip
import Kangaroos.Proofs.IntegerSwitch
import Kangaroos.Proofs.InitialFrame
import Kangaroos.Proofs.ChannelFifo
import Kangaroos.Proofs.ChannelPairing
import Kangaroos.Proofs.PoolOwnership
import Kangaroos.Proofs.PoolValues
import Kangaroos.Proofs.TryVariants
import Kangaroos.Proofs.LaunchSelection
import Kangaroos.Proofs.TaskRegistry
import Kangaroos.Proofs.Sleepers
import Kangaroos.Proofs.TickWork
import Kangaroos.Proofs.Dispatch
import Kangaroos.Proofs.FullCycle
import Kangaroos.Proofs.FullQuantum
import Kangaroos.Proofs.SleepDuration
import Kangaroos.Proofs.TimerWaits
import Kangaroos.Proofs.PeriodicTimer
import Kangaroos.Proofs.PastDeadline
import Kangaroos.Proofs.DurationConversions
import Kangaroos.Proofs.ElapsedTime
import Kangaroos.Proofs.BoostRelease
import Kangaroos.Proofs.SemaphoreTokens
import Kangaroos.Proofs.EventWaiters
import Kangaroos.Proofs.EventDelivery
import Kangaroos.Proofs.EventUrgency
import Kangaroos.Proofs.CondvarWaits
import Kangaroos.Proofs.OnceInitializer
import Kangaroos.Proofs.BeforeStart
import Kangaroos.Proofs.Deadlock
import Kangaroos.Proofs.CrashFreedom
import Kangaroos.Proofs.SwitchLength
import Kangaroos.Proofs.GuardedData
import Kangaroos.Abstract.Stacks
import Kangaroos.Device
import Kangaroos.Proofs.TaskStacks
import Kangaroos.Refine.Device
import Kangaroos.Proofs.Transparency
import Kangaroos.Proofs.Canaries
import Kangaroos.Proofs.MostUrgent
import Kangaroos.Macros
import Kangaroos.Proofs.AttributeArgs
import Kangaroos.Blinky
import Kangaroos.Proofs.Blinky
import Kangaroos.Proofs.BlinkyPace
import Kangaroos.Proofs.PriorityInversion
