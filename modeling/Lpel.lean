import Lpel.Lib.Machine
import Lpel.Lib.CyclicSegment
import Lpel.Buffer
import Lpel.Streamset
import Lpel.Decen.Buffer
import Lpel.Stream.System
import Lpel.Stream.Accounting
import Lpel.Stream.Invariant
import Lpel.Stream.Producer
import Lpel.Stream.Read
import Lpel.Stream.Poll
import Lpel.Stream.Safety
import Lpel.Decen.Stream
import Lpel.Hrc.Buffer
import Lpel.Hrc.Stream
import Lpel.Hrc.StreamInvariant
import Lpel.Hrc.Teardown
import Lpel.Hrc.EntryStream
import Lpel.Hrc.Taskqueue
import Lpel.Hrc.Scheduler
import Lpel.Hrc.Master
import Lpel.Hrc.SchedSafety
import Lpel.Hrc.SchedWakeup
import Lpel.Hrc.IdleWorker
import Lpel.Decen.RingSteps
import Lpel.Decen.Scheduler
import Lpel.Decen.Worker
import Lpel.Decen.WorkerInvariant
import Lpel.Decen.Moves
import Lpel.Decen.WorkerSteps
import Lpel.Decen.WorkerSafety
import Lpel.Hrc.ReadyQueue
import Lpel.StreamIteration
import Lpel.Lib.Chain
import Lpel.Lib.DoublyLinked
import Lpel.Mailbox
import Lpel.Decen.Stacks
import Lpel.Decen.Shutdown
import Lpel.Decen.WrapperTasks
import Lpel.Hrc.Shutdown
import Lpel.Decen.Spmd
import Lpel.Decen.SpmdRounds
import Lpel.Decen.SpmdQueue
import Lpel.Decen.SpmdSafety
import Lpel.Decen.SpmdPublication
import Lpel.Decen.SpmdCopies
import Lpel.Hrc.PoolInvariant
import Lpel.Hrc.PoolSafety
import Lpel.Hrc.CloseSet
import Lpel.Hrc.Priority
import Lpel.Hrc.FillLevel
import Lpel.Hrc.RecordLimit
import Lpel.Decen.Taskqueue
import Lpel.Decen.ReadyTasks
import Lpel.Stream.TryWrite
import Lpel.TryWrite
import Lpel.Replace
import Lpel.HwLoc
import Lpel.Monitoring.Worker
import Lpel.Pinning
import Lpel.Decen.TaskDeque
import Lpel.Monitoring.Attribution
import Lpel.Monitoring.Release
import Lpel.Decen.Runtime
import Lpel.Hrc.Diligence
import Lpel.Hrc.Runtime
import Lpel.BackEnds
