import TensorJit.Executor.Build
import TensorJit.Executor.Execute
import TensorJit.Graph.Samples
import TensorJit.Graph.Stored
import TensorJit.MemoryUsage
import TensorJit.Process
import TensorJit.Proofs.Backend
import TensorJit.Proofs.Cache
import TensorJit.Proofs.CacheHit
import TensorJit.Proofs.Call
import TensorJit.Proofs.Execution
import TensorJit.Proofs.Recency
import TensorJit.Proofs.Executor.Ledger
import TensorJit.Proofs.Conservation
import TensorJit.Proofs.Atomicity
import TensorJit.Proofs.Executor.Lending
import TensorJit.Proofs.Lending
import TensorJit.Proofs.Executor.Elision
import TensorJit.Proofs.Elision
import TensorJit.Proofs.Outcome
import TensorJit.Proofs.Placement
import TensorJit.Proofs.Meaning
import TensorJit.Proofs.StaticTarget
import TensorJit.Proofs.Unambiguous
import TensorJit.Proofs.AheadOfTime
import TensorJit.Proofs.CacheCalls
import TensorJit.Proofs.Executor.Copies
import TensorJit.Proofs.CopyCount
import TensorJit.Proofs.Executor.Changes
import TensorJit.Proofs.Staleness
import TensorJit.Proofs.Executor.Attribution
import TensorJit.Proofs.Attribution
import TensorJit.Proofs.Construction
import TensorJit.Proofs.SlotHistory
import TensorJit.Proofs.Stored
import TensorJit.Proofs.Function.Delimited
import TensorJit.Proofs.Function.Progress
import TensorJit.Proofs.Loading
import TensorJit.Proofs.Lowering.Fed
import TensorJit.Proofs.Graph.Acyclic
import TensorJit.Proofs.Lowering.Target
import TensorJit.Proofs.Running
import TensorJit.Proofs.Lowerable
import TensorJit.Proofs.Admission
import TensorJit.Proofs.Graph.Draining
import TensorJit.Proofs.Reshaping
import TensorJit.Proofs.ConsistentAttributes
import TensorJit.Proofs.FreshnessHistory
import TensorJit.Proofs.GroupQueue
import TensorJit.Proofs.BufferReuse
import TensorJit.Proofs.Function.Outline
import TensorJit.Proofs.Overwriting
import TensorJit.Proofs.Executor.Overwriting
import TensorJit.Proofs.Executor.Current
import TensorJit.Proofs.Executor.Rest
import TensorJit.Proofs.Executor.Rotation
import TensorJit.Proofs.Executor.Tenancy
import TensorJit.Proofs.Tenancy
import TensorJit.Proofs.Executor.Repetition
import TensorJit.Proofs.Repetition
