import KVOffload.BaseOrderedDict
import KVOffload.BaseProgram
import KVOffload.StoreResidency
import KVOffload.BaseSelection
import KVOffload.StoreScorer
import KVOffload.StoreOffload
import KVOffload.StoreStaging
import KVOffload.BaseScatter
import KVOffload.SelectionAdapter
import KVOffload.OrchestratorModel
import KVOffload.StoreBacking
import KVOffload.StoreRuns
import KVOffload.StagingRuns
import KVOffload.OrchestratorRuns
import KVOffload.StoreMemory
import KVOffload.OrchestratorSlots
import KVOffload.OrchestratorIntegrity
import KVOffload.StagingContract
import KVOffload.OrchestratorCleanup
import KVOffload.BuilderModel
import KVOffload.BuilderGuard
import KVOffload.VllmBlockPool
import KVOffload.ConnectorModel
import KVOffload.ConnectorSteps
import KVOffload.ConnectorRuns
import KVOffload.ConnectorLedger
import KVOffload.ConnectorPhases
import KVOffload.ConnectorCompleteness
import KVOffload.ControllerIntervals
import KVOffload.StoreResidencyFields
import KVOffload.OffloadContract
import KVOffload.OrchestratorParking
import KVOffload.VllmPoolCounts
import KVOffload.StagingIsolation
import KVOffload.CompletionModel
import KVOffload.CompletionProtocol
import KVOffload.VllmTables
import KVOffload.SchedulerModel
import KVOffload.SchedulerMirror
import KVOffload.SchedulerOwnership
import KVOffload.OrchestratorPromotion
import KVOffload.OrchestratorGate
import KVOffload.SelectionDrift
import KVOffload.SelectionHeads
import KVOffload.BuilderSlots
import KVOffload.StoreFormats
import KVOffload.BaseReduction
import KVOffload.KernelModel
import KVOffload.KernelNorms
import KVOffload.ScoringModel
import KVOffload.ScoringBatch
import KVOffload.ScorerContract
import KVOffload.StoreTransfers
import KVOffload.BaseRecency
import KVOffload.ScorerRecency
import KVOffload.StagingSizing
import KVOffload.ConnectorScored
import KVOffload.BaseLinked
import KVOffload.VllmFreeQueue
import KVOffload.VllmPrefixCache
import KVOffload.VllmPoolRefinement
import KVOffload.VllmPoolRuns
import KVOffload.BaseHashChain
import KVOffload.VllmCacheManager
import KVOffload.VllmCacheContent
import KVOffload.VllmCacheRuns
import KVOffload.BaseCycles
import KVOffload.VllmBatchMoves
import KVOffload.VllmBatchOrder
import KVOffload.VllmRunner
import KVOffload.VllmManagerRefinement
