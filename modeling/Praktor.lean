import Praktor.Math.Multigraph
import Praktor.Math.Run
import Praktor.Math.SlotTable
import Praktor.Math.Arena
import Praktor.Math.OrderedForest
import Praktor.Data.Bytes
import Praktor.Data.Json
import Praktor.Workflow.Dependencies
import Praktor.Workflow.DependencyOrder
import Praktor.Workflow.NameIndex
import Praktor.Workflow.DependencyAdmission
import Praktor.Workflow.DagState
import Praktor.Workflow.DagSafety
import Praktor.Workflow.DagProgress
import Praktor.Workflow.Confluence
import Praktor.Workflow.RegistryRun
import Praktor.Workflow.OutputGroups
import Praktor.Math.Overlay
import Praktor.Math.Probing
import Praktor.Math.Optimistic
import Praktor.Values.Store
import Praktor.Values.StoreMemory
import Praktor.Values.StoreRefinement
import Praktor.Values.StoreRun
import Praktor.Values.Transaction
import Praktor.Values.Ledger
import Praktor.Values.Commit
import Praktor.Values.PrivateCopy
import Praktor.Workflow.ParallelCommit
import Praktor.Workflow.TaskLifecycle
import Praktor.Workflow.Snapshot
import Praktor.Workflow.FlatNodes
import Praktor.Runtime.Plan
import Praktor.Runtime.TaskValues
import Praktor.Runtime.Admission
import Praktor.Runtime.Publication
import Praktor.Runtime.CohortGate
import Praktor.Runtime.CohortRun
import Praktor.Runtime.Settlement
import Praktor.Runtime.AbortQuiescence
import Praktor.Runtime.Execution
import Praktor.Runtime.RunSemantics
import Praktor.Runtime.WorkflowRun
import Praktor.Runtime.PlanTable
import Praktor.Runtime.Leaf
import Praktor.Runtime.Ports
import Praktor.Runtime.PlanPreorder
import Praktor.Runtime.TaskControls
import Praktor.Yaml.Document
import Praktor.Yaml.TaskFields
import Praktor.Yaml.TaskMetadata
import Praktor.Yaml.Orchestration
import Praktor.Yaml.OrchestrationRows
import Praktor.Yaml.OrchestrationTrees
import Praktor.Yaml.FlatMetadata
import Praktor.Runtime.FailClosed
import Praktor.Math.Allocation
import Praktor.Runtime.PlanMemory
import Praktor.Expressions.Grammar
import Praktor.Expressions.Evaluator
import Praktor.Expressions.Evaluation
import Praktor.Math.Custody
import Praktor.Expressions.Ownership
import Praktor.Documents.Integers
import Praktor.Math.Splitting
import Praktor.Output.KeyValues
import Praktor.Output.ObjectText
import Praktor.Native.Host
import Praktor.Native.Leaves
import Praktor.Native.LineCompaction
import Praktor.Native.Atomicity
import Praktor.Math.Packing
import Praktor.Session.Cache
import Praktor.Session.CacheRun
import Praktor.Data.JsonPath
import Praktor.Math.Interaction
import Praktor.Process.DriverIO
import Praktor.Process.DriverLines
import Praktor.Process.ProcessControl
import Praktor.Process.ProcessSafety
import Praktor.Process.ProcessWorker
import Praktor.Process.ServiceControl
import Praktor.Process.ServiceSafety
import Praktor.Process.WorkerSafety
import Praktor.Documents.Assignment
import Praktor.Documents.AssignmentSafety
import Praktor.Runtime.TextScopes
import Praktor.Values.BatchWrites
import Praktor.Workflow.OutputStaging
import Praktor.Data.Sizes
import Praktor.Math.Scanning
import Praktor.Math.Substitution
import Praktor.Process.CommandArena
import Praktor.Process.CommandLine
import Praktor.Process.CommandRendering
import Praktor.Process.StateText
import Praktor.Expressions.LexerBuffer
import Praktor.Data.CheckedSizes
import Praktor.Data.JsonOverlay
import Praktor.Math.Course
import Praktor.Math.Filling
import Praktor.Process.WorkerAdmission
import Praktor.Schema.EditorPolicy
import Praktor.Session.ControlParameters
import Praktor.Session.PlanStorage
import Praktor.Workflow.NameSearch
import Praktor.Workflow.OutgoingEdges
import Praktor.Yaml.ForceTerminate
import Praktor.Yaml.NameMatchers
import Praktor.Yaml.OrchestrationMemory
import Praktor.Yaml.TaskFieldBalance
import Praktor.Yaml.TaskFieldReaders
import Praktor.Yaml.Traversal
import Praktor.Session.ControlAgreement
import Praktor.Session.LeafOwnership
import Praktor.Documents.AssignmentOutcome
import Praktor.Native.SleepRuns
import Praktor.Session.SleepOwnership
import Praktor.Math.Outcomes
import Praktor.Math.Simulation
import Praktor.Session.HostValues
import Praktor.Session.ControlRuns
import Praktor.Session.ControlQueueRuns
import Praktor.Documents.EditingRuns
