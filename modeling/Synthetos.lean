import Synthetos.Runtime.Steps
import Synthetos.Lib.Except
import Synthetos.Worker.Exits
import Synthetos.Worker.ExecutionExits
import Synthetos.Runtime.JobRows
import Synthetos.Api.Answers
import Synthetos.Jobs.Finished
import Synthetos.Runtime.Solo
import Synthetos.Jobs.Lease
import Synthetos.Cycles.Transitions
import Synthetos.Jobs.Replay
import Synthetos.Runs.Watching
import Synthetos.Runs.Cancelled
import Synthetos.Runs.Final
import Synthetos.Jobs.Latest
import Synthetos.Runs.Pipeline
import Synthetos.Runs.OneThread
import Synthetos.Cycles.Stages
import Synthetos.Runtime.Growth
import Synthetos.Cycles.Ownership
import Synthetos.Cycles.Turns
import Synthetos.Cycles.InStep
import Synthetos.Cycles.KeepsStep
import Synthetos.Cycles.KeepsWaiting
import Synthetos.Cycles.Patches
import Synthetos.Lib.Leader
import Synthetos.Remediation.Frontier
import Synthetos.Lib.Text
import Synthetos.Remediation.Strategies
import Synthetos.Lib.ParentChain
import Synthetos.Remediation.Lineage
import Synthetos.Remediation.Bounded
import Synthetos.Remediation.Unresolved
import Synthetos.Events.Stream
import Synthetos.Events.Delivery
import Synthetos.Corpus.Checkpoints
import Synthetos.Corpus.Resume
import Synthetos.Patterns.Artifacts
import Synthetos.Patterns.Consolidation
import Synthetos.Patterns.Rerun
import Synthetos.Patterns.Incremental
import Synthetos.Skills.Enforcement
import Synthetos.Skills.Prompts
import Synthetos.Skills.Operators
import Synthetos.Skills.Influence
import Synthetos.Cycles.Moves
import Synthetos.Cycles.History
import Synthetos.Loop.Resume
import Synthetos.Loop.Advance
import Synthetos.Loop.Decisions
import Synthetos.Loop.Approvals
import Synthetos.Lib.Words
import Synthetos.Runs.FailureClass
import Synthetos.Api.PolicyRequests
import Synthetos.Loop.PolicyUpdates
import Synthetos.Lib.Floating
import Synthetos.Verification.Checks
import Synthetos.Verification.Verdict
import Synthetos.Protocols.Executable
import Synthetos.Lib.JsonText
import Synthetos.Execution.Metrics
import Synthetos.Execution.MetricsExact
import Synthetos.Lib.Consecutive
import Synthetos.Runs.Numbering
import Synthetos.Runs.RunNumbers
import Synthetos.Loop.Accounting
import Synthetos.Loop.Counters
import Synthetos.Loop.Budgets
import Synthetos.Loop.CountedOnce
import Synthetos.Loop.CardWrites
import Synthetos.Loop.Lifecycle
import Synthetos.Jobs.Passes
import Synthetos.Jobs.Recovery
import Synthetos.Execution.Preparation
import Synthetos.Lib.Numerals
import Synthetos.Remediation.Directions
import Synthetos.Remediation.Escalation
import Synthetos.Autonomy.Repetition
import Synthetos.Autonomy.NearDuplicates
import Synthetos.Loop.Repeated
import Synthetos.Execution.Workspace
import Synthetos.Lib.Distinct
import Synthetos.Lib.Dockerfile
import Synthetos.Remediation.ImportErrors
import Synthetos.Remediation.Packages
import Synthetos.Remediation.Retries
import Synthetos.Execution.LogCapture
import Synthetos.Lib.Collect
import Synthetos.Patterns.Decay
import Synthetos.Patterns.Approvals
import Synthetos.Lib.Ranking
import Synthetos.Patterns.Injection
import Synthetos.Lib.Separated
import Synthetos.Patterns.ContentKeys
import Synthetos.Discovery.Dedupe
import Synthetos.Discovery.DedupeKeys
import Synthetos.Patterns.LoopMemory
import Synthetos.Discovery.Papers
import Synthetos.Worker.DecaySchedule
import Synthetos.Loop.GateIntervals
import Synthetos.Loop.Scope
import Synthetos.Loop.Pivots
import Synthetos.Discovery.Evaluation
import Synthetos.Discovery.Fusion
import Synthetos.Discovery.Rerank
import Synthetos.Analysis.Chunking
import Synthetos.Analysis.Sections
import Synthetos.Analysis.GraphExtraction
import Synthetos.Analysis.Coverage
import Synthetos.Analysis.Evidence
import Synthetos.Api.RunLineage
import Synthetos.Ideation.Pipeline
import Synthetos.Autonomy.CompletionReport
import Synthetos.Lib.Rewriting
import Synthetos.Remediation.ArtifactPaths
import Synthetos.Loop.Reports
import Synthetos.Analysis.Derivation
import Synthetos.Analysis.GraphQueries
import Synthetos.Analysis.StoredGraphs
import Synthetos.Worker.Filings
import Synthetos.Runs.Archive
import Synthetos.Runs.Provenance
import Synthetos.Discovery.Search
import Synthetos.Discovery.Session
import Synthetos.Discovery.Steps
import Synthetos.Discovery.Waiting
