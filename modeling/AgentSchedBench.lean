import AgentSchedBench.Library.FileSystem
import AgentSchedBench.Library.Loops
import AgentSchedBench.Library.Decimals
import AgentSchedBench.Library.Dict
import AgentSchedBench.Library.Guarded
import AgentSchedBench.Library.Json
import AgentSchedBench.Library.Slots
import AgentSchedBench.Library.Outcomes
import AgentSchedBench.Library.Frames
import AgentSchedBench.Checkpoint.Tree
import AgentSchedBench.Checkpoint.Manifest
import AgentSchedBench.Checkpoint.Difference
import AgentSchedBench.Checkpoint.Restore
import AgentSchedBench.Checkpoint.RestoreSpec
import AgentSchedBench.Checkpoint.FoldRestore
import AgentSchedBench.Checkpoint.Apply
import AgentSchedBench.Checkpoint.Collector
import AgentSchedBench.Checkpoint.RestoreStep
import AgentSchedBench.Checkpoint.Lanes
import AgentSchedBench.Checkpoint.Deferred
import AgentSchedBench.Checkpoint.Lockstep
import AgentSchedBench.Checkpoint.Container
import AgentSchedBench.Checkpoint.HostContainer
import AgentSchedBench.Checkpoint.ManifestFiles
import AgentSchedBench.Checkpoint.RestoreScript
import AgentSchedBench.Checkpoint.ScriptFrames
import AgentSchedBench.Checkpoint.Containment
import AgentSchedBench.Checkpoint.ScriptRefinement
import AgentSchedBench.Checkpoint.GitPreserved
import AgentSchedBench.Checkpoint.RejectedManifest
import AgentSchedBench.Checkpoint.ReplayFold
import AgentSchedBench.Checkpoint.Overlay
import AgentSchedBench.Checkpoint.RestoreLeads
import AgentSchedBench.Checkpoint.OverlayChain
import AgentSchedBench.Checkpoint.SandboxBackends
import AgentSchedBench.Checkpoint.ReplaySnapshot
import AgentSchedBench.Agent.Session
import AgentSchedBench.Agent.TurnKept
import AgentSchedBench.Agent.Recovery
import AgentSchedBench.Agent.Dispatch
import AgentSchedBench.Agent.RunReply
import AgentSchedBench.Agent.RunOutcome
import AgentSchedBench.Agent.ToolRecords
import AgentSchedBench.Agent.DeltaRecording
import AgentSchedBench.Agent.CheckpointedActions
import AgentSchedBench.Agent.Consolidation
import AgentSchedBench.Agent.SessionFiles
import AgentSchedBench.Agent.SavedResults
import AgentSchedBench.Agent.TextEdit
import AgentSchedBench.Library.JsonRoundTrip
import AgentSchedBench.Library.Utf8
import AgentSchedBench.Library.LineWindows
import AgentSchedBench.Harness.Bootstrap
import AgentSchedBench.Harness.BootstrapCache
import AgentSchedBench.Harness.FixedImages
import AgentSchedBench.Trace.Record
import AgentSchedBench.Trace.RoundTrip
import AgentSchedBench.Trace.Collections
import AgentSchedBench.Trace.AttemptArtifacts
import AgentSchedBench.Replay.BoundedQueue
import AgentSchedBench.Replay.WorkerWave
import AgentSchedBench.Replay.StartBarrier
import AgentSchedBench.Replay.MergeSplit
import AgentSchedBench.Replay.WorkerWaves
import AgentSchedBench.Replay.Accounting
import AgentSchedBench.Replay.CountersAddUp
import AgentSchedBench.Replay.CommandOutcome
import AgentSchedBench.Replay.ExitCodes
import AgentSchedBench.Replay.SameRendering
import AgentSchedBench.Replay.ContainerAgent
import AgentSchedBench.Replay.AgentRequests
import AgentSchedBench.Library.Declared
import AgentSchedBench.Agent.LegalHistory
import AgentSchedBench.Agent.SnippedHistory
import AgentSchedBench.Agent.MalformedRetries
import AgentSchedBench.Agent.Paging
import AgentSchedBench.Library.Blocks
import AgentSchedBench.Library.Deltas
import AgentSchedBench.Agent.StreamedText
import AgentSchedBench.Library.Buffers
import AgentSchedBench.LlmCall.ParsedResponse
import AgentSchedBench.Agent.Normalization
import AgentSchedBench.Agent.PersistedResults
import AgentSchedBench.Library.Counters
import AgentSchedBench.Harness.CumulativeCounters
import AgentSchedBench.Library.RealPath
import AgentSchedBench.Library.Listings
import AgentSchedBench.Agent.FileTools
import AgentSchedBench.Agent.FileModes
import AgentSchedBench.Library.Progress
import AgentSchedBench.Library.Spans
import AgentSchedBench.Replay.VirtualTime
import AgentSchedBench.Replay.EqualRates
import AgentSchedBench.Replay.ResourceLoop
import AgentSchedBench.Library.Uncovered
import AgentSchedBench.Replay.SourceGaps
import AgentSchedBench.Library.IpAddresses
import AgentSchedBench.Agent.NetworkGuard
import AgentSchedBench.Agent.WebFetch
import AgentSchedBench.Library.Selections
import AgentSchedBench.Replay.Reapplication
import AgentSchedBench.Checkpoint.MarkerSnapshot
import AgentSchedBench.Agent.ToolSchemas
import AgentSchedBench.Agent.SchemaMeaning
import AgentSchedBench.Agent.ValidateSchema
import AgentSchedBench.Agent.CastParams
import AgentSchedBench.Agent.NormalizeSchema
import AgentSchedBench.Agent.NormalizedMeaning
import AgentSchedBench.Library.FreshNames
import AgentSchedBench.Replay.InstanceIds
import AgentSchedBench.LlmCall.RetriedCalls
import AgentSchedBench.Replay.TraceSession
import AgentSchedBench.Library.Rounding
import AgentSchedBench.Library.MissingValues
import AgentSchedBench.Replay.TimelineRecorder
import AgentSchedBench.Replay.MismatchOracle
import AgentSchedBench.Replay.ForcedSyncRecord
import AgentSchedBench.Replay.ToolRecord
import AgentSchedBench.Replay.ScoredAgain
import AgentSchedBench.Checkpoint.PruneBlobs
import AgentSchedBench.Harness.DockerBackend
import AgentSchedBench.Library.Placements
import AgentSchedBench.Gantt.RealTimeline
import AgentSchedBench.Gantt.TimelineOrder
import AgentSchedBench.Gantt.TimelineMonotone
import AgentSchedBench.Library.Patterns
import AgentSchedBench.Agent.PatchExtraction
import AgentSchedBench.Agent.FencedBlocks
import AgentSchedBench.Agent.GitDiffs
import AgentSchedBench.Agent.ScrapedPatch
import AgentSchedBench.Agent.PatchPreserved
import AgentSchedBench.Library.Gaps
import AgentSchedBench.Gantt.SpansAndMarkers
import AgentSchedBench.Library.Colouring
import AgentSchedBench.Gantt.Tracks
import AgentSchedBench.Agent.ExecuteTools
import AgentSchedBench.Agent.AlignedResults
import AgentSchedBench.Library.HtmlTokens
import AgentSchedBench.Library.HtmlScripts
import AgentSchedBench.Library.HtmlComments
import AgentSchedBench.Library.EscapedJson
import AgentSchedBench.Library.HtmlRawTexts
import AgentSchedBench.Gantt.StaticExport
import AgentSchedBench.Gantt.BootstrapElement
import AgentSchedBench.Library.Substitutions
import AgentSchedBench.Replay.OutputNormalize
import AgentSchedBench.Library.Keyed
import AgentSchedBench.Library.IndentedJson
import AgentSchedBench.Gantt.TraceDiscovery
import AgentSchedBench.Gantt.RuntimeRegistry
import AgentSchedBench.Gantt.RegistryRuns
import AgentSchedBench.Gantt.RegistryChanges
import AgentSchedBench.Harness.TaskImages
import AgentSchedBench.Harness.ImagesReady
import AgentSchedBench.Harness.ImageBudget
