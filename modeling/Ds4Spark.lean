import Ds4Spark.Lib.Run
import Ds4Spark.Lib.Table
import Ds4Spark.Json
import Ds4Spark.Queue.Schema
import Ds4Spark.Queue.Kv
import Ds4Spark.Queue.ComputeLease
import Ds4Spark.Queue.Select
import Ds4Spark.Queue.Submit
import Ds4Spark.Queue.Dispatch
import Ds4Spark.Queue.Settle
import Ds4Spark.Queue.System
import Ds4Spark.Queue.Effects
import Ds4Spark.Queue.Loop
import Ds4Spark.Queue.Block
import Ds4Spark.Queue.LifeCycle
import Ds4Spark.Queue.CancelLaw
import Ds4Spark.Lib.Log
import Ds4Spark.Queue.Attempts
import Ds4Spark.Queue.EventLog
import Ds4Spark.Lib.Pool
import Ds4Spark.Queue.KvPool
import Ds4Spark.Queue.Tenancy
import Ds4Spark.Queue.KvLeak
import Ds4Spark.Queue.KvPinned
import Ds4Spark.Queue.KvCapacity
import Ds4Spark.Queue.Exclusive
import Ds4Spark.Queue.Terminal
import Ds4Spark.Queue.Conc
import Ds4Spark.Lib.Path
import Ds4Spark.Lib.Lexical
import Ds4Spark.Queue.Notices
import Ds4Spark.Queue.Confined
import Ds4Spark.Queue.Batches
import Ds4Spark.Queue.Resubmit
import Ds4Spark.Queue.Poll
import Ds4Spark.Queue.Quiet
import Ds4Spark.Queue.NodeDepth
import Ds4Spark.Dispatcher.Resident
import Ds4Spark.Queue.Claims
import Ds4Spark.Dispatcher.DomainLimit
import Ds4Spark.Dispatcher.Window
import Ds4Spark.Worker.Pair
import Ds4Spark.Worker.Batch
import Ds4Spark.Queue.Running
import Ds4Spark.Worker.Account
import Ds4Spark.Worker.Fate
import Ds4Spark.Worker.Isolation
import Ds4Spark.Worker.Progress
import Ds4Spark.Lib.Pieces
import Ds4Spark.Pipeline.Layers
import Ds4Spark.Pipeline.Service
import Ds4Spark.Pipeline.Cover
import Ds4Spark.ExternalKv.Store
import Ds4Spark.ExternalKv.Pins
import Ds4Spark.ExternalKv.Conc
import Ds4Spark.Agent.ToolCalls
import Ds4Spark.Agent.Loop
import Ds4Spark.Runners.Coalesce
import Ds4Spark.Runners.CoalesceSound
import Ds4Spark.Runners.AnswerMarker
import Ds4Spark.Runners.CompletionStream
import Ds4Spark.Runners.StreamDelivery
import Ds4Spark.Lib.Cut
import Ds4Spark.Runners.StreamedText
import Ds4Spark.Runners.ChatStreaming
import Ds4Spark.Runners.BatchRows
import Ds4Spark.Lib.Ranked
import Ds4Spark.Transfer.Stripes
import Ds4Spark.Transfer.Receive
import Ds4Spark.Transfer.Integrity
import Ds4Spark.Transfer.Waterfall
import Ds4Spark.Transfer.WaterfallFlow
import Ds4Spark.Transfer.WaterfallStore
import Ds4Spark.Transfer.WaterfallEnd
import Ds4Spark.Adapter.Requests
import Ds4Spark.Adapter.Rows
import Ds4Spark.Api.AttachmentChunks
import Ds4Spark.Api.Attachments
import Ds4Spark.Api.ContextBudget
import Ds4Spark.Api.ChatStream
import Ds4Spark.Queue.Deltas
import Ds4Spark.Api.StreamEnd
import Ds4Spark.Api.StreamText
import Ds4Spark.ExternalKv.Commit
import Ds4Spark.Queue.KvEviction
import Ds4Spark.Queue.PrepareProgress
import Ds4Spark.Queue.Cohort
import Ds4Spark.Hma.Served
import Ds4Spark.Offload.PersistentDisk
import Ds4Spark.Offload.RoundTrip
import Ds4Spark.Runtime.Reassembly
import Ds4Spark.Runtime.Transport
import Ds4Spark.Runtime.TransportAgree
import Ds4Spark.Lib.Clock
import Ds4Spark.Runners.JitKv
import Ds4Spark.Pipeline.Balanced
import Ds4Spark.Dispatcher.ResourceGovernor
import Ds4Spark.ExternalKv.Listing
import Ds4Spark.Lib.Like
import Ds4Spark.Lib.OrderBy
import Ds4Spark.Pipeline.CacheShards
import Ds4Spark.Pipeline.StorageUri
import Ds4Spark.Json.Canonical
import Ds4Spark.Baker.EngineLock
import Ds4Spark.Lib.SortedFields
import Ds4Spark.Lib.Readback
import Ds4Spark.Json.Readable
import Ds4Spark.Json.Text
import Ds4Spark.KvCache.Directive
import Ds4Spark.KvCache.Endpoint
import Ds4Spark.KvCache.BatchKey
import Ds4Spark.Transfer.Allowlist
import Ds4Spark.Tools.Registry
import Ds4Spark.Tools.DiffStats
import Ds4Spark.Lib.SoleOwner
import Ds4Spark.Lib.Dict
import Ds4Spark.Profiles.Registry
import Ds4Spark.Pipeline.Capacity
import Ds4Spark.Tools.CpuBatch
import Ds4Spark.Tools.CpuBatchRows
import Ds4Spark.Lib.Worklist
import Ds4Spark.Runners.BisectRetry
import Ds4Spark.Api.CompletionBatch
import Ds4Spark.Queue.RequestText
import Ds4Spark.Api.CompletionOrder
import Ds4Spark.Adapter.RequestIds
import Ds4Spark.Baker.ArgEdit
import Ds4Spark.Launch.VllmArgv
import Ds4Spark.Transfer.FastCopy
import Ds4Spark.Transfer.CopyPorts
import Ds4Spark.Api.ChatWire
import Ds4Spark.Api.CompletionStream
import Ds4Spark.Api.CompletionStreamText
import Ds4Spark.Runners.SseReader
import Ds4Spark.Lib.CommonPrefix
import Ds4Spark.Queue.Fairness
import Ds4Spark.Runners.Prestage
import Ds4Spark.Runners.PrestageRuns
import Ds4Spark.Runners.NodeAnswers
import Ds4Spark.Api.ChatPrompt
import Ds4Spark.Dispatcher.Plans
import Ds4Spark.Dispatcher.Idle
