import MediaAgent.StreamTypes
import MediaAgent.Library.Transition
import MediaAgent.PublishLoop
import MediaAgent.InferenceGate
import MediaAgent.GateInvariant
import MediaAgent.ResultCache
import MediaAgent.Library.ByteReader
import MediaAgent.Library.NalUnits
import MediaAgent.SeiPayload
import MediaAgent.SeiNal
import MediaAgent.SeiInject
import MediaAgent.ConfigTypes
import MediaAgent.InferScheduler
import MediaAgent.ConfigFilter
import MediaAgent.Pipeline
import MediaAgent.ContextAccounting
import MediaAgent.PullLoop
import MediaAgent.FrameLedger
import MediaAgent.Handover
import MediaAgent.Library.LastWins
import MediaAgent.MergedStreams
import MediaAgent.AsyncStop
import MediaAgent.ConfigAgreement
import MediaAgent.SchedulerEntries
import MediaAgent.SocketFrames
import MediaAgent.FrameSources
import MediaAgent.AlgorithmChoice
import MediaAgent.InferLoop
import MediaAgent.Shutdown
import MediaAgent.SocketTeardown
import MediaAgent.SendAccounting
import MediaAgent.Library.RoundRobin
import MediaAgent.SchedulerFairness
import MediaAgent.FrameAlignment
import MediaAgent.Library.KeyGroups
import MediaAgent.Recorder
import MediaAgent.SelectionOrder
import MediaAgent.RecordedFiles
import MediaAgent.TaskContext
import MediaAgent.DecodeOrder
import MediaAgent.ResultMatching
import MediaAgent.Library.Cooldown
import MediaAgent.AlarmDedup
import MediaAgent.BufferConsistency
import MediaAgent.ThreadSafeQueue
import MediaAgent.Statistics
import MediaAgent.Library.Utf8
import MediaAgent.MspTexts
import MediaAgent.RecordingDeadline
import MediaAgent.RtspPublisher
import MediaAgent.Library.RoundedDivision
import MediaAgent.MuxedTimestamps
import MediaAgent.RecordDirectory
import MediaAgent.Library.GreedyMatching
import MediaAgent.TrackerAdapter
import MediaAgent.TrackAgeing
import MediaAgent.ByteTracking
import MediaAgent.TrackedList
import MediaAgent.TrackerCalls
import MediaAgent.PublishedStream
import MediaAgent.TrackerLibrary
import MediaAgent.ConfigWait
import MediaAgent.PublishWait
import MediaAgent.QueueWait
import MediaAgent.SchedulerWait
import MediaAgent.DetectedCells
import MediaAgent.LetterboxedResults
import MediaAgent.ObbPostprocess
