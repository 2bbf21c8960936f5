import ARArch.AtomicProgram
import ARArch.Table
import ARArch.Sessions
import ARArch.RingBuffer
import ARArch.Semaphore
import ARArch.ThreadPool
import ARArch.RelyGuarantee
import ARArch.Repository
import ARArch.RepositorySteps
import ARArch.RepositoryCalls
import ARArch.SharedRepository
import ARArch.SequentialCalls
import ARArch.Requests
import ARArch.CallEffects
import ARArch.FramesInUse
import ARArch.StereoPairing
import ARArch.StalePairs
import ARArch.Numbering
import ARArch.FrameMap
import ARArch.MonocularStore
import ARArch.Router
import ARArch.StreamHandling
import ARArch.Registration
import ARArch.Consumers
import ARArch.FrameProtocol
import ARArch.Following
import ARArch.LockOrder
import ARArch.ClaimFlags
import ARArch.FirstLookup
import ARArch.LastReleaser
import ARArch.CameraQueue
import ARArch.QueueOrder
import ARArch.FramesInFlight
import ARArch.FaceOverlays
import ARArch.OverlayInvariant
import ARArch.OverlayOwnership
import ARArch.Detections
import ARArch.DetectionSteps
import ARArch.DetectionMaps
import ARArch.DisplayOrder
import ARArch.OpenCloseLock
import ARArch.PreviewStart
import ARArch.PreviewReal
import ARArch.Architectures
import ARArch.SessionRestart
import ARArch.FlowGraph
import ARArch.RouterOffers
import ARArch.EdgeOrder
import ARArch.RenderOrder
import ARArch.ShownInOrder
import ARArch.LargestKeys
import ARArch.BoundedMap
import ARArch.SelfWaits
import ARArch.UnpairedFrames
import ARArch.EnqueueEffects
import ARArch.Nodes
import ARArch.NodeEffects
import ARArch.ReleasedClaims
import ARArch.ColorData
import ARArch.StereoDetector
import ARArch.GivenBack
import ARArch.JniReferences
import ARArch.ReferenceCounts
import ARArch.RouterDispatch
import ARArch.RangeQuery
import ARArch.RingPeek
import ARArch.Sensors
import ARArch.SensorQueues
import ARArch.SensorRanges
import ARArch.LiveQueues
import ARArch.FaceCoordinates
import ARArch.DetectionOwnership
import ARArch.Blocks
import ARArch.ImageClosing
import ARArch.ArrayCopy
import ARArch.PlanePacking
import ARArch.StereoSource
import ARArch.ErasingLoop
import ARArch.PriorityQueue
import ARArch.VulkanTools
import ARArch.DeviceSelection
import ARArch.PreviewSize
import ARArch.CentralMoments
import ARArch.RunningStatistics
import ARArch.CombinedStatistics
import ARArch.JsonGrammar
import ARArch.StatisticsText
import ARArch.CameraTexture
import ARArch.Attempts
import ARArch.Handles
import ARArch.VulkanRenderer
import ARArch.RendererSteps
import ARArch.RendererTeardown
import ARArch.RendererCreation
import ARArch.RendererRecreation
import ARArch.Pruning
import ARArch.Calibration
import ARArch.CalibrationScaling
import ARArch.RenderScripts
import ARArch.DeviceQueues
import ARArch.RingSlots
import ARArch.FrameSync
import ARArch.FrameSlots
import ARArch.FrameSyncSafety
import ARArch.SensorHistory
import ARArch.LumaChroma
import ARArch.ColorConversion
import ARArch.ShownColors
import ARArch.CameraDevices
import ARArch.Numerals
import ARArch.CameraNames
import ARArch.MainActivity
import ARArch.StartedCameras
import ARArch.StartButton
import ARArch.ArchitectureThread
import ARArch.MomentBounds
import ARArch.StatisticsBounds
import ARArch.Rasterization
import ARArch.TextureSampling
import ARArch.ScreenPixels
import ARArch.CalibrationFile
