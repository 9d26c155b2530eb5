import VideoDetector.Lib.Memory
import VideoDetector.Lib.Loop
import VideoDetector.Lib.Stuffing
import VideoDetector.Signal.Frame
import VideoDetector.Signal.FrameCodec
import VideoDetector.Signal.RoundTrip
import VideoDetector.Lib.Bounded
import VideoDetector.Signal.Bounds
import VideoDetector.Lib.Layout
import VideoDetector.Config.Codec
import VideoDetector.Signal.Status
import VideoDetector.Signal.Request
import VideoDetector.Json.Stream
import VideoDetector.Json.Sessions
import VideoDetector.Json.Objects
import VideoDetector.Pvd.Lifecycle
import VideoDetector.Pvd.DataPacket
import VideoDetector.Pvd.CameraManager
import VideoDetector.Lib.Blocks
import VideoDetector.Config.Server
import VideoDetector.Config.Steps
import VideoDetector.Lib.Registers
import VideoDetector.Config.Registers
import VideoDetector.Config.Replies
import VideoDetector.Config.Persistence
import VideoDetector.Config.Effects
import VideoDetector.Common.LinkedList
import VideoDetector.Common.ListOps
import VideoDetector.Lib.Runs
import VideoDetector.Lib.Recent
import VideoDetector.Common.ListRuns
import VideoDetector.Config.Clients
import VideoDetector.Config.ClientRuns
import VideoDetector.Config.Cameras
import VideoDetector.Camera.Net
import VideoDetector.Camera.Service
import VideoDetector.Signal.Link
import VideoDetector.Signal.Pack
import VideoDetector.Signal.Events
import VideoDetector.Signal.Accounts
import VideoDetector.Signal.Traffic
import VideoDetector.Signal.Reports
import VideoDetector.Signal.Callback
import VideoDetector.Alg.DayNight
import VideoDetector.Alg.Environment
import VideoDetector.Alg.Targets
import VideoDetector.Alg.TargetRuns
import VideoDetector.Alg.Counting
import VideoDetector.Alg.CountRuns
import VideoDetector.Alg.FlowCount
import VideoDetector.Alg.Twilight
import VideoDetector.Alg.Cascade
import VideoDetector.Lib.CString
import VideoDetector.Ipsearch.CatchArp
import VideoDetector.Lib.Lines
import VideoDetector.Ipsearch.Ini
import VideoDetector.Ipsearch.AddressCodec
import VideoDetector.Alg.Geometry
import VideoDetector.Lib.Search
import VideoDetector.Signal.Occupancy
import VideoDetector.Alg.ConnectDet
import VideoDetector.Alg.Merge
import VideoDetector.Alg.TargetLoops
import VideoDetector.Alg.Candidate
import VideoDetector.Alg.Detection
import VideoDetector.Alg.Sampling
import VideoDetector.Lib.Carve
import VideoDetector.Alg.LaneTables
import VideoDetector.Alg.Foreground
import VideoDetector.Camera.Watchdog
import VideoDetector.Config.Strings
import VideoDetector.Alg.QueueLine
import VideoDetector.Alg.Calibration
import VideoDetector.Alg.Pairing
import VideoDetector.Alg.NightLight
import VideoDetector.Alg.SobelConectivity
import VideoDetector.Ipsearch.MemTracker
import VideoDetector.Pvd.ConfigStore
import VideoDetector.Pvd.DetectArea
import VideoDetector.Alg.BackGrey
import VideoDetector.Alg.DegreeMarks
import VideoDetector.Signal.Statistics
import VideoDetector.Alg.MinStd
import VideoDetector.Ipsearch.Ifcfg
import VideoDetector.Ipsearch.LogPruning
import VideoDetector.Lib.Assignment
import VideoDetector.Pvd.GreedyAssignment
import VideoDetector.Pvd.HungarianPhases
import VideoDetector.Pvd.HungarianRuns
import VideoDetector.Pvd.Tracker
import VideoDetector.Lib.Tables
import VideoDetector.Pvd.Scanner
import VideoDetector.Pvd.ScannerScores
import VideoDetector.Pvd.ScannerRuns
import VideoDetector.Pvd.Suppression
import VideoDetector.Pvd.Pedestrians
import VideoDetector.Lib.Forest
import VideoDetector.Lib.Classes
import VideoDetector.Alg.Partition
import VideoDetector.Alg.Grouping
import VideoDetector.Alg.LbpCascade
import VideoDetector.Alg.MultiScale
import VideoDetector.Lib.OrderedMap
import VideoDetector.Json.FastWriter
import VideoDetector.Json.Reader
import VideoDetector.Json.RoundTrip
import VideoDetector.Json.ConfigCommands
