import SecMon.Core.Machine
import SecMon.Core.Progress
import SecMon.Core.Parts
import SecMon.Core.Mealy
import SecMon.Core.Decider
import SecMon.Core.Reader
import SecMon.Core.Path
import SecMon.Core.Buffer
import SecMon.Core.Grouping
import SecMon.Core.Maximal
import SecMon.Core.PairLoop
import SecMon.Pipeline.Pipeline
import SecMon.Pipeline.Run
import SecMon.Pipeline.Wiring
import SecMon.Pipeline.Build
import SecMon.Pipeline.Order
import SecMon.Pipeline.TickChain
import SecMon.Pipeline.Pause
import SecMon.Pipeline.Missed
import SecMon.Pipeline.Stats
import SecMon.Pipeline.Firing
import SecMon.Pipeline.LifeCycle
import SecMon.Pipeline.Batching
import SecMon.Pipeline.Drain
import SecMon.Pipeline.Metronome
import SecMon.Pipeline.Liveness
import SecMon.Pipeline.Sequential
import SecMon.Pipeline.Places
import SecMon.Pipeline.CatchUp
import SecMon.Scene
import SecMon.SceneMonitor
import SecMon.SecurityMonitor
import SecMon.ImageProcessing.Rect
import SecMon.ImageProcessing.RoiDetector
import SecMon.ImageProcessing.Walk
import SecMon.ImageProcessing.Consolidate
import SecMon.ImageProcessing.Settle
import SecMon.ImageProcessing.Nested
import SecMon.ImageProcessing.Bounds
import SecMon.ObjectProcessing.Ooi
import SecMon.Gui.Request
import SecMon.Gui.RequestParser
import SecMon.Gui.Grammar
import SecMon.Gui.Text
import SecMon.Gui.Reply
import SecMon.Gui.StreamDirectory
import SecMon.Gui.RequestHandler
import SecMon.Gui.DocRoot
import SecMon.Gui.Response
import SecMon.Gui.Answer
import SecMon.Gui.Connection
import SecMon.Gui.Cutting
import SecMon.Gui.StreamConnection
import SecMon.Gui.Multipart
import SecMon.Gui.Outbox
import SecMon.Gui.Failure
import SecMon.Gui.Lifetime
import SecMon.Gui.Viewers
import SecMon.Gui.Delivery
import SecMon.Gui.WebSocketServer
import SecMon.Gui.UrlDecode
import SecMon.Gui.Dispatch
import SecMon.Gui.Version
import SecMon.Gui.Fetch
import SecMon.Gui.HttpServer
import SecMon.Frame
import SecMon.Picture
import SecMon.ImageSource
import SecMon.SceneStages
import SecMon.Broadcast
import SecMon.StreamParts
import SecMon.LiveStream
import SecMon.StreamWiring
import SecMon.PerformanceMonitor
