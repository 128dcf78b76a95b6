import LibraLive.Lts
import LibraLive.Fifo
import LibraLive.Chain
import LibraLive.Table
import LibraLive.Ownership
import LibraLive.CInt
import LibraLive.BlockCopy
import LibraLive.LiveData
import LibraLive.SeenVersions
import LibraLive.Dispatcher
import LibraLive.Bits
import LibraLive.Java
import LibraLive.SizedTable
import LibraLive.Stacks
import LibraLive.Ffmpeg
import LibraLive.MessageQueue
import LibraLive.QueueThreads
import LibraLive.Channel
import LibraLive.DecodeEvents
import LibraLive.RenderThread
import LibraLive.Pacing
import LibraLive.Player
import LibraLive.App
import LibraLive.Prepare
import LibraLive.Activity
import LibraLive.OpenSl
import LibraLive.Window
import LibraLive.WindowThreads
import LibraLive.Joins
import LibraLive.Looper
import LibraLive.ImageDef
import LibraLive.VideoGLRender
import LibraLive.DrawFrame
import LibraLive.DumpImage
import LibraLive.NativeRender
import LibraLive.H264DeCodePlay
import LibraLive.UdpManager
import LibraLive.Formatters
import LibraLive.Utils
import LibraLive.BaseLiveDataKT
import LibraLive.Fragments
import LibraLive.SingleLiveEvent
import LibraLive.EglSurface
import LibraLive.Okhttp3.Huffman
import LibraLive.Okhttp3.Hpack
import LibraLive.Okhttp3.Dispatcher
import LibraLive.Okhttp3.FlowControl
import LibraLive.Okhttp3.WebSocket
import LibraLive.Lemmas.DecodeStep
import LibraLive.Lemmas.DecodeOwned
import LibraLive.Lemmas.OutputStep
import LibraLive.Lemmas.CtlStep
import LibraLive.Lemmas.OutputHand
import LibraLive.Lemmas.ChannelPhase
import LibraLive.Lemmas.PlayerStep
import LibraLive.Lemmas.PlayerChannel
import LibraLive.Lemmas.PlayerPhase
import LibraLive.Lemmas.PlayerRuns
import LibraLive.Lemmas.ChannelFlow
import LibraLive.Lemmas.OpenSlChannel
import LibraLive.Lemmas.OpenSlSteps
import LibraLive.Lemmas.AudioFrames
import LibraLive.Lemmas.LooperStep
import LibraLive.Lemmas.LooperLock
import LibraLive.Lemmas.LooperList
import LibraLive.Lemmas.LooperWorker
import LibraLive.Lemmas.LooperProgress
import LibraLive.Lemmas.UdpStep
import LibraLive.Lemmas.CopyPlanes
import LibraLive.Lemmas.HuffmanTree
import LibraLive.Lemmas.HuffmanStream
import LibraLive.Lemmas.HpackTable
import LibraLive.Lemmas.HpackBytes
import LibraLive.Lemmas.HpackSync
import LibraLive.Lemmas.HpackBlocks
import LibraLive.Lemmas.DispatcherStep
import LibraLive.Lemmas.FlowControlStep
import LibraLive.Lemmas.FlowControlWindows
import LibraLive.Lemmas.WebSocketFrames
import LibraLive.Theorems.MessageQueue
import LibraLive.Theorems.Wakeup
import LibraLive.Theorems.Buffering
import LibraLive.Theorems.Routing
import LibraLive.Theorems.DeadDecoder
import LibraLive.Theorems.NullChannel
import LibraLive.Theorems.StopFinal
import LibraLive.Theorems.Helper
import LibraLive.Theorems.EndOfFile
import LibraLive.Theorems.DecodeBalance
import LibraLive.Theorems.Lifetime
import LibraLive.Theorems.PlayerInApp
import LibraLive.Theorems.OwnHandle
import LibraLive.Theorems.Orphans
import LibraLive.Theorems.PrepareReports
import LibraLive.Theorems.DecoderLeak
import LibraLive.Theorems.DemuxPackets
import LibraLive.Theorems.PcmBuffer
import LibraLive.Theorems.GetPcm
import LibraLive.Theorems.Resampler
import LibraLive.Theorems.OneWindow
import LibraLive.Theorems.Joins
import LibraLive.Theorems.Drained
import LibraLive.Theorems.HandledInOrder
import LibraLive.Theorems.QuitArrives
import LibraLive.Theorems.Shutdown
import LibraLive.Theorems.RenderImage
import LibraLive.Theorems.Livelock
import LibraLive.Theorems.Dispatched
import LibraLive.Theorems.Hostile
import LibraLive.Theorems.RealFrames
import LibraLive.Theorems.RenderReleases
import LibraLive.Theorems.CatchingUp
import LibraLive.Theorems.Pacing
import LibraLive.Theorems.FrameDelay
import LibraLive.Theorems.PcmCapacity
import LibraLive.Theorems.Blit
import LibraLive.Theorems.WindowBalance
import LibraLive.Theorems.CopyImage
import LibraLive.Theorems.CopyReads
import LibraLive.Theorems.Letterbox
import LibraLive.Theorems.LineSizes
import LibraLive.Theorems.LatestFrame
import LibraLive.Theorems.TextureUpload
import LibraLive.Theorems.Splitting
import LibraLive.Theorems.WholeText
import LibraLive.Theorems.WireNames
import LibraLive.Theorems.PickedFile
import LibraLive.Theorems.NotSticky
import LibraLive.Theorems.ItemsOnce
import LibraLive.Theorems.DroppedPackets
import LibraLive.Theorems.TrackedSurface
import LibraLive.Theorems.SingleDelivery
import LibraLive.Theorems.OutputOrder
import LibraLive.Theorems.HeaderCompression
import LibraLive.Theorems.CallScheduling
import LibraLive.Theorems.FlowControl
import LibraLive.Theorems.WebSocketMessages
import LibraLive.Theorems.WebSocketBounds
