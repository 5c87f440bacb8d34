import BearTorrent.Lib.Transition
import BearTorrent.Lib.Channel
import BearTorrent.Client.HonestDownload
import BearTorrent.Client.TurnFallback
import BearTorrent.Client.Interference
import BearTorrent.Client.Confinement
import BearTorrent.Client.Completion
import BearTorrent.Client.Pipeline.Cancellation
import BearTorrent.Client.Pipeline.Delivery
import BearTorrent.Client.Pipeline.Dispatch
import BearTorrent.Server.Advertisement
import BearTorrent.Server.PeerList
import BearTorrent.Client.Withdrawal
import BearTorrent.Server.Uninterrupted
import BearTorrent.Server.Tracker
import BearTorrent.Lib.Interleaving
import BearTorrent.Turn.Isolation
import BearTorrent.Turn.Relay
import BearTorrent.Client.Framing
import BearTorrent.Server.Commute
import BearTorrent.Turn.Registration
import BearTorrent.Client.TorrentIdentity
import BearTorrent.Client.SharedFolder
import BearTorrent.Client.HarmfulMessages
import BearTorrent.Client.StartSignal
import BearTorrent.Client.FallbackLadder
import BearTorrent.Client.FileCache
import BearTorrent.Client.CacheCoherence
import BearTorrent.Client.PieceReads
import BearTorrent.Client.PieceWrites
import BearTorrent.Client.PeerRequests
import BearTorrent.Client.Pipeline.InitialRequests
import BearTorrent.Client.Pipeline.ZeroDivision
import BearTorrent.Client.CacheLoading
import BearTorrent.Client.SessionId
import BearTorrent.Client.Deletion
import BearTorrent.Client.FolderScan
import BearTorrent.Server.ReverseLookup
import BearTorrent.Server.Connector
import BearTorrent.Server.Delisting
import BearTorrent.Server.SeederCounts
import BearTorrent.Server.HolePunch
import BearTorrent.Turn.Vanished
import BearTorrent.Client.HolePunch
import BearTorrent.Client.PunchAnswer
import BearTorrent.Client.LeecherLoop
import BearTorrent.Client.Pipeline.Serving
import BearTorrent.Client.Swarm
import BearTorrent.Client.SeederLoop
import BearTorrent.Client.TurnTransfer
import BearTorrent.Client.Generations
import BearTorrent.Client.TurnDownload
import BearTorrent.Lib.LockOrder
import BearTorrent.Server.LockOrder
import BearTorrent.Client.Menu
import BearTorrent.Client.ScanLimits
