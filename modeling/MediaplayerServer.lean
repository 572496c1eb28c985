import MediaplayerServer.Transition
import MediaplayerServer.Unrolling
import MediaplayerServer.CMemory
import MediaplayerServer.Gst
import MediaplayerServer.MediaPlayer
import MediaplayerServer.MediaPlayerFacts
import MediaplayerServer.MediaPlayerResult
import MediaplayerServer.Handshake
import MediaplayerServer.HandshakeInvariant
import MediaplayerServer.Server
import MediaplayerServer.ServerStep
import MediaplayerServer.ServerInvariant
import MediaplayerServer.ServerMessages
import MediaplayerServer.ServerOrphans
import MediaplayerServer.ServerLedger
import MediaplayerServer.ServerProgress
import MediaplayerServer.ServerLoop
import MediaplayerServer.ServerNotifications
import MediaplayerServer.ServerRecovery
import MediaplayerServer.AbstractPlayer
import MediaplayerServer.ServerRefinement
import MediaplayerServer.ServerSessions
import MediaplayerServer.ServerRequests
import MediaplayerServer.ServerTick
import MediaplayerServer.ServerSeconds
import MediaplayerServer.Linearizability
import MediaplayerServer.LockedObject
import MediaplayerServer.MediaPlayerLock
import MediaplayerServer.ServerThreads
import MediaplayerServer.ServerProcess
import MediaplayerServer.DBusInterface
import MediaplayerServer.DBusSession
import MediaplayerServer.DBusHistory
import MediaplayerServer.DBusReplies
import MediaplayerServer.INIReader
import MediaplayerServer.INIFile
import MediaplayerServer.BoundedLines
import MediaplayerServer.INIParse
import MediaplayerServer.INIText
import MediaplayerServer.INILine
import MediaplayerServer.INIDocument
import MediaplayerServer.INIAccepted
import MediaplayerServer.OrderedKeys
import MediaplayerServer.INIReaderFile
import MediaplayerServer.INIInteger
import MediaplayerServer.Configuration
import MediaplayerServer.ConfigurationTermination
import MediaplayerServer.ConfigurationProperties
import MediaplayerServer.ConfigurationTree
import MediaplayerServer.ConfigurationIntegers
import MediaplayerServer.ConfigurationFile
import MediaplayerServer.FileSystem
import MediaplayerServer.Discoverer
import MediaplayerServer.MediaInfo
import MediaplayerServer.MediaInfoMove
import MediaplayerServer.MediaInfoCover
import MediaplayerServer.MediaInfoCache
import MediaplayerServer.MediaInfoRecord
import MediaplayerServer.DiscovererWalk
import MediaplayerServer.Utf8
import MediaplayerServer.MediaInfoUtf8
