import Avs.Base
import Avs.Runs
import Avs.KeyedList
import Avs.Keystore
import Avs.KeystoreInvariant
import Avs.KeyChain
import Avs.BigEndian
import Avs.FrameHdr
import Avs.FrameCrypt
import Avs.FrameDelivery
import Avs.FrameLookup
import Avs.CipherCache
import Avs.FrameReception
import Avs.WebWorker
import Avs.FrameCodec
import Avs.KeyPush
import Avs.Userlist
import Avs.Roster
import Avs.Incall
import Avs.Approval
import Avs.Election
import Avs.Duplex
import Avs.Econn
import Avs.Peers
import Avs.EconnLife
import Avs.SetupGlare
import Avs.UpdateGlare
import Avs.CallEnd
import Avs.Ecall
import Avs.VideoRequests
import Avs.PeerBinding
import Avs.PendingFlush
import Avs.Jzon
import Avs.LibreText
import Avs.LibreFormats
import Avs.EconnFmt
import Avs.MessageRoundTrip
import Avs.MessageComplete
import Avs.ListDecoding
import Avs.KeyDescent
import Avs.KeyRotation
import Avs.Ccall
import Avs.CcallEvents
import Avs.CcallMoves
import Avs.CcallSteps
import Avs.KeyProvenance
import Avs.Departure
import Avs.Served
import Avs.Distribution
import Avs.Arbitration
import Avs.CallCourse
import Avs.ConfigUpdate
import Avs.Hangup
import Avs.CourseTurns
import Avs.ConfEnd
import Avs.Leaving
import Avs.Decoders
import Avs.DecoderPairing
import Avs.ListIntegrity
import Avs.Config
import Avs.Chunk
import Avs.KeyRetention
import Avs.KeyOrder
import Avs.EpochSync
import Avs.Wcall
import Avs.WcallFrame
import Avs.Deferral
import Avs.CommandDeferral
import Avs.Notifications
import Avs.EventQueue
import Avs.Registries
import Avs.ServerLists
import Avs.Answering
import Avs.Egcall
import Avs.GroupLeaving
import Avs.StaleCalls
import Avs.DirectCalls
import Avs.Unanswered
import Avs.CloseReports
import Avs.ClosedOnce
import Avs.MediaManager
import Avs.MediaCall
import Avs.AudioHeld
import Avs.AudioRequests
import Avs.HoldResume
import Avs.Store
import Avs.Cookies
import Avs.Rest
import Avs.Stats
