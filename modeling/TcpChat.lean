import TcpChat.Closings
import TcpChat.CommandWords
import TcpChat.ConcurrentCreates
import TcpChat.ContextLifetimes
import TcpChat.Conversation
import TcpChat.CurrentKeys
import TcpChat.E2eBounds
import TcpChat.E2eCapacity
import TcpChat.E2eRoundTrip
import TcpChat.E2eSecrecy
import TcpChat.E2eTampering
import TcpChat.EntropyCollection
import TcpChat.FailedCommands
import TcpChat.GuardPages
import TcpChat.HandlerOwnership
import TcpChat.HandshakeAgreement
import TcpChat.HandshakeIsolation
import TcpChat.HexPackets
import TcpChat.KeyAgreement
import TcpChat.KeyDiscovery
import TcpChat.KeySchedule
import TcpChat.Listings
import TcpChat.LogRecord
import TcpChat.LoggerLock
import TcpChat.MembershipIntegrity
import TcpChat.NicknameChange
import TcpChat.PeerCapacity
import TcpChat.PostingRights
import TcpChat.RoomDelivery
import TcpChat.RoomFields
import TcpChat.RoomStore
import TcpChat.Secrets
import TcpChat.SecurityContexts
import TcpChat.SelfSignature
import TcpChat.ServerProgress
import TcpChat.SlotAccounting
import TcpChat.TagAcceptance
import TcpChat.ThreadedService
import TcpChat.UserIds
