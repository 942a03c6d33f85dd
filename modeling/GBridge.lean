import GBridge.Lib.Prog
import GBridge.Lib.Duplex
import GBridge.Lib.Bytes
import GBridge.Wire
import GBridge.Atmega.Gbridge
import GBridge.Atmega.ProtMa
import GBridge.Bridge.SocketImpl
import GBridge.Bridge.Gbridge
import GBridge.Bridge.ProtMa
import GBridge.Atmega.Serial
import GBridge.Bridge.Handles
import GBridge.Bridge.Semantics
import GBridge.Bridge.LinkState
import GBridge.Bridge.Reply
import GBridge.Atmega.Semantics
import GBridge.Lib.Player
import GBridge.Atmega.Play
import GBridge.Atmega.Receive
import GBridge.Atmega.Schedule
import GBridge.Bridge.Play
import GBridge.Bridge.Receive
import GBridge.Atmega.Send
import GBridge.Bridge.Send
import GBridge.RoundTrip
import GBridge.Corruption
import GBridge.Lib.Progress
import GBridge.Bridge.Refusal
import GBridge.Bridge.Service
import GBridge.Calls
import GBridge.Bridge.Grammar
import GBridge.Bridge.Asserts
import GBridge.Atmega.Live
import GBridge.Atmega.Turns
import GBridge.Atmega.Bounds
import GBridge.Atmega.Disarmed
import GBridge.Atmega.Arrivals
import GBridge.Atmega.Silence
import GBridge.Atmega.Stale
import GBridge.Atmega.Count
import GBridge.Atmega.Wait
import GBridge.Session
import GBridge.Bridge.Wait
import GBridge.Serve
import GBridge.Atmega.Party
import GBridge.Bridge.Party
import GBridge.Pair
import GBridge.Probe
import GBridge.Address
import GBridge.ReplyTo
import GBridge.Lib.Matching
import GBridge.Handshake
import GBridge.Lib.Transition
import GBridge.Atmega.SerialReceive
import GBridge.Atmega.DebugSpi
import GBridge.Lib.Lockstep
import GBridge.Atmega.Forget
import GBridge.Lib.PrefixCode
import GBridge.Messages
import GBridge.Atmega.Transmit
import GBridge.Bridge.Transmit
import GBridge.Atmega.Ready
import GBridge.Bridge.Sockets
import GBridge.Atmega.Chip
import GBridge.Atmega.Driver
import GBridge.Atmega.Drain
import GBridge.Bridge.Whole
import GBridge.Atmega.ChipParty
import GBridge.Bridge.WholeParty
import GBridge.Wired
import GBridge.Lib.Phases
import GBridge.Lib.Turns
import GBridge.PowerUp
