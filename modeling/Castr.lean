import Castr.Lib.Run
import Castr.Lib.Numbered
import Castr.Lib.Tickets
import Castr.Lib.Serial
import Castr.Lib.Since
import Castr.Lib.Bytes
import Castr.Lib.Word
import Castr.Lib.Gather
import Castr.Lib.Text
import Castr.Proto.Header
import Castr.Proto.Packetize
import Castr.Proto.Reassemble
import Castr.Proto.Assembly
import Castr.Proto.Gathering
import Castr.Proto.Integrity
import Castr.Proto.Reordering
import Castr.Proto.Pending
import Castr.Proto.Control
import Castr.Proto.Session
import Castr.Proto.Resumption
import Castr.Net.Retransmit
import Castr.Net.Repair
import Castr.Media.Jitter
import Castr.Media.Decodable
import Castr.Media.Handover
import Castr.Media.Order
import Castr.Media.Clock
import Castr.Receiver.Agreeing
import Castr.Receiver.Present
import Castr.Receiver.MasterClock
import Castr.Receiver.Playout
import Castr.Receiver.GapWait
import Castr.Receiver.Display
import Castr.Receiver.Network
import Castr.Receiver.Greeting
import Castr.Receiver.Isolation
import Castr.Receiver.NextHello
import Castr.Receiver.Resume
import Castr.Miracast.Rtsp
import Castr.Miracast.Wfd
import Castr.Miracast.Negotiation
import Castr.Miracast.Correlation
import Castr.Miracast.Progress
import Castr.Miracast.Source.Caps
import Castr.Miracast.Source.Session
import Castr.Miracast.Source.Progress
import Castr.Miracast.Source.Exchange
import Castr.Miracast.Lifecycle
import Castr.Miracast.Pairing
import Castr.Miracast.Serve
import Castr.Miracast.Holding
import Castr.Miracast.Ownership
import Castr.Miracast.Rtp
import Castr.Miracast.Ts
import Castr.Miracast.Quality
import Castr.Miracast.Session
import Castr.Miracast.Silence
import Castr.Lib.Duplex
import Castr.Miracast.Texts
import Castr.Miracast.Script
import Castr.Miracast.Handshake
import Castr.Miracast.Agreement
import Castr.Lib.Utf8
import Castr.Lib.Framing
import Castr.Miracast.Reading
import Castr.Miracast.Format
import Castr.Miracast.Chunking
import Castr.Lib.Resequence
import Castr.Miracast.Source.RtpPack
import Castr.Miracast.Transparency
import Castr.Lib.Varint
import Castr.Proto.Codec
import Castr.Net.Transport
import Castr.Miracast.Source.TsMux
import Castr.Miracast.Packets
import Castr.Miracast.Demuxing
import Castr.Miracast.Muxing
import Castr.Miracast.Loss
import Castr.Miracast.Splicing
import Castr.Miracast.Intact
import Castr.Lib.Window
import Castr.Receiver.Lockout
import Castr.Miracast.Ladder
import Castr.Miracast.Requests
import Castr.Miracast.Keyframes
import Castr.Miracast.Ceiling
import Castr.Miracast.Parameters
import Castr.Miracast.Starting
import Castr.Miracast.Offer
import Castr.Media.Arc
import Castr.Media.Keeping
import Castr.Miracast.Arming
import Castr.Lib.Calls
import Castr.V4l2.Ops
import Castr.V4l2.Queue
import Castr.V4l2.Decoder
import Castr.V4l2.Owning
import Castr.Lib.Checked
import Castr.Lib.Halting
import Castr.Lib.Latest
import Castr.Lib.Timer
import Castr.Media.Accounting
import Castr.Media.Bitrate
import Castr.Media.Overflow
import Castr.Media.Range
import Castr.Media.Stepping
import Castr.Miracast.Stamping
import Castr.Proto.Copies
import Castr.Proto.Losing
import Castr.Receiver.Pacing
import Castr.Sender.Cast
import Castr.Sender.Following
import Castr.Capture.Cursor
import Castr.Lib.Anchored
import Castr.Lib.Lines
import Castr.Lib.Tagged
import Castr.Miracast.Declared
import Castr.Miracast.Dhcp
import Castr.Miracast.Ledger
import Castr.Miracast.Source.Budget
import Castr.Miracast.SupplicantConf
import Castr.Sender.Audio
import Castr.Sender.Miracast
import Castr.V4l2.Calling
import Castr.V4l2.Copying
import Castr.Lib.Fueled
import Castr.Net.Authentication
import Castr.V4l2.Ending
import Castr.Lib.Quoted
import Castr.Media.Convert
import Castr.Media.Unwrapping
import Castr.Sender.Control
import Castr.Sender.Fix
import Castr.Lib.Calendar
import Castr.Lib.Padded
import Castr.Net.Logging
import Castr.Lib.Sharing
import Castr.Miracast.Mailbox
import Castr.Lib.Attributes
import Castr.Lib.Hex
import Castr.Miracast.Device
import Castr.Miracast.Group
import Castr.Lib.Casing
import Castr.Miracast.Peers
import Castr.Miracast.WorkingConf
import Castr.Lib.Replacing
import Castr.Net.Identity
import Castr.Lib.Sliding
import Castr.Sender.Stats
import Castr.Miracast.Delivery
import Castr.Receiver.Viewing
import Castr.Lib.Rows
import Castr.Lib.Paced
import Castr.Sender.Scaling
import Castr.Capture.Rotating
import Castr.Sender.Mirroring
import Castr.Sender.Capturing
import Castr.Sender.Endpoint
import Castr.Sender.Casts
import Castr.Sender.Answering
