import SegmentTransfer.Library.Bytes
import SegmentTransfer.Library.Outcome
import SegmentTransfer.Library.Crc
import SegmentTransfer.Library.Heap
import SegmentTransfer.Library.Ring
import SegmentTransfer.Library.Stdio
import SegmentTransfer.Library.Transition
import SegmentTransfer.Library.Liveness
import SegmentTransfer.Library.Udp
import SegmentTransfer.Packet
import SegmentTransfer.Codec
import SegmentTransfer.RoundTrip
import SegmentTransfer.Truncation
import SegmentTransfer.Corruption
import SegmentTransfer.Receiver
import SegmentTransfer.Sender
import SegmentTransfer.Datagram
import SegmentTransfer.Protocol
import SegmentTransfer.ReceiverRefinement
import SegmentTransfer.Reassembly
import SegmentTransfer.SenderRefinement
import SegmentTransfer.Network
import SegmentTransfer.Acknowledgement
import SegmentTransfer.Window
import SegmentTransfer.Delivery
import SegmentTransfer.SendWindow
import SegmentTransfer.Overrun
import SegmentTransfer.Lossless
import SegmentTransfer.Record
import SegmentTransfer.RecordStream
import SegmentTransfer.Exercise
import SegmentTransfer.Counters
import SegmentTransfer.Replies
import SegmentTransfer.SenderEnd
import SegmentTransfer.Nack
import SegmentTransfer.OldestSegment
import SegmentTransfer.SegmentTimer
import SegmentTransfer.ReceiverEnd
import SegmentTransfer.ReceiveWindow
import SegmentTransfer.Timestamps
import SegmentTransfer.PacketCalls
import SegmentTransfer.HeaderCalls
import SegmentTransfer.CallerBuffers
import SegmentTransfer.UncheckedReplies
import SegmentTransfer.Closing
import SegmentTransfer.WindowGrowth
import SegmentTransfer.SlotBlocks
import SegmentTransfer.HeldSlots
import SegmentTransfer.EndBlocks
import SegmentTransfer.AckLoop
import SegmentTransfer.DrainLoop
import SegmentTransfer.Encoders
import SegmentTransfer.RecordTruncation
import SegmentTransfer.RecordCalls
import SegmentTransfer.SenderIndices
import SegmentTransfer.Completing
import SegmentTransfer.Completion
import SegmentTransfer.Disorder
import SegmentTransfer.Resumable
import SegmentTransfer.Recovery
import SegmentTransfer.LostSegments
import SegmentTransfer.Integrity
import SegmentTransfer.WrittenAsHeard
import SegmentTransfer.Unforged
import SegmentTransfer.SenderBlocks
import SegmentTransfer.SenderPointers
import SegmentTransfer.SenderMemory
import SegmentTransfer.NetworkBlocks
import SegmentTransfer.Sockets
import SegmentTransfer.Chat
import SegmentTransfer.ChatSteps
import SegmentTransfer.ChatRelay
import SegmentTransfer.Session
import SegmentTransfer.SessionFollows
import SegmentTransfer.SessionPasses
import SegmentTransfer.SessionMeets
import SegmentTransfer.DecoderAgreement
import SegmentTransfer.Started
import SegmentTransfer.Echo
import SegmentTransfer.EchoLoss
import SegmentTransfer.EchoReplies
import SegmentTransfer.EchoLog
