import ConnClient.Lib.Bytes
import ConnClient.Lib.Serial
import ConnClient.Lib.Run
import ConnClient.Lib.Fragment
import ConnClient.Lib.Framing
import ConnClient.Lib.Window
import ConnClient.Lib.Ledger
import ConnClient.Lib.Memory
import ConnClient.Lib.Relay
import ConnClient.Ikcp.Segment
import ConnClient.Ikcp.Control
import ConnClient.Ikcp.Queue
import ConnClient.Ikcp.Input
import ConnClient.Ikcp.Flush
import ConnClient.Ikcp.Wire
import ConnClient.Ikcp.Receiver
import ConnClient.Ikcp.Emit
import ConnClient.Ikcp.Sender
import ConnClient.Ikcp.Delivery
import ConnClient.Ikcp.Intake
import ConnClient.Ikcp.Tuning
import ConnClient.Ikcp.Backlog
import ConnClient.Ikcp.Calls
import ConnClient.Ikcp.Datagrams
import ConnClient.Ikcp.Desk
import ConnClient.Ikcp.SendWindow
import ConnClient.Ikcp.ReceiveWindow
import ConnClient.Ikcp.Deadlock
import ConnClient.Ikcp.Narrow
import ConnClient.Ikcp.Twins
import ConnClient.Ikcp.Late
import ConnClient.Ikcp.Grammar
import ConnClient.Ikcp.FastPath
import ConnClient.Ikcp.Trail
import ConnClient.Ikcp.Acks
import ConnClient.Ikcp.Tallies
import ConnClient.Ikcp.Losses
import ConnClient.Ikcp.Copies
import ConnClient.Client.Stream
import ConnClient.Client.Session
import ConnClient.Client.State
import ConnClient.Client.Close
import ConnClient.Client.Net
import ConnClient.Client.System
import ConnClient.Client.Sending
import ConnClient.Client.Control
import ConnClient.Client.Paths
import ConnClient.Client.Reports
import ConnClient.Client.Relink
import ConnClient.Client.Messages
import ConnClient.Client.Stranded
import ConnClient.Client.Release
import ConnClient.Client.Handlers
import ConnClient.Client.Rounds
import ConnClient.Client.Cuts
import ConnClient.Client.Walk
import ConnClient.Client.Depth
import ConnClient.Client.Ticks
import ConnClient.Client.Clean
import ConnClient.Client.Descriptors
import ConnClient.Client.Outbound
import ConnClient.Client.Registered
import ConnClient.Client.Reasons
import ConnClient.Client.Drain
import ConnClient.Client.Disconnects
import ConnClient.Client.Deadline
import ConnClient.Client.Attempts
import ConnClient.Client.Fifo
import ConnClient.Client.Dial
import ConnClient.Client.Mtu
import ConnClient.Ikcp.Layout
import ConnClient.Ikcp.Redundancy
import ConnClient.Ikcp.Retention
import ConnClient.Ikcp.Recovery
import ConnClient.Client.Extension
