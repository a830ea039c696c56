import HxDatachannel.EventLoop.Delivery
import HxDatachannel.EventLoop.Objects
import HxDatachannel.World.Reports
import HxDatachannel.World.Order
import HxDatachannel.World.Send
import HxDatachannel.World.Labels
import HxDatachannel.World.Listed
import HxDatachannel.Binding.Payload
import HxDatachannel.Binding.Reliability
import HxDatachannel.Binding.Options
import HxDatachannel.Negotiation.Alike
import HxDatachannel.IceServer.Agree
import HxDatachannel.Connection.Remote
import HxDatachannel.Connection.Create
import HxDatachannel.Connection.State
import HxDatachannel.Heap.Collect
import HxDatachannel.Lists.Refine
import HxDatachannel.Base.BigEndian
import HxDatachannel.Dcep.Open
import HxDatachannel.Base.Link
import HxDatachannel.Dcep.Defs
import HxDatachannel.Dcep.Session
import HxDatachannel.Dcep.Stage
import HxDatachannel.Dcep.Invariant
import HxDatachannel.Dcep.Steps
import HxDatachannel.Dcep.Assign
import HxDatachannel.Dcep.Forward
import HxDatachannel.Dcep.Agreement
import HxDatachannel.Sctp.Defs
import HxDatachannel.Base.Framing
import HxDatachannel.Sctp.Amount
import HxDatachannel.Sctp.Pair
import HxDatachannel.Sctp.Wakeup
import HxDatachannel.Base.Serial
import HxDatachannel.Base.Slots
import HxDatachannel.Sctp.Pooled
