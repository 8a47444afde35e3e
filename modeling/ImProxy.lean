import ImProxy.Property.Acknowledgement
import ImProxy.Property.Admission
import ImProxy.Property.AutoFlush
import ImProxy.Property.Broadcast
import ImProxy.Property.Cleanup
import ImProxy.Property.CloseConnection
import ImProxy.Property.Closing
import ImProxy.Property.Deframing
import ImProxy.Property.Delivery
import ImProxy.Property.FailedConnect
import ImProxy.Property.FailedStart
import ImProxy.Property.Handshake
import ImProxy.Property.Independence
import ImProxy.Property.Isolation
import ImProxy.Property.Legality
import ImProxy.Property.Progress
import ImProxy.Property.Registration
import ImProxy.Property.Replies
import ImProxy.Property.ServerPush
import ImProxy.Property.Session
import ImProxy.Property.Shutdown
import ImProxy.Property.Subscription
import ImProxy.Property.Texts
import ImProxy.Property.Topics
import ImProxy.Property.Transparency
import ImProxy.Property.Uniqueness
import ImProxy.Property.WebSocket
import ImProxy.Property.WireFormat
