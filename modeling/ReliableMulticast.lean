import ReliableMulticast.Bytes.Hex
import ReliableMulticast.Bytes.Lemmas
import ReliableMulticast.ConfigFile
import ReliableMulticast.Link.Feed
import ReliableMulticast.Proofs.Channel.Login
import ReliableMulticast.Proofs.Delivery.Feed
import ReliableMulticast.Proofs.Delivery.Handover
import ReliableMulticast.Proofs.Delivery.Lossless
import ReliableMulticast.Proofs.Delivery.Recovery
import ReliableMulticast.Proofs.Delivery.Subscription
import ReliableMulticast.Proofs.Frame.Grammar
import ReliableMulticast.Proofs.Frame.Layout
import ReliableMulticast.Proofs.Frame.Stream
import ReliableMulticast.Proofs.Link.Failover
import ReliableMulticast.Proofs.Link.Loop
import ReliableMulticast.Proofs.Link.Pause
import ReliableMulticast.Proofs.Link.Turns
import ReliableMulticast.Proofs.Mailbox.Calls
import ReliableMulticast.Proofs.Publisher.Broadcast
import ReliableMulticast.Proofs.Publisher.Cut
import ReliableMulticast.Proofs.Publisher.Disconnect
import ReliableMulticast.Proofs.Publisher.Isolation
import ReliableMulticast.Proofs.Publisher.Numbering
import ReliableMulticast.Proofs.Publisher.Replies
import ReliableMulticast.Proofs.Publisher.Visit
import ReliableMulticast.Proofs.Sequence.History
import ReliableMulticast.Proofs.Sequence.Missing
import ReliableMulticast.Proofs.Sequence.Retained
import ReliableMulticast.Proofs.Subscriber.Attempt
import ReliableMulticast.Proofs.Subscriber.Liveness
import ReliableMulticast.Proofs.Subscriber.Pace
import ReliableMulticast.Proofs.Subscriber.Resends
import ReliableMulticast.Proofs.Subscriber.Stray
import ReliableMulticast.Proofs.Subscriber.Talk
import ReliableMulticast.Proofs.Subscriber.Unbroken
import ReliableMulticast.Simulation.Recorder
import ReliableMulticast.Simulation.Run
import ReliableMulticast.Simulation.Visit
