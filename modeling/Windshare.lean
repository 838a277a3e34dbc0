import Windshare.Capacity.Ceiling
import Windshare.Capacity.Linearity
import Windshare.Session.EnvelopeChannel
import Windshare.Operation.Delivery
import Windshare.Relay.Flow.Release
import Windshare.Lane.Admission
import Windshare.Content.Budget
import Windshare.RevisionCapacity.Balance
import Windshare.Receiver.TwinRuns
import Windshare.Session.WebEnvelope
import Windshare.Routing.Runs
import Windshare.Relay.Codec.Persistence
import Windshare.Checkpoint.Chain
import Windshare.Relay.Handshake.Authority
import Windshare.Peer.Runtimes
import Windshare.WebOperation.Runs
import Windshare.WebOperation.QueueRuns
import Windshare.Session.WriterRuns
import Windshare.DirectZip.Checkpoints
import Windshare.Relay.Flow.DeliveryTotals
import Windshare.Relay.Share.Attempts
import Windshare.Catalog.FailureChain
import Windshare.Link.Route
import Windshare.WebOperation.IssuedOperations
