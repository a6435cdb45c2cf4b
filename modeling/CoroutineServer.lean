import CoroutineServer.Proof.RoundTrip
import CoroutineServer.Proof.Authenticity
import CoroutineServer.Proof.Addressees
import CoroutineServer.Proof.OnlineMap
import CoroutineServer.Proof.AtMostOnce
import CoroutineServer.Proof.Handover
import CoroutineServer.Proof.Responses
import CoroutineServer.Proof.Mailbox
import CoroutineServer.Proof.Integrity
import CoroutineServer.Proof.QueueOrder
import CoroutineServer.Proof.Unregistered
import CoroutineServer.Proof.DeadSession
import CoroutineServer.Proof.Fidelity
import CoroutineServer.Proof.Answers
import CoroutineServer.Proof.Order
import CoroutineServer.Proof.Writes
import CoroutineServer.Proof.LostSignal
import CoroutineServer.Proof.Shutdown
import CoroutineServer.Proof.Exit
import CoroutineServer.Proof.Responding
import CoroutineServer.Proof.AutoLogin
import CoroutineServer.Proof.Takeover
import CoroutineServer.Proof.AllOrNothing
import CoroutineServer.Proof.Deliverable
import CoroutineServer.Proof.SqliteFailures
import CoroutineServer.Proof.QueueLimits
import CoroutineServer.Proof.Consuming
import CoroutineServer.Proof.Commands
import CoroutineServer.Proof.Service
import CoroutineServer.Restart
import CoroutineServer.Proof.Refinement
import CoroutineServer.Proof.Durability
import CoroutineServer.Proof.Transactions
import CoroutineServer.Proof.Footprint
import CoroutineServer.Proof.Strangers
import CoroutineServer.Proof.Closing
import CoroutineServer.Proof.Delivery
import CoroutineServer.Proof.TypedCommands
import CoroutineServer.Proof.Contexts
import CoroutineServer.RecvThread
import CoroutineServer.Proof.RecvThread
import CoroutineServer.Proof.Draining
import CoroutineServer.Proof.QueueRefinement
import CoroutineServer.Proof.Carrying
