import Durare.Context.Replay
import Durare.Context.Transactions
import Durare.Context.ReadOnly
import Durare.Context.Placeholders
import Durare.Context.Racing
import Durare.Context.Divergence
import Durare.Context.Waiting
import Durare.Context.FailedSteps
import Durare.Context.Refusals
import Durare.Context.Observed
import Durare.Context.Guarded
import Durare.Engine.Cancellation
import Durare.Engine.Exclusion
import Durare.Engine.Recovery
import Durare.Engine.Deadlines
import Durare.Engine.Workers
import Durare.Engine.Undecodable
import Durare.Operations.Residue
import Durare.Operations.Lifecycle
import Durare.Operations.Deduplication
import Durare.Operations.RateLimit
import Durare.Operations.Fifo
import Durare.Operations.Collection
import Durare.Operations.Contenders
import Durare.Operations.Deletion
import Durare.Operations.Retention
import Durare.Operations.Forks
import Durare.Operations.Instants
import Durare.Debounce.Quiet
import Durare.Debounce.Accepted
import Durare.Schedule.Ticks
import Durare.Schedule.Ranges
import Durare.Schedule.Lookup
import Durare.Queries.Listing
import Durare.Queries.StepGroups
import Durare.Conductor.Metrics
import Durare.Conductor.ForkFlags
import Durare.Transfer.Exchange
import Durare.Transfer.Descendants
import Durare.Transfer.Texts
import Durare.Messages.Hub
import Durare.Messages.Keyed
import Durare.Streams.Closing
import Durare.Streams.Agreement
