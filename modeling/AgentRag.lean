import AgentRag.Go
import AgentRag.Retriever.Types
import AgentRag.Retriever.Decay
import AgentRag.Retriever.Merger
import AgentRag.Retriever.MergeSpec
import AgentRag.Retriever.Determinism
import AgentRag.GraphQL.Grammar
import AgentRag.GraphQL.Builder
import AgentRag.GraphQL.Escape
import AgentRag.GraphQL.Where
import AgentRag.Retriever.Client
import AgentRag.Retriever.Retriever
import AgentRag.Retriever.Hybrid
import AgentRag.Retriever.Lifecycle
import AgentRag.Retriever.DecayCurve
import AgentRag.Retriever.Fusion
import AgentRag.Retriever.ClientData
import AgentRag.Retriever.TimeFilter
import AgentRag.Retriever.Repeats
import AgentRag.Decimal
import AgentRag.GraphQL.Printing
import AgentRag.GraphQL.WhereRoundTrip
import AgentRag.Rfc3339
import AgentRag.Retriever.Stamps
import AgentRag.GraphQL.Numbers
import AgentRag.Retriever.Prune
