import StanzaExchange.Text
import StanzaExchange.Attributes
import StanzaExchange.Element
import StanzaExchange.Jid
import StanzaExchange.Stanza
import StanzaExchange.Stanza.Decode
import StanzaExchange.Registry
import StanzaExchange.Settings
import StanzaExchange.Settings.Document
import StanzaExchange.Channel
import StanzaExchange.Link
import StanzaExchange.Journal
import StanzaExchange.Registry.Dispatch
import StanzaExchange.Conversation.Inflow
import StanzaExchange.Conversation.Outflow
import StanzaExchange.Conversation.Call
import StanzaExchange.Conversation.State
import StanzaExchange.Conversation.Tasks
import StanzaExchange.Conversation.Settle
import StanzaExchange.Answer
import StanzaExchange.Conversation.Actions
import StanzaExchange.Script.Link
import StanzaExchange.Script.Registry
import StanzaExchange.Script.Conversation
import StanzaExchange.Proofs.Inflow
import StanzaExchange.Proofs.Outflow
import StanzaExchange.Proofs.Run
import StanzaExchange.Proofs.Calls
import StanzaExchange.Proofs.Moves
import StanzaExchange.Proofs.OutboundMoves
import StanzaExchange.Proofs.Conservation
import StanzaExchange.Proofs.Routing
import StanzaExchange.Proofs.Ending
import StanzaExchange.Proofs.InboundOrder
import StanzaExchange.Proofs.ReadingEnd
import StanzaExchange.Proofs.Queries
import StanzaExchange.Proofs.Correlation
import StanzaExchange.Proofs.Replies
import StanzaExchange.Proofs.StreamEnd
import StanzaExchange.Proofs.OutboundOrder
import StanzaExchange.Proofs.Framing
import StanzaExchange.Proofs.Rest
import StanzaExchange.Proofs.GracefulEnd
import StanzaExchange.Proofs.TearDown
import StanzaExchange.Proofs.Unsent
import StanzaExchange.Proofs.Room
import StanzaExchange.Proofs.Stalls
import StanzaExchange.Proofs.Deeds
import StanzaExchange.Proofs.Independence
import StanzaExchange.Proofs.ActiveFilters
import StanzaExchange.Proofs.Classification
import StanzaExchange.Proofs.Address
import StanzaExchange.Proofs.Backpressure
import StanzaExchange.Proofs.Roster
import StanzaExchange.Proofs.Deliveries
import StanzaExchange.Proofs.Sessions
import StanzaExchange.Proofs.Sequences
import StanzaExchange.Proofs.AddressFaults
import StanzaExchange.Proofs.Numeral
import StanzaExchange.Proofs.Grammar
import StanzaExchange.Proofs.Rank
import StanzaExchange.Proofs.Answering
import StanzaExchange.Proofs.Relevance
import StanzaExchange.Proofs.Link
import StanzaExchange.Proofs.FeedOrder
import StanzaExchange.Proofs.Bodies
import StanzaExchange.Proofs.WireOrder
import StanzaExchange.Proofs.Effort
import StanzaExchange.Proofs.Ledger
import StanzaExchange.Proofs.Unlimited
import StanzaExchange.Proofs.TimeLimits
import StanzaExchange.Proofs.DocumentLines
import StanzaExchange.Proofs.Documents
import StanzaExchange.Proofs.Building
