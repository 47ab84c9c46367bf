import Dialogue.Engine.Basic
import Dialogue.Store.Sql
import Dialogue.Proofs.Session.Cut
import Dialogue.Proofs.Session.Rejection
import Dialogue.Proofs.Flow.Authored
import Dialogue.Proofs.Turn.Branches
import Dialogue.Proofs.Command.Recovery
import Dialogue.Proofs.Engine.Served
import Dialogue.Proofs.Session.Mirror
import Dialogue.Proofs.Session.Welcome
import Dialogue.Proofs.Registry.Consistent
import Dialogue.Proofs.Registry.Serial
import Dialogue.Proofs.Json.Numeral
import Dialogue.Proofs.Store.Lossless
import Dialogue.Proofs.Turn.Conserves
import Dialogue.Proofs.Command.Conserves
import Dialogue.Proofs.Session.Finality
import Dialogue.Proofs.Json.Bounded
import Dialogue.Proofs.Flow.Values
import Dialogue.Proofs.Turn.Values
import Dialogue.Proofs.Engine.Errands
import Dialogue.Proofs.Engine.Charters
import Dialogue.Proofs.Engine.Isolation
import Dialogue.Proofs.Engine.Retrieval
import Dialogue.Proofs.Engine.Performed
import Dialogue.Proofs.Turn.Budget
import Dialogue.Proofs.Session.Attended
import Dialogue.Proofs.Program.Concert
import Dialogue.Proofs.Turn.Private
import Dialogue.Proofs.Command.Solo
import Dialogue.Proofs.Session.Independent
import Dialogue.Proofs.Flow.Order
import Dialogue.Proofs.Flow.OnlyEdge
import Dialogue.Proofs.Turn.OwnEdge
import Dialogue.Proofs.Turn.Labels
import Dialogue.Proofs.Http.Mapping
import Dialogue.Proofs.Schedule.Windows
import Dialogue.Proofs.Schedule.Names
import Dialogue.Proofs.Store.Paging
import Dialogue.Proofs.Turn.Failing
import Dialogue.Proofs.Template.Frame
import Dialogue.Proofs.Session.Truthful
import Dialogue.Proofs.Command.Telling
import Dialogue.Proofs.Engine.Released
import Dialogue.Proofs.Store.Changes
import Dialogue.Proofs.Store.Filters
import Dialogue.Proofs.Condition.Contains
import Dialogue.Proofs.Turn.Nameless
import Dialogue.Proofs.Script.Replay
