import IdrisOracle.Binary64
import IdrisOracle.Session
import IdrisOracle.Transaction
import IdrisOracle.Client
import IdrisOracle.Column
import IdrisOracle.DateTime
import IdrisOracle.Blob
import IdrisOracle.Cursor
import IdrisOracle.RowScript
import IdrisOracle.Migration
import IdrisOracle.Database
import IdrisOracle.Runner
import IdrisOracle.Pending
import IdrisOracle.Rollback
import IdrisOracle.Identity
import IdrisOracle.Replay
import IdrisOracle.Inspection
import IdrisOracle.Removal
import IdrisOracle.Undo
import IdrisOracle.TypedQuery
import IdrisOracle.Custody
import IdrisOracle.Blocks
import IdrisOracle.Clients
import IdrisOracle.Raw
import IdrisOracle.StructuredQuery
import IdrisOracle.JSONQuery
import IdrisOracle.Text
import IdrisOracle.FetchBounds
import IdrisOracle.NumberRoundTrip
import IdrisOracle.ErrorHandles
