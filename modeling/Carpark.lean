import Carpark.Address
import Carpark.Allocation
import Carpark.Caller
import Carpark.Config
import Carpark.Engine.Access
import Carpark.Engine.Basic
import Carpark.Engine.Booking
import Carpark.Engine.Gate
import Carpark.Engine.Group
import Carpark.Engine.Ledger
import Carpark.Engine.Listing
import Carpark.Engine.Program
import Carpark.Engine.Reading
import Carpark.Engine.Registry
import Carpark.Engine.Request
import Carpark.Engine.Sweep
import Carpark.Engine.Termination
import Carpark.Engine.Upkeep
import Carpark.Engine.Validation
import Carpark.Failure
import Carpark.Hub
import Carpark.Journal
import Carpark.Limits
import Carpark.Log.Binary
import Carpark.Log.Crc32
import Carpark.Log.File
import Carpark.Log.Frame
import Carpark.Log.Replay
import Carpark.Log.Writer
import Carpark.Main
import Carpark.Notification
import Carpark.Page
import Carpark.Parking
import Carpark.Policy
import Carpark.Reservation
import Carpark.Store.Basic
import Carpark.Store.Locks
import Carpark.Store.RowKey
import Carpark.Store.Shared
import Carpark.Store.Table
import Carpark.Store.Tables
import Carpark.Store.Txn
import Carpark.Store.Write
import Carpark.Text.Blank
import Carpark.Text.Lowercase
import Carpark.Text.Lowercase.Table
import Carpark.Text.Numeral
import Carpark.Text.Quoted
import Carpark.Text.Quoted.Table
import Carpark.Text.Range
import Carpark.Time
import Carpark.Ulid
import Carpark.Proofs.Reading
import Carpark.Proofs.Attempt
import Carpark.Proofs.Codec
import Carpark.Proofs.Frames
import Carpark.Proofs.GateLog
import Carpark.Proofs.Admission
import Carpark.Proofs.Alone
import Carpark.Proofs.Renewal
import Carpark.Proofs.Traffic
import Carpark.Proofs.Visibility
import Carpark.Proofs.Truncation
import Carpark.Proofs.Restarts
import Carpark.Proofs.Forgotten
import Carpark.Proofs.Damage
import Carpark.Proofs.Commits
import Carpark.Proofs.Integrity
import Carpark.Proofs.Traces
import Carpark.Proofs.Sweeps
import Carpark.Proofs.Forecast
import Carpark.Proofs.CatchUp
import Carpark.Proofs.Confinement
import Carpark.Proofs.Locks
import Carpark.Proofs.Crew
import Carpark.Proofs.Apart
import Carpark.Proofs.Service
import Carpark.Proofs.Lined
import Carpark.Proofs.Ahead
import Carpark.Proofs.Recovery
import Carpark.Proofs.Spelling
import Carpark.Proofs.Departure
import Carpark.Proofs.Readers
import Carpark.Proofs.Retries
import Carpark.Proofs.Staging
import Carpark.Proofs.Corruption
import Carpark.Proofs.Listings
import Carpark.Proofs.Addresses
import Carpark.Proofs.Choice
import Carpark.Proofs.Announcements
import Carpark.Proofs.Widths
import Carpark.Proofs.Intact
import Carpark.Proofs.Oversize
import Carpark.Proofs.Cancellation
import Carpark.Proofs.Opening
import Carpark.Proofs.Batches
import Carpark.Proofs.Padding
import Carpark.Proofs.Rules
import Carpark.Proofs.Deliveries
import Carpark.Proofs.LockOrder
import Carpark.Proofs.LockTable
import Carpark.Proofs.Waiting
