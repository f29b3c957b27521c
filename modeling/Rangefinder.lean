import Rangefinder.Main
import Rangefinder.Proofs.Bus.Admission
import Rangefinder.Proofs.Bus.Arbitration
import Rangefinder.Proofs.Bus.Cursor
import Rangefinder.Proofs.Bus.Detection
import Rangefinder.Proofs.Bus.Handover
import Rangefinder.Proofs.Bus.Ledger
import Rangefinder.Proofs.Bus.Pass
import Rangefinder.Proofs.Bus.Reception
import Rangefinder.Proofs.Cadence
import Rangefinder.Proofs.Echo.Accounts
import Rangefinder.Proofs.Echo.Guard
import Rangefinder.Proofs.Echo.History
import Rangefinder.Proofs.Echo.Stray
import Rangefinder.Proofs.Message.Heartbeat
import Rangefinder.Proofs.Node.Checked
import Rangefinder.Proofs.Node.Containment
import Rangefinder.Proofs.Node.Inbox
import Rangefinder.Proofs.Node.Loop
import Rangefinder.Proofs.Node.Numbers
import Rangefinder.Proofs.Node.Query
import Rangefinder.Proofs.Node.Readings
import Rangefinder.Proofs.Node.Shift
import Rangefinder.Proofs.Node.Sleep
import Rangefinder.Proofs.Node.Wake
import Rangefinder.Proofs.Node.Wire
import Rangefinder.Proofs.Polling
import Rangefinder.Proofs.Trap
