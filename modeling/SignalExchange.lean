import SignalExchange.Main
import SignalExchange.Proofs.Arguments.Accounts
import SignalExchange.Proofs.Collab.Authored
import SignalExchange.Proofs.Collab.Creation
import SignalExchange.Proofs.Collab.Faithful
import SignalExchange.Proofs.Collab.Lifetime
import SignalExchange.Proofs.Collab.Updates
import SignalExchange.Proofs.Edit.Forms
import SignalExchange.Proofs.Edit.Names
import SignalExchange.Proofs.Edit.Request
import SignalExchange.Proofs.Edit.Resolve
import SignalExchange.Proofs.Processes.Operations
import SignalExchange.Proofs.Processes.Races
import SignalExchange.Proofs.Program.Edits
import SignalExchange.Proofs.Program.Rows
import SignalExchange.Proofs.Registry.Refusal
import SignalExchange.Proofs.Registry.Validation
import SignalExchange.Proofs.Schema.Description
import SignalExchange.Proofs.ThreatExchange.Course
import SignalExchange.Proofs.ThreatExchange.Cycles
import SignalExchange.Proofs.ThreatExchange.Fetch
import SignalExchange.Proofs.ThreatExchange.Merge
import SignalExchange.Proofs.Workspace.Admissions
import SignalExchange.Proofs.Workspace.Sessions
import SignalExchange.Proofs.Workspace.Surfaces
import SignalExchange.ThreatExchange.Settings
import SignalExchange.Proofs.Edit.Toggle
import SignalExchange.Proofs.Arguments.Shares
import SignalExchange.Proofs.Program.CommandLine
import SignalExchange.Proofs.Program.DataDirectory
import SignalExchange.Proofs.Program.Credentials
import SignalExchange.Proofs.Program.Reached
import SignalExchange.Proofs.Web.Address
import SignalExchange.Proofs.Program.Import
import SignalExchange.Proofs.Collab.Reordered
import SignalExchange.Proofs.Program.GroupListing
import SignalExchange.Proofs.Database.Interleaved
import SignalExchange.Proofs.ThreatExchange.GroupText
import SignalExchange.Proofs.ThreatExchange.Settings
import SignalExchange.Proofs.Program.Token
import SignalExchange.Proofs.Program.RecordListing
