import DashboardScript.Main
import DashboardScript.Sink
import DashboardScript.WorkDir
import DashboardScript.Proofs.Conversion.Accounting
import DashboardScript.Proofs.Conversion.Determined
import DashboardScript.Proofs.Conversion.Policies
import DashboardScript.Proofs.Dashboard.Encoding
import DashboardScript.Proofs.Conversion.Styles
import DashboardScript.Proofs.Script.Brackets
import DashboardScript.Proofs.Conversion.Balance
import DashboardScript.Proofs.Json.Grammar
import DashboardScript.Proofs.Json.Settling
import DashboardScript.Proofs.Run.Stages
import DashboardScript.Proofs.Json.Glyphs
import DashboardScript.Proofs.Json.Numerals
import DashboardScript.Proofs.Json.Containers
import DashboardScript.Proofs.Json.Skipping
import DashboardScript.Proofs.Json.Locality
import DashboardScript.Proofs.Json.Slots
import DashboardScript.Proofs.Json.Acceptance
import DashboardScript.Proofs.Dashboard.Acceptance
import DashboardScript.Proofs.Text.Occurrences
import DashboardScript.Proofs.Script.Calls
import DashboardScript.Proofs.Conversion.Calls
import DashboardScript.Proofs.Conversion.Append
import DashboardScript.Proofs.Conversion.Trace
import DashboardScript.Proofs.Json.Rooms
import DashboardScript.Proofs.Dashboard.Absence
import DashboardScript.Proofs.Dashboard.Seen
import DashboardScript.Proofs.Dashboard.Exchange
import DashboardScript.Proofs.Conversion.Absence
import DashboardScript.Proofs.Json.Portions
import DashboardScript.Proofs.Json.Portions.Loops
import DashboardScript.Proofs.Json.Portions.Strings
import DashboardScript.Proofs.Json.Portions.Numerals
import DashboardScript.Proofs.Json.Portions.Containers
import DashboardScript.Proofs.Json.Closure
import DashboardScript.Proofs.Json.Portions.Decoders
import DashboardScript.Proofs.Json.Positions
import DashboardScript.Proofs.Json.Portions.Whole
import DashboardScript.Proofs.Dashboard.Ending
import DashboardScript.Proofs.Json.Sufficing
import DashboardScript.Proofs.Json.Sufficing.Decoders
import DashboardScript.Proofs.Dashboard.Truncation
import DashboardScript.Proofs.Json.Places
import DashboardScript.Proofs.Dashboard.Positional
import DashboardScript.Proofs.Script.Table
import DashboardScript.Proofs.Script.Query
import DashboardScript.Proofs.Json.Tokens
import DashboardScript.Proofs.Json.Spellings
import DashboardScript.Proofs.Dashboard.Members
import DashboardScript.Proofs.Dashboard.Verbatim
import DashboardScript.Proofs.Script.Additions
import DashboardScript.Proofs.Script.Growth
import DashboardScript.Proofs.Settings.Nested
import DashboardScript.Proofs.Settings.Keys
import DashboardScript.Proofs.Settings.Trees
import DashboardScript.Proofs.Toml.Grammar
import DashboardScript.Proofs.Toml.Scanning
import DashboardScript.Proofs.Toml.Lines
import DashboardScript.Proofs.Settings.Drafts
import DashboardScript.Proofs.Settings.Bytes
import DashboardScript.Proofs.Settings.Documents
import DashboardScript.Proofs.Settings.Members
import DashboardScript.Proofs.Settings.Writing
import DashboardScript.Proofs.Settings.Overlay
