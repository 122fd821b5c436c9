import Folio.Main
import Folio.Registry.Summary
import Folio.Proofs.Assembly.Cycle
import Folio.Proofs.Assembly.Missing
import Folio.Proofs.Assembly.Tree
import Folio.Proofs.Json.Tokens
import Folio.Proofs.Json.Documents
import Folio.Proofs.RecordMap.Wrapping
import Folio.Proofs.Assembly.Lists
import Folio.Proofs.Assembly.Policy
import Folio.Proofs.Html.Sound
import Folio.Proofs.Html.WellFormed
import Folio.Proofs.Html.Ids
import Folio.Proofs.RecordMap.LastWrite
import Folio.Proofs.Assembly.Simulation
import Folio.Proofs.Assembly.Reach
import Folio.Proofs.Assembly.Locality
import Folio.Proofs.Assembly.Fetching
import Folio.Proofs.Assembly.Spelling
import Folio.Proofs.Json.Compact
import Folio.Proofs.RecordMap.Reordering
import Folio.Proofs.TextRun.Written
import Folio.Proofs.Html.Anchors
import Folio.Proofs.Html.LocalLinks
import Folio.Proofs.Html.VisibleText
import Folio.Proofs.Html.Reports
import Folio.Proofs.Config.Merging
import Folio.Proofs.FileTree
import Folio.Proofs.Command.Schedule
import Folio.Proofs.Command.Independence
import Folio.Proofs.Html.Nesting
import Folio.Proofs.TextRun.Reading
import Folio.Proofs.Url.Percent
import Folio.Proofs.Url.Signed
import Folio.Proofs.Url.Storage
import Folio.Proofs.Config.RootIds
import Folio.Proofs.Node.NormalForm
import Folio.Proofs.Html.Tables
import Folio.Proofs.Html.Highlighting
import Folio.Proofs.Registry.Dispatch
import Folio.Proofs.Config.Expansion
import Folio.Proofs.Color
import Folio.Proofs.RecordMap.RootCandidates
import Folio.Proofs.Assembly.Warnings
