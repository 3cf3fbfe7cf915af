import RoutingPolicy.Main
import RoutingPolicy.Session.Notices
import RoutingPolicy.Proofs.Session.Grouping
import RoutingPolicy.Proofs.Rule.Parts
import RoutingPolicy.Proofs.Text.Split
import RoutingPolicy.Proofs.Text.Numeral
import RoutingPolicy.Proofs.Text.Slice
import RoutingPolicy.Proofs.Checked.Token
import RoutingPolicy.Proofs.Address.Notation
import RoutingPolicy.Proofs.Rule.Decomposition
import RoutingPolicy.Proofs.Rule.Factor
import RoutingPolicy.Proofs.Rule.Assignment
import RoutingPolicy.Proofs.Rule.Routers
import RoutingPolicy.Proofs.Rule.Family
import RoutingPolicy.Proofs.Rule.Written
import RoutingPolicy.Proofs.Session.Single
import RoutingPolicy.Proofs.Session.Written
import RoutingPolicy.Proofs.Rule.FactorList
import RoutingPolicy.Proofs.Rule.PeeringList
import RoutingPolicy.Proofs.Session.PeeringList
import RoutingPolicy.Proofs.Rule.Position
import RoutingPolicy.Proofs.Rule.Padding
import RoutingPolicy.Proofs.Rule.Subject
import RoutingPolicy.Proofs.Session.Call
import RoutingPolicy.Proofs.Session.Padding
import RoutingPolicy.Proofs.Peering.WellFormed
import RoutingPolicy.Proofs.Peering.Associativity
import RoutingPolicy.Proofs.Session.WellFormed
import RoutingPolicy.Proofs.Session.Permutation
import RoutingPolicy.Proofs.Session.Shards
import RoutingPolicy.Proofs.Filter.Catalog
import RoutingPolicy.Proofs.Peering.Within
import RoutingPolicy.Proofs.Session.Knowledge
import RoutingPolicy.Proofs.Session.Repetition
import RoutingPolicy.Proofs.Session.Configuration
import RoutingPolicy.Proofs.Session.References
import RoutingPolicy.Proofs.Checked.Rule
import RoutingPolicy.Proofs.Checked.Session
import RoutingPolicy.Proofs.Text.Nesting
import RoutingPolicy.Proofs.Registry.Url
import RoutingPolicy.Proofs.Rule.Nesting
import RoutingPolicy.Proofs.Rule.Truncation
import RoutingPolicy.Proofs.Rule.Counted
import RoutingPolicy.Proofs.Rule.FilterNesting
import RoutingPolicy.Proofs.Rule.Semicolon
import RoutingPolicy.Proofs.Rule.Placeholder
import RoutingPolicy.Proofs.Session.Semicolon
import RoutingPolicy.Proofs.Session.Isolation
import RoutingPolicy.Proofs.Rule.Division
import RoutingPolicy.Proofs.Rule.Selector
import RoutingPolicy.Proofs.Rule.Expression
import RoutingPolicy.Proofs.Rule.Forms
import RoutingPolicy.Proofs.Rule.Printing
import RoutingPolicy.Proofs.Rule.FamilyPrefix
import RoutingPolicy.Proofs.Rule.Respaced
import RoutingPolicy.Proofs.Peering.Laws
import RoutingPolicy.Proofs.Export.Route
import RoutingPolicy.Proofs.Session.Containers
import RoutingPolicy.Proofs.Text.Hexadecimal
import RoutingPolicy.Proofs.Filter.Fingerprint
import RoutingPolicy.Proofs.Json.Model
import RoutingPolicy.Proofs.Rule.Characters
import RoutingPolicy.Proofs.Text.Line
import RoutingPolicy.Proofs.Session.Filters
import RoutingPolicy.Proofs.Report.Lines
import RoutingPolicy.Proofs.CommandLine.Lines
import RoutingPolicy.Proofs.Rule.Segmentation
import RoutingPolicy.Proofs.Rule.Slice
