import RouterConfig.Address.Ipv4
import RouterConfig.Address.Ipv6
import RouterConfig.Address.Network
import RouterConfig.Collect
import RouterConfig.Context.Definition
import RouterConfig.Context.Key
import RouterConfig.Context.Pattern
import RouterConfig.Device
import RouterConfig.Dialect
import RouterConfig.Dialect.Rtx
import RouterConfig.Dns
import RouterConfig.Document
import RouterConfig.Document.Dns
import RouterConfig.Document.Filter
import RouterConfig.Document.Pp
import RouterConfig.Document.Route
import RouterConfig.Document.Schedule
import RouterConfig.Document.Tunnel
import RouterConfig.Document.Wrap
import RouterConfig.Edit
import RouterConfig.Error
import RouterConfig.Fault
import RouterConfig.Feature
import RouterConfig.Filter.Binding
import RouterConfig.Filter.Dynamic
import RouterConfig.Filter.Family
import RouterConfig.Filter.Interface
import RouterConfig.Filter.Static
import RouterConfig.Gather
import RouterConfig.Journal
import RouterConfig.Line
import RouterConfig.Parse
import RouterConfig.Pp.Basic
import RouterConfig.Pp.Commands
import RouterConfig.Pp.Edit
import RouterConfig.Pp.Rules
import RouterConfig.Pp.Setting
import RouterConfig.Proofs.Address.Spelling
import RouterConfig.Proofs.Address.Words
import RouterConfig.Proofs.Blame
import RouterConfig.Proofs.Commands.Filters
import RouterConfig.Proofs.Commands.Records
import RouterConfig.Proofs.Commands.Rules
import RouterConfig.Proofs.Commands.Schedules
import RouterConfig.Proofs.Commands.Selections
import RouterConfig.Proofs.Device.Submission
import RouterConfig.Proofs.Dns.Gather
import RouterConfig.Proofs.Dns.RoundTrip
import RouterConfig.Proofs.Edit
import RouterConfig.Proofs.Faults
import RouterConfig.Proofs.Filter.Binding
import RouterConfig.Proofs.Filter.Dynamic
import RouterConfig.Proofs.Filter.Gather
import RouterConfig.Proofs.Filter.Interface
import RouterConfig.Proofs.Filter.Merging
import RouterConfig.Proofs.Filter.Static
import RouterConfig.Proofs.Order
import RouterConfig.Proofs.Pp.Descriptions
import RouterConfig.Proofs.Pp.Groups
import RouterConfig.Proofs.Pp.Records
import RouterConfig.Proofs.Pp.RoundTrip
import RouterConfig.Proofs.Pp.Settings
import RouterConfig.Proofs.Pp.Teardown
import RouterConfig.Proofs.Reading
import RouterConfig.Proofs.Reconcile.ByFallback
import RouterConfig.Proofs.Reconcile.Conservation
import RouterConfig.Proofs.Reconcile.Convergence
import RouterConfig.Proofs.Reconcile.Identities
import RouterConfig.Proofs.Reconcile.Order
import RouterConfig.Proofs.Reconcile.Spelling
import RouterConfig.Proofs.Route.Gather
import RouterConfig.Proofs.Route.Merging
import RouterConfig.Proofs.Route.RoundTrip
import RouterConfig.Proofs.Schedule.Gather
import RouterConfig.Proofs.Schedule.Lines
import RouterConfig.Proofs.Schedule.Merging
import RouterConfig.Proofs.Schedule.RoundTrip
import RouterConfig.Proofs.Shares
import RouterConfig.Proofs.Stanza.Fronts
import RouterConfig.Proofs.Stanza.Gather
import RouterConfig.Proofs.Stanza.Groups
import RouterConfig.Proofs.Stanza.Merge
import RouterConfig.Proofs.Stanza.Places
import RouterConfig.Proofs.Stanza.Printed
import RouterConfig.Proofs.Stanza.Selection
import RouterConfig.Proofs.Stanza.TopLevel
import RouterConfig.Proofs.Table
import RouterConfig.Proofs.Text.Lines
import RouterConfig.Proofs.Text.Numerals
import RouterConfig.Proofs.Text.Phrases
import RouterConfig.Proofs.Text.Pieces
import RouterConfig.Proofs.Text.Trim
import RouterConfig.Proofs.Text.Words
import RouterConfig.Proofs.Tunnel.Gateways
import RouterConfig.Proofs.Tunnel.Groups
import RouterConfig.Proofs.Tunnel.Records
import RouterConfig.Proofs.Tunnel.RoundTrip
import RouterConfig.Proofs.Tunnel.Settings
import RouterConfig.Proofs.Wrap.Commands
import RouterConfig.Proofs.Wrap.Decision
import RouterConfig.Proofs.Wrap.Numbers
import RouterConfig.Proofs.Wrap.Phrases
import RouterConfig.Proofs.Wrap.Runs
import RouterConfig.Reconcilable
import RouterConfig.Reconcile
import RouterConfig.Route
import RouterConfig.Rule
import RouterConfig.Schedule
import RouterConfig.Selection
import RouterConfig.Stanza
import RouterConfig.Table
import RouterConfig.Text.Blank
import RouterConfig.Text.Digit
import RouterConfig.Text.LetterCase
import RouterConfig.Text.LetterCase.Table
import RouterConfig.Text.Lines
import RouterConfig.Text.Numeral
import RouterConfig.Text.Phrase
import RouterConfig.Text.Words
import RouterConfig.Tunnel.Basic
import RouterConfig.Tunnel.Commands
import RouterConfig.Tunnel.Edit
import RouterConfig.Tunnel.Rules
import RouterConfig.Tunnel.Setting
import RouterConfig.Wrap.Options
import RouterConfig.Wrap.Policy
import RouterConfig.Wrap.Reconstruct
