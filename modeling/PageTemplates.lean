import PageTemplates.Config
import PageTemplates.Number.Binary64
import PageTemplates.Number.Reading
import PageTemplates.Number.Shortest
import PageTemplates.Output.Channel
import PageTemplates.Output.Chunks
import PageTemplates.Output.Sink
import PageTemplates.Path.Ancestors
import PageTemplates.Path.Basic
import PageTemplates.Path.Relative
import PageTemplates.Proofs.Except
import PageTemplates.Proofs.Number.Nearest
import PageTemplates.Proofs.Number.Reading
import PageTemplates.Proofs.Output.Channel
import PageTemplates.Proofs.Output.Chunks
import PageTemplates.Proofs.Output.Groups
import PageTemplates.Proofs.Output.Writes
import PageTemplates.Proofs.Path.Ancestors
import PageTemplates.Proofs.Path.Anchoring
import PageTemplates.Proofs.Path.External
import PageTemplates.Proofs.Path.Joining
import PageTemplates.Proofs.Path.Names
import PageTemplates.Proofs.Path.Relative
import PageTemplates.Proofs.Path.Shortest
import PageTemplates.Proofs.Path.Within
import PageTemplates.Proofs.Route.Containment
import PageTemplates.Proofs.Route.Filling
import PageTemplates.Proofs.Route.RoundTrip
import PageTemplates.Proofs.Site.Delivery
import PageTemplates.Proofs.Site.FirstFailure
import PageTemplates.Proofs.Site.Layouts
import PageTemplates.Proofs.Site.LinkFunctions
import PageTemplates.Proofs.Site.LoneRequests
import PageTemplates.Proofs.Site.Lookups
import PageTemplates.Proofs.Site.Rounds
import PageTemplates.Proofs.Site.SameFiles
import PageTemplates.Proofs.Site.SingleCompilation
import PageTemplates.Proofs.Site.Slots
import PageTemplates.Proofs.Site.TrafficSteps
import PageTemplates.Proofs.Site.Transparency
import PageTemplates.Proofs.Site.Turns
import PageTemplates.Proofs.Site.WarmUp
import PageTemplates.Proofs.Store.Confinement
import PageTemplates.Proofs.Store.Descent
import PageTemplates.Proofs.Store.History
import PageTemplates.Proofs.Store.Holding
import PageTemplates.Proofs.Store.Listing
import PageTemplates.Proofs.Template.Actions
import PageTemplates.Proofs.Template.Calls
import PageTemplates.Proofs.Template.Commands
import PageTemplates.Proofs.Template.Comments
import PageTemplates.Proofs.Template.Depth
import PageTemplates.Proofs.Template.Entities
import PageTemplates.Proofs.Template.Escaping
import PageTemplates.Proofs.Template.Grammar
import PageTemplates.Proofs.Template.KnownFunctions
import PageTemplates.Proofs.Template.Lowering
import PageTemplates.Proofs.Template.Marks
import PageTemplates.Proofs.Template.Numerals
import PageTemplates.Proofs.Template.Oblivious
import PageTemplates.Proofs.Template.Overriding
import PageTemplates.Proofs.Template.Printing
import PageTemplates.Proofs.Template.Runs
import PageTemplates.Proofs.Template.SideBySide
import PageTemplates.Proofs.Template.Tokens
import PageTemplates.Proofs.Template.Written
import PageTemplates.Proofs.Text.Blank
import PageTemplates.Proofs.Text.Pieces
import PageTemplates.Proofs.Value.Equality
import PageTemplates.Route.Error
import PageTemplates.Route.Links
import PageTemplates.Route.Pattern
import PageTemplates.Site.Basic
import PageTemplates.Site.Cache
import PageTemplates.Site.Compile
import PageTemplates.Site.Error
import PageTemplates.Site.LinkFunctions
import PageTemplates.Site.Rendered
import PageTemplates.Site.Response
import PageTemplates.Site.Settings
import PageTemplates.Site.Traffic
import PageTemplates.Site.View
import PageTemplates.Store.Basic
import PageTemplates.Store.Directory
import PageTemplates.Store.Memory
import PageTemplates.Store.Tree
import PageTemplates.Table
import PageTemplates.Template.Command
import PageTemplates.Template.Error
import PageTemplates.Template.Escape
import PageTemplates.Template.Eval
import PageTemplates.Template.Function
import PageTemplates.Template.Keyword
import PageTemplates.Template.Namespace
import PageTemplates.Template.Run
import PageTemplates.Template.Source
import PageTemplates.Template.Statement
import PageTemplates.Template.Tree
import PageTemplates.Template.Word
import PageTemplates.Text.Alphanumeric
import PageTemplates.Text.Basic
import PageTemplates.Text.Blank
import PageTemplates.Text.Hidden
import PageTemplates.Text.Percent
import PageTemplates.Text.Quoted
import PageTemplates.Text.Ranges
import PageTemplates.Text.Utf8
import PageTemplates.Toml.Basic
import PageTemplates.Toml.Document
import PageTemplates.Toml.Scan
import PageTemplates.Value.Basic
import PageTemplates.Value.Compact
import PageTemplates.Value.Equality
import PageTemplates.Value.Plain
