import DocSite.Numeral
import DocSite.Text.Letters
import DocSite.Text.Lines
import DocSite.Reference
import DocSite.Url
import DocSite.Json.Printer
import DocSite.Json.Record
import DocSite.Pipeline.Configuration
import DocSite.Catalog.Glob
import DocSite.Catalog.Snapshot
import DocSite.PageIndex
import DocSite.Macro.Pass
import DocSite.Time.Reader
import DocSite.News.Feed
import DocSite.News.Listing
import DocSite.Site.Expansion
import DocSite.Path
import DocSite.Settings.Variables
import DocSite.Toml.Basic
import DocSite.Toml.Strings
import DocSite.Toml.Scalar
import DocSite.Toml.Reader
import DocSite.Settings.Load
import DocSite.Host.Memory
import DocSite.Command.Run
import DocSite.Main
import DocSite.Proofs.Url.Relative
import DocSite.Proofs.Url.Shortest
import DocSite.Proofs.Reference.Shortest
import DocSite.Proofs.News.Agreement
import DocSite.Proofs.Schema.Places
import DocSite.Proofs.Schema.Termination
import DocSite.Proofs.Pipeline.Shape
import DocSite.Proofs.Pipeline.Blocks
import DocSite.Proofs.Macro.Verbatim
import DocSite.Proofs.Macro.Scan
import DocSite.Proofs.Macro.Position
import DocSite.Proofs.Text.Lines
import DocSite.Proofs.Macro.Untouched
import DocSite.Proofs.Macro.Trace
import DocSite.Proofs.Macro.Nesting
import DocSite.Proofs.Macro.Inline
import DocSite.Proofs.Macro.AttributeList
import DocSite.Proofs.Macro.Slots
import DocSite.Proofs.Macro.Written
import DocSite.Proofs.Macro.Failing
import DocSite.Proofs.Macro.State
import DocSite.Proofs.News.Registration
import DocSite.Proofs.Catalog.Ids
import DocSite.Proofs.Site.ComponentField
import DocSite.Proofs.Site.FileLink
import DocSite.Proofs.Macro.SideBySide
import DocSite.Proofs.News.Independence
import DocSite.Proofs.News.FeedDocument
import DocSite.Proofs.Time.MailDate
import DocSite.Proofs.Command.Deeds
import DocSite.Proofs.Command.Expand
import DocSite.Proofs.Settings.Loading
import DocSite.Proofs.Settings.References
import DocSite.Proofs.Settings.DollarSigns
import DocSite.Proofs.Settings.Precedence
import DocSite.Proofs.Settings.Discovery
import DocSite.Proofs.Json.Printed
import DocSite.Proofs.Json.Records
import DocSite.Proofs.PageIndex
import DocSite.Proofs.Command.Index
import DocSite.Proofs.Time.DayCount
import DocSite.Proofs.Time.DateForms
import DocSite.Proofs.News.Article
import DocSite.Proofs.News.Unseen
import DocSite.Proofs.News.Sections
import DocSite.Proofs.Catalog.Selection
