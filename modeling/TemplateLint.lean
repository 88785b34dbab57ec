import TemplateLint.Text.Position
import TemplateLint.Text.Decimal
import TemplateLint.Text.Blank
import TemplateLint.Text.Search
import TemplateLint.Text.Escape
import TemplateLint.Text.Utf8
import TemplateLint.Markup.Alphabet
import TemplateLint.Markup.SyntaxError
import TemplateLint.Markup.Rejection
import TemplateLint.Markup.Node
import TemplateLint.Markup.Cursor
import TemplateLint.Markup.Lexer
import TemplateLint.Markup.Lexer.Progress
import TemplateLint.Markup.Reference
import TemplateLint.Markup.Token
import TemplateLint.Markup.Expansion
import TemplateLint.Markup.Builder
import TemplateLint.Markup.Content
import TemplateLint.Markup.Doctype
import TemplateLint.Markup.Document
import TemplateLint.Directive
import TemplateLint.Check
import TemplateLint.Files.Path
import TemplateLint.Finding
import TemplateLint.Template.Location
import TemplateLint.Template
import TemplateLint.Json
import TemplateLint.Report
import TemplateLint.Files.Entry
import TemplateLint.Files.FileError
import TemplateLint.Files.Volume
import TemplateLint.Files.Search
import TemplateLint.Linter
import TemplateLint.Command
import TemplateLint.Main
import TemplateLint.Proofs.Text.Utf8
import TemplateLint.Proofs.Json.Decoder
import TemplateLint.Proofs.Markup.Place
import TemplateLint.Proofs.Markup.Token
import TemplateLint.Proofs.Markup.Builder
import TemplateLint.Proofs.Markup.Content
import TemplateLint.Proofs.Markup.Document
import TemplateLint.Proofs.Markup.Entities
import TemplateLint.Proofs.Markup.Order
import TemplateLint.Proofs.Markup.Nesting
import TemplateLint.Proofs.Markup.Continuation
import TemplateLint.Proofs.Markup.Shift
import TemplateLint.Proofs.Injection
import TemplateLint.Proofs.Markup.Prolog
import TemplateLint.Proofs.Markup.Trailing
import TemplateLint.Proofs.Lines
import TemplateLint.Proofs.Occurrences
import TemplateLint.Proofs.Json.RoundTrip
import TemplateLint.Proofs.Messages
import TemplateLint.Proofs.Endings
import TemplateLint.Proofs.TextReports
import TemplateLint.Proofs.Violations
import TemplateLint.Proofs.Transparency
import TemplateLint.Proofs.Independence
import TemplateLint.Proofs.SourceOrder
import TemplateLint.Proofs.Preparation
import TemplateLint.Proofs.Gate
import TemplateLint.Proofs.Reports
import TemplateLint.Proofs.Directives
import TemplateLint.Proofs.Comments
import TemplateLint.Proofs.Files.Templates
import TemplateLint.Proofs.Files.Walk
import TemplateLint.Proofs.Runs
import TemplateLint.Proofs.Renumbering
import TemplateLint.Proofs.Exclusion
import TemplateLint.Proofs.Embedding
import TemplateLint.Proofs.Insertion
import TemplateLint.Proofs.Markup.Attributes
import TemplateLint.Proofs.AttributeOrder
