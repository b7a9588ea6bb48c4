import DocBridge.Log.Moment
import DocBridge.Main
import DocBridge.Proofs.Token.Partition
import DocBridge.Proofs.Comment.Copy
import DocBridge.Proofs.Token.Locality
import DocBridge.Proofs.Pattern.Pieces
import DocBridge.Proofs.Comment.Frame
import DocBridge.Proofs.Token.Replacement
import DocBridge.Proofs.Comment.Rules
import DocBridge.Proofs.Comment.Counting
import DocBridge.Proofs.Text.Utf8
import DocBridge.Proofs.Comment.TypedArrays
import DocBridge.Proofs.Comment.Links
import DocBridge.Proofs.Comment.Intact
import DocBridge.Proofs.Page.Paths
import DocBridge.Proofs.Query.Selection
import DocBridge.Proofs.Page.Passes
import DocBridge.Proofs.Page.Separator
import DocBridge.Proofs.Page.Layout
import DocBridge.Proofs.Page.ManualLink
import DocBridge.Proofs.Page.Rest
import DocBridge.Proofs.Page.Idempotence
import DocBridge.Proofs.Text.Search
import DocBridge.Proofs.Text.Split
import DocBridge.Proofs.Comment.Separators
import DocBridge.Proofs.Comment.Cutoff
import DocBridge.Proofs.Disk.Lookup
import DocBridge.Proofs.Disk.Walk
import DocBridge.Proofs.Disk.Bytes
import DocBridge.Proofs.Fix.Isolation
import DocBridge.Proofs.Markup.Escape
import DocBridge.Proofs.Markup.Spelling
import DocBridge.Proofs.Page.Preamble
import DocBridge.Proofs.Page.RoundTrip
import DocBridge.Proofs.Token.Segments
import DocBridge.Proofs.Token.Lexemes
import DocBridge.Proofs.Token.Forms
import DocBridge.Proofs.Comment.Lines
import DocBridge.Proofs.Markup.Prolog
import DocBridge.Proofs.Page.Prolog
import DocBridge.Proofs.Token.Keywords
import DocBridge.Proofs.Token.Continuation
import DocBridge.Proofs.Fix.Accounting
import DocBridge.Proofs.Comment.Pairing
import DocBridge.Proofs.Comment.Stranded
import DocBridge.Proofs.Comment.LineEndings
import DocBridge.Proofs.Settings.Acceptance
import DocBridge.Proofs.Page.TopDown
import DocBridge.Proofs.Page.Whitespace
import DocBridge.Proofs.Fix.Totals
import DocBridge.Proofs.Pattern.Preference
import DocBridge.Proofs.Comment.DocComments
import DocBridge.Proofs.Comment.LinkLine
import DocBridge.Proofs.Comment.VarLines
import DocBridge.Proofs.Comment.Backslashes
import DocBridge.Proofs.Token.Lines
import DocBridge.Proofs.Comment.Lookahead
import DocBridge.Proofs.Pattern.Settled
import DocBridge.Proofs.Token.Quotes
import DocBridge.Proofs.Comment.Returns
import DocBridge.Proofs.Token.Heredocs
import DocBridge.Proofs.Page.Boundary
import DocBridge.Proofs.Fix.Attributes
import DocBridge.Proofs.Fault.Detection
import DocBridge.Proofs.Comment.Untagged
import DocBridge.Proofs.Token.InRange
import DocBridge.Proofs.Metrics.Exposition
import DocBridge.Proofs.Token.Maximal
import DocBridge.Proofs.Comment.Splicing
import DocBridge.Proofs.Markup.References
