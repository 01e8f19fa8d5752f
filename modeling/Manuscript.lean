import Manuscript.Main
import Manuscript.Sample
import Manuscript.Proofs.Grammar.LazyReading
import Manuscript.Proofs.Grammar.Lines
import Manuscript.Proofs.Specification.Records
import Manuscript.Proofs.Specification.Literals
import Manuscript.Proofs.Specification.Grammatical
import Manuscript.Proofs.Grammar.Conservation
import Manuscript.Proofs.Validation.Coverage
import Manuscript.Proofs.Canonical.RoundTrip
import Manuscript.Proofs.Style.Resolution
import Manuscript.Proofs.Style.Overrides
import Manuscript.Proofs.Style.SkippedPages
import Manuscript.Proofs.Compilation.Setting
import Manuscript.Proofs.Compilation.Building
import Manuscript.Proofs.Compilation.Placement
import Manuscript.Proofs.Compilation.Order
import Manuscript.Proofs.Token.Ascending
import Manuscript.Proofs.Grammar.Confined
import Manuscript.Proofs.Grammar.SectionLines
import Manuscript.Proofs.Grammar.Recovery
import Manuscript.Proofs.Token.LineGroups
import Manuscript.Proofs.Token.Layout
import Manuscript.Proofs.Validation.Valid
import Manuscript.Proofs.Validation.Acceptance
import Manuscript.Proofs.Grammar.Lookahead
import Manuscript.Proofs.Grammar.Matching
import Manuscript.Proofs.Grammar.Nesting
import Manuscript.Proofs.Grammar.Exhaustion
import Manuscript.Proofs.Compilation.Queue
import Manuscript.Proofs.Grammar.VersionGate
import Manuscript.Proofs.Token.Passing
import Manuscript.Proofs.Token.Quotation
import Manuscript.Proofs.Token.Invisible
import Manuscript.Proofs.Citation.Printed
import Manuscript.Proofs.Specification.Regrouping
import Manuscript.Proofs.Reordering.Rereading
import Manuscript.Proofs.Reordering.Passage
import Manuscript.Proofs.Reordering.Blocks
import Manuscript.Proofs.Reordering.Slots
import Manuscript.Proofs.Reordering.Settings
import Manuscript.Proofs.Reordering.Content
import Manuscript.Proofs.Reordering.Sections
import Manuscript.Proofs.Reordering.Rescanning
import Manuscript.Proofs.Reordering.Decomposition
import Manuscript.Proofs.Reordering.Order
import Manuscript.Proofs.Token.Calls
import Manuscript.Proofs.Typeset.Merging
import Manuscript.Proofs.Typeset.Cutting
import Manuscript.Proofs.Typeset.Emphasis
import Manuscript.Proofs.Typeset.Assembly
import Manuscript.Proofs.Compilation.Paragraphs
import Manuscript.Proofs.Compilation.Markers
import Manuscript.Proofs.Compilation.Raised
import Manuscript.Proofs.Compilation.Today
import Manuscript.Proofs.Typeset.Conservation
import Manuscript.Proofs.Typeset.Orderly
import Manuscript.Proofs.Typeset.NormalForm
import Manuscript.Proofs.Compilation.Allowances
import Manuscript.Proofs.Typeset.Junctions
import Manuscript.Proofs.Typeset.Addresses
import Manuscript.Proofs.Citation.Sorting
import Manuscript.Proofs.Citation.Stops
import Manuscript.Proofs.Compilation.Bibliography
import Manuscript.Proofs.Compilation.Uncited
import Manuscript.Proofs.Grammar.Reports
import Manuscript.Proofs.Grammar.LateVersion
import Manuscript.Proofs.Number.Roman
import Manuscript.Proofs.Citation.Names
import Manuscript.Proofs.Style.Colours
import Manuscript.Proofs.Typeset.Insertion
