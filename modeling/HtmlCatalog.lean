import HtmlCatalog.Number.Decimal
import HtmlCatalog.Text.Quoted
import HtmlCatalog.Value.Literal
import HtmlCatalog.Json
import HtmlCatalog.Yaml.Reader
import HtmlCatalog.Merge
import HtmlCatalog.Builtin
import HtmlCatalog.Main
import HtmlCatalog.Resolver
import HtmlCatalog.Text.Utf8
import HtmlCatalog.Proofs.Groups
import HtmlCatalog.Proofs.MergeAlgebra
import HtmlCatalog.Proofs.Declared
import HtmlCatalog.Proofs.Conflicts
import HtmlCatalog.Proofs.UserSources
import HtmlCatalog.Proofs.Grammar
import HtmlCatalog.Proofs.Layers
import HtmlCatalog.Proofs.Baseline
import HtmlCatalog.Proofs.Provenance
import HtmlCatalog.Proofs.Patches
import HtmlCatalog.Proofs.BuiltinTypes
import HtmlCatalog.Proofs.Reading
import HtmlCatalog.Proofs.Loading
import HtmlCatalog.Proofs.Sections
import HtmlCatalog.Proofs.Ownership
import HtmlCatalog.Proofs.TypeTexts
import HtmlCatalog.Proofs.Directories
import HtmlCatalog.Proofs.Tables
import HtmlCatalog.Proofs.Commands
import HtmlCatalog.Proofs.Reports
import HtmlCatalog.Proofs.Unmerged
import HtmlCatalog.Proofs.Entries
import HtmlCatalog.Proofs.ValueSets
import HtmlCatalog.Proofs.TypeForms
import HtmlCatalog.Proofs.Backfill
import HtmlCatalog.Proofs.Growth
import HtmlCatalog.Proofs.Reordering
import HtmlCatalog.Proofs.FixedPoints
import HtmlCatalog.Proofs.Appending
import HtmlCatalog.Proofs.RelativeSources
import HtmlCatalog.Proofs.SourceForms
import HtmlCatalog.Proofs.SummaryRows
