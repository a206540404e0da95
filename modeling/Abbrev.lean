import Abbrev.CommandLine
import Abbrev.Highlight
import Abbrev.LabelledTree.Reading
import Abbrev.Main
import Abbrev.Proofs.Editing.Caret
import Abbrev.Proofs.Editing.InlineText
import Abbrev.Proofs.Editing.Key
import Abbrev.Proofs.Editing.Trimming
import Abbrev.Proofs.Editing.Wrap
import Abbrev.Proofs.Expansion.Census
import Abbrev.Proofs.Expansion.Chain
import Abbrev.Proofs.Expansion.Classes
import Abbrev.Proofs.Expansion.ElementNames
import Abbrev.Proofs.Expansion.InPlace
import Abbrev.Proofs.Fragment.IndentedLines
import Abbrev.Proofs.Fragment.Provenance
import Abbrev.Proofs.Fragment.RoundTrip
import Abbrev.Proofs.Grammar.ErrorPlace
import Abbrev.Proofs.Registry.Choice
import Abbrev.Proofs.Rendering.Caret
import Abbrev.Proofs.Rendering.Comments
import Abbrev.Proofs.Rendering.Escaping
import Abbrev.Proofs.Rendering.Formatting
import Abbrev.Proofs.Rendering.HamlLines
import Abbrev.Proofs.Rendering.Indentation
import Abbrev.Proofs.Rendering.Nesting
import Abbrev.Proofs.Rendering.QuotedValues
import Abbrev.Proofs.Rendering.SnippetTags
import Abbrev.Proofs.Rendering.TabStops
import Abbrev.Proofs.Rendering.WellFormed
import Abbrev.Proofs.Session.Overlay
import Abbrev.Proofs.Session.Settings
import Abbrev.Proofs.Text.CounterRuns
import Abbrev.Proofs.Token.Highlighting
import Abbrev.Proofs.Token.Segmentation
import Abbrev.Proofs.Token.Units
import Abbrev.Script
import Abbrev.Session
