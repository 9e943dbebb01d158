import Phrasebook.Delivery.FanOut
import Phrasebook.Main
import Phrasebook.Proofs.Tags.Declining
import Phrasebook.Proofs.Tags.Expansion
import Phrasebook.Proofs.Tags.History
import Phrasebook.Proofs.Tags.Inlining
import Phrasebook.Proofs.Tags.Operations
import Phrasebook.Proofs.Tags.Registration
import Phrasebook.Proofs.Tags.Placeholder
import Phrasebook.Proofs.Template.Printing
import Phrasebook.Proofs.Properties.Lines
import Phrasebook.Proofs.Properties.Spelling
import Phrasebook.Proofs.Properties.Writing
import Phrasebook.Proofs.Storage.Loading
import Phrasebook.Proofs.Storage.Reloads
import Phrasebook.Proofs.Storage.Listing
import Phrasebook.Proofs.Template.Limits
import Phrasebook.Proofs.Delivery.Forwarding
import Phrasebook.Proofs.Tags.Blame
import Phrasebook.Proofs.Tags.Calls
import Phrasebook.Proofs.Locale.Normalization
import Phrasebook.Proofs.Outcome
import Phrasebook.Proofs.Settings.Overrides
import Phrasebook.Proofs.CommandLine.Precedence
import Phrasebook.Proofs.CommandLine.Flags
import Phrasebook.Proofs.LanguageTag.Canonical
import Phrasebook.Proofs.LanguageTag.RoundTrip
import Phrasebook.Proofs.Locale.Agreement
import Phrasebook.Proofs.Tags.Placeless
import Phrasebook.Proofs.Template.LineBreaks
import Phrasebook.Proofs.Rendering.EntryPoints
import Phrasebook.Proofs.RichText.Appearance
import Phrasebook.Proofs.RichText.Shrinking
import Phrasebook.Proofs.Template.Decomposition
import Phrasebook.Proofs.Template.TagGrammar
import Phrasebook.Proofs.Template.SymbolReading
import Phrasebook.Proofs.Template.Aliases
import Phrasebook.Proofs.Tags.Steadiness
import Phrasebook.Proofs.Template.Agreement
import Phrasebook.Proofs.Rendering.Fallback
import Phrasebook.Proofs.Properties.Relayout
import Phrasebook.Proofs.Properties.FaultLines
import Phrasebook.Proofs.Storage.Lists
import Phrasebook.Proofs.RichText.NodeText
import Phrasebook.Proofs.Locale.Stability
import Phrasebook.Proofs.Catalog.History
import Phrasebook.Proofs.Properties.EntryParts
import Phrasebook.Proofs.Template.GuardedReading
