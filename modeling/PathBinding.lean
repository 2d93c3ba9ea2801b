import PathBinding.Derivation
import PathBinding.Gallery
import PathBinding.MixedSession
import PathBinding.Settings.Document
import PathBinding.Settings.Environment
import PathBinding.Proofs.Expansion
import PathBinding.Proofs.MostCaptured
import PathBinding.Proofs.Fallback
import PathBinding.Proofs.WithoutQueries
import PathBinding.Proofs.PathPart
import PathBinding.Proofs.QueryValues
import PathBinding.Proofs.DerivedViews
import PathBinding.Proofs.Registrations
import PathBinding.Proofs.BuildErrors
import PathBinding.Proofs.Interleaving
import PathBinding.Proofs.MatchedPattern
import PathBinding.Proofs.Numeral
import PathBinding.Proofs.Segment.Reading
import PathBinding.Proofs.WellFormed
import PathBinding.Proofs.Reproduction
import PathBinding.Proofs.RoundTrip
import PathBinding.Proofs.Template
import PathBinding.Proofs.ValuesInPaths
import PathBinding.Proofs.CapturedTexts
import PathBinding.Proofs.AnyPath
import PathBinding.Proofs.LiteralText
import PathBinding.Proofs.Json.Text
import PathBinding.Proofs.ValueDocuments
import PathBinding.Proofs.Conversion
import PathBinding.Proofs.References
import PathBinding.Proofs.Accessors
import PathBinding.Proofs.DeclarationDocuments
import PathBinding.Proofs.Trace
import PathBinding.Proofs.Environment
import PathBinding.Proofs.Acceptance
import PathBinding.Proofs.Concatenation
import PathBinding.Proofs.GroupCaptures
