import ComponentBundle.Build
import ComponentBundle.Bundle.Artifact
import ComponentBundle.Bundle.Emission
import ComponentBundle.Bundle.Payload
import ComponentBundle.Bundle.Variant
import ComponentBundle.Component
import ComponentBundle.Config
import ComponentBundle.Css.Offset
import ComponentBundle.Css.Scan
import ComponentBundle.Css.Scope
import ComponentBundle.Diagnostic
import ComponentBundle.Digest.Sha256
import ComponentBundle.Error
import ComponentBundle.FilePath
import ComponentBundle.FileTree
import ComponentBundle.Identity
import ComponentBundle.Json.Basic
import ComponentBundle.Json.Codec
import ComponentBundle.Json.Read
import ComponentBundle.Json.Write
import ComponentBundle.Loader.Basic
import ComponentBundle.Loader.Host
import ComponentBundle.Loader.Options
import ComponentBundle.Loader.Resolve
import ComponentBundle.Minify
import ComponentBundle.ReadError
import ComponentBundle.Registry
import ComponentBundle.Report
import ComponentBundle.SortedMap
import ComponentBundle.Style.Cache
import ComponentBundle.Style.Compile
import ComponentBundle.Style.Kind
import ComponentBundle.Style.Text
import ComponentBundle.Text.Blank
import ComponentBundle.Text.CaseTable
import ComponentBundle.Text.Comment
import ComponentBundle.Text.Lowercase
import ComponentBundle.Text.Replace
import ComponentBundle.Proofs.Loader.Operation
import ComponentBundle.Proofs.Loader.Run
import ComponentBundle.Proofs.Loader.FanOut
import ComponentBundle.Proofs.Bundle.Emission
import ComponentBundle.Proofs.FilePath
import ComponentBundle.Proofs.FileTree
import ComponentBundle.Proofs.Bundle.Assembly
import ComponentBundle.Proofs.Loader.Request
import ComponentBundle.Proofs.Style.Source
import ComponentBundle.Proofs.Style.Compile
import ComponentBundle.Proofs.Build.Cache
import ComponentBundle.Proofs.Build.Incremental
import ComponentBundle.Proofs.Css.Closed
import ComponentBundle.Proofs.Css.Compound
import ComponentBundle.Proofs.Css.Selector
import ComponentBundle.Proofs.Css.Sheet
import ComponentBundle.Proofs.Css.Insertion
import ComponentBundle.Proofs.Build.Reuse
import ComponentBundle.Proofs.Loader.Coalescing
import ComponentBundle.Proofs.Bundle.Payload
import ComponentBundle.Proofs.Loader.Install
import ComponentBundle.Proofs.Loader.StyleKind
import ComponentBundle.Proofs.Css.Complete
import ComponentBundle.Proofs.Build.Destination
import ComponentBundle.Proofs.Bundle.Layers
import ComponentBundle.Proofs.Bundle.Statement
import ComponentBundle.Proofs.Loader.Layering
import ComponentBundle.Proofs.Style.Joined
import ComponentBundle.Proofs.Json.RoundTrip
import ComponentBundle.Proofs.Build.Full
import ComponentBundle.Proofs.Build.Repeat
import ComponentBundle.Proofs.Build.Order
import ComponentBundle.Proofs.Loader.Late
import ComponentBundle.Proofs.Build.Placeholder
import ComponentBundle.Proofs.Bundle.Partition
import ComponentBundle.Proofs.Style.Isolation
import ComponentBundle.Proofs.Loader.Page
import ComponentBundle.Proofs.Style.Order
import ComponentBundle.Proofs.Css.Structure
import ComponentBundle.Proofs.Css.Pieces
import ComponentBundle.Proofs.Css.Commented
import ComponentBundle.Proofs.Build.Emitted
import ComponentBundle.Proofs.Build.Members
import ComponentBundle.Proofs.Build.Summary
import ComponentBundle.Proofs.Style.LastUpdate
import ComponentBundle.Proofs.Css.Offset
import ComponentBundle.Proofs.Css.OnePass
