import TestTransform.Main
import TestTransform.Transform.Transformer
import TestTransform.Scripted.Json
import TestTransform.Miniature.Samples
import TestTransform.Files.Tree
import TestTransform.Proofs.Compiler.Reuse
import TestTransform.Proofs.Json.Compact
import TestTransform.Proofs.Transform.Freshness
import TestTransform.Proofs.Transform.SharedKeys
import TestTransform.Proofs.Config.Fingerprint
import TestTransform.Proofs.Compiler.Versions
import TestTransform.Proofs.Compiler.Repeat
import TestTransform.Proofs.Transform.Aside
import TestTransform.Proofs.Config.Alike
import TestTransform.Proofs.Compiler.Created
import TestTransform.Proofs.Config.Queries
import TestTransform.Proofs.Digest.Length
import TestTransform.Proofs.Transform.Catalogue
import TestTransform.Proofs.Transform.KeyRecord
import TestTransform.Proofs.Transform.Vouching
import TestTransform.Proofs.Host.Options
import TestTransform.Proofs.Graph.Writers
import TestTransform.Proofs.Config.Layers
import TestTransform.Proofs.Options.Values
import TestTransform.Proofs.Graph.Cache
import TestTransform.Proofs.Config.Precedence
import TestTransform.Proofs.Config.Cycles
import TestTransform.Proofs.Json.Grammar
import TestTransform.Proofs.Json.Relaxed
import TestTransform.Proofs.Config.Membership
import TestTransform.Proofs.Path.Lexical
import TestTransform.Proofs.Compiler.BreadthFirst
import TestTransform.Proofs.Compiler.Dependents
import TestTransform.Proofs.CommandLine.Shown
import TestTransform.Proofs.Pattern.Language
import TestTransform.Proofs.Text.Utf8
import TestTransform.Proofs.Glob.Meaning
import TestTransform.Proofs.Except
import TestTransform.Proofs.Glob.Wildcards
import TestTransform.Proofs.Config.Covered
import TestTransform.Proofs.Files.Listing
import TestTransform.Proofs.Config.DefaultInputs
import TestTransform.Proofs.Diagnostic.Raising
import TestTransform.Proofs.Compiler.Record
import TestTransform.Proofs.Compiler.Output
import TestTransform.Proofs.Miniature.Inlined
import TestTransform.Proofs.Transform.Inlined
import TestTransform.Proofs.Script.Reading
import TestTransform.Proofs.Compiler.Executable
import TestTransform.Proofs.Glob.Leading
import TestTransform.Proofs.Config.TestFiles
import TestTransform.Proofs.Options.Serialized
import TestTransform.Proofs.Miniature.Search
import TestTransform.Proofs.Graph.Reloading
import TestTransform.Proofs.Diagnostic.Codes
import TestTransform.Proofs.Files.Spellings
import TestTransform.Proofs.Pattern.Walks
import TestTransform.Proofs.Miniature.Spans
