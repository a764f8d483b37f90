import Reshape.Binding
import Reshape.Decimal.Binary64
import Reshape.Decimal.Layout
import Reshape.Decimal.Numeral
import Reshape.Decode
import Reshape.Defaults
import Reshape.Describe
import Reshape.Document.Basic
import Reshape.Document.Decode
import Reshape.Document.Encode
import Reshape.Document.Fault
import Reshape.Document.Form
import Reshape.Document.OfText
import Reshape.Entries
import Reshape.Extension.Basic
import Reshape.Extension.Builtin
import Reshape.Fault
import Reshape.Loader.Basic
import Reshape.Mapper.Compile
import Reshape.Mapper.Store
import Reshape.Path.Basic
import Reshape.Path.Parser
import Reshape.Path.Resolve
import Reshape.Procedure
import Reshape.Source
import Reshape.Text.Basic
import Reshape.Text.Case
import Reshape.Text.Split
import Reshape.Tree
import Reshape.Value
import Reshape.Yaml.Glyph
import Reshape.Yaml.Node
import Reshape.Yaml.Node.Parser
import Reshape.Yaml.Printer
import Reshape.Yaml.Scalar
import Reshape.Yaml.Style
import Reshape.Yaml.Token
import Reshape.Yaml.Token.Block
import Reshape.Yaml.Token.Plain
import Reshape.Yaml.Token.Property
import Reshape.Yaml.Token.Scan
import Reshape.Proofs.Results
import Reshape.Proofs.Composition.Embedding
import Reshape.Proofs.Composition.Build
import Reshape.Proofs.Composition.Session
import Reshape.Proofs.Composition.Caching
import Reshape.Proofs.Composition.Reachable
import Reshape.Proofs.Composition.Visits
import Reshape.Proofs.Running.Interpreter
import Reshape.Proofs.Running.FailingPoint
import Reshape.Proofs.Running.FailFast
import Reshape.Proofs.Path.Segments
import Reshape.Proofs.Path.Evaluation
import Reshape.Proofs.Path.Grammar
import Reshape.Proofs.Members
import Reshape.Proofs.Running.Reports
import Reshape.Proofs.Running.SafeRun
import Reshape.Proofs.Running.Isolation
import Reshape.Proofs.Composition.Completion
import Reshape.Proofs.Composition.Later
import Reshape.Proofs.Running.Standalone
import Reshape.Proofs.Running.Inlining
import Reshape.Proofs.Filling
import Reshape.Proofs.Running.Gaps
import Reshape.Proofs.Path.Leaves
import Reshape.Proofs.Path.Concatenation
import Reshape.Proofs.Path.Rendering
import Reshape.Proofs.Path.Offsets
import Reshape.Proofs.Loading.Fields
import Reshape.Proofs.Loading.Load
import Reshape.Proofs.Loading.Interpreter
import Reshape.Proofs.Loading.Cycles
import Reshape.Proofs.Loading.History
import Reshape.Proofs.Loading.Acceptance
import Reshape.Proofs.Documents.Forms
import Reshape.Proofs.Documents.Nodes
import Reshape.Proofs.Documents.Decoding
import Reshape.Proofs.Documents.RoundTrip
import Reshape.Proofs.Arithmetic
import Reshape.Proofs.InsertionOrder
import Reshape.Proofs.Documents.Declarations
import Reshape.Proofs.Documents.Exclusion
import Reshape.Proofs.Text.Regrouping
import Reshape.Proofs.Text.Splitting
import Reshape.Proofs.Path.Shape
import Reshape.Proofs.Path.Scanner
import Reshape.Proofs.Path.Tolerance
import Reshape.Proofs.Composition.Moments
import Reshape.Proofs.Composition.Tracing
