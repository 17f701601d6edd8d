import StackScript.Text.Whitespace
import StackScript.Text.Alphabetic
import StackScript.Text.Numeric
import StackScript.Text.Extending
import StackScript.Text.Unprintable
import StackScript.Number.FloatText
import StackScript.Arithmetic
import StackScript.Script.Lexer
import StackScript.Script.Parser
import StackScript.Optimize.Options
import StackScript.Code.Lower
import StackScript.Code.Listing
import StackScript.Machine.Run
import StackScript.Wire.Container
import StackScript.Cache
import StackScript.Path
import StackScript.Toml.Reader
import StackScript.Files.Tree
import StackScript.Naming
import StackScript.SourceUnit
import StackScript.Session.Operations
import StackScript.CommandLine.Commands
import StackScript.Code.Compile
import StackScript.Main
import StackScript.Proofs.Evaluation
import StackScript.Proofs.Lowering.Correctness
import StackScript.Proofs.Folding
import StackScript.Proofs.Wire.Readers
import StackScript.Proofs.Wire.RoundTrip
import StackScript.Proofs.Session.ContainerRun
import StackScript.Proofs.Wire.Acceptance
import StackScript.Proofs.Script.Grammar
import StackScript.Proofs.Script.Completeness
import StackScript.Proofs.Script.Agreement
import StackScript.Proofs.Script.Spelling
import StackScript.Proofs.Script.Nesting
import StackScript.Proofs.Script.Printing
import StackScript.Proofs.Cache.InsertOnce
import StackScript.Proofs.Malformed
import StackScript.Proofs.Session.Operation
import StackScript.Proofs.Session.Transparency
import StackScript.Proofs.Session.History
import StackScript.Proofs.Files.Faults
import StackScript.Proofs.Files.Replacing
import StackScript.Proofs.Naming
import StackScript.Proofs.Session.Persisting
import StackScript.Proofs.Files.Components
import StackScript.Proofs.Placement
import StackScript.Proofs.Discovery
import StackScript.Proofs.Wire.Room
import StackScript.Proofs.Script.Room
import StackScript.Proofs.Lowering.Room
import StackScript.Proofs.Session.Readable
import StackScript.Proofs.Script.Positions
import StackScript.Proofs.WholeNumbers
import StackScript.Proofs.Folding.Outermost
import StackScript.Proofs.Folding.Normal
import StackScript.Proofs.Folding.Counting
import StackScript.Proofs.Lowering.Canonical
import StackScript.Proofs.Lowering.Recovery
import StackScript.Proofs.Script.Locality
import StackScript.Proofs.Script.Joining
import StackScript.Proofs.Script.ViablePrefix
import StackScript.Proofs.Script.Partition
import StackScript.Proofs.Script.LineEndings
import StackScript.Proofs.Decimals
import StackScript.Proofs.Wire.Recoding
import StackScript.Proofs.Script.Cursor
import StackScript.Proofs.Script.CursorAgreement
import StackScript.Proofs.Script.Words
import StackScript.Proofs.Quoting
import StackScript.Proofs.Listing
