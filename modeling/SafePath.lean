import SafePath.Argument.Cut
import SafePath.Argument.Path
import SafePath.Argument.Settings
import SafePath.Cli.Run
import SafePath.Log.Program
import SafePath.Proofs.Utf8.Encoding
import SafePath.Proofs.Utf8.WellFormed
import SafePath.Proofs.Utf8.Boundary
import SafePath.Proofs.Utf8.Text
import SafePath.Proofs.Path.Components
import SafePath.Proofs.Path.Cascade
import SafePath.Proofs.Name.Basic
import SafePath.Proofs.Path.Assembly
import SafePath.Proofs.Path.Parts
import SafePath.Proofs.Utf8.Values
import SafePath.Proofs.Name.Sanitize
import SafePath.Proofs.Path.Confinement
import SafePath.Proofs.Log.Tally
import SafePath.Proofs.Cli.Batch
import SafePath.Proofs.Path.Forms
import SafePath.Proofs.Path.Refusal
import SafePath.Proofs.Utf8.HeadWidth
import SafePath.Proofs.Path.Remains
import SafePath.Proofs.Path.DotNames
import SafePath.Proofs.Name.Escaped
import SafePath.Proofs.Utf8.Reading
import SafePath.Proofs.Path.Settled
import SafePath.Proofs.Text.Shown
import SafePath.Proofs.Text.Lines
import SafePath.Proofs.Log.Messages
import SafePath.Proofs.Cli.Messages
import SafePath.Proofs.Cli.Verbosity
import SafePath.Proofs.Log.History
import SafePath.Proofs.Utf8.Escaped
import SafePath.Proofs.Cli.NamesFile
import SafePath.Proofs.Utf8.Strict
import SafePath.Proofs.Text.Surrogates
import SafePath.Proofs.Name.Characters
import SafePath.Proofs.Utf8.CutPoint
import SafePath.Proofs.Utf8.CutWithin
import SafePath.Proofs.Path.WiderLimit
import SafePath.Proofs.Path.CutReports
import SafePath.Proofs.Cli.Checks
import SafePath.Proofs.Path.BuiltNames
import SafePath.Proofs.Log.Course
import SafePath.Proofs.Config.Limits
import SafePath.Proofs.Config.Precedence
import SafePath.Proofs.Number.Binary64
import SafePath.Proofs.Path.Iterations
import SafePath.Proofs.Size
import SafePath.Proofs.Text.Numeral
