import LineSum.Main
import LineSum.Proofs.Config.Settings
import LineSum.Proofs.Config.Outcome
import LineSum.Proofs.Config.Profiles
import LineSum.Proofs.Yaml.Names
import LineSum.Proofs.Expr.Repair
import LineSum.Proofs.Source.Location
import LineSum.Proofs.Source.Coordinates
import LineSum.Proofs.Source.Loading
import LineSum.Proofs.Report.Records
import LineSum.Proofs.Session.JsonLines
import LineSum.Proofs.CommandLine.Expressions
import LineSum.Proofs.Expr.Concatenation
import LineSum.Proofs.Expr.Cursor
import LineSum.Proofs.Expr.Turns
import LineSum.Proofs.Expr.Reader
import LineSum.Proofs.Expr.ReadBack
import LineSum.Proofs.Expr.Spacing
import LineSum.Proofs.Config.Idempotence
import LineSum.Proofs.Config.Messages
import LineSum.Proofs.Source.Cuts
import LineSum.Proofs.Source.PathOrder
import LineSum.Proofs.Source.Reads
import LineSum.Proofs.Config.Visits
import LineSum.Proofs.Config.Ranges
import LineSum.Proofs.Config.Mirrors
import LineSum.Proofs.Source.LineEnds
import LineSum.Proofs.Config.Layers
import LineSum.Proofs.Report.Pieces
import LineSum.Proofs.Report.Carets
import LineSum.Proofs.Report.Colors
import LineSum.Proofs.Report.ObjectLines
import LineSum.Proofs.Report.PlainFormat
import LineSum.Proofs.Session.Tracing
import LineSum.Proofs.Session.CompactLines
import LineSum.Proofs.Expr.TokenRows
import LineSum.Proofs.Config.Fields
import LineSum.Proofs.Session.ConfigNames
