import CodeSample.Data.Json
import CodeSample.Layout.Sink
import CodeSample.Render.Session
import CodeSample.Syntax.Walk
import CodeSample.Target.Locality
import CodeSample.Target.Registry
import CodeSample.Proofs.Totality
import CodeSample.Proofs.FlagPlaces
import CodeSample.Proofs.BraceLaw
import CodeSample.Proofs.RoundTrip
import CodeSample.Proofs.NodeGrammar
import CodeSample.Proofs.Noninterference
import CodeSample.Proofs.SessionRuns
import CodeSample.Proofs.DroppedRules
import CodeSample.Proofs.LayoutText
import CodeSample.Proofs.SinkRuns
import CodeSample.Proofs.ShiftedOutput
import CodeSample.Proofs.IndentOption
import CodeSample.Proofs.StatementLists
import CodeSample.Proofs.AccessChains
import CodeSample.Proofs.TypePlaceholders
import CodeSample.Proofs.DeclaredNames
import CodeSample.Proofs.OptionalMarks
import CodeSample.Proofs.CastScope
import CodeSample.Proofs.InterpolatedStrings
import CodeSample.Proofs.ReportedOnce
import CodeSample.Proofs.KeySpelling
import CodeSample.Proofs.EmptyTrees
import CodeSample.Proofs.DeclaredLiterals
import CodeSample.Proofs.ParameterDefaults
import CodeSample.Proofs.NullDefaults
import CodeSample.Proofs.PreferredStructs
import CodeSample.Proofs.SimpleExpressions
import CodeSample.Proofs.ElseIfChains
import CodeSample.Proofs.InterpolatedHoles
import CodeSample.Proofs.StrayFaults
import CodeSample.Proofs.TypeSpelling
import CodeSample.Proofs.WrittenObjects
import CodeSample.Proofs.Regrouping
