import SceneWiring.Declaration.Recording
import SceneWiring.LogFile
import SceneWiring.Workspace
import SceneWiring.Proofs.Scan.Grouping
import SceneWiring.Proofs.Scan.Usings
import SceneWiring.Proofs.Marker.Analysis
import SceneWiring.Proofs.Report.Run
import SceneWiring.Proofs.Report.Accounting
import SceneWiring.Proofs.Scan.Containers
import SceneWiring.Proofs.Report.Identity
import SceneWiring.Proofs.Report.Uniqueness
import SceneWiring.Proofs.Literal.Grammar
import SceneWiring.Proofs.Literal.Writing
import SceneWiring.Proofs.Literal.Reading
import SceneWiring.Proofs.Marker.Parameter
import SceneWiring.Proofs.Literal.RoundTrip
import SceneWiring.Proofs.Declaration.Gap
import SceneWiring.Proofs.Scan.Outline
import SceneWiring.Proofs.Report.Isolation
import SceneWiring.Proofs.Report.Cancellation
import SceneWiring.Proofs.Report.Composition
import SceneWiring.Proofs.Header.Merging
import SceneWiring.Proofs.Scan.Headers
import SceneWiring.Proofs.Declaration.Reopening
import SceneWiring.Proofs.Report.Repetition
import SceneWiring.Proofs.Report.Regeneration
import SceneWiring.Proofs.Report.FileOrder
import SceneWiring.Proofs.Header.Path
import SceneWiring.Proofs.Scan.Likeness
import SceneWiring.Proofs.Report.Rearrangement
import SceneWiring.Proofs.Scan.Sameness
import SceneWiring.Proofs.Report.Ownership
import SceneWiring.Proofs.Scan.Nesting
import SceneWiring.Proofs.Report.Strictness
import SceneWiring.Proofs.Report.Log
import SceneWiring.Proofs.Marker.Meaning
import SceneWiring.Proofs.Report.Replacement
import SceneWiring.Proofs.Report.Assignment
import SceneWiring.Proofs.Scan.Substitution
import SceneWiring.Proofs.Report.UnitLines
import SceneWiring.Proofs.Marker.Modifiers
import SceneWiring.Proofs.Report.NullCheck
import SceneWiring.Proofs.Report.PlayHook
import SceneWiring.Proofs.Json.Spelling
import SceneWiring.Proofs.Json.Formats
import SceneWiring.Proofs.Declaration.Documents
import SceneWiring.Proofs.Report.ReadArgument
import SceneWiring.Proofs.Shape.Array
import SceneWiring.Proofs.Shape.Brackets
import SceneWiring.Proofs.Shape.Collection
import SceneWiring.Proofs.Report.Blocks
import SceneWiring.Proofs.Report.KeyAssignment
import SceneWiring.Proofs.Report.Directives
import SceneWiring.Proofs.Report.ModifierScope
import SceneWiring.Proofs.Declaration.Positions
import SceneWiring.Proofs.Declaration.SourceOrder
import SceneWiring.Proofs.Declaration.HookCalls
import SceneWiring.Proofs.Scan.Tables
import SceneWiring.Proofs.Scan.TableWalk
