import TrapStub.Main
import TrapStub.Proofs.Answer
import TrapStub.Proofs.Plan.Placement
import TrapStub.Proofs.Plan.Registers
import TrapStub.Proofs.Header.Names
import TrapStub.Proofs.Header.Loads
import TrapStub.Proofs.CType.Unambiguous
import TrapStub.Proofs.Header.StubRegisters
import TrapStub.Proofs.Survey.Steps
import TrapStub.Proofs.Survey.Frame
import TrapStub.Proofs.Text.Order
import TrapStub.Proofs.Survey.EntryPoints
import TrapStub.Proofs.Layout.Rule
import TrapStub.Proofs.Layout.Attributes
import TrapStub.Proofs.Layout.Inference
import TrapStub.Proofs.Survey.TypeGraph
import TrapStub.Proofs.TypeTable.Register
import TrapStub.Proofs.Survey.Mentions
import TrapStub.Proofs.Survey.Definitions
import TrapStub.Proofs.Survey.Typedefs
import TrapStub.Proofs.Survey.ByValue
import TrapStub.Proofs.Header.Bodies
import TrapStub.Proofs.TypeTable.History
import TrapStub.Proofs.Header.Packing
import TrapStub.Proofs.Header.HeaderDraft
import TrapStub.Proofs.Header.OneBody
import TrapStub.Proofs.Survey.Constants
import TrapStub.Proofs.Header.Constants
import TrapStub.Proofs.TypeTable.Resolution
import TrapStub.Proofs.Survey.Resolution
import TrapStub.Proofs.Text.Runs
import TrapStub.Proofs.Mark.Form
import TrapStub.Proofs.Mark.Spans
import TrapStub.Proofs.Mark.Lines
import TrapStub.Proofs.Mark.Parts
import TrapStub.Proofs.Survey.Failures
import TrapStub.Proofs.Survey.Untagged
import TrapStub.Proofs.Header.Written
import TrapStub.Proofs.Outcome
import TrapStub.Proofs.Run.Steps
import TrapStub.Proofs.FileTree.Leads
import TrapStub.Proofs.FileTree.Places
import TrapStub.Proofs.FileTree.Changes
import TrapStub.Proofs.FileTree.Growth
import TrapStub.Proofs.FileTree.Listing
import TrapStub.Proofs.FileTree.Depth
import TrapStub.Proofs.Corpus.Discovery
import TrapStub.Proofs.Corpus.Staging
import TrapStub.Proofs.CommandLine.Status
import TrapStub.Proofs.TypeTable.Chain
import TrapStub.Proofs.Plan.Demand
import TrapStub.Proofs.Plan.Respelling
import TrapStub.Proofs.Survey.Grounded
import TrapStub.Proofs.Survey.Parameters
import TrapStub.Proofs.Survey.Qualifiers
import TrapStub.Proofs.Header.Locals
import TrapStub.Proofs.TypeTable.Confluence
import TrapStub.Proofs.Survey.Answers
import TrapStub.Proofs.Survey.Course
import TrapStub.Proofs.Survey.Noted
import TrapStub.Proofs.Survey.Termination
import TrapStub.Proofs.Survey.Reentry
import TrapStub.Proofs.Layout.RecordAttributes
import TrapStub.Proofs.Layout.RecordInference
import TrapStub.Proofs.Text.Splitting
import TrapStub.Proofs.Constant.Body
import TrapStub.Proofs.Word.Halves
import TrapStub.Proofs.Word.Expression
import TrapStub.Proofs.Header.WideValues
import TrapStub.Proofs.Corpus.Completeness
import TrapStub.Proofs.Corpus.Enclosure
import TrapStub.Proofs.Run.Leftovers
import TrapStub.Proofs.TypeTable.Sizes
import TrapStub.Proofs.Layout.Literals
