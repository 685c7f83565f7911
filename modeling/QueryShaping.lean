import QueryShaping.Main
import QueryShaping.Proofs.Meaning
import QueryShaping.Proofs.Runs
import QueryShaping.Proofs.Records
import QueryShaping.Proofs.Nodes
import QueryShaping.Proofs.Documents
import QueryShaping.Proofs.Carried
import QueryShaping.Proofs.Patterns
import QueryShaping.Proofs.Precedence
import QueryShaping.Proofs.Determined
import QueryShaping.Proofs.Reordered
import QueryShaping.Proofs.Steady
import QueryShaping.Proofs.Restored
import QueryShaping.Proofs.Rejected
import QueryShaping.Proofs.Confined
import QueryShaping.Proofs.Numerals
import QueryShaping.Proofs.Rounding
import QueryShaping.Proofs.Readback
import QueryShaping.Proofs.Direct
import QueryShaping.Proofs.Rendered
import QueryShaping.Proofs.Returned
import QueryShaping.Proofs.Faithful
import QueryShaping.Proofs.Untouched
import QueryShaping.Proofs.Layout
import QueryShaping.Proofs.Reports
import QueryShaping.Proofs.Leaves
import QueryShaping.Proofs.Neutral
import QueryShaping.Proofs.Rearranged
import QueryShaping.Proofs.Names
import QueryShaping.Proofs.Keys
import QueryShaping.Proofs.Pages
import QueryShaping.Proofs.Kinds
import QueryShaping.Proofs.Counts
import QueryShaping.Proofs.Marks
import QueryShaping.Proofs.Nulls
import QueryShaping.Proofs.Requests
import QueryShaping.Proofs.Escapes
