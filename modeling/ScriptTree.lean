import ScriptTree.Main
import ScriptTree.Proofs.Conflicts
import ScriptTree.Proofs.DanglingElse
import ScriptTree.Proofs.Directive
import ScriptTree.Proofs.ElseBinding
import ScriptTree.Proofs.FieldOrder
import ScriptTree.Proofs.Indifference
import ScriptTree.Proofs.Labels
import ScriptTree.Proofs.LocationFaults
import ScriptTree.Proofs.Malformed
import ScriptTree.Proofs.Moves
import ScriptTree.Proofs.NameLanguage
import ScriptTree.Proofs.Parameters
import ScriptTree.Proofs.PartFaults
import ScriptTree.Proofs.Placement
import ScriptTree.Proofs.PropertyOrder
import ScriptTree.Proofs.ReportLines
import ScriptTree.Proofs.ReportOrder
import ScriptTree.Proofs.Reporter
import ScriptTree.Proofs.RoundTrip
import ScriptTree.Proofs.Settling
import ScriptTree.Proofs.Siblings
import ScriptTree.Proofs.Snippet
import ScriptTree.Proofs.Standalone
import ScriptTree.Proofs.StrictAdds
