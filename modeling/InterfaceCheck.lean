import InterfaceCheck.Session
import InterfaceCheck.Proofs.Atomicity
import InterfaceCheck.Proofs.CheckPaths
import InterfaceCheck.Proofs.Combination
import InterfaceCheck.Proofs.Inheritance
import InterfaceCheck.Proofs.Log
import InterfaceCheck.Proofs.ModuleNames
import InterfaceCheck.Proofs.Placeholders
import InterfaceCheck.Proofs.Provenance
import InterfaceCheck.Proofs.Samples
import InterfaceCheck.Proofs.Shapes
import InterfaceCheck.Proofs.Strictness
import InterfaceCheck.Proofs.Substitution
import InterfaceCheck.Proofs.Validation
import InterfaceCheck.Proofs.WellNamed
import InterfaceCheck.Proofs.Writes
import InterfaceCheck.Proofs.Building
import InterfaceCheck.Proofs.AssertionTables
import InterfaceCheck.Proofs.Binary64.Magnitudes
import InterfaceCheck.Proofs.Binary64.Rounding
import InterfaceCheck.Proofs.Binary64.Nearest
import InterfaceCheck.Proofs.Binary64.Shortest
import InterfaceCheck.Proofs.Positional
import InterfaceCheck.Proofs.Binary64.Integers
import InterfaceCheck.Proofs.Numbers
import InterfaceCheck.Proofs.Concatenation
import InterfaceCheck.Proofs.DynamicConfigs
import InterfaceCheck.Proofs.Leaves
import InterfaceCheck.Proofs.Toml.Keys
import InterfaceCheck.Proofs.Insertions
import InterfaceCheck.Proofs.Reordering
import InterfaceCheck.Proofs.Quoting
import InterfaceCheck.Proofs.Toml.Layouts
import InterfaceCheck.Proofs.WritingSettings
