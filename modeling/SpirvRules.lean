import SpirvRules.Binary.Grammar
import SpirvRules.Binary.Reader
import SpirvRules.Collection
import SpirvRules.Decoration.Section
import SpirvRules.Decoration.Table
import SpirvRules.Diagnostic.Report
import SpirvRules.Enumerant.BuiltIn
import SpirvRules.Enumerant.DecorationKind
import SpirvRules.Enumerant.Opcode
import SpirvRules.Enumerant.Parameter
import SpirvRules.Index.Basic
import SpirvRules.Index.TypeView
import SpirvRules.Interface.Basic
import SpirvRules.Interface.Check
import SpirvRules.Json
import SpirvRules.Layout.Explicit
import SpirvRules.Layout.Measure
import SpirvRules.Layout.Policy
import SpirvRules.Layout.Slot
import SpirvRules.Layout.Walk
import SpirvRules.Logging
import SpirvRules.Module
import SpirvRules.Proofs.Decoration.Expansion
import SpirvRules.Proofs.Decoration.Groups
import SpirvRules.Proofs.Decoration.Order
import SpirvRules.Proofs.Decoration.Placement
import SpirvRules.Proofs.Decoration.Renumbering
import SpirvRules.Proofs.Decoration.Reordering
import SpirvRules.Proofs.Environment
import SpirvRules.Proofs.Index.Agreement
import SpirvRules.Proofs.Index.Arrays
import SpirvRules.Proofs.Index.Definitions
import SpirvRules.Proofs.Index.Naming
import SpirvRules.Proofs.Index.Order
import SpirvRules.Proofs.Index.Places
import SpirvRules.Proofs.Index.Relisting
import SpirvRules.Proofs.Index.Renumbering
import SpirvRules.Proofs.Index.Reordering
import SpirvRules.Proofs.Index.StaticUse
import SpirvRules.Proofs.Interface.BuiltIns
import SpirvRules.Proofs.Interface.Listing
import SpirvRules.Proofs.Interface.Relisting
import SpirvRules.Proofs.Interface.Workgroup
import SpirvRules.Proofs.Layout.Agreement
import SpirvRules.Proofs.Layout.Alignments
import SpirvRules.Proofs.Layout.Blocks
import SpirvRules.Proofs.Layout.Buffers
import SpirvRules.Proofs.Layout.Canonical
import SpirvRules.Proofs.Layout.Chain
import SpirvRules.Proofs.Layout.Clearance
import SpirvRules.Proofs.Layout.Completeness
import SpirvRules.Proofs.Layout.Cycles
import SpirvRules.Proofs.Layout.Depth
import SpirvRules.Proofs.Layout.Divisibility
import SpirvRules.Proofs.Layout.Elements
import SpirvRules.Proofs.Layout.Explicitness
import SpirvRules.Proofs.Layout.Faults
import SpirvRules.Proofs.Layout.Flat
import SpirvRules.Proofs.Layout.Leaves
import SpirvRules.Proofs.Layout.Lockstep
import SpirvRules.Proofs.Layout.Loosening
import SpirvRules.Proofs.Layout.Measuring
import SpirvRules.Proofs.Layout.Nesting
import SpirvRules.Proofs.Layout.Periodicity
import SpirvRules.Proofs.Layout.Rounds
import SpirvRules.Proofs.Layout.Settling
import SpirvRules.Proofs.Layout.Slots
import SpirvRules.Proofs.Layout.Soundness
import SpirvRules.Proofs.Layout.Steps
import SpirvRules.Proofs.Layout.Straddling
import SpirvRules.Proofs.Layout.Strides
import SpirvRules.Proofs.Naming
import SpirvRules.Proofs.Numbers
import SpirvRules.Proofs.Outcome
import SpirvRules.Proofs.Recurrence
import SpirvRules.Proofs.Rule.Agreement
import SpirvRules.Proofs.Rule.BuiltInStruct
import SpirvRules.Proofs.Rule.Component
import SpirvRules.Proofs.Rule.Repetition
import SpirvRules.Proofs.Rule.Resources
import SpirvRules.Proofs.Rule.Rounding
import SpirvRules.Proofs.Rule.Target
import SpirvRules.Proofs.Search
import SpirvRules.Proofs.Stateful
import SpirvRules.Proofs.Validation
import SpirvRules.Rule.Basic
import SpirvRules.Rule.Buffer
import SpirvRules.Rule.Object
import SpirvRules.Rule.Target
import SpirvRules.Target.Env
import SpirvRules.Target.Options
import SpirvRules.Text.Quoted
import SpirvRules.Validate
import SpirvRules.Word
