import SpirvRules.Json
import SpirvRules.Target.Env

/-!
# Options

What a module is checked against: an environment and five switches for block layout. Options are
written as a JSON object with every field in a fixed order, and read from an object with any of
them or from an array of the first few.
-/

set_option autoImplicit false

namespace SpirvRules

structure Options where
  targetEnv : TargetEnv := .standard
  relaxBlockLayout : Bool := false
  uniformBufferStandardLayout : Bool := false
  scalarBlockLayout : Bool := false
  workgroupScalarBlockLayout : Bool := false
  skipBlockLayout : Bool := false
  deriving DecidableEq

namespace Options

def isRelaxed (o : Options) : Bool := o.relaxBlockLayout || o.targetEnv.relaxesBlockLayout

inductive Field where
  | targetEnv | relaxBlockLayout | uniformBufferStandardLayout | scalarBlockLayout
  | workgroupScalarBlockLayout | skipBlockLayout
  deriving DecidableEq

namespace Field

def all : List Field :=
  [.targetEnv, .relaxBlockLayout, .uniformBufferStandardLayout, .scalarBlockLayout,
   .workgroupScalarBlockLayout, .skipBlockLayout]

def key : Field → String
  | .targetEnv => "target_env"
  | .relaxBlockLayout => "relax_block_layout"
  | .uniformBufferStandardLayout => "uniform_buffer_standard_layout"
  | .scalarBlockLayout => "scalar_block_layout"
  | .workgroupScalarBlockLayout => "workgroup_scalar_block_layout"
  | .skipBlockLayout => "skip_block_layout"

def ofKey? (s : String) : Option Field := all.find? (·.key = s)

end Field

def set (o : Options) (f : Field) (b : Bool) : Options :=
  match f with
  | .targetEnv => o
  | .relaxBlockLayout => { o with relaxBlockLayout := b }
  | .uniformBufferStandardLayout => { o with uniformBufferStandardLayout := b }
  | .scalarBlockLayout => { o with scalarBlockLayout := b }
  | .workgroupScalarBlockLayout => { o with workgroupScalarBlockLayout := b }
  | .skipBlockLayout => { o with skipBlockLayout := b }

def switch (o : Options) : Field → Bool
  | .targetEnv => false
  | .relaxBlockLayout => o.relaxBlockLayout
  | .uniformBufferStandardLayout => o.uniformBufferStandardLayout
  | .scalarBlockLayout => o.scalarBlockLayout
  | .workgroupScalarBlockLayout => o.workgroupScalarBlockLayout
  | .skipBlockLayout => o.skipBlockLayout

def valueText (o : Options) (f : Field) : String :=
  if f = .targetEnv then "\"" ++ o.targetEnv.name ++ "\""
  else if o.switch f then "true" else "false"

def toJson (o : Options) : String :=
  "\x7b" ++ ",".intercalate (Field.all.map fun f => "\"" ++ f.key ++ "\":" ++ o.valueText f) ++
    "\x7d"

def put? (o : Options) (f : Field) (v : Json.Value) : Option Options :=
  match f, v with
  | .targetEnv, .string (some s) => (TargetEnv.ofName? s).map ({ o with targetEnv := · })
  | .targetEnv, _ => none
  | f, .bool b => some (o.set f b)
  | _, _ => none

/-- Fields that are not of this record pass, a field of it may come once, and every key has to be
text. -/
def putAll? (o : Options) (seen : List Field) : List (Option String × Json.Value) → Option Options
  | [] => some o
  | (none, _) :: _ => none
  | (some k, v) :: rest =>
    match Field.ofKey? k with
    | none => putAll? o seen rest
    | some f => if f ∈ seen then none else (o.put? f v).bind (putAll? · (f :: seen) rest)

def ofValue? : Json.Value → Option Options
  | .object fields => putAll? {} [] fields
  | .array items =>
    if items.length ≤ Field.all.length then
      (Field.all.zip items).foldlM (fun o (f, v) => o.put? f v) {}
    else none
  | _ => none

def ofJson? (s : String) : Option Options := do ofValue? (← Json.parse? s)

end Options

end SpirvRules
