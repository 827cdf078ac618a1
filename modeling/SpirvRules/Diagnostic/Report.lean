import SpirvRules.Word

/-!
# Reports

What is said of a broken rule: how grave it is, in words, at which id, and under which rule of the
Vulkan specification, where there is one.
-/

set_option autoImplicit false

namespace SpirvRules

inductive Category where
  /-- The module is malformed. -/
  | invalidBinary
  /-- A rule on particular ids is broken. -/
  | invalidId
  /-- A number or content is out of range. -/
  | invalidData
  /-- The version or an extension does not allow it. -/
  | wrongVersion
  deriving DecidableEq

structure Vuid where
  topic : String
  number : Nat
  deriving DecidableEq

namespace Vuid

def text (v : Vuid) : String :=
  let digits := toString v.number
  let zeros := String.ofList (List.replicate (5 - digits.length) '0')
  s!"VUID-StandaloneSpirv-{v.topic}-{zeros}{digits}"

end Vuid

structure Report where
  category : Category
  message : String
  id : Option Id := none
  vuid : Option Vuid := none

namespace Report

def binary (message : String) (id : Option Id := none) (vuid : Option Vuid := none) : Report :=
  ⟨.invalidBinary, message, id, vuid⟩

def ids (message : String) (id : Id) (vuid : Option Vuid := none) : Report :=
  ⟨.invalidId, message, some id, vuid⟩

def data (message : String) (id : Id) (vuid : Option Vuid := none) : Report :=
  ⟨.invalidData, message, some id, vuid⟩

def version (message : String) (id : Option Id := none) : Report :=
  ⟨.wrongVersion, message, id, none⟩

end Report

end SpirvRules
