import SpirvRules.Layout.Walk
import SpirvRules.Proofs.Decoration.Numbers
import SpirvRules.Proofs.Index.Agreement

/-!
# Layout reads types and decorations only

Measures, explicitness and the walk of a block come out alike on indexes and tables that agree.
-/

set_option autoImplicit false

namespace SpirvRules

structure Table.Agrees (t t' : Table) : Prop where
  targets : t.targets = t'.targets
  each : ∀ id, t.decorations id = t'.decorations id

namespace Table.Agrees

variable {t t' : Table} (h : t.Agrees t')

include h

theorem decorations : t.decorations = t'.decorations := funext h.each

theorem objectDecorations : t.objectDecorations = t'.objectDecorations := by
  funext id
  rw [Table.objectDecorations, h.decorations, ← Table.objectDecorations]

theorem memberDecorations : t.memberDecorations = t'.memberDecorations := by
  funext id n
  rw [Table.memberDecorations, h.decorations, ← Table.memberDecorations]

theorem alike : t.Alike t' := ⟨h.targets, fun id => congrArg _ (h.each id)⟩

theorem literal? : t.literal? = t'.literal? := by
  funext id k
  rw [Table.literal?, h.objectDecorations, ← Table.literal?]

theorem memberOffset? : t.memberOffset? = t'.memberOffset? := by
  funext id n
  rw [Table.memberOffset?, Table.memberLiteral?, h.memberDecorations, ← Table.memberLiteral?,
    ← Table.memberOffset?]

theorem usableOffset? : t.usableOffset? = t'.usableOffset? := by
  funext id n
  rw [Table.usableOffset?, h.memberOffset?, ← Table.usableOffset?]

theorem constraints : t.constraints = t'.constraints := by
  funext id n
  rw [Table.constraints, h.memberDecorations, ← Table.constraints]

theorem stride : t.stride = t'.stride := by
  funext id
  rw [Table.stride, h.literal?, ← Table.stride]

end Table.Agrees

section Layout

variable {ix ix' : Index} {t t' : Table} (hix : ix.Agrees ix') (ht : t.Agrees t')

include hix ht

theorem Quantity.rule_congr : rule ix t = rule ix' t' := by
  funext q
  cases q with
  | scalarAlignment id => simp only [rule, scalarRule, hix.type?]
  | baseAlignment id c up => simp only [rule, baseRule, column, hix.type?, ht.constraints]
  | size id c =>
    simp only [rule, sizeRule, column, hix.type?, hix.constant?, ht.constraints, ht.stride,
      ht.memberOffset?]

theorem Quantity.measure_congr : measure ix t = measure ix' t' := by
  funext q
  rw [measure, rule_congr hix ht, ← measure]

namespace Explicit

theorem offsets_congr (n : Nat) : offsets ix t n = offsets ix' t' n := by
  induction n with
  | zero => rfl
  | succ n ih =>
    funext id
    have hlacks : lacksOffset t = lacksOffset t' := by
      funext id ms
      simp only [lacksOffset, ht.usableOffset?]
    have hinner : inner ix = inner ix' := by
      funext id
      simp only [inner, hix.type?]
    rw [offsets, offsets, hlacks, hinner, hix.type?, ih]

theorem needs_congr (need : Need) (n : Nat) : needs ix t need n = needs ix' t' need n := by
  have hmeets : meets t = meets t' := by
    funext need s i
    simp only [meets, ht.alike.memberHas]
  induction n with
  | zero =>
    funext p
    cases p <;> rfl
  | succ n ih =>
    funext p
    cases p <;> simp only [needs, hix.type?, ht.alike.has, hmeets, ih]

end Explicit

theorem Nesting.check_congr : check ix t = check ix' t' := by
  have hblock : block? ix t = block? ix' t' := by
    funext m
    simp only [block?, hix.type?, ht.alike.blockKind?]
  funext root
  simp only [check, fault?, hix.below, hblock, ht.alike.blockKind?]

namespace Walk

theorem measure_congr : measure ix t = measure ix' t' := by
  funext q
  simp only [measure, Quantity.measure_congr hix ht]

variable (u : BlockUse)

theorem slots_congr (inner : Site → Walk Unit) (struct : Id) :
    slots ix t u inner struct = slots ix' t' u inner struct := by
  have hslot : slot ix t u inner struct = slot ix' t' u inner struct := by
    funext free s later
    simp only [slot, occupied, extent, measure_congr hix ht, hix.type?, ht.constraints]
  funext free ss
  induction ss generalizing free with
  | nil => rfl
  | cons s later ih => simp only [slots, hslot, ih]

theorem within_congr (inner : Site → Walk Unit) : within ix t u inner = within ix' t' u inner := by
  have hdeeper : deeper ix t u inner = deeper ix' t' u inner := by
    funext h e stride
    simp only [deeper, measure_congr hix ht]
  funext s
  cases s <;> simp only [within, level, elements, hdeeper, slots_congr hix ht, Slot.places,
    Slot.ofStruct, hix.type?, hix.constant?, ht.usableOffset?, ht.literal?, ht.stride]

theorem walk_congr (n : Nat) : walk ix t u n = walk ix' t' u n := by
  have hvoid : Site.isVoid ix = Site.isVoid ix' := by
    funext s
    cases s <;> simp only [Site.isVoid, hix.element?]
  induction n with
  | zero =>
    funext s
    rw [walk, walk, hvoid]
  | succ n ih =>
    funext s
    rw [walk, walk, ih, within_congr hix ht]

theorem block_congr : block ix t = block ix' t' := by
  have hexplicit : explicit ix t = explicit ix' t' := by
    funext root kind
    simp only [explicit, Explicit.missesOffset, Explicit.misses, Explicit.offsets_congr hix ht,
      Explicit.needs_congr hix ht]
  funext root c p
  simp only [block, blockBy, hexplicit, walk_congr hix ht, ht.alike.blockKind?]

end Walk

end Layout

end SpirvRules
