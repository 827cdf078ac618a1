import SpirvRules.Proofs.Decoration.Expansion
import SpirvRules.Proofs.Index.Arrays
import SpirvRules.Proofs.Index.Definitions
import SpirvRules.Proofs.Layout.Nesting

/-!
# Structs of built-ins stand alone

The check looks from each struct at its members with their arrays taken off, and no further. But
whatever is inside a struct, at whatever depth, is a member of some struct once its arrays are taken
off: the last struct on the way to it.
-/

set_option autoImplicit false

namespace SpirvRules

open Outcome

/-- The last struct on the way from one struct to another. -/
theorem Index.exists_last_struct {ix : Index} {s x : Id} (hs : (ix.type? s).any TypeView.isStruct)
    (h : ix.Inside s x) :
    ∃ a m, (ix.type? a).any TypeView.isStruct ∧ m ∈ ix.members a ∧ ix.Strips m x := by
  induction h with
  | single hx =>
    rcases Explicit.mem_inner_iff.1 hx with he | hm
    · obtain ⟨ms, hv⟩ := Index.isStruct_iff.1 hs
      rw [Index.element?_struct hv] at he
      cases he
    · exact ⟨s, _, hs, hm, .refl⟩
  | @tail b x _ hx ih =>
    rcases Explicit.mem_inner_iff.1 hx with he | hm
    · obtain ⟨a, m, ha, hm, hb⟩ := ih
      exact ⟨a, m, ha, hm, hb.tail he⟩
    · exact ⟨b, x, Index.isStruct_of_members_ne_nil (List.ne_nil_of_mem hm), hm, .refl⟩

namespace Table

def BuiltInMember (t : Table) (struct : Id) (member : Nat) : Prop :=
  ∃ d ∈ t.applied struct, d.member = some member ∧ d.kind = .builtIn

theorem memberHas_builtIn {rs : List Record} {struct : Id} {member : Nat} :
    (ofRecords rs).memberHas struct member .builtIn ↔
      (ofRecords rs).BuiltInMember struct member := memberHas_ofRecords

end Table

namespace BuiltInStruct

variable {m : Module} {ix : Index} {t : Table} {rs : List Record} {id : Id} {ms : List Operand}

theorem check_eq_ok : check ix t = .ok () ↔
    (∀ id ∈ t.targets, ¬ isMixed ix t id) ∧ ∀ s ∈ structs ix, nestedIn? ix t s = none := by
  rw [← List.find?_eq_none, ← List.findSome?_eq_none_iff, check]
  cases t.targets.find? (isMixed ix t) with
  | some id => simp [throw_eq_error, error_bind]
  | none =>
    cases (structs ix).findSome? (nestedIn? ix t) with
    | some f => simp [throw_eq_error]
    | none => simp [pure_eq_ok]

theorem not_isMixed (h : ix.type? id = some (.struct ms)) :
    ¬ isMixed ix t id ↔ (∀ k < ms.length, ¬ t.memberHas id k .builtIn) ∨
      ∀ k < ms.length, t.memberHas id k .builtIn := by
  have hnone : (builtInMembers t id ms.length).length = 0 ↔
      ∀ k < ms.length, ¬ t.memberHas id k .builtIn := by
    simp [builtInMembers]
  have hall : (builtInMembers t id ms.length).length = ms.length ↔
      ∀ k < ms.length, t.memberHas id k .builtIn := by
    have hlength := List.length_filter_eq_length_iff (l := List.range ms.length)
      (p := fun i => t.memberHas id i .builtIn)
    simpa [builtInMembers] using hlength
  rw [← hnone, ← hall]
  simp only [isMixed, memberCount?, h, Option.any_some, Bool.and_eq_true, decide_eq_true_eq, ne_eq]
  omega

theorem hasBuiltIns_iff (h : ix.type? id = some (.struct ms)) :
    hasBuiltIns ix t id ↔ ∃ k < ms.length, t.memberHas id k .builtIn := by
  simp [hasBuiltIns, memberCount?, h, builtInMembers]

theorem nestedIn?_eq_none {outer : Id} : nestedIn? ix t outer = none ↔
    ∀ v ∈ ix.members outer, ¬ hasBuiltIns ix t (ix.stripArrays v) := by
  have hmembers : ((ix.type? outer).map TypeView.memberIds).getD [] = ix.members outer := by
    unfold Index.members
    cases ix.type? outer <;> rfl
  simp [nestedIn?, hmembers]

theorem mem_structs (h : Index.ofModule m = .ok ix)
    (hglobals : ∀ i ∈ m.instructions, i.op = .opTypeStruct → i ∈ m.globals)
    (hs : (ix.type? id).any TypeView.isStruct) : id ∈ structs ix := by
  obtain ⟨ms, hv⟩ := Index.isStruct_iff.1 hs
  obtain ⟨l, hl, hop, _⟩ := Index.type?_eq_struct.1 hv
  obtain ⟨hstream, hresult⟩ := (Index.def?_eq_some_iff h).1 hl
  have hinst : l.inst ∈ m.instructions := by
    rw [← Located.scan_map_inst 0 none m.instructions]
    exact List.mem_map_of_mem hstream
  rw [structs, Index.module_eq h, List.mem_filterMap]
  exact ⟨l.inst, hglobals _ hinst hop, by rw [if_pos hop, hresult]⟩

/-- In a valid module a struct is all built-ins or has none, and one with built-ins is inside no
other struct, at whatever depth. -/
theorem alone_of_validate {o : Options} (h : m.validate o = .ok t)
    (hglobals : ∀ i ∈ m.instructions, i.op = .opTypeStruct → i ∈ m.globals) :
    ∃ ix, Index.ofModule m = .ok ix ∧
      (∀ s ms, ix.type? s = some (.struct ms) →
        (∀ k < ms.length, ¬ t.BuiltInMember s k) ∨ ∀ k < ms.length, t.BuiltInMember s k) ∧
      ∀ s x ms, (ix.type? s).any TypeView.isStruct → ix.Inside s x →
        ix.type? x = some (.struct ms) → ∀ k < ms.length, ¬ t.BuiltInMember x k := by
  obtain ⟨_, ix, hix, htable, haccepts⟩ := Module.validate_eq_ok.1 h
  obtain ⟨rs, _, rfl⟩ := Table.ofIndex_eq_ok.1 htable
  obtain ⟨hmixed, hnested⟩ := check_eq_ok.1 (mapError_eq_ok.1 haccepts.builtInStructs)
  refine ⟨ix, hix, ?_, ?_⟩
  · intro s ms hs
    simp only [← Table.memberHas_builtIn]
    by_cases htarget : s ∈ (Table.ofRecords rs).targets
    · exact (not_isMixed hs).1 (hmixed s htarget)
    · -- what is no target has no decorations at all
      rw [Table.mem_targets_ofRecords, Classical.not_not] at htarget
      refine .inl fun k _ hk => ?_
      obtain ⟨d, hd, _⟩ := Table.memberHas_builtIn.1 hk
      rw [htarget] at hd
      cases hd
  · intro s x ms hs hx hv k hk hbuiltIn
    obtain ⟨a, v, ha, hv', hstrips⟩ := Index.exists_last_struct hs hx
    have hnone := nestedIn?_eq_none.1 (hnested a (mem_structs hix hglobals ha)) v hv'
    rw [Index.stripArrays_eq hstrips (Index.element?_struct hv), hasBuiltIns_iff hv] at hnone
    exact hnone ⟨k, hk, Table.memberHas_builtIn.2 hbuiltIn⟩

def builtInModule : Module where
  annotations := [⟨.opMemberDecorate, none, none,
      [.id 4, .literal 0, .decoration .builtIn, .builtIn .position]⟩,
    .declaring .opDecorationGroup 1 [], .decorating 1 .builtIn [.builtIn .pointSize],
    ⟨.opGroupMemberDecorate, none, none, [.id 1, .id 4, .literal 1]⟩]
  globals := [.declaring .opTypeFloat 2 [.literal 32],
    .declaring .opTypeVector 3 [.id 2, .literal 4], .declaring .opTypeStruct 4 [.id 3, .id 2],
    .declaring .opTypeStruct 5 [.id 3], .declaring .opTypeStruct 6 [.id 5, .id 2]]

theorem alone_builtInModule :
    ∃ ix t, Index.ofModule builtInModule = .ok ix ∧ builtInModule.validate {} = .ok t ∧
      (∀ k < 2, t.BuiltInMember 4 k) ∧ (∀ k < 2, ¬ t.BuiltInMember 6 k) ∧ ¬ ix.Inside 6 4 := by
  have hrun : bothPass (builtInModule.context {}) (builtInModule.validate {}) (fun cx t =>
      decide (cx.index.type? 4 = some (.struct [.id 3, .id 2])) &&
      (decide (cx.index.type? 6 = some (.struct [.id 5, .id 2])) &&
      ((t.applied 4).any (fun d => decide (d.member = some 0 ∧ d.kind = .builtIn)) &&
      (t.applied 6).isEmpty))) = true := by
    decide +kernel
  obtain ⟨cx, t, hcx, ht, hq⟩ := exists_of_bothPass hrun
  obtain ⟨ix, _, hix, _, rfl⟩ := Module.context_eq_ok.1 hcx
  simp only [Bool.and_eq_true, decide_eq_true_eq, List.any_eq_true, List.isEmpty_iff] at hq
  obtain ⟨h4, h6, hbuiltIn, hbare⟩ := hq
  obtain ⟨ix', hix', hpure, halone⟩ := alone_of_validate ht (by decide)
  rw [hix] at hix'
  cases hix'
  have hall : ∀ k < 2, t.BuiltInMember 4 k :=
    (hpure 4 _ h4).resolve_left fun hnone => hnone 0 (by decide) hbuiltIn
  refine ⟨ix, t, hix, ht, hall, ?_, fun hinside => ?_⟩
  · rintro k _ ⟨d, hd, _⟩
    rw [hbare] at hd
    cases hd
  · exact halone 6 4 _ (Index.isStruct_iff.2 ⟨_, h6⟩) hinside h4 0 (by decide) (hall 0 (by decide))

end BuiltInStruct

end SpirvRules
