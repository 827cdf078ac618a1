import SpirvRules.Decoration.Section
import SpirvRules.Proofs.Decoration.Order
import SpirvRules.Proofs.Index.Definitions
import SpirvRules.Proofs.Recurrence
import SpirvRules.Proofs.Validation

/-!
# The table is the expanded section

An annotation either decorates a target on its own or puts a group on a list of targets. The table
of a section holds the first in their order, then every use of a group with all that fills it, also
where the group is filled later.
-/

set_option autoImplicit false

namespace SpirvRules

open Outcome

structure GroupUse where
  group : Id
  entries : List (Id × Option Nat)

namespace Decoration

def placed (d : Decoration) : Option Nat → Decoration
  | none => d
  | some n => d.onMember n

end Decoration

def GroupUse.recordsAt (ds : List Decoration) (es : List (Id × Option Nat)) : List Record :=
  es.flatMap fun e => ds.map fun d => (e.1, d.placed e.2)

namespace Instruction

def direct? (i : Instruction) : Option Record :=
  match i.op, i.operands with
  | .opDecorate, .id t :: .decoration kind :: params
  | .opDecorateId, .id t :: .decoration kind :: params
  | .opDecorateString, .id t :: .decoration kind :: params =>
    some (t, .ofOperands kind params none)
  | .opMemberDecorate, .id t :: .literal m :: .decoration kind :: params
  | .opMemberDecorateString, .id t :: .literal m :: .decoration kind :: params =>
    some (t, .ofOperands kind params (some m.toNat))
  | _, _ => none

def isDirect (i : Instruction) : Bool :=
  match i.op with
  | .opDecorate | .opDecorateId | .opDecorateString | .opMemberDecorate
  | .opMemberDecorateString => true
  | _ => false

def wholeEntries? : List Operand → Option (List (Id × Option Nat))
  | [] => some []
  | o :: rest => do return ((← o.anyId?), none) :: (← wholeEntries? rest)

def memberEntries? : List Operand → Option (List (Id × Option Nat))
  | [] => some []
  | .id t :: .literal m :: rest => do return (t, some m.toNat) :: (← memberEntries? rest)
  | _ => none

def groupUse? (i : Instruction) : Option GroupUse :=
  match i.op, i.operands with
  | .opGroupDecorate, .id g :: rest => (wholeEntries? rest).map (⟨g, ·⟩)
  | .opGroupMemberDecorate, .id g :: rest => (memberEntries? rest).map (⟨g, ·⟩)
  | _, _ => none

end Instruction

namespace Module

def directOn (m : Module) (id : Id) : List Decoration :=
  ((m.annotations.filterMap Instruction.direct?).filter (·.1 = id)).map (·.2)

def contents (m : Module) (g : Id) : List Decoration := Ordered.ofList (m.directOn g)

/-- What one use of a group puts on an id: all its contents for every entry that is the id. -/
def groupedOn (m : Module) (id : Id) (u : GroupUse) : List Decoration :=
  (u.entries.filter (·.1 = id)).flatMap fun e => (m.contents u.group).map (·.placed e.2)

structure ExpandsTo (m : Module) (t : Table) : Prop where
  /-- No annotation is skipped for its form. -/
  direct_isSome : ∀ i ∈ m.annotations, i.isDirect = true → (i.direct?).isSome = true
  groupUse_isSome : ∀ i ∈ m.annotations, Table.usesGroup i = true → (i.groupUse?).isSome = true
  contents_ascending : ∀ g, (m.contents g).Pairwise fun d e => compare d e = .lt
  mem_contents : ∀ g d, d ∈ m.contents g ↔ d ∈ m.directOn g
  applied : ∀ id, t.applied id =
    m.directOn id ++ (m.annotations.filterMap Instruction.groupUse?).flatMap (m.groupedOn id)
  mem_decorations : ∀ id d, d ∈ t.decorations id ↔ d ∈ t.applied id
  decorations_ascending : ∀ id, (t.decorations id).Pairwise fun d e => compare d e = .lt
  targets_ascending : t.targets.Pairwise (· < ·)
  mem_targets : ∀ id, id ∈ t.targets ↔ t.applied id ≠ []

end Module

namespace Table

variable {ix : Index} {i : Instruction} {direct t : Table} {ds : List Decoration}
variable {rs : List Record} {r : Option Record} {os : List Operand} {g id : Id} {m : Module}

theorem checkMember_eq_ok {op : Opcode} {member : Nat} :
    checkMember ix op id member = .ok () ↔
      ∃ members, ix.type? id = some (.struct members) ∧ member < members.length := by
  unfold checkMember
  split
  · rename_i members hm
    rw [hm]
    by_cases hlt : member < members.length <;> simp [hlt]
  · rename_i hno
    constructor
    · nofun
    · rintro ⟨members, hm, _⟩
      exact absurd hm (hno members)

/-- What an accepted instruction records: nothing, something on a whole target, or something on a
member the target has. -/
theorem directRecord_cases (h : directRecord ix i = .ok r) :
    i.isDirect = false ∧ i.direct? = none ∧ r = none ∨
    (∃ t kind params, i.direct? = r ∧ r = some (t, .ofOperands kind params none)) ∨
    ∃ t n kind params, i.direct? = r ∧ r = some (t, .ofOperands kind params (some n)) ∧
      checkMember ix i.op t n = .ok () := by
  obtain ⟨op, resultType, result, operands⟩ := i
  by_cases hd : (Instruction.mk op resultType result operands).isDirect = true
  · right
    cases op <;> simp only [Instruction.isDirect, Bool.false_eq_true] at hd
    case opDecorate | opDecorateId | opDecorateString =>
      simp only [directRecord] at h
      split at h
      · obtain ⟨_, _, hr⟩ := bind_eq_ok.1 h
        cases hr
        exact .inl ⟨_, _, _, rfl, rfl⟩
      · cases h
    case opMemberDecorate | opMemberDecorateString =>
      simp only [directRecord] at h
      split at h
      · obtain ⟨_, hmember, hr⟩ := bind_eq_ok.1 h
        obtain ⟨_, hstruct, _⟩ := bind_eq_ok.1 hmember
        cases hr
        exact .inr ⟨_, _, _, _, rfl, rfl, hstruct⟩
      · cases h
  · left
    cases op <;> first
      | exact absurd rfl hd
      | exact ⟨rfl, rfl, (Except.ok.inj h).symm⟩

theorem directRecord_eq_ok (h : directRecord ix i = .ok r) :
    r = i.direct? ∧ (i.isDirect = true → r.isSome = true) := by
  rcases directRecord_cases h with ⟨hd, hnone, rfl⟩ | ⟨_, _, _, hr, rfl⟩ |
    ⟨_, _, _, _, hr, rfl, _⟩
  · exact ⟨hnone.symm, fun hd' => absurd (hd.symm.trans hd') nofun⟩
  · exact ⟨hr.symm, fun _ => rfl⟩
  · exact ⟨hr.symm, fun _ => rfl⟩

theorem type?_of_directRecord {d : Decoration} (h : directRecord ix i = .ok (some (id, d)))
    (hd : d.member.isSome = true) : ∃ members, ix.type? id = some (.struct members) := by
  rcases directRecord_cases h with ⟨_, _, hr⟩ | ⟨_, _, _, _, hr⟩ | ⟨_, _, _, _, _, hr, hmember⟩
  · cases hr
  · cases hr
    cases hd
  · cases hr
    obtain ⟨members, htype, _⟩ := checkMember_eq_ok.1 hmember
    exact ⟨members, htype⟩

theorem mem_groups (h : Index.ofModule m = .ok ix) :
    g ∈ groups ix ↔ ∃ i ∈ m.annotations, i.op = .opDecorationGroup ∧ i.result = some g := by
  unfold groups
  rw [Index.module_eq h, List.mem_filterMap]
  constructor
  · rintro ⟨i, hi, hg⟩
    by_cases hop : i.op = .opDecorationGroup
    · rw [if_pos hop] at hg
      exact ⟨i, hi, hop, hg⟩
    · rw [if_neg hop] at hg
      cases hg
  · rintro ⟨i, hi, hop, hg⟩
    exact ⟨i, hi, by rw [if_pos hop, hg]⟩

/-- What defines a group is the instruction that declares it. -/
theorem exists_inst?_group (h : Index.ofModule m = .ok ix) (hg : g ∈ groups ix) :
    ∃ i, ix.inst? g = some i ∧ i.op = .opDecorationGroup := by
  obtain ⟨i, hi, hop, hr⟩ := (mem_groups h).1 hg
  have hin : i ∈ m.instructions := by
    simp only [Module.instructions, List.mem_append]
    exact .inl (.inl (.inr hi))
  exact ⟨i, Index.inst?_eq_some h hin hr, hop⟩

theorem type?_group (h : Index.ofModule m = .ok ix) (hg : g ∈ groups ix) : ix.type? g = none := by
  obtain ⟨i, hi, hop⟩ := exists_inst?_group h hg
  rw [Index.type?, hi, Option.bind_some, TypeView.ofInstruction?, hop]
  rfl

theorem mapM_directRecord {is : List Instruction} {os : List (Option Record)}
    (h : is.mapM (directRecord ix) = .ok os) :
    os = is.map Instruction.direct? ∧
      ∀ i ∈ is, directRecord ix i = .ok i.direct? ∧ (i.isDirect = true → i.direct?.isSome) := by
  have hall := (Rule.mapM_eq_ok _ _ _).1 h
  clear h
  induction hall with
  | nil => exact ⟨rfl, nofun⟩
  | cons hi _ ih =>
    obtain ⟨rfl, hsome⟩ := directRecord_eq_ok hi
    obtain ⟨rfl, hrest⟩ := ih
    exact ⟨rfl, List.forall_mem_cons.2 ⟨⟨hi, hsome⟩, hrest⟩⟩

theorem groupRecords_eq_ok (h : groupRecords ix ds os = .ok rs) :
    ∃ es, Instruction.wholeEntries? os = some es ∧ rs = GroupUse.recordsAt ds es := by
  obtain ⟨rss, hall, hrs⟩ := bind_eq_ok.1 h
  cases hrs
  replace hall := (Rule.mapM_eq_ok _ _ _).1 hall
  clear h
  induction hall with
  | nil => exact ⟨[], rfl, rfl⟩
  | @cons o here os rss ho _ ih =>
    obtain ⟨es, hes, hrest⟩ := ih
    cases hid : o.anyId? with
    | none =>
      rw [hid] at ho
      cases ho
    | some t =>
      simp only [hid] at ho
      obtain ⟨_, _, hhere⟩ := bind_eq_ok.1 ho
      cases hhere
      refine ⟨(t, none) :: es, ?_, ?_⟩
      · simp [Instruction.wholeEntries?, hid, hes]
      · rw [List.flatten_cons, hrest]
        rfl

theorem groupMemberRecords_eq_ok (hds : ∀ d ∈ ds, d.member = none)
    (h : groupMemberRecords ix ds os = .ok rs) :
    ∃ es, Instruction.memberEntries? os = some es ∧ rs = GroupUse.recordsAt ds es := by
  have hfilter : ds.filter (·.member.isNone) = ds := by
    apply List.filter_eq_self.2
    intro d hd
    rw [hds d hd]
    rfl
  fun_induction groupMemberRecords ix ds os generalizing rs with
  | case1 =>
    cases h
    exact ⟨[], rfl, rfl⟩
  | case2 t n rest ih =>
    obtain ⟨_, _, h⟩ := bind_eq_ok.1 h
    obtain ⟨_, _, h⟩ := bind_eq_ok.1 h
    obtain ⟨tail, htail, h⟩ := bind_eq_ok.1 h
    cases h
    obtain ⟨es, hes, hrest⟩ := ih htail
    refine ⟨(t, some n.toNat) :: es, ?_, ?_⟩
    · simp [Instruction.memberEntries?, hes]
    · rw [hrest, hfilter]
      rfl
  | case3 => cases h

/-- A use of a group that is accepted names a group, and puts it on whole ids or on members. -/
theorem expand_cases (h : expand ix direct i = .ok rs) :
    ∃ g rest, i.operands = .id g :: rest ∧ g ∈ groups ix ∧
      (i.op = .opGroupDecorate ∧ groupRecords ix (direct.decorations g) rest = .ok rs ∨
        i.op ≠ .opGroupDecorate ∧
          groupMemberRecords ix (direct.decorations g) rest = .ok rs) := by
  unfold expand at h
  split at h
  · next g rest hoperands =>
    refine ⟨g, rest, hoperands, ?_⟩
    by_cases hg : g ∈ groups ix
    · rw [if_neg (not_not_intro hg)] at h
      refine ⟨hg, ?_⟩
      by_cases hop : i.op = .opGroupDecorate
      · rw [if_pos hop] at h
        exact .inl ⟨hop, h⟩
      · rw [if_neg hop] at h
        by_cases hodd : rest.length % 2 = 1
        · rw [if_pos hodd] at h
          cases h
        · rw [if_neg hodd] at h
          exact .inr ⟨hop, h⟩
    · rw [if_pos hg] at h
      cases h
  · cases h

theorem expand_eq_ok (hds : ∀ g ∈ groups ix, ∀ d ∈ direct.decorations g, d.member = none)
    (hi : usesGroup i = true) (h : expand ix direct i = .ok rs) :
    ∃ u, i.groupUse? = some u ∧ rs = GroupUse.recordsAt (direct.decorations u.group) u.entries := by
  obtain ⟨g, rest, hoperands, hg, ⟨hop, h⟩ | ⟨hop, h⟩⟩ := expand_cases h
  · obtain ⟨es, hes, hrs⟩ := groupRecords_eq_ok h
    exact ⟨⟨g, es⟩, by simp [Instruction.groupUse?, hop, hoperands, hes], hrs⟩
  · have hmember : i.op = .opGroupMemberDecorate := by simpa [usesGroup, hop] using hi
    obtain ⟨es, hes, hrs⟩ := groupMemberRecords_eq_ok (hds g hg) h
    exact ⟨⟨g, es⟩, by simp [Instruction.groupUse?, hmember, hoperands, hes], hrs⟩

theorem records_eq_ok :
    records ix = .ok rs ↔ ∃ os rss, ix.module.annotations.mapM (directRecord ix) = .ok os ∧
      (ix.module.annotations.filter usesGroup).mapM (expand ix (ofRecords (os.filterMap (·)))) =
        .ok rss ∧
      misusedGroup? ix = none ∧ rs = os.filterMap (·) ++ rss.flatten := by
  unfold records
  rw [bind_eq_ok]
  constructor
  · rintro ⟨os, hos, h⟩
    obtain ⟨rss, hrss, h⟩ := bind_eq_ok.1 h
    cases hmisused : misusedGroup? ix with
    | some g =>
      rw [hmisused] at h
      cases h
    | none =>
      rw [hmisused] at h
      exact ⟨os, rss, hos, hrss, rfl, (Except.ok.inj h).symm⟩
  · rintro ⟨os, rss, hos, hrss, hmisused, rfl⟩
    refine ⟨os, hos, bind_eq_ok.2 ⟨rss, hrss, ?_⟩⟩
    rw [hmisused]
    rfl

theorem ofIndex_eq_ok : ofIndex ix = .ok t ↔ ∃ rs, records ix = .ok rs ∧ t = ofRecords rs := by
  unfold ofIndex
  rw [bind_eq_ok]
  constructor
  · rintro ⟨rs, hrs, h⟩
    cases h
    exact ⟨rs, hrs, rfl⟩
  · rintro ⟨rs, hrs, rfl⟩
    exact ⟨rs, hrs, rfl⟩

theorem decorations_direct (m : Module) (g : Id) :
    (ofRecords (m.annotations.filterMap Instruction.direct?)).decorations g = m.contents g := by
  rw [decorations_ofRecords, applied_ofRecords]
  rfl

/-- A group holds nothing for members: those are for structs. -/
theorem member_eq_none_of_group (h : Index.ofModule m = .ok ix)
    (hdirect : ∀ i ∈ m.annotations, directRecord ix i = .ok i.direct?) (hg : g ∈ groups ix)
    {d : Decoration} (hd : d ∈ m.contents g) : d.member = none := by
  have hd := (Ordered.mem_ofList d _).1 hd
  rw [Module.directOn, ← applied_ofRecords, mem_applied_ofRecords, List.mem_filterMap] at hd
  obtain ⟨i, hi, hrecord⟩ := hd
  have hok := hdirect i hi
  rw [hrecord] at hok
  by_cases hmember : d.member.isSome = true
  · obtain ⟨members, htype⟩ := type?_of_directRecord hok hmember
    rw [type?_group h hg] at htype
    cases htype
  · exact Option.not_isSome_iff_eq_none.1 hmember

theorem usesGroup_of_groupUse? {u : GroupUse} (h : i.groupUse? = some u) : usesGroup i = true := by
  obtain ⟨op, resultType, result, operands⟩ := i
  cases op <;> first
    | rfl
    | cases h

theorem mapM_expand {is : List Instruction} {rss : List (List Record)}
    (hds : ∀ g ∈ groups ix, ∀ d ∈ direct.decorations g, d.member = none)
    (h : (is.filter usesGroup).mapM (expand ix direct) = .ok rss) :
    rss.flatten = (is.filterMap Instruction.groupUse?).flatMap (fun u =>
        GroupUse.recordsAt (direct.decorations u.group) u.entries) ∧
      ∀ i ∈ is, usesGroup i = true → i.groupUse?.isSome = true := by
  induction is generalizing rss with
  | nil =>
    cases h
    exact ⟨rfl, nofun⟩
  | cons i is ih =>
    by_cases hi : usesGroup i = true
    · rw [List.filter_cons_of_pos hi, List.mapM_cons] at h
      obtain ⟨here, hhere, h⟩ := bind_eq_ok.1 h
      obtain ⟨rest, hrest, h⟩ := bind_eq_ok.1 h
      cases h
      obtain ⟨u, hu, hrs⟩ := expand_eq_ok hds hi hhere
      obtain ⟨hflat, hsome⟩ := ih hrest
      constructor
      · rw [List.flatten_cons, List.filterMap_cons_some hu, List.flatMap_cons, hflat, hrs]
      · rw [List.forall_mem_cons]
        exact ⟨fun _ => by rw [hu]; rfl, hsome⟩
    · rw [List.filter_cons_of_neg hi] at h
      obtain ⟨hflat, hsome⟩ := ih h
      have hnone : i.groupUse? = none := by
        rw [Option.eq_none_iff_forall_ne_some]
        intro u hu
        exact hi (usesGroup_of_groupUse? hu)
      rw [List.filterMap_cons_none hnone, List.forall_mem_cons]
      exact ⟨hflat, fun hi' => absurd hi' hi, hsome⟩

theorem records_eq (h : Index.ofModule m = .ok ix) (hrs : records ix = .ok rs) :
    rs = m.annotations.filterMap Instruction.direct? ++
        (m.annotations.filterMap Instruction.groupUse?).flatMap (fun u =>
          GroupUse.recordsAt (m.contents u.group) u.entries) ∧
      (∀ i ∈ m.annotations, i.isDirect = true → i.direct?.isSome = true) ∧
      ∀ i ∈ m.annotations, usesGroup i = true → i.groupUse?.isSome = true := by
  obtain ⟨os, rss, hos, hrss, _, rfl⟩ := records_eq_ok.1 hrs
  rw [Index.module_eq h] at hos hrss
  obtain ⟨rfl, hdirect⟩ := mapM_directRecord hos
  have hmap : (m.annotations.map Instruction.direct?).filterMap (·) =
      m.annotations.filterMap Instruction.direct? := by
    rw [List.filterMap_map]
    rfl
  rw [hmap] at hrss ⊢
  have hobject : ∀ g ∈ groups ix,
      ∀ d ∈ (ofRecords (m.annotations.filterMap Instruction.direct?)).decorations g,
        d.member = none := by
    intro g hg d hd
    rw [decorations_direct] at hd
    exact member_eq_none_of_group h (fun i hi => (hdirect i hi).1) hg hd
  obtain ⟨hflat, hsome⟩ := mapM_expand hobject hrss
  simp only [decorations_direct] at hflat
  rw [hflat]
  exact ⟨rfl, fun i hi => (hdirect i hi).2, hsome⟩

theorem recordsAt_on (es : List (Id × Option Nat)) :
    ((GroupUse.recordsAt ds es).filter (·.1 = id)).map (·.2) =
      (es.filter (·.1 = id)).flatMap fun e => ds.map (·.placed e.2) := by
  induction es with
  | nil => rfl
  | cons e es ih =>
    have hcons : GroupUse.recordsAt ds (e :: es) =
        (ds.map fun d => (e.1, d.placed e.2)) ++ GroupUse.recordsAt ds es := List.flatMap_cons
    rw [hcons, List.filter_append, List.map_append, ih, List.filter_map, List.map_map]
    by_cases he : e.1 = id <;> simp [Function.comp_def, he]

/-- The table built from a module is its annotation section with the groups expanded. -/
theorem expandsTo_of_ofIndex (h : Index.ofModule m = .ok ix) (ht : ofIndex ix = .ok t) :
    m.ExpandsTo t := by
  obtain ⟨rs, hrs, rfl⟩ := ofIndex_eq_ok.1 ht
  obtain ⟨hrs, hdirect, hgroup⟩ := records_eq h hrs
  exact {
    direct_isSome := hdirect
    groupUse_isSome := hgroup
    contents_ascending := fun g => Ordered.pairwise_ofList _
    mem_contents := fun g d => Ordered.mem_ofList d _
    applied := by
      intro id
      rw [applied_ofRecords, hrs, List.filter_append, List.map_append, List.filter_flatMap,
        List.map_flatMap]
      simp only [recordsAt_on]
      rfl
    mem_decorations := mem_decorations_ofRecords rs
    decorations_ascending := decorations_ascending rs
    targets_ascending := targets_ascending _
    mem_targets := mem_targets_ofRecords rs }

def groupedModule : Module where
  annotations := [⟨.opGroupDecorate, none, none, [.id 1, .id 2, .id 2]⟩,
    ⟨.opGroupMemberDecorate, none, none, [.id 1, .id 3, .literal 1]⟩,
    .decorating 1 .nonWritable [], .declaring .opDecorationGroup 1 [],
    .decorating 2 .coherent [], .decorating 1 .restrict [], .decorating 1 .nonWritable []]
  globals := [.declaring .opTypeFloat 2 [.literal 32], .declaring .opTypeStruct 3 [.id 2, .id 2]]

theorem expandsTo_groupedModule :
    ∃ ix t, Index.ofModule groupedModule = .ok ix ∧ ofIndex ix = .ok t ∧
      groupedModule.ExpandsTo t ∧
      t.applied 2 = [⟨.coherent, [], none⟩, ⟨.restrict, [], none⟩, ⟨.nonWritable, [], none⟩,
        ⟨.restrict, [], none⟩, ⟨.nonWritable, [], none⟩] ∧
      t.applied 3 = [⟨.restrict, [], some 1⟩, ⟨.nonWritable, [], some 1⟩] := by
  have hrun : (groupedModule.context {}).toOption.any (fun cx =>
      decide (cx.table.applied 2 = [⟨.coherent, [], none⟩, ⟨.restrict, [], none⟩,
          ⟨.nonWritable, [], none⟩, ⟨.restrict, [], none⟩, ⟨.nonWritable, [], none⟩] ∧
        cx.table.applied 3 = [⟨.restrict, [], some 1⟩, ⟨.nonWritable, [], some 1⟩])) = true := by
    decide +kernel
  obtain ⟨cx, hcx, hq⟩ := exists_of_any hrun
  obtain ⟨ix, t, hix, ht, rfl⟩ := Module.context_eq_ok.1 hcx
  exact ⟨ix, t, hix, ht, expandsTo_of_ofIndex hix ht, of_decide_eq_true hq⟩

end Table

end SpirvRules
