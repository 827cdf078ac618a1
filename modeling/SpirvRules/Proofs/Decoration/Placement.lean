import SpirvRules.Proofs.Decoration.Expansion

/-!
# Where decorations end up

What an accepted annotation puts on a target suits the target: the target is defined, the member it
names is there, and ids among the parameters are defined before it. Groups pass on what fills them,
so a kind may come to a place that no instruction of its own could have put it on.
-/

set_option autoImplicit false

namespace SpirvRules

open Outcome

namespace DecorationKind

variable {k : DecorationKind}

theorem takesIds_of_takesStrings (h : k.takesStrings = true) : k.takesIds = false := by
  cases k <;> first
    | rfl
    | cases h

theorem onlyOnMembers_of_takesStrings (h : k.takesStrings = true) : k.onlyOnMembers = false := by
  cases k <;> first
    | rfl
    | cases h

theorem onlyOnMembers_of_takesIds (h : k.takesIds = true) : k.onlyOnMembers = false := by
  cases k <;> first
    | rfl
    | cases h

theorem neverOnMembers_of_takesIds (h : k.takesIds = true) : k.neverOnMembers = true := by
  cases k <;> first
    | rfl
    | cases h

end DecorationKind

namespace Module

def Defines (m : Module) (id : Id) (l : Located) : Prop := l ∈ m.stream ∧ l.inst.result = some id

end Module

namespace Decoration

/-- A decoration suits the target that `l` defines: the member it names is one of a struct, and ids
among its parameters come with whole targets, no groups, and are defined before the target. -/
structure Suits (d : Decoration) (m : Module) (l : Located) : Prop where
  member : ∀ n, d.member = some n → l.inst.op = .opTypeStruct ∧ n < l.inst.operands.length
  ids : d.kind.takesIds = true → d.member = none ∧ l.inst.op ≠ .opDecorationGroup ∧
    ∀ p, .id p ∈ d.params → ∃ k, m.Defines p k ∧ k.position < l.position

/-- Kinds for members only are on members, and kinds that are never on members are not. -/
def isInPlace (d : Decoration) : Bool :=
  match d.member with
  | none => !d.kind.onlyOnMembers
  | some _ => !d.kind.neverOnMembers

end Decoration

namespace Table

variable {m : Module} {ix : Index} {t direct : Table} {i : Instruction} {id : Id} {d : Decoration}
variable {kind : DecorationKind} {params : List Operand}

/-- What a single instruction may put on a target, by the rules of its kind. -/
inductive Admitted (ix : Index) (l : Located) : Decoration → Prop
  | plain {kind : DecorationKind} {params : List DecorationParam} :
      kind.takesIds = false →
      (l.inst.op ≠ .opDecorationGroup → kind.onlyOnMembers = false) →
      Admitted ix l ⟨kind, params, none⟩
  | ids {kind : DecorationKind} {params : List Operand} :
      l.inst.op ≠ .opDecorationGroup → kind.takesIds = true →
      (∀ p ∈ params.filterMap Operand.anyId?, ∃ k, ix.def? p = some k ∧
        k.position < l.position) →
      Admitted ix l (.ofOperands kind params none)
  | strings {kind : DecorationKind} {params : List DecorationParam} :
      kind.takesStrings = true → Admitted ix l ⟨kind, params, none⟩
  | member {kind : DecorationKind} {params : List DecorationParam} {n : Nat} :
      l.inst.op = .opTypeStruct → n < l.inst.operands.length → kind.neverOnMembers = false →
      Admitted ix l ⟨kind, params, some n⟩

theorem target_eq_ok {op : Opcode} {l : Located} :
    target ix op id = .ok l ↔ ix.def? id = some l := by
  unfold target
  cases ix.def? id <;> simp

theorem value_eq_ok {op : Opcode} {l : Located} :
    value ix op id = .ok l ↔ ix.def? id = some l ∧ l.inst.op ≠ .opDecorationGroup := by
  unfold value
  rw [bind_eq_ok]
  constructor
  · rintro ⟨k, hk, h⟩
    by_cases hop : k.inst.op = .opDecorationGroup
    · rw [if_pos hop] at h
      cases h
    · rw [if_neg hop] at h
      cases h
      exact ⟨target_eq_ok.1 hk, hop⟩
  · rintro ⟨hl, hop⟩
    refine ⟨l, target_eq_ok.2 hl, ?_⟩
    rw [if_neg hop]
    rfl

theorem checkMember_def {op : Opcode} {n : Nat} (h : checkMember ix op id n = .ok ()) :
    ∃ l, ix.def? id = some l ∧ l.inst.op = .opTypeStruct ∧ n < l.inst.operands.length := by
  obtain ⟨ms, hms, hn⟩ := checkMember_eq_ok.1 h
  obtain ⟨l, hl, hop, rfl⟩ := Index.type?_eq_struct.1 hms
  exact ⟨l, hl, hop, hn⟩

theorem checkIdParam_eq_ok {l : Located} {p : Id} :
    checkIdParam ix l id p = .ok () ↔ ∃ k, ix.def? p = some k ∧ k.position < l.position := by
  unfold checkIdParam
  cases hp : ix.def? p with
  | none => simp
  | some k => by_cases hlt : k.position < l.position <;> simp [hlt]

theorem decorate_eq_ok : decorate ix id kind = .ok () ↔
    ∃ l, ix.def? id = some l ∧ kind.takesIds = false ∧
      (l.inst.op ≠ .opDecorationGroup → kind.onlyOnMembers = false) := by
  unfold decorate
  rw [bind_eq_ok]
  apply exists_congr
  intro l
  rw [target_eq_ok]
  apply and_congr_right
  intro _
  cases kind.takesIds <;> cases kind.onlyOnMembers <;>
    by_cases hop : l.inst.op = .opDecorationGroup <;>
    simp [hop, throw_eq_error, pure_eq_ok, error_bind]

theorem decorateId_eq_ok : decorateId ix id kind params = .ok () ↔
    ∃ l, (ix.def? id = some l ∧ l.inst.op ≠ .opDecorationGroup) ∧ kind.takesIds = true ∧
      ∀ p ∈ params.filterMap Operand.anyId?, ∃ k, ix.def? p = some k ∧
        k.position < l.position := by
  unfold decorateId
  rw [bind_eq_ok]
  apply exists_congr
  intro l
  rw [value_eq_ok]
  apply and_congr_right
  intro _
  cases kind.takesIds
  · simp [throw_eq_error, error_bind]
  · have hparam : ∀ p, (∃ k, ix.def? p = some k ∧ k.position < l.position) ↔
        checkIdParam ix l id p = .ok () := fun _ => checkIdParam_eq_ok.symm
    simp only [hparam, ← forM_eq_ok]
    simp

theorem decorateString_eq_ok : decorateString ix id kind = .ok () ↔
    (∃ l, ix.def? id = some l ∧ l.inst.op ≠ .opDecorationGroup) ∧ kind.takesStrings = true := by
  unfold decorateString
  rw [bind_eq_ok, ← exists_and_right]
  apply exists_congr
  intro l
  rw [value_eq_ok]
  apply and_congr_right
  intro _
  cases kind.takesStrings <;> simp [throw_eq_error, pure_eq_ok]

theorem decorateMember_eq_ok {op : Opcode} {n : Nat} :
    decorateMember ix op id n kind = .ok () ↔ checkMember ix op id n = .ok () ∧
      kind.neverOnMembers = false ∧ (op = .opMemberDecorateString → kind.takesStrings = true) := by
  unfold decorateMember
  rw [bind_eq_ok]
  constructor
  · rintro ⟨_, hmember, h⟩
    refine ⟨hmember, ?_⟩
    revert h
    cases kind.neverOnMembers <;> cases kind.takesStrings <;>
      by_cases hop : op = .opMemberDecorateString <;>
      simp [hop, throw_eq_error, pure_eq_ok, error_bind]
  · rintro ⟨hmember, hnever, hstrings⟩
    refine ⟨(), hmember, ?_⟩
    by_cases hop : op = .opMemberDecorateString
    · simp [hnever, hstrings hop, pure_eq_ok]
    · simp [hnever, hop, pure_eq_ok]

theorem admitted_of_directRecord (h : directRecord ix i = .ok (some (id, d))) :
    ∃ l, ix.def? id = some l ∧ Admitted ix l d := by
  obtain ⟨op, resultType, result, operands⟩ := i
  cases op <;> simp only [directRecord] at h
  case opDecorate =>
    split at h
    · obtain ⟨_, hcheck, h⟩ := bind_eq_ok.1 h
      cases h
      obtain ⟨l, hl, hids, hplace⟩ := decorate_eq_ok.1 hcheck
      exact ⟨l, hl, .plain hids hplace⟩
    · cases h
  case opDecorateId =>
    split at h
    · obtain ⟨_, hcheck, h⟩ := bind_eq_ok.1 h
      cases h
      obtain ⟨l, ⟨hl, hop⟩, hids, hparams⟩ := decorateId_eq_ok.1 hcheck
      exact ⟨l, hl, .ids hop hids hparams⟩
    · cases h
  case opDecorateString =>
    split at h
    · obtain ⟨_, hcheck, h⟩ := bind_eq_ok.1 h
      cases h
      obtain ⟨⟨l, hl, _⟩, hstrings⟩ := decorateString_eq_ok.1 hcheck
      exact ⟨l, hl, .strings hstrings⟩
    · cases h
  case opMemberDecorate | opMemberDecorateString =>
    split at h
    · obtain ⟨_, hcheck, h⟩ := bind_eq_ok.1 h
      cases h
      obtain ⟨hmember, hnever, _⟩ := decorateMember_eq_ok.1 hcheck
      obtain ⟨l, hl, hop, hn⟩ := checkMember_def hmember
      exact ⟨l, hl, .member hop hn hnever⟩
    · cases h
  all_goals cases h

namespace Admitted

variable {l : Located}

theorem suits (h : Index.ofModule m = .ok ix) (hd : Admitted ix l d) : d.Suits m l := by
  cases hd with
  | plain hids _ => exact ⟨nofun, fun h => absurd (hids.symm.trans h) nofun⟩
  | strings hstrings =>
    have hids := DecorationKind.takesIds_of_takesStrings hstrings
    exact ⟨nofun, fun h => absurd (hids.symm.trans h) nofun⟩
  | member hop hn hnever =>
    constructor
    · intro k hk
      cases hk
      exact ⟨hop, hn⟩
    · intro hids
      exact absurd (hnever.symm.trans (DecorationKind.neverOnMembers_of_takesIds hids)) nofun
  | @ids kind params hop _ hparams =>
    refine ⟨nofun, fun _ => ⟨rfl, hop, fun p hp => ?_⟩⟩
    obtain ⟨o, ho, hid⟩ := List.mem_map.1 hp
    have hany : o.anyId? = some p := by
      cases o <;> cases hid <;> rfl
    obtain ⟨k, hk, hlt⟩ := hparams p (List.mem_filterMap.2 ⟨o, ho, hany⟩)
    exact ⟨k, (Index.def?_eq_some_iff h).1 hk, hlt⟩

/-- Away from groups, no instruction puts a kind out of place. -/
theorem isInPlace (hd : Admitted ix l d) (hop : l.inst.op ≠ .opDecorationGroup) :
    d.isInPlace = true := by
  cases hd with
  | plain _ hplace => simp [Decoration.isInPlace, hplace hop]
  | ids _ hids _ =>
    simp [Decoration.isInPlace, Decoration.ofOperands,
      DecorationKind.onlyOnMembers_of_takesIds hids]
  | strings hstrings =>
    simp [Decoration.isInPlace, DecorationKind.onlyOnMembers_of_takesStrings hstrings]
  | member _ _ hnever => simp [Decoration.isInPlace, hnever]

end Admitted

/-- A target that a group may be put on, with the member named, if one is. -/
def Receives (ix : Index) (e : Id × Option Nat) : Prop :=
  ∃ l, ix.def? e.1 = some l ∧ l.inst.op ≠ .opDecorationGroup ∧
    ∀ n, e.2 = some n → l.inst.op = .opTypeStruct ∧ n < l.inst.operands.length

theorem receives_of_groupRecords {ds : List Decoration} {os : List Operand} {rs : List Record}
    {es : List (Id × Option Nat)} (h : groupRecords ix ds os = .ok rs)
    (hes : Instruction.wholeEntries? os = some es) : ∀ e ∈ es, Receives ix e := by
  obtain ⟨rss, hall, -⟩ := bind_eq_ok.1 h
  replace hall := (Rule.mapM_eq_ok _ _ _).1 hall
  clear h
  induction hall generalizing es with
  | nil =>
    cases hes
    exact List.forall_mem_nil _
  | @cons o here os rss ho _ ih =>
    simp only [Instruction.wholeEntries?, Option.bind_eq_bind, Option.bind_eq_some_iff,
      Option.pure_def, Option.some.injEq] at hes
    obtain ⟨id, hid, rest, hrest, rfl⟩ := hes
    rw [List.forall_mem_cons]
    refine ⟨?_, ih hrest⟩
    simp only [hid] at ho
    obtain ⟨l, hl, _⟩ := bind_eq_ok.1 ho
    obtain ⟨hl, hop⟩ := value_eq_ok.1 hl
    refine ⟨l, hl, hop, fun n hn => ?_⟩
    cases hn

theorem receives_of_groupMemberRecords {ds : List Decoration} {os : List Operand}
    {rs : List Record} {es : List (Id × Option Nat)} (h : groupMemberRecords ix ds os = .ok rs)
    (hes : Instruction.memberEntries? os = some es) : ∀ e ∈ es, Receives ix e := by
  fun_induction groupMemberRecords ix ds os generalizing rs es with
  | case1 =>
    cases hes
    exact List.forall_mem_nil _
  | case2 id n rest ih =>
    obtain ⟨_, _, h⟩ := bind_eq_ok.1 h
    obtain ⟨_, hmember, h⟩ := bind_eq_ok.1 h
    obtain ⟨tail, htail, _⟩ := bind_eq_ok.1 h
    simp only [Instruction.memberEntries?, Option.bind_eq_bind, Option.bind_eq_some_iff,
      Option.pure_def, Option.some.injEq] at hes
    obtain ⟨es, hrest, rfl⟩ := hes
    rw [List.forall_mem_cons]
    refine ⟨?_, ih htail hrest⟩
    obtain ⟨l, hl, hop, hn⟩ := checkMember_def hmember
    refine ⟨l, hl, fun hgroup => ?_, fun k hk => ?_⟩
    · cases hop.symm.trans hgroup
    · cases hk
      exact ⟨hop, hn⟩
  | case3 => cases h

/-- Where an accepted instruction puts a group, the group may be put. -/
theorem receives_of_expand {rs : List Record} {u : GroupUse} (h : expand ix direct i = .ok rs)
    (hu : i.groupUse? = some u) : u.group ∈ groups ix ∧ ∀ e ∈ u.entries, Receives ix e := by
  obtain ⟨g, rest, hoperands, hg, ⟨hop, h⟩ | ⟨hop, h⟩⟩ := expand_cases h
  · rw [Instruction.groupUse?, hop, hoperands] at hu
    obtain ⟨es, hes, rfl⟩ := Option.map_eq_some_iff.1 hu
    exact ⟨hg, receives_of_groupRecords h hes⟩
  · have huses := usesGroup_of_groupUse? hu
    have hmember : i.op = .opGroupMemberDecorate := by simpa [usesGroup, hop] using huses
    rw [Instruction.groupUse?, hmember, hoperands] at hu
    obtain ⟨es, hes, rfl⟩ := Option.map_eq_some_iff.1 hu
    exact ⟨hg, receives_of_groupMemberRecords h hes⟩

theorem mem_decorations_iff (ht : ofIndex ix = .ok t) :
    d ∈ t.decorations id ↔ d ∈ t.applied id := by
  obtain ⟨rs, _, rfl⟩ := ofIndex_eq_ok.1 ht
  exact mem_decorations_ofRecords rs id d

section Built

variable (h : Index.ofModule m = .ok ix) (ht : ofIndex ix = .ok t)

include h ht

theorem accepted_of_ofIndex :
    (∀ i ∈ m.annotations, directRecord ix i = .ok i.direct?) ∧
      ∀ i ∈ m.annotations, usesGroup i = true → ∃ direct rs, expand ix direct i = .ok rs := by
  obtain ⟨rs, hrs, rfl⟩ := ofIndex_eq_ok.1 ht
  obtain ⟨os, rss, hos, hrss, _⟩ := records_eq_ok.1 hrs
  rw [Index.module_eq h] at hos hrss
  obtain ⟨_, hdirect⟩ := mapM_directRecord hos
  refine ⟨fun i hi => (hdirect i hi).1, fun i hi huses => ?_⟩
  have hmem : i ∈ m.annotations.filter usesGroup := List.mem_filter.2 ⟨hi, huses⟩
  exact ⟨_, exists_mapM_iff.1 ⟨rss, hrss⟩ i hmem⟩

theorem admitted_of_directOn (hd : d ∈ m.directOn id) :
    ∃ l, ix.def? id = some l ∧ Admitted ix l d := by
  rw [Module.directOn, ← applied_ofRecords, mem_applied_ofRecords, List.mem_filterMap] at hd
  obtain ⟨i, hi, hrecord⟩ := hd
  have hok := (accepted_of_ofIndex h ht).1 i hi
  rw [hrecord] at hok
  exact admitted_of_directRecord hok

theorem receives_of_groupUse {u : GroupUse}
    (hu : u ∈ m.annotations.filterMap Instruction.groupUse?) :
    u.group ∈ groups ix ∧ ∀ e ∈ u.entries, Receives ix e := by
  obtain ⟨i, hi, hu⟩ := List.mem_filterMap.1 hu
  obtain ⟨direct, rs, hrs⟩ := (accepted_of_ofIndex h ht).2 i hi (usesGroup_of_groupUse? hu)
  exact receives_of_expand hrs hu

/-- A decoration is applied to an id directly, or by a use of a group filled with it. -/
theorem mem_applied_iff : d ∈ t.applied id ↔ d ∈ m.directOn id ∨
    ∃ u ∈ m.annotations.filterMap Instruction.groupUse?, ∃ e ∈ u.entries, e.1 = id ∧
      ∃ c ∈ m.directOn u.group, c.placed e.2 = d := by
  obtain ⟨rs, hrs, rfl⟩ := ofIndex_eq_ok.1 ht
  rw [mem_applied_ofRecords, (records_eq h hrs).1, List.mem_append, Module.directOn,
    ← applied_ofRecords, mem_applied_ofRecords, List.mem_flatMap]
  simp only [GroupUse.recordsAt, List.mem_flatMap, List.mem_map, Prod.mk.injEq, Module.contents,
    Ordered.mem_ofList]
  constructor
  · rintro (hd | ⟨u, hu, e, he, c, hc, hid, hd⟩)
    · exact .inl hd
    · exact .inr ⟨u, hu, e, he, hid, c, hc, hd⟩
  · rintro (hd | ⟨u, hu, e, he, hid, c, hc, hd⟩)
    · exact .inl hd
    · exact .inr ⟨u, hu, e, he, c, hc, hid, hd⟩

theorem plain_of_group {g : Id} (hg : g ∈ groups ix) (hd : d ∈ m.directOn g) :
    d.member = none ∧ d.kind.takesIds = false := by
  obtain ⟨l, hl, hd⟩ := admitted_of_directOn h ht hd
  have hop : l.inst.op = .opDecorationGroup := by
    obtain ⟨i, hinst, hop⟩ := exists_inst?_group h hg
    rw [Index.inst?, hl, Option.map_some, Option.some.injEq] at hinst
    rw [hinst, hop]
  have hsuits := hd.suits h
  constructor
  · rw [Option.eq_none_iff_forall_ne_some]
    intro n hn
    cases (hsuits.member n hn).1.symm.trans hop
  · rw [Bool.eq_false_iff]
    intro hids
    exact (hsuits.ids hids).2.1 hop

theorem exists_suited (hd : d ∈ t.applied id) : ∃ l, ix.def? id = some l ∧ d.Suits m l := by
  rcases (mem_applied_iff h ht).1 hd with hd | ⟨u, hu, e, he, rfl, c, hc, rfl⟩
  · obtain ⟨l, hl, hd⟩ := admitted_of_directOn h ht hd
    exact ⟨l, hl, hd.suits h⟩
  · obtain ⟨hg, hreceives⟩ := receives_of_groupUse h ht hu
    obtain ⟨l, hl, hop, hmember⟩ := hreceives e he
    obtain ⟨hnone, hids⟩ := plain_of_group h ht hg hc
    have hkind : (c.placed e.2).kind = c.kind := by
      cases e.2 <;> rfl
    have hplace : (c.placed e.2).member = e.2 := by
      cases he : e.2 with
      | none => exact hnone
      | some n => rfl
    refine ⟨l, hl, fun n hn => ?_, fun htakes => ?_⟩
    · exact hmember n (hplace.symm.trans hn)
    · rw [hkind, hids] at htakes
      cases htakes

end Built

/-- Every decoration of a built table suits the one instruction that defines its target. -/
theorem suits_of_ofIndex (h : Index.ofModule m = .ok ix) (ht : ofIndex ix = .ok t) :
    ∀ id, ∀ d ∈ t.applied id, ∃ l, m.Defines id l ∧ d.Suits m l := by
  intro id d hd
  obtain ⟨l, hl, hsuits⟩ := exists_suited h ht hd
  exact ⟨l, (Index.def?_eq_some_iff h).1 hl, hsuits⟩

def scopedModule : Module where
  annotations := [.declaring .opDecorationGroup 1 [], .decorating 1 .nonWritable [],
    ⟨.opDecorateId, none, none, [.id 4, .decoration .uniformId, .scopeId 3]⟩,
    ⟨.opMemberDecorate, none, none, [.id 4, .literal 0, .decoration .coherent]⟩,
    ⟨.opGroupDecorate, none, none, [.id 1, .id 4]⟩,
    ⟨.opGroupMemberDecorate, none, none, [.id 1, .id 4, .literal 1]⟩]
  globals := [.declaring .opTypeInt 2 [.literal 32, .literal 0],
    ⟨.opConstant, some 2, some 3, [.literal 1]⟩, .declaring .opTypeStruct 4 [.id 2, .id 2]]

theorem suits_scopedModule :
    ∃ ix t, Index.ofModule scopedModule = .ok ix ∧ ofIndex ix = .ok t ∧
      t.applied 4 = [⟨.uniformId, [.id 3], none⟩, ⟨.coherent, [], some 0⟩,
        ⟨.nonWritable, [], none⟩, ⟨.nonWritable, [], some 1⟩] ∧
      ∀ id, ∀ d ∈ t.applied id, ∃ l, scopedModule.Defines id l ∧ d.Suits scopedModule l := by
  have hrun : (scopedModule.context {}).toOption.any (fun cx =>
      decide (cx.table.applied 4 = [⟨.uniformId, [.id 3], none⟩, ⟨.coherent, [], some 0⟩,
        ⟨.nonWritable, [], none⟩, ⟨.nonWritable, [], some 1⟩])) = true := by
    decide +kernel
  obtain ⟨cx, hcx, hq⟩ := exists_of_any hrun
  obtain ⟨ix, t, hix, ht, rfl⟩ := Module.context_eq_ok.1 hcx
  exact ⟨ix, t, hix, ht, of_decide_eq_true hq, suits_of_ofIndex hix ht⟩

theorem isInPlace_of_directOn (h : Index.ofModule m = .ok ix) (ht : ofIndex ix = .ok t)
    (hid : ix.op? id ≠ some .opDecorationGroup) (hd : d ∈ m.directOn id) : d.isInPlace = true := by
  obtain ⟨l, hl, hd⟩ := admitted_of_directOn h ht hd
  refine hd.isInPlace fun hop => hid ?_
  rw [Index.op?, Index.inst?, hl, Option.map_some, Option.map_some, hop]

/-- The decorations of a value are in place if and only if groups bring it none that is not: only
instructions that name one kind and one target are held to the places of kinds. -/
theorem decorations_inPlace_iff (h : Index.ofModule m = .ok ix) (ht : ofIndex ix = .ok t)
    (hid : ix.op? id ≠ some .opDecorationGroup) :
    (∀ d ∈ t.decorations id, d.isInPlace = true) ↔
      ∀ u ∈ m.annotations.filterMap Instruction.groupUse?, ∀ e ∈ u.entries, e.1 = id →
        ∀ d ∈ m.directOn u.group, (d.placed e.2).isInPlace = true := by
  constructor
  · intro hplace u hu e he heid d hd
    apply hplace
    rw [mem_decorations_iff ht, mem_applied_iff h ht]
    exact .inr ⟨u, hu, e, he, heid, d, hd, rfl⟩
  · intro hgroups d hd
    rw [mem_decorations_iff ht, mem_applied_iff h ht] at hd
    rcases hd with hd | ⟨u, hu, e, he, heid, c, hc, rfl⟩
    · exact isInPlace_of_directOn h ht hid hd
    · exact hgroups u hu e he heid c hc

def misplacedModule : Module where
  annotations := [.declaring .opDecorationGroup 1 [], .decorating 1 .block [],
    .declaring .opDecorationGroup 2 [], .decorating 2 .rowMajor [],
    ⟨.opGroupMemberDecorate, none, none, [.id 1, .id 4, .literal 0]⟩,
    ⟨.opGroupDecorate, none, none, [.id 2, .id 4]⟩]
  globals := [.declaring .opTypeFloat 3 [.literal 32], .declaring .opTypeStruct 4 [.id 3]]

theorem inPlace_misplacedModule :
    ∃ ix t, Index.ofModule misplacedModule = .ok ix ∧ ofIndex ix = .ok t ∧
      (∀ d ∈ t.decorations 3, d.isInPlace = true) ∧
      ¬∀ d ∈ t.decorations 4, d.isInPlace = true := by
  have hrun : (misplacedModule.context {}).toOption.any (fun cx =>
      decide (cx.index.op? 3 = some .opTypeFloat ∧
        cx.index.op? 4 = some .opTypeStruct)) = true := by
    decide +kernel
  obtain ⟨cx, hcx, hq⟩ := exists_of_any hrun
  obtain ⟨ix, t, hix, ht, rfl⟩ := Module.context_eq_ok.1 hcx
  obtain ⟨h3, h4⟩ := of_decide_eq_true hq
  refine ⟨ix, t, hix, ht, ?_, ?_⟩
  · rw [decorations_inPlace_iff hix ht (by rw [h3]; nofun)]
    decide
  · rw [decorations_inPlace_iff hix ht (by rw [h4]; nofun)]
    decide

/-- Validation passes a struct with a block on its member and a matrix order on the whole of it. -/
theorem exists_not_inPlace :
    ∃ ix t, Index.ofModule misplacedModule = .ok ix ∧ ofIndex ix = .ok t ∧
      misplacedModule.validate {} = .ok t ∧ ix.op? 4 = some .opTypeStruct ∧
      (∃ d ∈ t.decorations 4, d.member = some 0 ∧ d.kind.neverOnMembers = true) ∧
      ∃ d ∈ t.decorations 4, d.member = none ∧ d.kind.onlyOnMembers = true := by
  have hrun : bothPass (misplacedModule.context {}) (misplacedModule.validate {}) (fun cx _ =>
      decide (cx.index.op? 4 = some .opTypeStruct) &&
      ((cx.table.decorations 4).any
        (fun d => decide (d.member = some 0) && d.kind.neverOnMembers) &&
      (cx.table.decorations 4).any (fun d => decide (d.member = none) && d.kind.onlyOnMembers))) =
        true := by
    decide +kernel
  obtain ⟨cx, t, hcx, ht, hq⟩ := exists_of_bothPass hrun
  obtain ⟨ix, t, hix, hix', rfl⟩ := Module.context_eq_ok.1 hcx
  obtain ⟨_, ix', hixv, htv, _⟩ := Module.validate_eq_ok.1 ht
  rw [hix] at hixv
  cases hixv
  rw [hix'] at htv
  cases htv
  simp only [Bool.and_eq_true, decide_eq_true_eq, List.any_eq_true] at hq
  exact ⟨ix, t, hix, hix', ht, hq⟩

end Table

end SpirvRules
