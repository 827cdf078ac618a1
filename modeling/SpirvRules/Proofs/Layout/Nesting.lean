import SpirvRules.Proofs.Layout.Slots
import SpirvRules.Proofs.Search
import SpirvRules.Proofs.Validation

/-!
# No block within a block

The nesting check refuses a struct exactly when the struct is a block and has another inside, at
whatever depth. The search looks at all types inside it and at no others, so a block is not inside
itself either once the check passes.
-/

set_option autoImplicit false

namespace SpirvRules

open Outcome

abbrev Index.Inside (ix : Index) : Id → Id → Prop :=
  Relation.TransGen fun a b => b ∈ Explicit.inner ix a

variable {ix : Index} {t : Table} {root x : Id}

theorem Index.type?_of_mem_inner (h : x ∈ Explicit.inner ix root) :
    ∃ v, ix.type? root = some v := by
  unfold Explicit.inner at h
  cases hv : ix.type? root with
  | none => simp [hv] at h
  | some v => exact ⟨v, rfl⟩

namespace Nesting

theorem exists_mem_members (hx : x ∈ ix.members root) : ∃ m ∈ members ix root, m.type = x := by
  unfold Index.members at hx
  unfold members
  cases hv : ix.type? root with
  | none => simp [hv] at hx
  | some v => exact ⟨⟨x, root⟩, by simpa [hv] using hx, rfl⟩

theorem exists_mem_inside {m : Met} (hx : x ∈ Explicit.inner ix m.type) :
    ∃ c ∈ inside ix m, c.type = x := by
  unfold inside
  rcases Explicit.mem_inner_iff.1 hx with he | hx
  · rw [he]
    exact ⟨⟨x, m.parent⟩, by simp, rfl⟩
  · cases he : ix.element? m.type with
    | none => exact exists_mem_members hx
    | some e =>
      rcases Index.element?_eq_some_iff.1 he with ⟨length, hv⟩ | hv
      · simp [Index.members, hv, TypeView.memberIds] at hx
      · simp [Index.members, hv, TypeView.memberIds] at hx

/-- Whatever type is inside a struct is met below it. -/
theorem below_covers (hr : (ix.type? root).any TypeView.isStruct) (hx : ix.Inside root x)
    (hv : (ix.type? x).isSome) : ∃ m ∈ below ix root, m.type = x := by
  have declared : Relation.TransGen (fun a b => b ∈ Explicit.inner ix a ∧ b ∈ ix.defs) root x := by
    have hdef := Index.mem_defs_of_type? (Option.some_get hv).symm
    clear hv
    induction hx with
    | single h => exact .single ⟨h, hdef⟩
    | tail _ h ih =>
      obtain ⟨v, hv⟩ := Index.type?_of_mem_inner h
      exact .tail (ih (Index.mem_defs_of_type? hv)) ⟨h, hdef⟩
  refine Search.run_covers (fun _ _ h => h.2) (fun j h => exists_mem_members ?_)
    (fun m j h => exists_mem_inside h.1) declared
  rcases Explicit.mem_inner_iff.1 h.1 with he | hm
  · obtain ⟨ms, hv⟩ := Index.isStruct_iff.1 hr
    simp [Index.element?_struct hv] at he
  · exact hm

/-- How a type is met below `root`: it is inside `root`, and inside the struct it was met in. -/
structure Route (ix : Index) (root : Id) (m : Met) : Prop where
  inside : ix.Inside root m.type
  parent : m.parent = root ∨ ix.Inside root m.parent
  last : ix.Inside m.parent m.type

theorem route_of_mem_members {m : Met} (hm : m ∈ members ix root) : Route ix root m := by
  unfold members at hm
  cases hv : ix.type? root with
  | none => simp [hv] at hm
  | some v =>
    rw [hv, List.mem_reverse] at hm
    obtain ⟨x, hx, rfl⟩ := List.mem_map.1 hm
    have hstep : ix.Inside root x :=
      .single (Explicit.mem_inner_iff.2 (.inr (by simpa [Index.members, hv] using hx)))
    exact ⟨hstep, .inl rfl, hstep⟩

/-- One step of the search stays inside: an element is met in the struct of its array, a member in
the struct it is a member of. -/
theorem route_of_mem_inside {m c : Met} (h : Route ix root m) (hc : c ∈ inside ix m) :
    Route ix root c := by
  unfold inside at hc
  cases he : ix.element? m.type with
  | some e =>
    rw [he] at hc
    cases List.mem_singleton.1 hc
    have hstep : e ∈ Explicit.inner ix m.type := Explicit.mem_inner_iff.2 (.inl he)
    exact ⟨h.inside.tail hstep, h.parent, h.last.tail hstep⟩
  | none =>
    rw [he] at hc
    have hparent : c.parent = m.type := by
      unfold members at hc
      cases hv : ix.type? m.type with
      | none => simp [hv] at hc
      | some v =>
        rw [hv, List.mem_reverse] at hc
        obtain ⟨x, _, rfl⟩ := List.mem_map.1 hc
        rfl
    have hlast := (route_of_mem_members hc).inside
    exact ⟨h.inside.trans hlast, .inr (hparent ▸ h.inside), hparent ▸ hlast⟩

theorem route_of_mem_below {m : Met} (hm : m ∈ below ix root) : Route ix root m := by
  refine Search.taken_subset ix.defs (fun m hm c hc _ => route_of_mem_inside hm hc) (fun _ h => h)
    ?_ m hm
  exact fun c hc _ => route_of_mem_members hc

def IsBlock (ix : Index) (t : Table) (id : Id) : Prop :=
  (ix.type? id).any TypeView.isStruct ∧ (t.has id .block ∨ t.has id .bufferBlock)

theorem isSome_blockKind?_iff :
    (t.blockKind? root).isSome ↔ t.has root .block ∨ t.has root .bufferBlock := by
  unfold Table.blockKind?
  cases t.has root .block <;> cases t.has root .bufferBlock <;> simp

theorem isSome_block?_iff {m : Met} : (block? ix t m).isSome ↔ IsBlock ix t m.type := by
  unfold block? IsBlock
  rw [← isSome_blockKind?_iff]
  cases ix.type? m.type with
  | none => simp
  | some v => cases v <;> simp [TypeView.isStruct]

theorem route_of_fault? {f : NestingFault} (h : fault? ix t root = some f) :
    f.outer = root ∧ t.blockKind? root = some f.outerKind ∧
      t.blockKind? f.inner = some f.innerKind ∧ IsBlock ix t f.inner ∧
      Route ix root ⟨f.inner, f.parent⟩ := by
  obtain ⟨outer, houter, h⟩ := Option.bind_eq_some_iff.1 h
  obtain ⟨m, hm, h⟩ := List.exists_of_findSome?_eq_some h
  obtain ⟨inner, hinner, rfl⟩ := Option.map_eq_some_iff.1 h
  have hblock : IsBlock ix t m.type := isSome_block?_iff.1 (by rw [hinner]; rfl)
  refine ⟨rfl, houter, ?_, hblock, route_of_mem_below hm⟩
  unfold block? at hinner
  split at hinner
  · exact hinner
  · cases hinner

theorem exists_fault?_iff (hr : (ix.type? root).any TypeView.isStruct) :
    (∃ f, fault? ix t root = some f) ↔
      IsBlock ix t root ∧ ∃ x, ix.Inside root x ∧ IsBlock ix t x := by
  constructor
  · rintro ⟨f, hf⟩
    obtain ⟨_, hroot, _, hblock, hroute⟩ := route_of_fault? hf
    exact ⟨⟨hr, isSome_blockKind?_iff.1 (by rw [hroot]; rfl)⟩, _, hroute.inside, hblock⟩
  · rintro ⟨⟨_, hroot⟩, x, hx, hblock⟩
    obtain ⟨v, hv⟩ := Option.any_eq_true .. |>.1 hblock.1
    obtain ⟨m, hm, rfl⟩ := below_covers hr hx (by rw [hv.1]; rfl)
    obtain ⟨outer, houter⟩ := Option.isSome_iff_exists.1 (isSome_blockKind?_iff.2 hroot)
    obtain ⟨inner, hinner⟩ := Option.isSome_iff_exists.1 (isSome_block?_iff.2 hblock)
    rw [← Option.isSome_iff_exists, fault?, houter]
    exact List.findSome?_isSome_iff.2 ⟨m, hm, by rw [hinner]; rfl⟩

theorem check_eq_error {f : NestingFault} :
    check ix t root = .error f ↔ fault? ix t root = some f := by
  unfold check
  cases fault? ix t root <;> simp

theorem check_eq_ok (hr : (ix.type? root).any TypeView.isStruct)
    (hk : (t.blockKind? root).isSome) (h : check ix t root = .ok ()) (hx : ix.Inside root x) :
    ¬ IsBlock ix t x := by
  intro hblock
  obtain ⟨f, hf⟩ := (exists_fault?_iff hr).2 ⟨⟨hr, isSome_blockKind?_iff.1 hk⟩, x, hx, hblock⟩
  rw [check_eq_error.2 hf] at h
  cases h

end Nesting

theorem Table.mem_targets (hk : (t.blockKind? root).isSome) : root ∈ t.targets := by
  have hd : t.decorations root ≠ [] := by
    intro h
    simp [blockKind?, has, objectDecorations, h] at hk
  unfold targets
  rw [Std.TreeMap.mem_keys]
  by_contra hx
  exact hd (by simp [decorations, Std.TreeMap.getElem?_eq_none hx])

/-- Past the nesting check, what is inside a block is no block. -/
theorem Buffer.not_isBlock_of_inside {cx : Context} (hskip : cx.options.skipBlockLayout = false)
    (h : checkNesting cx = .ok ()) (hr : (cx.index.type? root).any TypeView.isStruct)
    (hk : (cx.table.blockKind? root).isSome) (hx : cx.index.Inside root x) :
    ¬ Nesting.IsBlock cx.index cx.table x := by
  rw [checkNesting, hskip, if_neg (by simp), forM_eq_ok] at h
  have hmem : root ∈ blocks cx := List.mem_filter.2 ⟨Table.mem_targets hk, hk⟩
  exact Nesting.check_eq_ok hr hk (h root hmem) hx

theorem Buffer.not_block_of_inside {cx : Context} (hskip : cx.options.skipBlockLayout = false)
    (h : checkNesting cx = .ok ()) (hr : (cx.index.type? root).any TypeView.isStruct)
    (hk : (cx.table.blockKind? root).isSome) {ms : List Operand}
    (hx : cx.index.Inside root x) (hv : cx.index.type? x = some (.struct ms)) :
    cx.table.blockKind? x = none := by
  rw [← Option.not_isSome_iff_eq_none, Nesting.isSome_blockKind?_iff]
  intro hblock
  exact not_isBlock_of_inside hskip h hr hk hx ⟨Index.isStruct_iff.2 ⟨ms, hv⟩, hblock⟩

namespace Nesting

/-- The check refuses a struct if and only if the struct is a block with a block inside, be it the
struct itself. So no block of a module that validates with its layout checked has a block inside. -/
theorem refuses_iff_nested :
    (∀ (ix : Index) (t : Table) (root : Id), (ix.type? root).any TypeView.isStruct →
      ((∃ f, check ix t root = .error f) ↔
        (t.has root .block ∨ t.has root .bufferBlock) ∧
          ∃ x, ix.Inside root x ∧ IsBlock ix t x)) ∧
    ∀ (m : Module) (o : Options) (t : Table), o.skipBlockLayout = false → m.validate o = .ok t →
      ∃ ix, Index.ofModule m = .ok ix ∧
        ∀ a b, IsBlock ix t a → IsBlock ix t b → ¬ ix.Inside a b := by
  constructor
  · intro ix t root hr
    simp only [check_eq_error]
    rw [exists_fault?_iff hr, IsBlock, and_iff_right hr]
  · intro m o t hskip h
    obtain ⟨_, ix, hix, _, haccepts⟩ := Module.validate_eq_ok.1 h
    refine ⟨ix, hix, fun a b ha hb hab => ?_⟩
    exact Buffer.not_isBlock_of_inside hskip haccepts.nesting ha.1
      (isSome_blockKind?_iff.2 ha.2) hab hb

def ringBlock : Module where
  annotations := [.decorating 4 .block []]
  globals := [.declaring .opTypeFloat 1 [.literal 32],
    .declaring .opTypeRuntimeArray 2 [.id 3], .declaring .opTypeStruct 3 [.id 1, .id 4],
    .declaring .opTypeStruct 4 [.id 1, .id 2]]

def pairedBlocks : Module where
  annotations := [.decorating 3 .block [], .placing 3 0 0, .decorating 4 .bufferBlock [],
    .placing 4 0 0, .placing 2 0 0]
  globals := [.declaring .opTypeFloat 1 [.literal 32], .declaring .opTypeStruct 2 [.id 1],
    .declaring .opTypeStruct 3 [.id 2], .declaring .opTypeStruct 4 [.id 2]]

theorem refuses_ringBlock :
    (∃ cx, ringBlock.context {} = .ok cx ∧ ∃ f, check cx.index cx.table 4 = .error f) ∧
      ∃ t ix, pairedBlocks.validate {} = .ok t ∧ Index.ofModule pairedBlocks = .ok ix ∧
        IsBlock ix t 3 ∧ IsBlock ix t 4 ∧ ix.Inside 3 2 ∧ ¬ ix.Inside 3 4 ∧ ¬ ix.Inside 4 4 := by
  constructor
  · have hrun : (ringBlock.context {}).toOption.any (fun cx =>
        decide ((cx.index.type? 4).any TypeView.isStruct ∧ cx.table.has 4 .block ∧
          2 ∈ Explicit.inner cx.index 4 ∧ 3 ∈ Explicit.inner cx.index 2 ∧
          4 ∈ Explicit.inner cx.index 3)) = true := by
      decide +kernel
    obtain ⟨cx, hcx, hq⟩ := exists_of_any hrun
    obtain ⟨hr, hblock, h₂, h₃, h₄⟩ := of_decide_eq_true hq
    have hring : cx.index.Inside 4 4 := .tail (.tail (.single h₂) h₃) h₄
    refine ⟨cx, hcx, (refuses_iff_nested.1 cx.index cx.table 4 hr).2 ?_⟩
    exact ⟨.inl hblock, 4, hring, hr, .inl hblock⟩
  · have hrun : bothPass (pairedBlocks.validate {}) (Index.ofModule pairedBlocks) (fun t ix =>
        decide ((ix.type? 3).any TypeView.isStruct ∧ t.has 3 .block ∧
          (ix.type? 4).any TypeView.isStruct ∧ t.has 4 .bufferBlock ∧
          2 ∈ Explicit.inner ix 3)) = true := by
      decide +kernel
    obtain ⟨t, ix, ht, hix, hq⟩ := exists_of_bothPass hrun
    obtain ⟨hs₃, hb₃, hs₄, hb₄, h₂⟩ := of_decide_eq_true hq
    obtain ⟨ix', hix', hall⟩ := refuses_iff_nested.2 pairedBlocks {} t rfl ht
    cases hix.symm.trans hix'
    have h₃ : IsBlock ix t 3 := ⟨hs₃, .inl hb₃⟩
    have h₄ : IsBlock ix t 4 := ⟨hs₄, .inr hb₄⟩
    exact ⟨t, ix, ht, hix, h₃, h₄, .single h₂, hall 3 4 h₃ h₄, hall 4 4 h₄ h₄⟩

end Nesting

end SpirvRules
