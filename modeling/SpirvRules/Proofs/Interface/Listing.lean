import SpirvRules.Proofs.Index.Arrays
import SpirvRules.Proofs.Layout.Slots
import SpirvRules.Proofs.Recurrence
import SpirvRules.Proofs.Validation

/-!
# What an accepted interface lists

Every entry of an accepted interface is a variable, as its definition states it. From 1.4 on no
entry comes twice; before that the entries are inputs and outputs, however often they come.
-/

set_option autoImplicit false

namespace SpirvRules

open Outcome

structure InterfaceVar.Stated (v : InterfaceVar) (ix : Index) : Prop where
  storage : ix.variableClass? v.id = some v.storage
  pointee : ∃ c, ix.pointer? v.id = some (c, v.pointee)

theorem InterfaceVar.Stated.unique {v w : InterfaceVar} {ix : Index} (hv : v.Stated ix)
    (hw : w.Stated ix) (hid : v.id = w.id) : v = w := by
  obtain ⟨id, storage, pointee⟩ := v
  obtain ⟨id', storage', pointee'⟩ := w
  obtain rfl : id = id' := hid
  cases Option.some.inj (hv.storage.symm.trans hw.storage)
  obtain ⟨_, hp⟩ := hv.pointee
  obtain ⟨_, hp'⟩ := hw.pointee
  cases hp.symm.trans hp'
  rfl

def Context.Resolves (cx : Context) (id struct : Id) : Prop :=
  ∃ c pointee, cx.index.pointer? id = some (c, pointee) ∧ cx.index.Strips pointee struct ∧
    (cx.index.type? struct).any TypeView.isStruct

theorem InterfaceVar.struct?_eq_some {cx : Context} {v : InterfaceVar} {s : Id} :
    v.struct? cx = some s ↔
      cx.index.Strips v.pointee s ∧ (cx.index.type? s).any TypeView.isStruct := by
  simp only [struct?, Option.ite_none_right_eq_some, Option.some.injEq]
  constructor
  · rintro ⟨hs, rfl⟩
    exact ⟨Index.strips_stripArrays v.pointee, hs⟩
  · rintro ⟨hstrips, hs⟩
    obtain ⟨ms, hview⟩ := Index.isStruct_iff.1 hs
    have hstrip := Index.stripArrays_eq hstrips (Index.element?_struct hview)
    rw [hstrip]
    exact ⟨hs, rfl⟩

theorem InterfaceVar.Stated.struct?_eq_some {cx : Context} {v : InterfaceVar} {s : Id}
    (hv : v.Stated cx.index) : v.struct? cx = some s ↔ cx.Resolves v.id s := by
  obtain ⟨c, hpointer⟩ := hv.pointee
  rw [InterfaceVar.struct?_eq_some, Context.Resolves, hpointer]
  constructor
  · intro hs
    exact ⟨c, v.pointee, rfl, hs⟩
  · rintro ⟨_, _, hp, hs⟩
    cases hp
    exact hs

namespace Listing

variable {cx : Context} {e : EntryPoint} {vs : List InterfaceVar} {v : InterfaceVar} {id : Id}

theorem checkUnique_eq_ok :
    checkUnique cx e = .ok () ↔ (listsGlobals cx = true → e.interface.Nodup) := by
  have hnodup := firstRepeat?_eq_none (fun id : Id => id) e.interface
  rw [List.map_id'] at hnodup
  unfold checkUnique
  cases hrepeat : firstRepeat? (fun id : Id => id) e.interface with
  | none => simp [hnodup.1 hrepeat]
  | some id =>
    have hdup : ¬ e.interface.Nodup := fun h => by simp [hnodup.2 h] at hrepeat
    cases listsGlobals cx <;> simp [hdup]

theorem stated_eq_ok {l : Located} (hl : cx.index.def? id = some l) :
    stated cx l id = .ok v ↔ v.id = id ∧ v.Stated cx.index := by
  have hclass : ∀ c, cx.index.variableClass? id = some c → l.inst.op = .opVariable := by
    intro c hc
    rw [Index.variableClass?, Index.inst?, hl] at hc
    dsimp only [Option.map_some] at hc
    split at hc
    · assumption
    · cases hc
  obtain ⟨w, c, p⟩ := v
  constructor
  · intro h
    unfold stated at h
    split at h
    · cases h
    · split at h
      · rename_i c' _ p' hc hp
        cases h
        exact ⟨rfl, hc, _, hp⟩
      · cases h
  · rintro ⟨rfl, hc, c', hp⟩
    unfold stated
    rw [if_neg (not_not_intro (hclass c hc)), hc, hp]

theorem listed_eq_ok : listed cx e id = .ok v ↔
    ∃ l, cx.index.def? id = some l ∧ (v.id = id ∧ v.Stated cx.index) ∧
      listingFault? cx e l.function v = none := by
  unfold listed
  cases hl : cx.index.def? id with
  | none => simp
  | some l =>
    simp only [bind_eq_ok, stated_eq_ok hl, Option.some.injEq]
    constructor
    · rintro ⟨w, hw, h⟩
      cases hf : listingFault? cx e l.function w with
      | some f => simp [hf] at h
      | none =>
        rw [hf] at h
        cases h
        exact ⟨l, rfl, hw, hf⟩
    · rintro ⟨_, rfl, hv, hf⟩
      exact ⟨v, hv, by rw [hf]⟩

theorem listedVars_eq_ok : listedVars cx e = .ok vs ↔
    (listsGlobals cx = true → e.interface.Nodup) ∧ vs.map InterfaceVar.id = e.interface ∧
      ∀ v ∈ vs, listed cx e v.id = .ok v := by
  have hmapM : e.interface.mapM (listed cx e) = .ok vs ↔
      vs.map InterfaceVar.id = e.interface ∧ ∀ v ∈ vs, listed cx e v.id = .ok v := by
    rw [Rule.mapM_eq_ok]
    constructor
    · intro h
      generalize e.interface = ids at h
      induction h with
      | nil => exact ⟨rfl, nofun⟩
      | cons hv _ ih =>
        obtain ⟨_, _, ⟨rfl, _⟩, _⟩ := listed_eq_ok.1 hv
        exact ⟨by rw [List.map_cons, ih.1], List.forall_mem_cons.2 ⟨hv, ih.2⟩⟩
    · rintro ⟨hids, hvs⟩
      rw [← hids, List.forall₂_map_left_iff, List.forall₂_same]
      exact hvs
  simp only [listedVars, bind_eq_ok, hmapM, ← checkUnique_eq_ok]
  constructor
  · rintro ⟨_, hunique, hvs⟩
    exact ⟨hunique, hvs⟩
  · rintro ⟨hunique, hvs⟩
    exact ⟨(), hunique, hvs⟩

theorem mem_listedVars (h : listedVars cx e = .ok vs) :
    v ∈ vs ↔ v.id ∈ e.interface ∧ v.Stated cx.index := by
  obtain ⟨_, hids, hlisted⟩ := listedVars_eq_ok.1 h
  have hstated : ∀ w ∈ vs, w.Stated cx.index := by
    intro w hw
    obtain ⟨_, _, ⟨_, hw⟩, _⟩ := listed_eq_ok.1 (hlisted w hw)
    exact hw
  rw [← hids]
  constructor
  · intro hv
    exact ⟨List.mem_map_of_mem hv, hstated v hv⟩
  · rintro ⟨hid, hv⟩
    obtain ⟨w, hw, hwv⟩ := List.mem_map.1 hid
    rw [hv.unique (hstated w hw) hwv.symm]
    exact hw

theorem isInOrOut_of_mem (hglobals : listsGlobals cx = false) (h : listedVars cx e = .ok vs)
    (hv : v ∈ vs) : v.isInOrOut = true := by
  obtain ⟨_, _, hlisted⟩ := listedVars_eq_ok.1 h
  obtain ⟨l, _, _, hfault⟩ := listed_eq_ok.1 (hlisted v hv)
  simpa [listingFault?, hglobals] using hfault

end Listing

namespace Interface

variable {cx : Context} {e : EntryPoint} {vs : List InterfaceVar}

theorem checkEntryPoint_eq_ok : checkEntryPoint cx e = .ok () ↔
    ∃ vs, Listing.listedVars cx e = .ok vs ∧ fault? cx e vs = none := by
  simp only [checkEntryPoint, bind_eq_ok]
  apply exists_congr
  intro vs
  apply and_congr_right
  intro _
  cases fault? cx e vs <;> simp [throw_eq_error, pure_eq_ok]

theorem vulkanOnly_eq_none {f : Option InterfaceFault} :
    vulkanOnly cx f = none ↔ (cx.isVulkan = true → f = none) := by
  cases h : cx.isVulkan <;> simp [vulkanOnly, h]

theorem fault?_eq_none : fault? cx e vs = none ↔
    BuiltIns.fault? cx vs e.function = none ∧
      (cx.isVulkan = true → Shared.pushConstantFault? cx e.function = none) ∧
      Shared.workgroupFault? cx vs e.function = none ∧
      (cx.isVulkan = true → ∀ v ∈ vs, Interpolation.fault? cx e v = none) ∧
      ∀ v ∈ vs, Interpolation.perVertexFault? cx e v = none := by
  simp only [fault?, Option.orElse_eq_orElse, Option.orElse_eq_or, Option.or_eq_none_iff,
    vulkanOnly_eq_none, List.findSome?_eq_none_iff]

/-- Every entry point of a valid module lists variables with which nothing is wrong. -/
theorem exists_vars_of_validate {m : Module} {o : Options} {t : Table} (h : m.validate o = .ok t) :
    ∃ ix, Index.ofModule m = .ok ix ∧ Table.ofIndex ix = .ok t ∧ ∀ e ∈ ix.entryPoints,
      ∃ vs, Listing.listedVars ⟨ix, t, o⟩ e = .ok vs ∧ fault? ⟨ix, t, o⟩ e vs = none := by
  obtain ⟨_, ix, hix, ht, haccepts⟩ := Module.validate_eq_ok.1 h
  refine ⟨ix, hix, ht, fun e he => ?_⟩
  exact checkEntryPoint_eq_ok.1 (forM_eq_ok.1 (mapError_eq_ok.1 haccepts.interfaces) e he)

end Interface

end SpirvRules
