import Mathlib.Data.List.Nodup
import SpirvRules.Proofs.Decoration.Expansion
import SpirvRules.Proofs.Interface.Listing

/-!
# Built-ins come once

The built-ins of an interface come on variables and on the members of their structs. Two that are
the same are found wherever they come from: from two variables, from a variable and a member, or
from two members.
-/

set_option autoImplicit false

namespace SpirvRules

open Outcome

theorem eq_of_nodup_filterMap {α β : Type} {f : α → Option β} {l : List α}
    (h : (l.filterMap f).Nodup) {a a' : α} {b : β} (ha : a ∈ l) (ha' : a' ∈ l)
    (hb : f a = some b) (hb' : f a' = some b) : a = a' := by
  by_contra hne
  have hsymm : Std.Symm fun a a' => ∀ b, f a = some b → ∀ b', f a' = some b' → b ≠ b' :=
    ⟨fun _ _ hr b hb b' hb' => (hr b' hb' b hb).symm⟩
  exact (List.pairwise_filterMap.1 h).forall ha ha' hne b hb b hb' rfl

theorem eq_of_pairwise_getElem? {α : Type} {R : α → α → Prop} {l : List α} (h : l.Pairwise R)
    (hsymm : ∀ a b, R a b → R b a) {k k' : Nat} {a b : α} (hk : l[k]? = some a)
    (hk' : l[k']? = some b) (hab : ¬ R a b) : k = k' := by
  rw [List.pairwise_iff_getElem] at h
  obtain ⟨hlt, rfl⟩ := List.getElem?_eq_some_iff.1 hk
  obtain ⟨hlt', rfl⟩ := List.getElem?_eq_some_iff.1 hk'
  rcases Nat.lt_trichotomy k k' with hkk | hkk | hkk
  · exact absurd (h k k' hlt hlt' hkk) hab
  · exact hkk
  · exact absurd (hsymm _ _ (h k' k hlt' hlt hkk)) hab

theorem Direction.forall_iff {p : Direction → Prop} :
    (∀ side, p side) ↔ p .input ∧ p .output := by
  constructor
  · intro h
    exact ⟨h .input, h .output⟩
  · rintro ⟨hin, hout⟩ (_ | _)
    · exact hin
    · exact hout

namespace Context

variable (cx : Context)

def Brings (id : Id) (d : Decoration) : Prop :=
  d.kind = .builtIn ∧ (d ∈ cx.table.applied id ∧ d.member = none ∨
    ∃ s, cx.Resolves id s ∧ d ∈ cx.table.applied s ∧ d.member.isSome)

def BringsStruct (id struct : Id) : Prop :=
  cx.Resolves id struct ∧ ∃ d ∈ cx.table.applied struct, d.member.isSome ∧ d.kind = .builtIn

def Enters (e : EntryPoint) (side : Direction) (k : Nat) (id : Id) : Prop :=
  e.interface[k]? = some id ∧ cx.index.variableClass? id = some side.storage

/-- On one side of an entry point each built-in comes on one variable by one decoration, and the
struct of built-ins, if there is one, is a block and comes once. -/
structure BringsOnce (e : EntryPoint) (side : Direction) : Prop where
  builtIns : ∀ k k' id id' d d' b, cx.Enters e side k id → cx.Enters e side k' id' →
    cx.Brings id d → cx.Brings id' d' → d.builtIn? = some b → d'.builtIn? = some b →
    k = k' ∧ d = d'
  structs : ∀ k k' id id' s s', cx.Enters e side k id → cx.Enters e side k' id' →
    cx.BringsStruct id s → cx.BringsStruct id' s' → k = k'
  blocks : ∀ k id s, cx.Enters e side k id → cx.BringsStruct id s → cx.table.has s .block

end Context

namespace BuiltIns

variable {cx : Context} {vs : List InterfaceVar} {function : Id}

def Apart (cx : Context) (v w : InterfaceVar) : Prop :=
  ∀ s s', builtInStruct? cx v = some s → builtInStruct? cx w = some s' → v.storage ≠ w.storage

theorem Apart.symm {v w : InterfaceVar} (h : Apart cx v w) : Apart cx w v :=
  fun s s' hs hs' => (h s' s hs' hs).symm

/-- Structs of built-ins are blocks, and no two of them share a storage class. -/
theorem blocksFault?_eq_none {seen : List StorageClass} :
    blocksFault? cx function seen vs = none ↔
      (∀ v ∈ vs, ∀ s, builtInStruct? cx v = some s → cx.table.has s .block ∧ v.storage ∉ seen) ∧
        vs.Pairwise (Apart cx) := by
  induction vs generalizing seen with
  | nil => simp [blocksFault?]
  | cons v vs ih =>
    rw [blocksFault?, List.forall_mem_cons, List.pairwise_cons]
    cases hv : builtInStruct? cx v with
    | none => simp [ih, Apart, hv]
    | some s =>
      by_cases hblock : cx.table.has s .block = true
      · by_cases hseen : v.storage ∈ seen
        · simp [hblock, hseen]
        · have hpass : ∀ r : Option InterfaceFault,
              (if !cx.table.has s .block then some (.builtInsOutsideBlock s)
                else if v.storage ∈ seen then some (.secondBuiltInBlock v.id function)
                else r) = none ↔ r = none := by
            simp [hblock, hseen]
          rw [hpass, ih]
          constructor
          · rintro ⟨hrest, hpairs⟩
            refine ⟨⟨?_, fun w hw s' hs' => ?_⟩, fun w hw s s' _ hs' heq => ?_, hpairs⟩
            · rintro _ ⟨⟩
              exact ⟨hblock, hseen⟩
            · obtain ⟨hblock', hseen'⟩ := hrest w hw s' hs'
              exact ⟨hblock', fun hmem => hseen' (.tail _ hmem)⟩
            · exact (hrest w hw s' hs').2 (heq ▸ List.mem_cons_self)
          · rintro ⟨⟨_, hrest⟩, hapart, hpairs⟩
            refine ⟨fun w hw s' hs' => ?_, hpairs⟩
            obtain ⟨hblock', hseen'⟩ := hrest w hw s' hs'
            rw [List.mem_cons, not_or]
            exact ⟨hblock', (hapart w hw s s' hv hs').symm, hseen'⟩
      · simp [hblock]

def Distinct (cx : Context) (side : Direction) (v w : InterfaceVar) : Prop :=
  v.storage = side.storage → w.storage = side.storage →
    List.Disjoint (provided cx v) (provided cx w)

theorem Distinct.symm {side : Direction} {v w : InterfaceVar} (h : Distinct cx side v w) :
    Distinct cx side w v :=
  fun hside hside' => List.disjoint_comm.1 (h hside' hside)

theorem repeatFault?_eq_none {side : Direction} : repeatFault? cx vs side = none ↔
    (∀ v ∈ vs, v.storage = side.storage → (provided cx v).Nodup) ∧
      vs.Pairwise (Distinct cx side) := by
  have hmap : (providedIn cx vs side).map (·.2) =
      (vs.filter (·.storage = side.storage)).flatMap (provided cx) := by
    simp [providedIn, List.map_flatMap, Function.comp_def]
  rw [repeatFault?, Option.map_eq_none_iff, firstRepeat?_eq_none, hmap, List.nodup_flatMap,
    List.pairwise_filter]
  simp only [List.mem_filter, decide_eq_true_eq, and_imp]
  rfl

theorem fault?_eq_none : fault? cx vs function = none ↔
    ((∀ v ∈ vs, ∀ s, builtInStruct? cx v = some s → cx.table.has s .block) ∧
      vs.Pairwise (Apart cx)) ∧
      ∀ side : Direction, (∀ v ∈ vs, v.storage = side.storage → (provided cx v).Nodup) ∧
        vs.Pairwise (Distinct cx side) := by
  simp only [fault?, Option.orElse_eq_orElse, Option.orElse_eq_or, Option.or_eq_none_iff,
    blocksFault?_eq_none, repeatFault?_eq_none, List.not_mem_nil, not_false_eq_true, and_true,
    Direction.forall_iff]

/-! ### What a variable brings -/

section Brings

variable {v : InterfaceVar} {b : BuiltIn} {d d' : Decoration} {s : Id} {rs : List Record}
variable (hv : v.Stated cx.index) (ht : cx.table = .ofRecords rs)

include hv ht

/-- The decorations looked through for a variable are those on it and on the members of its
struct. -/
theorem exists_provided_eq : ∃ ds : List Decoration,
    provided cx v = ds.filterMap Decoration.builtIn? ∧ ∀ d, d ∈ ds ↔ cx.Brings v.id d := by
  refine ⟨_, rfl, fun d => ?_⟩
  have hobject : d ∈ cx.table.objectDecorations v.id ↔
      d ∈ cx.table.applied v.id ∧ d.member = none := by
    rw [Table.objectDecorations, List.mem_filter, ht, Table.mem_decorations_ofRecords,
      Option.isNone_iff_eq_none]
  rw [List.mem_filter, List.mem_append, hobject, decide_eq_true_eq, and_comm, Context.Brings]
  apply and_congr_right
  intro _
  apply or_congr_right
  simp only [← hv.struct?_eq_some]
  cases v.struct? cx with
  | none => simp
  | some s => simp [ht, Table.mem_decorations_ofRecords]

theorem mem_provided : b ∈ provided cx v ↔ ∃ d, cx.Brings v.id d ∧ d.builtIn? = some b := by
  obtain ⟨ds, heq, hds⟩ := exists_provided_eq hv ht
  simp only [heq, List.mem_filterMap, hds]

theorem eq_of_nodup_provided (h : (provided cx v).Nodup) (hd : cx.Brings v.id d)
    (hd' : cx.Brings v.id d') (hb : d.builtIn? = some b) (hb' : d'.builtIn? = some b) :
    d = d' := by
  obtain ⟨ds, heq, hds⟩ := exists_provided_eq hv ht
  rw [heq] at h
  exact eq_of_nodup_filterMap h ((hds d).2 hd) ((hds d').2 hd') hb hb'

theorem builtInStruct?_eq_some : builtInStruct? cx v = some s ↔
    v.isInOrOut = true ∧ cx.BringsStruct v.id s := by
  have hmember : cx.table.anyMemberHas s .builtIn = true ↔
      ∃ d ∈ cx.table.applied s, d.member.isSome ∧ d.kind = .builtIn := by
    simp [Table.anyMemberHas, ht, Table.mem_decorations_ofRecords]
  rw [builtInStruct?, Option.ite_none_right_eq_some, Option.filter_eq_some_iff,
    hv.struct?_eq_some, hmember]
  rfl

end Brings

theorem exists_of_enters {e : EntryPoint} {side : Direction} {k : Nat} {id : Id}
    (h : Listing.listedVars cx e = .ok vs) (hid : cx.Enters e side k id) :
    ∃ v, vs[k]? = some v ∧ v.id = id ∧ v.storage = side.storage ∧ v.Stated cx.index := by
  obtain ⟨hk, hclass⟩ := hid
  obtain ⟨_, hids, _⟩ := Listing.listedVars_eq_ok.1 h
  rw [← hids, List.getElem?_map, Option.map_eq_some_iff] at hk
  obtain ⟨v, hk, rfl⟩ := hk
  have hv := ((Listing.mem_listedVars h).1 (List.mem_of_getElem? hk)).2
  exact ⟨v, hk, rfl, Option.some.inj (hv.storage.symm.trans hclass), hv⟩

theorem isInOrOut_of_storage {v : InterfaceVar} {side : Direction}
    (h : v.storage = side.storage) : v.isInOrOut = true := by
  cases side <;> simp [InterfaceVar.isInOrOut, h, Direction.storage]

theorem bringsOnce_of_fault? {e : EntryPoint} {rs : List Record} (ht : cx.table = .ofRecords rs)
    (h : Listing.listedVars cx e = .ok vs) (hfault : fault? cx vs function = none)
    (side : Direction) : cx.BringsOnce e side := by
  obtain ⟨⟨hblocks, hapart⟩, hsides⟩ := fault?_eq_none.1 hfault
  obtain ⟨hnodup, hdistinct⟩ := hsides side
  refine ⟨?_, ?_, ?_⟩
  · intro k k' id id' d d' b hk hk' hd hd' hb hb'
    obtain ⟨v, hvk, rfl, hside, hv⟩ := exists_of_enters h hk
    obtain ⟨w, hwk, rfl, hside', hw⟩ := exists_of_enters h hk'
    have hvb : b ∈ provided cx v := (mem_provided hv ht).2 ⟨d, hd, hb⟩
    have hwb : b ∈ provided cx w := (mem_provided hw ht).2 ⟨d', hd', hb'⟩
    have hkk : k = k' := eq_of_pairwise_getElem? hdistinct (fun _ _ => Distinct.symm) hvk hwk
      fun hvw => hvw hside hside' hvb hwb
    subst hkk
    cases hvk.symm.trans hwk
    have hnodup := hnodup v (List.mem_of_getElem? hvk) hside
    exact ⟨rfl, eq_of_nodup_provided hv ht hnodup hd hd' hb hb'⟩
  · intro k k' id id' s s' hk hk' hs hs'
    obtain ⟨v, hvk, rfl, hside, hv⟩ := exists_of_enters h hk
    obtain ⟨w, hwk, rfl, hside', hw⟩ := exists_of_enters h hk'
    have hvs := (builtInStruct?_eq_some hv ht).2 ⟨isInOrOut_of_storage hside, hs⟩
    have hws := (builtInStruct?_eq_some hw ht).2 ⟨isInOrOut_of_storage hside', hs'⟩
    exact eq_of_pairwise_getElem? hapart (fun _ _ => Apart.symm) hvk hwk
      fun hvw => hvw s s' hvs hws (hside.trans hside'.symm)
  · intro k id s hk hs
    obtain ⟨v, hvk, rfl, hside, hv⟩ := exists_of_enters h hk
    exact hblocks v (List.mem_of_getElem? hvk) s
      ((builtInStruct?_eq_some hv ht).2 ⟨isInOrOut_of_storage hside, hs⟩)

/-- In a valid module no entry point has a built-in brought in twice, or out twice. -/
theorem bringsOnce_of_validate {m : Module} {o : Options} {t : Table} (h : m.validate o = .ok t) :
    ∃ ix, Index.ofModule m = .ok ix ∧
      ∀ e ∈ ix.entryPoints, ∀ side, Context.BringsOnce ⟨ix, t, o⟩ e side := by
  obtain ⟨ix, hix, ht, hlists⟩ := Interface.exists_vars_of_validate h
  refine ⟨ix, hix, fun e he side => ?_⟩
  obtain ⟨vs, hvs, hfault⟩ := hlists e he
  obtain ⟨rs, _, htable⟩ := Table.ofIndex_eq_ok.1 ht
  exact bringsOnce_of_fault? htable hvs (Interface.fault?_eq_none.1 hfault).1 side

def blockAndLayer : Module where
  entryPoints := [⟨.opEntryPoint, none, none,
    [.executionModel .vertex, .id 20, .text "main", .id 7, .id 8]⟩]
  annotations := [.decorating 3 .block [],
    ⟨.opMemberDecorate, none, none,
      [.id 3, .literal 0, .decoration .builtIn, .builtIn .position]⟩,
    ⟨.opMemberDecorate, none, none,
      [.id 3, .literal 1, .decoration .builtIn, .builtIn .pointSize]⟩,
    .decorating 8 .builtIn [.builtIn .layer]]
  globals := [.declaring .opTypeInt 1 [.literal 32, .literal 0],
    .declaring .opTypeFloat 2 [.literal 32], .declaring .opTypeVector 6 [.id 2, .literal 4],
    .declaring .opTypeStruct 3 [.id 6, .id 2],
    .declaring .opTypePointer 4 [.storageClass .output, .id 3],
    .declaring .opTypePointer 5 [.storageClass .output, .id 1],
    ⟨.opVariable, some 4, some 7, [.storageClass .output]⟩,
    ⟨.opVariable, some 5, some 8, [.storageClass .output]⟩]
  functions := [.ofBody 20 []]

theorem bringsOnce_blockAndLayer :
    ∃ ix t e, Index.ofModule blockAndLayer = .ok ix ∧ blockAndLayer.validate {} = .ok t ∧
      e ∈ ix.entryPoints ∧ Context.Brings ⟨ix, t, {}⟩ 7 ⟨.builtIn, [.builtIn .position], some 0⟩ ∧
      Context.BringsStruct ⟨ix, t, {}⟩ 7 3 ∧ t.has 3 .block ∧
      (∀ k id d, Context.Enters ⟨ix, t, {}⟩ e .output k id → Context.Brings ⟨ix, t, {}⟩ id d →
        d.builtIn? = some .position → k = 0 ∧ d.member = some 0) ∧
      ∀ s, ¬ Context.BringsStruct ⟨ix, t, {}⟩ 8 s := by
  have hrun : bothPass (blockAndLayer.validate {}) (blockAndLayer.context {}) (fun t cx =>
      decide (cx.index.entryPoints.map EntryPoint.interface = [[7, 8]] ∧
        cx.index.variableClass? 7 = some .output ∧ cx.index.variableClass? 8 = some .output ∧
        cx.index.pointer? 7 = some (.output, 3) ∧ (cx.index.type? 3).any TypeView.isStruct ∧
        t.applied 3 = [⟨.block, [], none⟩, ⟨.builtIn, [.builtIn .position], some 0⟩,
          ⟨.builtIn, [.builtIn .pointSize], some 1⟩])) = true := by
    decide +kernel
  obtain ⟨t, cx, ht, hcx, hq⟩ := exists_of_bothPass hrun
  obtain ⟨hinterface, hclass, hclass', hpointer, hstruct, happlied⟩ := of_decide_eq_true hq
  obtain ⟨ix, _, hix, _, rfl⟩ := Module.context_eq_ok.1 hcx
  obtain ⟨e, heps⟩ := List.length_eq_one_iff.1 (by simpa using congrArg List.length hinterface)
  have he : e ∈ ix.entryPoints := heps ▸ List.mem_singleton_self e
  have hids : e.interface = [7, 8] := by simpa [heps] using hinterface
  obtain ⟨ix', hix', honce⟩ := bringsOnce_of_validate ht
  cases hix.symm.trans hix'
  obtain ⟨hbuiltIns, hstructs, hblocks⟩ := honce e he .output
  have hfirst : Context.Enters ⟨ix, t, {}⟩ e .output 0 7 := ⟨by simp [hids], hclass⟩
  have hsecond : Context.Enters ⟨ix, t, {}⟩ e .output 1 8 := ⟨by simp [hids], hclass'⟩
  have hresolves : Context.Resolves ⟨ix, t, {}⟩ 7 3 := ⟨_, 3, hpointer, .refl, hstruct⟩
  have hmember : ⟨.builtIn, [.builtIn .position], some 0⟩ ∈ t.applied 3 := by simp [happlied]
  have hbrings : Context.Brings ⟨ix, t, {}⟩ 7 ⟨.builtIn, [.builtIn .position], some 0⟩ :=
    ⟨rfl, .inr ⟨3, hresolves, hmember, rfl⟩⟩
  have hbringsStruct : Context.BringsStruct ⟨ix, t, {}⟩ 7 3 := ⟨hresolves, _, hmember, rfl, rfl⟩
  refine ⟨ix, t, e, hix, ht, he, hbrings, hbringsStruct, hblocks 0 7 3 hfirst hbringsStruct, ?_, ?_⟩
  · intro k id d hk hd hb
    obtain ⟨rfl, rfl⟩ := hbuiltIns k 0 id 7 d _ .position hk hfirst hd hbrings hb rfl
    exact ⟨rfl, rfl⟩
  · intro s hs
    cases hstructs 0 1 7 8 3 s hfirst hsecond hbringsStruct hs

end BuiltIns

end SpirvRules
