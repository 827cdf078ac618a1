import SpirvRules.Proofs.Decoration.Groups
import SpirvRules.Proofs.Index.Relisting
import SpirvRules.Proofs.Interface.BuiltIns
import SpirvRules.Proofs.Interface.Workgroup
import SpirvRules.Proofs.Rule.Agreement

/-!
# Variables listed twice

Before version 1.4 an interface may list a variable twice. The rules go through the entries one by
one, and find with the second what they found with the first. Only the rules on built-ins count
entries: a variable with built-ins that is listed twice passes for two variables with the same ones,
and the module is refused.
-/

set_option autoImplicit false

namespace SpirvRules

open Outcome

/-- An item more among others like it: where two of a kind keep to a relation, it has to keep to it
with itself. -/
theorem pairwise_middle_iff {α : Type} {R : α → α → Prop} (hsymm : ∀ a b, R a b → R b a)
    {front back : List α} {a : α} (h : (front ++ back).Pairwise R) (ha : a ∈ front ++ back) :
    (front ++ a :: back).Pairwise R ↔ R a a := by
  have : Std.Symm R := ⟨hsymm⟩
  rw [List.perm_middle.pairwise_iff fun {a b} => hsymm a b, List.pairwise_cons]
  constructor
  · rintro ⟨hall, _⟩
    exact hall a ha
  · intro haa
    refine ⟨fun b hb => ?_, h⟩
    by_cases hab : a = b
    · rw [← hab]
      exact haa
    · exact h.forall ha hb hab

theorem mem_of_mem_middle {α : Type} {front back : List α} {a b : α} (ha : a ∈ front ++ back)
    (hb : b ∈ front ++ a :: back) : b ∈ front ++ back := by
  rw [List.perm_middle.mem_iff, List.mem_cons] at hb
  rcases hb with rfl | hb
  · exact ha
  · exact hb

/-! ### The annotations -/

namespace Table

variable {m : Module} {ix ix' : Index} {t : Table} {i j : Instruction}
variable {before after : List Instruction}

theorem valuesNamed_withEntryPoints (hm : m.entryPoints = before ++ i :: after) (h : i.Alike j)
    (id : Id) : id ∈ valuesNamed (m.withEntryPoints (before ++ j :: after)) ↔
      id ∈ valuesNamed m := by
  have hnames : i.Names id ↔ j.Names id := ⟨h.names, h.symm.names⟩
  simp only [mem_valuesNamed, Module.withEntryPoints, hm, List.mem_append, List.mem_cons,
    or_and_right, exists_or, exists_eq_left, hnames]

theorem ofIndex_withEntryPoints (hm : m.entryPoints = before ++ i :: after) (hij : i.Alike j)
    (h : Index.ofModule m = .ok ix)
    (h' : Index.ofModule (m.withEntryPoints (before ++ j :: after)) = .ok ix')
    (hagrees : ix'.Agrees ix)
    (hposition : ∀ id, (ix'.def? id).map Located.position = (ix.def? id).map Located.position)
    (ht : ofIndex ix = .ok t) : ofIndex ix' = .ok t := by
  obtain ⟨rs, hrs, rfl⟩ := ofIndex_eq_ok.1 ht
  obtain ⟨os, rss, hos, hrss, hmisused, hrs⟩ := records_eq_ok.1 hrs
  have hannotations : ix'.module.annotations = ix.module.annotations := by
    rw [Index.module_eq h, Index.module_eq h']
    rfl
  have hgroups : ∀ g, g ∈ groups ix' ↔ g ∈ groups ix := by
    intro g
    rw [groups, hannotations, ← groups]
  have hnamed : ∀ id, id ∈ valuesNamed ix'.module ↔ id ∈ valuesNamed ix.module := by
    rw [Index.module_eq h, Index.module_eq h']
    exact valuesNamed_withEntryPoints hm hij
  refine ofIndex_eq_ok.2 ⟨rs, records_eq_ok.2 ⟨os, rss, ?_, ?_, ?_, hrs⟩, rfl⟩
  · rw [hannotations, directRecord_agrees hagrees (paramsAlike_of_position hposition)]
    exact hos
  · rw [hannotations, expand_agrees hagrees hgroups]
    exact hrss
  · exact (misusedGroup?_agrees hagrees hgroups hnamed).2 hmisused

end Table

/-! ### The interface -/

def Context.BringsAny (cx : Context) (id : Id) : Prop :=
  (∃ d b, cx.Brings id d ∧ d.builtIn? = some b) ∨ ∃ s, cx.BringsStruct id s

namespace BuiltIns

variable {cx : Context} {front back : List InterfaceVar} {v : InterfaceVar} {function : Id}
variable {rs : List Record}

theorem exists_side (hside : v.isInOrOut = true) :
    ∃ side : Direction, v.storage = side.storage := by
  simp only [InterfaceVar.isInOrOut, Bool.or_eq_true, decide_eq_true_eq] at hside
  rcases hside with hin | hout
  · exact ⟨.input, hin⟩
  · exact ⟨.output, hout⟩

section Self

variable (hv : v.Stated cx.index) (ht : cx.table = .ofRecords rs) (hside : v.isInOrOut = true)

include hv ht hside

theorem apart_self_iff : Apart cx v v ↔ ∀ s, ¬ cx.BringsStruct v.id s := by
  simp only [Apart, builtInStruct?_eq_some hv ht, hside, true_and, ne_eq, not_true_eq_false]
  exact ⟨fun h s hs => h s s hs hs, fun h s _ hs _ => h s hs⟩

theorem distinct_self_iff : (∀ side, Distinct cx side v v) ↔
    ∀ d b, cx.Brings v.id d → d.builtIn? ≠ some b := by
  have hnone : (∀ b, b ∉ provided cx v) ↔ ∀ d b, cx.Brings v.id d → d.builtIn? ≠ some b := by
    simp only [mem_provided hv ht, not_exists, not_and]
    exact forall_comm
  rw [← hnone]
  constructor
  · intro h b hb
    obtain ⟨side, hside⟩ := exists_side hside
    exact h side hside hside hb hb
  · exact fun h _ _ _ b hb _ => h b hb

/-- A variable that is there already passes once more when it brings no built-ins. -/
theorem fault?_twice (hmem : v ∈ front ++ back) (h : fault? cx (front ++ back) function = none) :
    fault? cx (front ++ v :: back) function = none ↔ ¬ cx.BringsAny v.id := by
  obtain ⟨⟨hblocks, hapart⟩, hsides⟩ := fault?_eq_none.1 h
  have hapart' := pairwise_middle_iff (fun _ _ => Apart.symm) hapart hmem
  have hdistinct' : ∀ side, (front ++ v :: back).Pairwise (Distinct cx side) ↔
      Distinct cx side v v := fun side =>
    pairwise_middle_iff (fun _ _ => Distinct.symm) (hsides side).2 hmem
  have hbrings : ¬ cx.BringsAny v.id ↔
      Apart cx v v ∧ ∀ side, Distinct cx side v v := by
    rw [apart_self_iff hv ht hside, distinct_self_iff hv ht hside]
    simp only [Context.BringsAny, not_or, not_exists, not_and]
    exact and_comm
  rw [fault?_eq_none, hbrings, hapart']
  simp only [hdistinct']
  constructor
  · rintro ⟨⟨_, hself⟩, hrest⟩
    exact ⟨hself, fun side => (hrest side).2⟩
  · rintro ⟨hself, hrest⟩
    refine ⟨⟨fun w hw => hblocks w (mem_of_mem_middle hmem hw), hself⟩,
      fun side => ⟨fun w hw => ?_, hrest side⟩⟩
    exact (hsides side).1 w (mem_of_mem_middle hmem hw)

end Self

end BuiltIns

section EntryPoint

variable {cx : Context} {e : EntryPoint} {vs : List InterfaceVar} {front back : List Id} {x : Id}
variable (hglobals : Listing.listsGlobals cx = false) (hinterface : e.interface = front ++ back)
variable (hx : x ∈ e.interface)

include hglobals hinterface hx

theorem Listing.listedVars_twice (h : listedVars cx e = .ok vs) : ∃ vfront vback v,
    vs = vfront ++ vback ∧ v ∈ vs ∧ v.id = x ∧
      listedVars cx { e with interface := front ++ x :: back } = .ok (vfront ++ v :: vback) := by
  obtain ⟨_, hids, hlisted⟩ := listedVars_eq_ok.1 h
  rw [← hids] at hx
  obtain ⟨v, hv, rfl⟩ := List.mem_map.1 hx
  rw [hinterface] at hids
  obtain ⟨vfront, vback, rfl, rfl, rfl⟩ := List.map_eq_append_iff.1 hids
  refine ⟨vfront, vback, v, rfl, hv, rfl, listedVars_eq_ok.2 ⟨?_, by simp, fun w hw => ?_⟩⟩
  · rw [hglobals]
    nofun
  · exact hlisted w (mem_of_mem_middle hv hw)

/-- An entry point that passes does so with the id listed twice if it brings no built-ins. -/
theorem Interface.checkEntryPoint_twice {rs : List Record} (ht : cx.table = .ofRecords rs)
    (h : checkEntryPoint cx e = .ok ()) :
    checkEntryPoint cx { e with interface := front ++ x :: back } = .ok () ↔
      ¬ cx.BringsAny x := by
  obtain ⟨vs, hvs, hfault⟩ := checkEntryPoint_eq_ok.1 h
  obtain ⟨vfront, vback, v, rfl, hv, rfl, hvs'⟩ :=
    Listing.listedVars_twice hglobals hinterface hx hvs
  obtain ⟨hbuiltIns, hpush, _, hinterpolation, hperVertex⟩ := fault?_eq_none.1 hfault
  have hside := Listing.isInOrOut_of_mem hglobals hvs hv
  have htwice := BuiltIns.fault?_twice ((Listing.mem_listedVars hvs).1 hv).2 ht hside hv hbuiltIns
  have hforall : ∀ w ∈ vfront ++ v :: vback, w ∈ vfront ++ vback := fun w =>
    mem_of_mem_middle hv
  have hworkgroup : Shared.workgroupFault? cx (vfront ++ v :: vback) e.function = none := by
    rw [Shared.workgroupFault?_eq_none, Shared.workgroupBlocks,
      Shared.workgroup_eq_nil fun w hw => Listing.isInOrOut_of_mem hglobals hvs (hforall w hw)]
    exact .inl rfl
  rw [← htwice, checkEntryPoint_eq_ok]
  constructor
  · rintro ⟨ws, hws, hfault'⟩
    rw [hvs'] at hws
    cases hws
    exact (fault?_eq_none.1 hfault').1
  · intro hbuiltIns'
    exact ⟨_, hvs', fault?_eq_none.2 ⟨hbuiltIns', hpush, hworkgroup,
      fun hvulkan w hw => hinterpolation hvulkan w (hforall w hw),
      fun w hw => hperVertex w (hforall w hw)⟩⟩

end EntryPoint

namespace Module

variable {m : Module} {o : Options} {t : Table} {ix : Index}

theorem validate_of_passes (hversion : m.checkVersion o.targetEnv = .ok ())
    (hix : Index.ofModule m = .ok ix) (ht : Table.ofIndex ix = .ok t)
    (hpasses : Context.Passes ⟨ix, t, o⟩) :
    m.validate o = (Interface.check ⟨ix, t, o⟩).mapError .interface >>= fun _ => pure t := by
  have hcontext : m.context o = .ok ⟨ix, t, o⟩ := context_eq_ok.2 ⟨ix, t, hix, ht, rfl⟩
  rw [validate, hversion, hcontext]
  show Context.check _ >>= _ = _
  rw [hpasses.check_eq]
  rfl

/-- Before version 1.4 an entry point may list a variable once more that brings no built-ins, and
may not if it brings some. -/
theorem validate_relisting {before after : List Instruction} {i : Instruction} {e : EntryPoint}
    {x : Id} (hversion : m.statedVersion.atLeast .v1_4 = false) (h : m.validate o = .ok t)
    (hm : m.entryPoints = before ++ i :: after) (hop : i.op = .opEntryPoint)
    (he : EntryPoint.ofInstruction? i = some e) (hx : x ∈ e.interface) (n : Nat) :
    ∃ ix, Index.ofModule m = .ok ix ∧
      (¬ Context.BringsAny ⟨ix, t, o⟩ x →
        (m.withEntryPoints (before ++ i.relisting n x :: after)).validate o = .ok t) ∧
      (Context.BringsAny ⟨ix, t, o⟩ x →
        ∃ f, (m.withEntryPoints (before ++ i.relisting n x :: after)).validate o =
          .error (.interface f)) := by
  obtain ⟨hceiling, ix, hix, ht, haccepts⟩ := validate_eq_ok.1 h
  obtain ⟨rs, _, htable⟩ := Table.ofIndex_eq_ok.1 ht
  obtain ⟨p, hp, hxp⟩ := (EntryPoint.mem_interface_iff he).1 hx
  have hlength := Nat.le_of_lt (Nat.lt_of_le_of_lt hp (Instruction.lt_length_of_idAt? hxp))
  have hij : i.Alike (i.relisting n x) := Instruction.alike_relisting hop hp hxp
  obtain ⟨front, back, hinterface, he'⟩ := EntryPoint.ofInstruction?_relisting he hlength n x
  obtain ⟨ix', hix', hagrees, hposition, hname, efront, eback, heps, heps'⟩ :=
    Index.exists_agrees_withEntryPoints hm he he' hij rfl rfl hix
  have ht' := Table.ofIndex_withEntryPoints hm hij hix hix' hagrees hposition ht
  have hcontexts : Context.Agrees ⟨ix', t, o⟩ ⟨ix, t, o⟩ := ⟨hagrees, ⟨rfl, fun _ => rfl⟩, rfl⟩
  obtain ⟨hpasses, hinterfaces⟩ := Context.accepts_iff.1 haccepts
  have hpasses' : Context.Passes ⟨ix', t, o⟩ := (Context.passes_agrees hcontexts
    (fun _ => .refl _) (.inr ⟨rfl, fun _ => rfl⟩)).2 hpasses
  have hglobals : Listing.listsGlobals ⟨ix, t, o⟩ = false := by
    rw [Listing.listsGlobals, Index.version, Index.module_eq hix, hversion]
  have hentries := forM_eq_ok.1 (mapError_eq_ok.1 hinterfaces)
  rw [heps, List.forall_mem_append, List.forall_mem_cons] at hentries
  obtain ⟨hfront, hentry, hback⟩ := hentries
  have htwice := Interface.checkEntryPoint_twice hglobals hinterface hx htable hentry
  have hcheck : Interface.check ⟨ix', t, o⟩ = .ok () ↔ ¬ Context.BringsAny ⟨ix, t, o⟩ x := by
    rw [Interface.check, heps', Interface.checkEntryPoint_agrees hcontexts hname, forM_eq_ok,
      List.forall_mem_append, List.forall_mem_cons, htwice]
    exact ⟨fun hall => hall.2.1, fun hbrings => ⟨hfront, hbrings, hback⟩⟩
  have hceiling' : (m.withEntryPoints (before ++ i.relisting n x :: after)).checkVersion
      o.targetEnv = .ok () := hceiling
  have hvalidate := validate_of_passes hceiling' hix' ht' hpasses'
  refine ⟨ix, hix, fun hbrings => ?_, fun hbrings => ?_⟩
  · rw [hvalidate, hcheck.2 hbrings]
    rfl
  · rw [hvalidate]
    cases hfault : Interface.check ⟨ix', t, o⟩ with
    | ok _ => exact absurd hbrings (hcheck.1 hfault)
    | error f => exact ⟨f, rfl⟩

def fragmentEntry : Instruction :=
  ⟨.opEntryPoint, none, none, [.executionModel .fragment, .id 20, .text "main", .id 6, .id 7]⟩

def fragmentInputs : Module where
  version := some ⟨1, 0⟩
  entryPoints := [fragmentEntry]
  annotations := [.decorating 6 .location [.literal 0],
    .decorating 7 .builtIn [.builtIn .fragCoord]]
  globals := [.declaring .opTypeFloat 1 [.literal 32],
    .declaring .opTypeVector 2 [.id 1, .literal 4],
    .declaring .opTypePointer 3 [.storageClass .input, .id 2],
    ⟨.opVariable, some 3, some 6, [.storageClass .input]⟩,
    ⟨.opVariable, some 3, some 7, [.storageClass .input]⟩]
  functions := [.ofBody 20 []]

theorem validate_relisting_fragmentInputs :
    ∃ t, fragmentInputs.validate {} = .ok t ∧
      (fragmentInputs.withEntryPoints [fragmentEntry.relisting 1 6]).validate {} = .ok t ∧
      ∃ f, (fragmentInputs.withEntryPoints [fragmentEntry.relisting 1 7]).validate {} =
        .error (.interface f) := by
  have hrun : bothPass (fragmentInputs.validate {}) (Index.ofModule fragmentInputs) (fun t ix =>
      decide (t.applied 6 = [⟨.location, [.literal 0], none⟩] ∧
        t.applied 7 = [⟨.builtIn, [.builtIn .fragCoord], none⟩] ∧
        ix.pointer? 6 = some (.input, 2) ∧ ix.element? 2 = none ∧
        (ix.type? 2).any TypeView.isStruct = false)) = true := by
    decide +kernel
  obtain ⟨t, ix, ht, hix, hq⟩ := exists_of_bothPass hrun
  obtain ⟨hplain, hbuiltIn, hpointer, helement, hstruct⟩ := of_decide_eq_true hq
  have hunresolved : ∀ s, ¬ Context.Resolves ⟨ix, t, {}⟩ 6 s := by
    rintro s ⟨c, pointee, hp, hstrips, hs⟩
    cases hpointer.symm.trans hp
    rcases hstrips.cases_head with rfl | ⟨_, he, _⟩
    · rw [hstruct] at hs
      cases hs
    · rw [helement] at he
      cases he
  have hm : fragmentInputs.entryPoints = [] ++ fragmentEntry :: [] := rfl
  have he : EntryPoint.ofInstruction? fragmentEntry = some ⟨.fragment, 20, "main", [6, 7]⟩ := rfl
  obtain ⟨_, hix', hok, _⟩ := validate_relisting (x := 6) rfl ht hm rfl he (by decide) 1
  cases hix.symm.trans hix'
  obtain ⟨_, hix', _, herror⟩ := validate_relisting (x := 7) rfl ht hm rfl he (by decide) 1
  cases hix.symm.trans hix'
  refine ⟨t, ht, hok ?_, herror ?_⟩
  · rintro (⟨d, _, ⟨hkind, ⟨(hd : d ∈ t.applied 6), _⟩ | ⟨s, hs, _⟩⟩, _⟩ | ⟨s, hs, _⟩)
    · rw [hplain, List.mem_singleton] at hd
      rw [hd] at hkind
      cases hkind
    · exact hunresolved s hs
    · exact hunresolved s hs
  · have hmem : (⟨.builtIn, [.builtIn .fragCoord], none⟩ : Decoration) ∈ t.applied 7 := by
      rw [hbuiltIn]
      exact List.mem_singleton_self _
    exact .inl ⟨_, .fragCoord, ⟨rfl, .inl ⟨hmem, rfl⟩⟩, rfl⟩

/-- A module below version 1.4 is refused for one built-in, listed twice. -/
theorem fragmentInputs_refused :
    fragmentInputs.statedVersion.atLeast .v1_4 = false ∧
      (∃ t, fragmentInputs.validate {} = .ok t) ∧
      fragmentInputs.entryPoints = [fragmentEntry] ∧
      (∃ e, EntryPoint.ofInstruction? fragmentEntry = some e ∧ e.interface = [6, 7]) ∧
      (∃ e, EntryPoint.ofInstruction? (fragmentEntry.relisting 1 7) = some e ∧
        e.interface = [6, 7, 7]) ∧
      (fragmentInputs.withEntryPoints [fragmentEntry.relisting 1 7]).validate {} =
        .error (.interface (.repeatedBuiltIn 7 .fragCoord .input)) := by
  have hrun : (fragmentInputs.validate {}).toOption.any (fun _ => true) = true := by
    decide +kernel
  obtain ⟨t, ht, _⟩ := exists_of_any hrun
  exact ⟨rfl, ⟨t, ht⟩, rfl, ⟨_, rfl, rfl⟩, ⟨_, rfl, rfl⟩, rfl⟩

end Module

end SpirvRules
