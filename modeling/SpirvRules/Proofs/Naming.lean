import SpirvRules.Proofs.Decoration.Agreement
import SpirvRules.Proofs.Environment
import SpirvRules.Proofs.Index.Naming
import SpirvRules.Proofs.Rule.Agreement

/-!
# What debug names decide

Only the report of an id that an interface lists twice gives a name. A module has the same table
with other names, or is refused for the same cause, and the reports are the same but for that name.
-/

set_option autoImplicit false

namespace SpirvRules

open Outcome

namespace InterfaceFault

def unnamed : InterfaceFault → InterfaceFault
  | .repeated id _ => .repeated id none
  | f => f

/-- Faults that are the same without names are so with them, unless they give one. -/
theorem eq_or_repeated_of_unnamed {f f' : InterfaceFault} (h : f.unnamed = f'.unnamed) :
    f = f' ∨ ∃ id name name', f = .repeated id name ∧ f' = .repeated id name' := by
  unfold unnamed at h
  split at h
  · split at h
    · next id name _ id' name' =>
      cases h
      exact .inr ⟨id, name, name', rfl, rfl⟩
    · next hne => exact absurd h.symm (hne _ _)
  · split at h
    · next hne _ _ _ => exact absurd h (hne _ _)
    · exact .inl h

end InterfaceFault

def Cause.unnamed : Cause → Cause
  | .interface f => .interface f.unnamed
  | c => c

/-- Two reports that differ at most in the name of an id that an interface lists twice. -/
structure Report.Alike (r r' : Report) : Prop where
  category : r.category = r'.category
  id : r.id = r'.id
  vuid : r.vuid = r'.vuid
  message : r.message = r'.message ∨ ∃ id name name',
    r.message = (InterfaceFault.repeated id name).report.message ∧
      r'.message = (InterfaceFault.repeated id name').report.message

theorem Report.alike_refl (r : Report) : r.Alike r := ⟨rfl, rfl, rfl, .inl rfl⟩

theorem Cause.alike_of_unnamed {c c' : Cause} (h : c.unnamed = c'.unnamed) (env : TargetEnv) :
    Option.Rel Report.Alike (c.report?.map (·.within env)) (c'.report?.map (·.within env)) := by
  have hsame : c = c' ∨ ∃ id name name',
      c = .interface (.repeated id name) ∧ c' = .interface (.repeated id name') := by
    unfold unnamed at h
    split at h
    · split at h
      · rcases InterfaceFault.eq_or_repeated_of_unnamed (Cause.interface.inj h) with
          rfl | ⟨id, name, name', rfl, rfl⟩
        · exact .inl rfl
        · exact .inr ⟨id, name, name', rfl, rfl⟩
      · next hne => exact absurd h.symm (hne _)
    · split at h
      · next hne _ _ => exact absurd h (hne _)
      · exact .inl h
  rcases hsame with rfl | ⟨id, name, name', rfl, rfl⟩
  · cases c.report? with
    | none => exact .none
    | some r => exact .some (Report.alike_refl _)
  · exact .some ⟨rfl, rfl, rfl, .inr ⟨id, name, name', rfl, rfl⟩⟩

namespace Table

variable {m : Module} {ix ix' : Index} (h : m.OnlyNames)
variable (hix : Index.ofModule m = .ok ix) (hix' : Index.ofModule m.unnamed = .ok ix')

include h hix hix'

theorem paramsAlike_names : ParamsAlike ix ix' := by
  intro id l k hl hk _
  rw [Index.def?_names h hix hix', hk, Option.map_some, Option.some.injEq] at hl
  subst hl
  funext param
  unfold checkIdParam
  rw [Index.def?_names h hix hix']
  cases ix'.def? param with
  | none => rfl
  | some p => simp only [Option.map_some, Module.position_moved]

theorem ofIndex_names : ofIndex ix = ofIndex ix' := by
  have hagrees := Index.agrees_names h hix hix'
  have hmodule : ix.module.unnamed = ix'.module := by rw [Index.module_eq hix, Index.module_eq hix']
  have hannotations : ix.module.annotations = ix'.module.annotations := by
    rw [← hmodule]
    rfl
  have hgroups : groups ix = groups ix' := by
    rw [groups, hannotations, ← groups]
  have hmisused : misusedGroup? ix = misusedGroup? ix' := by
    unfold misusedGroup?
    rw [hgroups, Index.uses_names h hix hix', ← hmodule]
    rfl
  have hrecords : records ix = records ix' := by
    rw [records, directRecord_agrees hagrees (paramsAlike_names h hix hix'),
      expand_agrees hagrees fun g => by rw [hgroups], hannotations, hmisused, ← records]
  rw [ofIndex, hrecords, ← ofIndex]

end Table

section Checks

variable {cx cx' : Context} (h : cx.Agrees cx')

include h

theorem Interface.check_names (hentries : cx.index.entryPoints = cx'.index.entryPoints) :
    (check cx).mapError InterfaceFault.unnamed = (check cx').mapError InterfaceFault.unnamed := by
  -- nothing but the check of repetitions reads names
  have hunique : ∀ e, (Listing.checkUnique cx e).mapError InterfaceFault.unnamed =
      (Listing.checkUnique cx' e).mapError InterfaceFault.unnamed := by
    intro e
    rw [Listing.checkUnique, Listing.checkUnique, listsGlobals_agrees h]
    split
    · split <;> rfl
    · rfl
  have hvars : ∀ e, (Listing.listedVars cx e).mapError InterfaceFault.unnamed =
      (Listing.listedVars cx' e).mapError InterfaceFault.unnamed := by
    intro e
    rw [Listing.listedVars, Listing.listedVars, mapError_bind, mapError_bind, hunique,
      listed_agrees h]
  have hentry : ∀ e, (checkEntryPoint cx e).mapError InterfaceFault.unnamed =
      (checkEntryPoint cx' e).mapError InterfaceFault.unnamed := by
    intro e
    rw [checkEntryPoint, checkEntryPoint, mapError_bind, mapError_bind, hvars, fault?_agrees h]
  rw [check, check, mapError_forM, mapError_forM, funext hentry, hentries]

theorem Context.check_names (hentries : cx.index.entryPoints = cx'.index.entryPoints)
    (huses : cx.index.usesOfId = cx'.index.usesOfId) (htable : cx.table = cx'.table) :
    cx.check.mapError Cause.unnamed = cx'.check.mapError Cause.unnamed := by
  have htables : cx.table.Agrees cx'.table := by
    rw [htable]
    exact ⟨rfl, fun _ => rfl⟩
  have hinterfaces : cx.checkInterfaces.mapError Cause.unnamed =
      cx'.checkInterfaces.mapError Cause.unnamed := by
    have hparted : ∀ x : Except InterfaceFault Unit, (x.mapError Cause.interface).mapError
        Cause.unnamed = (x.mapError InterfaceFault.unnamed).mapError Cause.interface := by
      intro x
      rw [mapError_mapError, mapError_mapError]
      rfl
    rw [checkInterfaces, checkInterfaces, hparted, hparted, Interface.check_names h hentries]
  simp only [check, mapError_bind, hinterfaces, checkTargets, checkRepetition, checkBuiltInStructs,
    checkBuffers, Target.check_congr h huses htable, BuiltInStruct.check_agrees h,
    Buffer.check_agrees h (.inr htables)]
  rw [htable]

end Checks

namespace Module

variable {m m' : Module}

theorem context_of_index {ix : Index} (hix : Index.ofModule m = .ok ix) (o : Options) :
    m.context o = (Table.ofIndex ix).mapError Cause.table >>= fun t => pure ⟨ix, t, o⟩ := by
  rw [context, hix]
  rfl

theorem context_names (h : m.OnlyNames) (o : Options) :
    (∃ c, m.context o = .error c ∧ m.unnamed.context o = .error c) ∨
      ∃ cx cx', m.context o = .ok cx ∧ m.unnamed.context o = .ok cx' ∧ cx.Agrees cx' ∧
        cx.index.entryPoints = cx'.index.entryPoints ∧
        cx.index.usesOfId = cx'.index.usesOfId ∧ cx.table = cx'.table := by
  rcases alike_of_map_eq (Index.ofModule_names h) with ⟨f, hf, hf'⟩ | ⟨ix, ix', hix, hix'⟩
  · rw [context, context, hf, hf']
    exact .inl ⟨.index f, rfl, rfl⟩
  · rw [context_of_index hix, context_of_index hix', Table.ofIndex_names h hix hix']
    cases Table.ofIndex ix' with
    | error f => exact .inl ⟨.table f, rfl, rfl⟩
    | ok t =>
      have hagrees : Context.Agrees ⟨ix, t, o⟩ ⟨ix', t, o⟩ :=
        ⟨Index.agrees_names h hix hix', ⟨rfl, fun _ => rfl⟩, rfl⟩
      exact .inr ⟨_, _, rfl, rfl, hagrees, Index.entryPoints_names hix hix',
        Index.uses_names h hix hix', rfl⟩

/-- Without its names a module is refused for the same cause, or it passes with the same table. -/
theorem validate_unnamed (h : m.OnlyNames) (o : Options) :
    (m.validate o).mapError Cause.unnamed = (m.unnamed.validate o).mapError Cause.unnamed := by
  have hversion : m.unnamed.checkVersion o.targetEnv = m.checkVersion o.targetEnv := rfl
  rw [validate, validate, hversion]
  simp only [mapError_bind]
  apply bind_congr
  intro _
  rcases context_names h o with
    ⟨c, hc, hc'⟩ | ⟨cx, cx', hcx, hcx', hagrees, hentries, huses, htable⟩
  · rw [hc, hc']
  · rw [hcx, hcx']
    show cx.check.mapError _ >>= (fun _ => pure cx.table) =
      cx'.check.mapError _ >>= fun _ => pure cx'.table
    rw [Context.check_names hagrees hentries huses htable, htable]

/-- With other names a module has the same table, or is refused with a report that is the same but
for the name of an id that an interface lists twice, or with none in both cases. -/
theorem verdict_named (hm : m.unnamed = m'.unnamed) (h : m.OnlyNames) (h' : m'.OnlyNames)
    (o : Options) :
    (∃ t, m.verdict o = .ok t ∧ m'.verdict o = .ok t) ∨
      ∃ r r', m.verdict o = .error r ∧ m'.verdict o = .error r' ∧
        Option.Rel Report.Alike r r' := by
  have heq : (m.validate o).mapError Cause.unnamed = (m'.validate o).mapError Cause.unnamed := by
    rw [validate_unnamed h, validate_unnamed h', hm]
  unfold verdict
  rcases alike_of_mapError_eq heq with ⟨t, ht, ht'⟩ | ⟨c, c', hc, hc', hcause⟩
  · rw [ht, ht']
    exact .inl ⟨t, rfl, rfl⟩
  · rw [hc, hc']
    exact .inr ⟨_, _, rfl, rfl, Cause.alike_of_unnamed hcause o.targetEnv⟩

def listedTwice (name : String) : Module where
  version := some .v1_4
  entryPoints := [⟨.opEntryPoint, none, none,
    [.executionModel .glCompute, .id 1, .text "main", .id 2, .id 2]⟩]
  debugNames := [⟨.opName, none, none, [.id 2, .text name]⟩]

/-- Two names for the variable give two messages. -/
theorem verdict_named_listedTwice :
    ∃ r r', (listedTwice "a").verdict { targetEnv := .spv14 } = .error (some r) ∧
      (listedTwice "b").verdict { targetEnv := .spv14 } = .error (some r') ∧ r.Alike r' ∧
      r.message ≠ r'.message := by
  have honly : ∀ name, (listedTwice name).OnlyNames := by
    intro name
    constructor
    · intro i hi
      rw [List.mem_singleton.1 hi]
    · exact .inl rfl
  have hmessages : ((listedTwice "a").reported? { targetEnv := .spv14 }).any (fun r =>
      ((listedTwice "b").reported? { targetEnv := .spv14 }).any fun r' =>
        decide (r.message ≠ r'.message)) = true := by
    decide +kernel
  obtain ⟨s, hs, hmessages⟩ := (Option.any_eq_true _ _).1 hmessages
  obtain ⟨s', hs', hne⟩ := (Option.any_eq_true _ _).1 hmessages
  rw [reported?_eq_some] at hs hs'
  have hm : (listedTwice "a").unnamed = (listedTwice "b").unnamed := rfl
  rcases verdict_named hm (honly "a") (honly "b") { targetEnv := .spv14 } with
    ⟨t, ht, _⟩ | ⟨r, r', hr, hr', halike⟩
  · cases hs.symm.trans ht
  · cases hs.symm.trans hr
    cases hs'.symm.trans hr'
    cases halike with
    | some halike => exact ⟨s, s', hs, hs', halike, of_decide_eq_true hne⟩

def openModule (names : List Instruction) : Module where
  executionModes := [.declaring .opFunction 9 []]
  debugNames := names
  annotations := [.declaring .opDecorationGroup 1 []]

def groupName : Instruction := ⟨.opName, none, none, [.id 1, .text "x"]⟩

/-- In that function the name is a use of the group, which has none without it. -/
theorem openModule_named :
    (openModule []).unnamed = (openModule [groupName]).unnamed ∧ groupName.result = none ∧
      (∃ t, (openModule []).validate {} = .ok t) ∧
      (openModule [groupName]).validate {} = .error (.table (.groupUsed 1)) := by
  have hopen : ((openModule []).validate {}).toOption.any (fun _ => true) = true := by
    decide +kernel
  obtain ⟨t, ht, _⟩ := exists_of_any hopen
  exact ⟨rfl, rfl, ⟨t, ht⟩, rfl⟩

end Module

end SpirvRules
