import SpirvRules.Proofs.Index.Agreement

/-!
# Indexes of modules that differ in numbers

The index of a module answers alike whatever the numbers are that its decorations lay out memory
with, and has every definition at the same position.
-/

set_option autoImplicit false

namespace SpirvRules

open Outcome

theorem Located.usesOf_unnumbered (l : Located) :
    Index.usesOf l.unnumbered = (Index.usesOf l).map (Prod.map id Use.unnumbered) := by
  obtain ⟨i, n, function⟩ := l
  cases function with
  | none => rfl
  | some f =>
    simp only [Index.usesOf, unnumbered, Instruction.idOperands_unnumbered, List.map_map]
    rfl

namespace Module

variable {m m' : Module} (hm : m.unnumbered = m'.unnumbered)

include hm

theorem stream_alike : m.stream.map Located.unnumbered = m'.stream.map Located.unnumbered := by
  rw [← stream_unnumbered, hm, stream_unnumbered]

theorem declares_alike (c : Capability) : m.declares c = m'.declares c := by
  have hcapabilities : m.capabilities.map Instruction.unnumbered =
      m'.capabilities.map Instruction.unnumbered := congrArg Module.capabilities hm
  apply any_eq_of_alike hcapabilities
  intro i
  rw [Instruction.head?_operands_unnumbered]

theorem hasExtension_alike (name : String) : m.hasExtension name = m'.hasExtension name := by
  have hextensions : m.extensions.map Instruction.unnumbered =
      m'.extensions.map Instruction.unnumbered := congrArg Module.extensions hm
  apply any_eq_of_alike hextensions
  intro i
  rw [Instruction.head?_operands_unnumbered]

end Module

namespace Index

variable {m m' : Module} {ix ix' : Index} (hm : m.unnumbered = m'.unnumbered)

include hm

theorem entryPointsOf_alike : entryPointsOf m = entryPointsOf m' := by
  have hentries : m.entryPoints.map Instruction.unnumbered =
      m'.entryPoints.map Instruction.unnumbered := congrArg Module.entryPoints hm
  apply mapM_eq_of_alike hentries
  intro i
  rw [EntryPoint.ofInstruction?_unnumbered]

theorem callGraph_alike_numbers :
    CallGraph.ofStream m.stream = CallGraph.ofStream m'.stream := by
  rw [CallGraph.ofStream, flatMap_eq_of_alike (Module.stream_alike hm) Located.mentions_unnumbered,
    filterMap_eq_of_alike (Module.stream_alike hm) Located.call?_unnumbered, ← CallGraph.ofStream]

theorem exists_ofModule_renumbered (h : ofModule m = .ok ix) : ∃ ix', ofModule m' = .ok ix' := by
  obtain ⟨defs, eps, hdefs, heps, _⟩ := ofModule_eq_ok.1 h
  have hresults : results m.stream = results m'.stream :=
    filterMap_eq_of_alike (Module.stream_alike hm) fun l => l.inst.result_unnumbered
  have hdefine : ∃ defs', define m'.stream ∅ = .ok defs' := by
    rw [exists_define_iff, ← hresults]
    exact exists_define_iff.1 ⟨defs, hdefs⟩
  obtain ⟨defs', hdefs'⟩ := hdefine
  rw [entryPointsOf_alike hm] at heps
  exact ⟨_, ofModule_eq_ok.2 ⟨defs', eps, hdefs', heps, rfl⟩⟩

variable (h : ofModule m = .ok ix) (h' : ofModule m' = .ok ix')

include h h'

theorem def?_some_renumbered {id : Id} {l : Located} (hl : ix.def? id = some l) :
    ∃ k, ix'.def? id = some k ∧ k.unnumbered = l.unnumbered := by
  obtain ⟨hmem, hid⟩ := (def?_eq_some_iff h).1 hl
  have hunnumbered : l.unnumbered ∈ m.stream.map Located.unnumbered := List.mem_map_of_mem hmem
  rw [Module.stream_alike hm] at hunnumbered
  obtain ⟨k, hk, hkl⟩ := List.mem_map.1 hunnumbered
  have hresult : k.unnumbered.inst.result = l.unnumbered.inst.result := by rw [hkl]
  refine ⟨k, (def?_eq_some_iff h').2 ⟨hk, ?_⟩, hkl⟩
  rw [← k.inst.result_unnumbered, ← hid, ← l.inst.result_unnumbered]
  exact hresult

theorem def?_renumbered (id : Id) :
    (ix'.def? id).map Located.unnumbered = (ix.def? id).map Located.unnumbered := by
  cases hl : ix.def? id with
  | some l =>
    obtain ⟨k, hk, hkl⟩ := def?_some_renumbered hm h h' hl
    rw [hk, Option.map_some, Option.map_some, hkl]
  | none =>
    cases hk : ix'.def? id with
    | none => rfl
    | some k =>
      obtain ⟨l, hl', _⟩ := def?_some_renumbered hm.symm h' h hk
      rw [hl] at hl'
      cases hl'

theorem map_def?_renumbered {β : Type} {f : Located → β} (hf : ∀ l, f l.unnumbered = f l)
    (id : Id) : (ix'.def? id).map f = (ix.def? id).map f := by
  have hmap : ∀ o : Option Located, o.map f = (o.map Located.unnumbered).map f := by
    intro o
    cases o with
    | none => rfl
    | some l => exact congrArg some (hf l).symm
  rw [hmap, def?_renumbered hm h h', ← hmap]

omit h h' in
theorem uses_alike (id : Id) :
    ((Grouping.ofPairs (m'.stream.flatMap usesOf)).under id).map Use.unnumbered =
      ((Grouping.ofPairs (m.stream.flatMap usesOf)).under id).map Use.unnumbered := by
  have huses : ∀ ls : List Located,
      ((Grouping.ofPairs (ls.flatMap usesOf)).under id).map Use.unnumbered =
        (Grouping.ofPairs ((ls.map Located.unnumbered).flatMap usesOf)).under id := by
    intro ls
    rw [Grouping.under_ofPairs, Grouping.under_ofPairs, List.flatMap_map,
      funext Located.usesOf_unnumbered, ← List.map_flatMap, List.filter_map, List.map_map,
      List.map_map]
    rfl
  rw [huses, huses, Module.stream_alike hm]

omit h h' in
theorem alike_renumbered : m'.Alike m where
  version := by
    show m'.unnumbered.version = m.unnumbered.version
    rw [hm]
  declares := Module.declares_alike hm.symm
  hasExtension := Module.hasExtension_alike hm.symm
  globals := by
    show m'.unnumbered.globals = m.unnumbered.globals
    rw [hm]
  entryFunctions := by
    have hentries : m'.entryPoints.map Instruction.unnumbered =
        m.entryPoints.map Instruction.unnumbered := congrArg Module.entryPoints hm.symm
    exact filterMap_eq_of_alike hentries fun i => i.idAt?_unnumbered 1
  used := fun f id => by rw [callGraph_alike_numbers hm]
  uses := fun id r => by rw [map_eq_of_alike (uses_alike hm id) Use.read_unnumbered]

theorem agrees_renumbered : ix'.Agrees ix := by
  apply (alike_renumbered hm).agrees h' h
  apply map_def?_renumbered hm h h'
  intro l
  show (l.inst.unnumbered.read, l.function) = (l.inst.read, l.function)
  rw [Instruction.read_unnumbered]

theorem entryPoints_renumbered : ix'.entryPoints = ix.entryPoints :=
  entryPoints_congr h' h (entryPointsOf_alike hm).symm

theorem name?_renumbered (id : Id) : ix'.name? id = ix.name? id := by
  have hnames : m.debugNames.map Instruction.unnumbered =
      m'.debugNames.map Instruction.unnumbered := congrArg Module.debugNames hm
  rw [name?, name?, entryPoints_renumbered hm h h', module_eq h, module_eq h',
    filterMap_eq_of_alike hnames nameGiven?_unnumbered]

end Index

end SpirvRules
