import SpirvRules.Proofs.Index.Agreement
import SpirvRules.Proofs.Index.StaticUse

/-!
# An id listed once more

An entry point that lists an id once more defines and uses no more than before. The index of the
module gives the same answers then, with every definition at the same position, and has the same
entry points but for that list.
-/

set_option autoImplicit false

namespace SpirvRules

open Outcome

section Related

variable {α β γ : Type} {R : α → β → Prop} {as : List α} {bs : List β}

theorem exists_mem_iff_of_forall₂ (h : List.Forall₂ R as bs) {P : α → Prop} {Q : β → Prop}
    (hPQ : ∀ a b, R a b → (P a ↔ Q b)) : (∃ a ∈ as, P a) ↔ ∃ b ∈ bs, Q b := by
  induction h with
  | nil => simp
  | cons hr _ ih => rw [List.exists_mem_cons_iff, List.exists_mem_cons_iff, hPQ _ _ hr, ih]

theorem filterMap_eq_of_forall₂ (h : List.Forall₂ R as bs) {f : α → Option γ} {g : β → Option γ}
    (hfg : ∀ a b, R a b → f a = g b) : as.filterMap f = bs.filterMap g := by
  induction h with
  | nil => rfl
  | cons hr _ ih => rw [List.filterMap_cons, List.filterMap_cons, hfg _ _ hr, ih]

end Related

namespace EntryPoint

variable {i : Instruction} {e : EntryPoint} {x : Id}

theorem ofInstruction?_eq_some : ofInstruction? i = some e ↔
    i.operand? 0 = some (.executionModel e.model) ∧ i.idAt? 1 = some e.function ∧
      (i.operands.map textOf)[2]?.getD "" = e.name ∧
      (i.operands.drop 3).filterMap Operand.anyId? = e.interface := by
  rw [ofInstruction?_eq]
  obtain ⟨model, function, name, interface⟩ := e
  split
  · next model' function' hmodel hfunction => simp [hmodel, hfunction]
  · next hnone =>
    simp only [reduceCtorEq, false_iff]
    rintro ⟨hmodel, hfunction, _⟩
    exact hnone _ _ hmodel hfunction

theorem mem_interface_iff (he : ofInstruction? i = some e) :
    x ∈ e.interface ↔ ∃ p, 3 ≤ p ∧ i.idAt? p = some x := by
  rw [← (ofInstruction?_eq_some.1 he).2.2.2, List.mem_filterMap]
  simp only [List.mem_iff_getElem?, List.getElem?_drop, Instruction.idAt?, Instruction.operand?,
    Option.bind_eq_some_iff]
  constructor
  · rintro ⟨o, ⟨p, ho⟩, hx⟩
    exact ⟨3 + p, Nat.le_add_right 3 p, o, ho, hx⟩
  · rintro ⟨p, hp, o, ho, hx⟩
    obtain ⟨q, rfl⟩ := Nat.exists_eq_add_of_le hp
    exact ⟨o, ⟨q, ho⟩, hx⟩

end EntryPoint

namespace Instruction

variable {i j : Instruction} {n p : Nat} {x y : Id}

/-- Nothing that is asked of an index tells two instructions apart. -/
structure Alike (i j : Instruction) : Prop where
  result : i.result = j.result
  read : i.read = j.read
  uses : ∀ y r, (∃ p, i.idAt? p = some y ∧ Use.read ⟨i, p⟩ = r) ↔
    ∃ p, j.idAt? p = some y ∧ Use.read ⟨j, p⟩ = r

theorem Alike.refl (i : Instruction) : i.Alike i := ⟨rfl, rfl, fun _ _ => .rfl⟩

theorem Alike.symm (h : i.Alike j) : j.Alike i :=
  ⟨h.result.symm, h.read.symm, fun y r => (h.uses y r).symm⟩

theorem Alike.op (h : i.Alike j) : i.op = j.op := (read_eq_iff.1 h.read).1

theorem Alike.idAt?_zero (h : i.Alike j) : i.idAt? 0 = j.idAt? 0 := by
  rw [idAt?, (read_eq_iff.1 h.read).2.2.1, ← idAt?]

theorem Alike.names (h : i.Alike j) (hy : ∃ o ∈ i.operands, o.anyId? = some y) :
    ∃ o ∈ j.operands, o.anyId? = some y := by
  simp only [← exists_mem_idOperands, mem_idOperands] at hy ⊢
  obtain ⟨p, hp⟩ := hy
  obtain ⟨q, hq, _⟩ := (h.uses y _).1 ⟨p, hp, rfl⟩
  exact ⟨q, hq⟩

def relisting (i : Instruction) (n : Nat) (x : Id) : Instruction :=
  { i with operands := i.operands.take (n + 3) ++ .id x :: i.operands.drop (n + 3) }

theorem exists_place_relisting (h : 3 ≤ i.operands.length) : ∃ k, 3 ≤ k ∧
    (∀ p < k, (i.relisting n x).operand? p = i.operand? p) ∧
    (i.relisting n x).operand? k = some (.id x) ∧
    ∀ p, k ≤ p → (i.relisting n x).operand? (p + 1) = i.operand? p := by
  have hsplit := List.take_append_drop (n + 3) i.operands
  have hlength : 3 ≤ (i.operands.take (n + 3)).length := by
    rw [List.length_take]
    omega
  simp only [relisting, operand?]
  generalize i.operands.take (n + 3) = front at *
  generalize i.operands.drop (n + 3) = back at *
  rw [← hsplit]
  refine ⟨front.length, hlength, fun p hp => ?_, ?_, fun p hp => ?_⟩
  · rw [List.getElem?_append_left hp, List.getElem?_append_left hp]
  · rw [List.getElem?_append_right (Nat.le_refl _), Nat.sub_self]
    rfl
  · obtain ⟨q, rfl⟩ := Nat.exists_eq_add_of_le hp
    rw [List.getElem?_append_right (by omega), List.getElem?_append_right (by omega),
      Nat.add_assoc, Nat.add_sub_cancel_left, Nat.add_sub_cancel_left]
    rfl

theorem lt_length_of_idAt? (h : i.idAt? p = some x) : p < i.operands.length := by
  obtain ⟨o, ho, _⟩ := Option.bind_eq_some_iff.1 h
  obtain ⟨hlt, _⟩ := List.getElem?_eq_some_iff.1 ho
  exact hlt

/-- To list an id once more is to use nothing else than before. -/
theorem alike_relisting (hop : i.op = .opEntryPoint) (hp : 3 ≤ p) (hx : i.idAt? p = some x) :
    i.Alike (i.relisting n x) := by
  have hlength : 3 ≤ i.operands.length :=
    Nat.le_of_lt (Nat.lt_of_le_of_lt hp (lt_length_of_idAt? hx))
  obtain ⟨k, hk, hbefore, hat, hbehind⟩ := exists_place_relisting (n := n) (x := x) hlength
  have hfirst : (i.relisting n x).idAt? 0 = i.idAt? 0 := by
    rw [idAt?, hbefore 0 (by omega), ← idAt?]
  -- whichever place an id is at, behind the first three it is read the same
  have hread : ∀ p q, (p = 1 ↔ q = 1) → Use.read ⟨i, p⟩ = Use.read ⟨i.relisting n x, q⟩ := by
    intro p q hpq
    simp only [Use.read, hfirst, hpq]
    rfl
  refine ⟨rfl, ?_, fun y r => ⟨?_, ?_⟩⟩
  · refine read_eq_iff.2 ⟨rfl, rfl, (hbefore 0 (by omega)).symm, ?_⟩
    obtain ⟨op, resultType, result, operands⟩ := i
    cases hop
    rfl
  · rintro ⟨q, hq, rfl⟩
    rcases Nat.lt_or_ge q k with hqk | hqk
    · refine ⟨q, ?_, (hread q q .rfl).symm⟩
      rw [idAt?, hbefore q hqk]
      exact hq
    · refine ⟨q + 1, ?_, (hread q (q + 1) (by omega)).symm⟩
      rw [idAt?, hbehind q hqk]
      exact hq
  · rintro ⟨q, hq, rfl⟩
    rcases Nat.lt_trichotomy q k with hqk | rfl | hqk
    · refine ⟨q, ?_, hread q q .rfl⟩
      rw [idAt?, ← hbefore q hqk]
      exact hq
    · rw [idAt?, hat] at hq
      cases hq
      exact ⟨p, hx, hread p q (by omega)⟩
    · obtain ⟨q, rfl⟩ : ∃ m, q = m + 1 := ⟨q - 1, by omega⟩
      refine ⟨q, ?_, hread q (q + 1) (by omega)⟩
      rw [idAt?, ← hbehind q (by omega)]
      exact hq

end Instruction

theorem EntryPoint.ofInstruction?_relisting {i : Instruction} {e : EntryPoint}
    (he : ofInstruction? i = some e) (h : 3 ≤ i.operands.length) (n : Nat) (x : Id) :
    ∃ front back, e.interface = front ++ back ∧
      ofInstruction? (i.relisting n x) = some { e with interface := front ++ x :: back } := by
  obtain ⟨hmodel, hfunction, hname, hinterface⟩ := ofInstruction?_eq_some.1 he
  obtain ⟨k, hk, hbefore, _⟩ := Instruction.exists_place_relisting (n := n) (x := x) h
  have hfront : 3 ≤ (i.operands.take (n + 3)).length := by
    rw [List.length_take]
    omega
  refine ⟨((i.operands.take (n + 3)).drop 3).filterMap Operand.anyId?,
    (i.operands.drop (n + 3)).filterMap Operand.anyId?, ?_, ofInstruction?_eq_some.2 ?_⟩
  · rw [← hinterface, ← List.filterMap_append, ← List.drop_append_of_le_length hfront,
      List.take_append_drop]
  · refine ⟨?_, ?_, ?_, ?_⟩
    · rw [hbefore 0 (by omega)]
      exact hmodel
    · rw [Instruction.idAt?, hbefore 1 (by omega)]
      exact hfunction
    · have htext := hbefore 2 (by omega)
      rw [Instruction.operand?, Instruction.operand?] at htext
      rw [List.getElem?_map, htext, ← List.getElem?_map]
      exact hname
    · rw [Instruction.relisting, List.drop_append_of_le_length hfront, List.filterMap_append]
      rfl

namespace Located

structure Alike (l k : Located) : Prop where
  inst : l.inst.Alike k.inst
  position : l.position = k.position
  function : l.function = k.function

theorem Alike.symm {l k : Located} (h : l.Alike k) : k.Alike l :=
  ⟨h.inst.symm, h.position.symm, h.function.symm⟩

theorem scan_alike {is js : List Instruction} (h : List.Forall₂ Instruction.Alike is js) (n : Nat)
    (current : Option Id) : List.Forall₂ Alike (scan n current is) (scan n current js) := by
  induction h generalizing n current with
  | nil => exact .nil
  | @cons i j is js hij _ ih =>
    have henter : enter current i = enter current j := by
      rw [enter, hij.op, hij.result, ← enter]
    have hleave : ∀ c, leave c i = leave c j := fun c => by rw [leave, hij.op, ← leave]
    rw [scan, scan, henter, hleave]
    exact .cons ⟨hij, rfl, rfl⟩ (ih _ _)

end Located

namespace Module

def withEntryPoints (m : Module) (is : List Instruction) : Module := { m with entryPoints := is }

variable {m m' : Module} {i j : Instruction} {before after : List Instruction} {f g x : Id}

theorem stream_withEntryPoints (hm : m.entryPoints = before ++ i :: after) (h : i.Alike j) :
    List.Forall₂ Located.Alike m.stream (m.withEntryPoints (before ++ j :: after)).stream := by
  have hrefl : ∀ is : List Instruction, List.Forall₂ Instruction.Alike is is := fun is =>
    List.forall₂_same.2 fun i _ => .refl i
  have happend : ∀ {is js is' js' : List Instruction}, List.Forall₂ Instruction.Alike is js →
      List.Forall₂ Instruction.Alike is' js' →
      List.Forall₂ Instruction.Alike (is ++ is') (js ++ js') := fun h h' => List.rel_append h h'
  apply Located.scan_alike
  simp only [instructions, withEntryPoints, hm]
  iterate 6 refine happend ?_ (hrefl _)
  exact happend (hrefl _) (happend (hrefl _) (.cons h (hrefl _)))

section Alike

variable (h : List.Forall₂ Located.Alike m.stream m'.stream)

include h

theorem mentions_iff_of_alike : m.Mentions f x ↔ m'.Mentions f x := by
  unfold Mentions
  rw [← exists_mem_stream_iff (P := fun i => ∃ o ∈ i.operands, o.anyId? = some x),
    ← exists_mem_stream_iff (P := fun i => ∃ o ∈ i.operands, o.anyId? = some x)]
  apply exists_mem_iff_of_forall₂ h
  intro l k hlk
  rw [hlk.function]
  exact and_congr_right fun _ => ⟨hlk.inst.names, hlk.inst.symm.names⟩

theorem calls_iff_of_alike : m.Calls f g ↔ m'.Calls f g := by
  unfold Calls
  rw [← exists_mem_stream_iff (P := fun i => i.op = .opFunctionCall ∧ i.idAt? 0 = some g),
    ← exists_mem_stream_iff (P := fun i => i.op = .opFunctionCall ∧ i.idAt? 0 = some g)]
  apply exists_mem_iff_of_forall₂ h
  intro l k hlk
  rw [hlk.function, hlk.inst.op, hlk.inst.idAt?_zero]

theorem uses_iff_of_alike : m.Uses f x ↔ m'.Uses f x := by
  have hcalls : m.Calls = m'.Calls := by
    funext f g
    exact propext (calls_iff_of_alike h)
  unfold Uses
  rw [hcalls]
  exact exists_congr fun g => and_congr_right fun _ => mentions_iff_of_alike h

end Alike

end Module

namespace Index

variable {m m' : Module} {ix ix' : Index} {id : Id} {l : Located}
variable (hstream : List.Forall₂ Located.Alike m.stream m'.stream)

include hstream

theorem exists_ofModule_of_alike (h : ofModule m = .ok ix) {eps : List EntryPoint}
    (heps : entryPointsOf m' = .ok eps) : ∃ ix', ofModule m' = .ok ix' := by
  obtain ⟨defs, _, hdefs, _, _⟩ := ofModule_eq_ok.1 h
  have hresults : results m.stream = results m'.stream :=
    filterMap_eq_of_forall₂ hstream fun _ _ hlk => hlk.inst.result
  have hdefine : ∃ defs', define m'.stream ∅ = .ok defs' := by
    rw [exists_define_iff, ← hresults]
    exact exists_define_iff.1 ⟨defs, hdefs⟩
  obtain ⟨defs', hdefs'⟩ := hdefine
  exact ⟨_, ofModule_eq_ok.2 ⟨defs', eps, hdefs', heps, rfl⟩⟩

variable (h : ofModule m = .ok ix) (h' : ofModule m' = .ok ix')

include h h'

theorem exists_def?_of_alike (hl : ix.def? id = some l) :
    ∃ k, ix'.def? id = some k ∧ l.Alike k := by
  obtain ⟨hmem, hid⟩ := (def?_eq_some_iff h).1 hl
  obtain ⟨k, hk, hlk⟩ := Rule.exists_right_of_mem hstream hmem
  exact ⟨k, (def?_eq_some_iff h').2 ⟨hk, by rw [← hlk.inst.result, hid]⟩, hlk⟩

theorem map_def?_of_alike {β : Type} {f : Located → β} (hf : ∀ l k : Located, l.Alike k → f l = f k)
    (id : Id) : (ix'.def? id).map f = (ix.def? id).map f := by
  cases hl : ix.def? id with
  | some l =>
    obtain ⟨k, hk, hlk⟩ := exists_def?_of_alike hstream h h' hl
    rw [hk, Option.map_some, Option.map_some, hf l k hlk]
  | none =>
    cases hk : ix'.def? id with
    | none => rfl
    | some k =>
      have hback := hstream.flip.imp fun _ _ h => h.symm
      obtain ⟨l, hl', _⟩ := exists_def?_of_alike hback h' h hk
      rw [hl] at hl'
      cases hl'

omit h h' in
/-- What is read of the uses of an id in one module is read of some in the other. -/
theorem mem_read_of_alike {r : Opcode × Option Id × Bool}
    (hr : r ∈ ((Grouping.ofPairs (m.stream.flatMap usesOf)).under id).map Use.read) :
    r ∈ ((Grouping.ofPairs (m'.stream.flatMap usesOf)).under id).map Use.read := by
  simp only [List.mem_map, Grouping.mem_under, List.mem_flatMap, mem_usesOf] at hr ⊢
  obtain ⟨⟨_, p⟩, ⟨l, hl, hfunction, rfl, hid⟩, rfl⟩ := hr
  obtain ⟨k, hk, hlk⟩ := Rule.exists_right_of_mem hstream hl
  obtain ⟨q, hq, hread⟩ := (hlk.inst.uses id _).1 ⟨p, Instruction.mem_idOperands.1 hid, rfl⟩
  refine ⟨⟨k.inst, q⟩, ⟨k, hk, ?_, rfl, Instruction.mem_idOperands.2 hq⟩, hread⟩
  rw [← hlk.function, hfunction]

end Index

namespace Index

variable {m : Module} {ix ix' : Index} {i j : Instruction} {before after : List Instruction}
variable {e e' : EntryPoint}

theorem mapM_eq_ok_of_middle {ε α β : Type} {f : α → Except ε β} {as bs : List α} {a : α}
    {cs : List β} : (as ++ a :: bs).mapM f = .ok cs ↔ ∃ front c back, as.mapM f = .ok front ∧
      f a = .ok c ∧ bs.mapM f = .ok back ∧ cs = front ++ c :: back := by
  simp only [List.mapM_append, List.mapM_cons, bind_eq_ok, pure, Except.pure, Except.ok.injEq]
  constructor
  · rintro ⟨front, hfront, _, ⟨c, hc, back, hback, rfl⟩, rfl⟩
    exact ⟨front, c, back, hfront, hc, hback, rfl⟩
  · rintro ⟨front, c, back, hfront, hc, hback, rfl⟩
    exact ⟨front, hfront, _, ⟨c, hc, back, hback, rfl⟩, rfl⟩

variable (hm : m.entryPoints = before ++ i :: after) (he : EntryPoint.ofInstruction? i = some e)
variable (he' : EntryPoint.ofInstruction? j = some e')

include hm he he'

/-- With another instruction for one of its entry points a module has another entry point there. -/
theorem entryPointsOf_withEntryPoints {eps : List EntryPoint} (h : entryPointsOf m = .ok eps) :
    ∃ front back, eps = front ++ e :: back ∧
      entryPointsOf (m.withEntryPoints (before ++ j :: after)) = .ok (front ++ e' :: back) := by
  rw [entryPointsOf, hm, mapM_eq_ok_of_middle] at h
  obtain ⟨front, c, back, hfront, hc, hback, rfl⟩ := h
  rw [he] at hc
  cases hc
  refine ⟨front, back, rfl, mapM_eq_ok_of_middle.2 ⟨front, e', back, hfront, ?_, hback, rfl⟩⟩
  rw [he']

variable (hij : i.Alike j) (hfunction : e.function = e'.function) (hname : e.name = e'.name)
variable (h : ofModule m = .ok ix)

include hij hfunction hname h

/-- The index of the other module answers alike, has definitions at the same positions and the same
names, and differs in nothing but that entry point. -/
theorem exists_agrees_withEntryPoints :
    ∃ ix', ofModule (m.withEntryPoints (before ++ j :: after)) = .ok ix' ∧ ix'.Agrees ix ∧
      (∀ id, (ix'.def? id).map Located.position = (ix.def? id).map Located.position) ∧
      (∀ id, ix'.name? id = ix.name? id) ∧
      ∃ front back, ix.entryPoints = front ++ e :: back ∧
        ix'.entryPoints = front ++ e' :: back := by
  have hstream := Module.stream_withEntryPoints hm hij
  have halike := hstream.flip.imp fun _ _ h => h.symm
  obtain ⟨_, eps, _, heps, _⟩ := ofModule_eq_ok.1 h
  obtain ⟨front, back, rfl, heps'⟩ := entryPointsOf_withEntryPoints hm he he' heps
  obtain ⟨ix', h'⟩ := exists_ofModule_of_alike hstream h heps'
  have hentries := entryPoints_eq h heps
  have hentries' := entryPoints_eq h' heps'
  have hmodules : (m.withEntryPoints (before ++ j :: after)).Alike m := {
    version := rfl
    declares := fun _ => rfl
    hasExtension := fun _ => rfl
    globals := rfl
    entryFunctions := by
      rw [← map_function_entryPointsOf heps, ← map_function_entryPointsOf heps']
      simp only [List.map_append, List.map_cons, hfunction]
    used := by
      intro f id
      rw [Bool.eq_iff_iff, Std.TreeSet.contains_iff_mem, Std.TreeSet.contains_iff_mem,
        CallGraph.mem_idsUsedFrom, CallGraph.mem_idsUsedFrom]
      exact (Module.uses_iff_of_alike hstream).symm
    uses := fun _ _ => ⟨mem_read_of_alike halike, mem_read_of_alike hstream⟩ }
  have hdef : ∀ id, (ix'.def? id).map (fun l => (l.inst.read, l.function)) =
      (ix.def? id).map fun l => (l.inst.read, l.function) := by
    apply map_def?_of_alike hstream h h'
    intro l k hlk
    rw [hlk.inst.read, hlk.function]
  refine ⟨ix', h', hmodules.agrees h' h hdef, ?_, fun id => ?_, front, back, hentries, hentries'⟩
  · exact map_def?_of_alike hstream h h' fun _ _ hlk => hlk.position
  · rw [name?, name?, hentries, hentries', module_eq h, module_eq h']
    simp only [List.map_append, List.map_cons, hfunction, hname]
    rfl

end Index

end SpirvRules
