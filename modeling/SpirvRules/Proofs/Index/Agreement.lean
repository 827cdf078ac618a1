import SpirvRules.Layout.Explicit
import SpirvRules.Proofs.Decoration.Order
import SpirvRules.Proofs.Index.StaticUse
import SpirvRules.Proofs.Numbers

/-!
# Indexes that answer alike

Rules ask an index what defines an id and in which function it stands, what uses an id and which
entry points do, but not where in the module anything stands, nor the numbers that a decoration lays
out memory with. Of a definition or a use little more is read than its operation and where its
operands begin. Two indexes that agree on the answers agree on all that is derived from them.
-/

set_option autoImplicit false

namespace SpirvRules

theorem size_eq_of_mem_iff {β γ : Type} {a : Std.TreeMap Id β} {b : Std.TreeMap Id γ}
    (h : ∀ i, i ∈ a ↔ i ∈ b) : a.size = b.size := by
  have hkeys : a.keys = b.keys := by
    apply Ordered.eq_of_mem_iff Std.TreeMap.ordered_keys Std.TreeMap.ordered_keys
    intro i
    rw [Std.TreeMap.mem_keys, Std.TreeMap.mem_keys, h i]
  rw [← Std.TreeMap.length_keys, ← Std.TreeMap.length_keys, hkeys]

/-- Two finds that look the same through what is read of them are both there, or neither is. -/
theorem none_or_some_of_map_eq {α β γ : Type} {f : α → γ} {g : β → γ} {o : Option α} {p : Option β}
    (h : o.map f = p.map g) :
    (o = none ∧ p = none) ∨ ∃ a b, o = some a ∧ p = some b ∧ f a = g b := by
  cases o with
  | none => exact .inl ⟨rfl, Option.map_eq_none_iff.1 h.symm⟩
  | some a =>
    obtain ⟨b, hb, hab⟩ := Option.map_eq_some_iff.1 h.symm
    exact .inr ⟨a, b, rfl, hb, hab.symm⟩

def Instruction.read (i : Instruction) : Opcode × Option Id × Option Operand × Option TypeView :=
  (i.op, i.resultType, i.operand? 0, TypeView.ofInstruction? i)

theorem Instruction.read_eq_iff {i j : Instruction} : i.read = j.read ↔
    i.op = j.op ∧ i.resultType = j.resultType ∧ i.operand? 0 = j.operand? 0 ∧
      TypeView.ofInstruction? i = TypeView.ofInstruction? j := by
  simp only [read, Prod.mk.injEq]

theorem Instruction.read_unnumbered (i : Instruction) : i.unnumbered.read = i.read := by
  rw [read, op_unnumbered, resultType_unnumbered, operand?_zero_unnumbered,
    TypeView.ofInstruction?_unnumbered, ← read]

/-- What is read of a use: its operation, the id that begins the operands, and whether the use comes
right behind it. -/
def Use.read (u : Use) : Opcode × Option Id × Bool := (u.inst.op, u.inst.idAt? 0, u.operand = 1)

theorem Use.read_unnumbered (u : Use) : u.unnumbered.read = u.read := by
  rw [read, unnumbered, Instruction.op_unnumbered, Instruction.idAt?_unnumbered, ← read]

/-- Two indexes give the rules the same answers. -/
structure Index.Agrees (ix ix' : Index) : Prop where
  version : ix.version = ix'.version
  declares : ∀ c, ix.module.declares c = ix'.module.declares c
  hasExtension : ∀ name, ix.module.hasExtension name = ix'.module.hasExtension name
  globals : ix.module.globals.map Instruction.unnumbered =
    ix'.module.globals.map Instruction.unnumbered
  inst : ∀ id, (ix.inst? id).map Instruction.read = (ix'.inst? id).map Instruction.read
  function : ∀ id, (ix.def? id).map Located.function = (ix'.def? id).map Located.function
  entryFunctions : ix.entryPoints.map EntryPoint.function = ix'.entryPoints.map EntryPoint.function
  staticUsers : ∀ id, ix.staticUsers id = ix'.staticUsers id
  uses : ∀ id r, r ∈ (ix.usesOfId id).map Use.read ↔ r ∈ (ix'.usesOfId id).map Use.read

/-- Two modules state the same apart from numbers, and their functions use the same ids. -/
structure Module.Alike (m m' : Module) : Prop where
  version : m.version = m'.version
  declares : ∀ c, m.declares c = m'.declares c
  hasExtension : ∀ name, m.hasExtension name = m'.hasExtension name
  globals : m.globals.map Instruction.unnumbered = m'.globals.map Instruction.unnumbered
  entryFunctions : m.entryFunctions = m'.entryFunctions
  used : ∀ f id, ((CallGraph.ofStream m.stream).idsUsedFrom f).contains id =
    ((CallGraph.ofStream m'.stream).idsUsedFrom f).contains id
  uses : ∀ id r,
    r ∈ ((Grouping.ofPairs (m.stream.flatMap Index.usesOf)).under id).map Use.read ↔
      r ∈ ((Grouping.ofPairs (m'.stream.flatMap Index.usesOf)).under id).map Use.read

/-- Indexes of such modules agree if they have every id defined alike in the same function. -/
theorem Module.Alike.agrees {m m' : Module} {ix ix' : Index} (hm : m.Alike m')
    (h : Index.ofModule m = .ok ix) (h' : Index.ofModule m' = .ok ix')
    (hdef : ∀ id, (ix.def? id).map (fun l => (l.inst.read, l.function)) =
      (ix'.def? id).map fun l => (l.inst.read, l.function)) : ix.Agrees ix' where
  version := by
    rw [Index.version, Index.version, Index.module_eq h, Index.module_eq h', statedVersion,
      hm.version, ← statedVersion]
  declares := by
    rw [Index.module_eq h, Index.module_eq h']
    exact hm.declares
  hasExtension := by
    rw [Index.module_eq h, Index.module_eq h']
    exact hm.hasExtension
  globals := by
    rw [Index.module_eq h, Index.module_eq h']
    exact hm.globals
  inst := by
    intro id
    have hinst := congrArg (Option.map Prod.fst) (hdef id)
    rw [Option.map_map, Option.map_map] at hinst
    rw [Index.inst?, Index.inst?, Option.map_map, Option.map_map]
    exact hinst
  function := by
    intro id
    have hfunction := congrArg (Option.map Prod.snd) (hdef id)
    rw [Option.map_map, Option.map_map] at hfunction
    exact hfunction
  entryFunctions := by
    rw [Index.map_function_entryPoints h, Index.map_function_entryPoints h', hm.entryFunctions]
  staticUsers := by
    intro id
    rw [Index.staticUsers_eq h, Index.staticUsers_eq h', hm.entryFunctions]
    simp only [hm.used]
  uses := by
    intro id
    obtain ⟨_, _, _, _, rfl⟩ := Index.ofModule_eq_ok.1 h
    obtain ⟨_, _, _, _, rfl⟩ := Index.ofModule_eq_ok.1 h'
    exact hm.uses id

theorem Index.entryPoints_eq {m : Module} {ix : Index} (h : ofModule m = .ok ix)
    {eps : List EntryPoint} (heps : entryPointsOf m = .ok eps) : ix.entryPoints = eps := by
  obtain ⟨_, _, _, hok, rfl⟩ := ofModule_eq_ok.1 h
  exact Except.ok.inj (hok.symm.trans heps)

theorem Index.entryPoints_congr {m m' : Module} {ix ix' : Index} (h : ofModule m = .ok ix)
    (h' : ofModule m' = .ok ix') (heps : entryPointsOf m = entryPointsOf m') :
    ix.entryPoints = ix'.entryPoints := by
  obtain ⟨_, _, _, hok, _⟩ := ofModule_eq_ok.1 h'
  rw [entryPoints_eq h' hok, entryPoints_eq h (heps.trans hok)]

namespace Index.Agrees

variable {ix ix' : Index} (h : ix.Agrees ix')

include h

theorem readInst {β : Type} {f : Instruction → Option β}
    (hf : ∀ i j : Instruction, i.read = j.read → f i = f j) (id : Id) :
    (ix.inst? id).bind f = (ix'.inst? id).bind f := by
  rcases none_or_some_of_map_eq (h.inst id) with ⟨hi, hj⟩ | ⟨i, j, hi, hj, hij⟩
  · rw [hi, hj]
  · rw [hi, hj]
    exact hf i j hij

theorem any_inst? {p : Instruction → Bool} (hp : ∀ i j : Instruction, i.read = j.read → p i = p j)
    (id : Id) : (ix.inst? id).any p = (ix'.inst? id).any p := by
  rcases none_or_some_of_map_eq (h.inst id) with ⟨hi, hj⟩ | ⟨i, j, hi, hj, hij⟩
  · rw [hi, hj]
  · rw [hi, hj]
    exact hp i j hij

theorem readGlobals {β : Type} {f : Instruction → Option β} (hf : ∀ i, f i.unnumbered = f i) :
    ix.module.globals.filterMap f = ix'.module.globals.filterMap f :=
  filterMap_eq_of_alike h.globals hf

theorem users : ix.staticUsers = ix'.staticUsers := funext h.staticUsers

theorem op? : ix.op? = ix'.op? := by
  funext id
  rw [Index.op?, Index.op?, Option.map_eq_bind, Option.map_eq_bind]
  exact h.readInst (fun i j hij => congrArg some (Instruction.read_eq_iff.1 hij).1) id

theorem op_def? (id : Id) :
    (ix.def? id).map (fun l => l.inst.op) = (ix'.def? id).map fun l => l.inst.op := by
  have hop := congrFun h.op? id
  rw [Index.op?, Index.op?, Index.inst?, Index.inst?, Option.map_map, Option.map_map] at hop
  exact hop

theorem typeOf? : ix.typeOf? = ix'.typeOf? :=
  funext fun id => h.readInst (fun _ _ hij => (Instruction.read_eq_iff.1 hij).2.1) id

theorem type? : ix.type? = ix'.type? :=
  funext fun id => h.readInst (fun _ _ hij => (Instruction.read_eq_iff.1 hij).2.2.2) id

theorem mem_defs (id : Id) : id ∈ ix.defs ↔ id ∈ ix'.defs := by
  have hsome : ∀ jx : Index, id ∈ jx.defs ↔ (jx.op? id).isSome = true := by
    intro jx
    rw [Index.op?, Index.inst?, Option.isSome_map, Option.isSome_map, Index.def?,
      Std.TreeMap.isSome_getElem?_iff_mem]
  rw [hsome, hsome, h.op?]

theorem size : ix.defs.size = ix'.defs.size := size_eq_of_mem_iff h.mem_defs

theorem variableClass? : ix.variableClass? = ix'.variableClass? := by
  funext id
  unfold Index.variableClass?
  rcases none_or_some_of_map_eq (h.inst id) with ⟨hi, hj⟩ | ⟨i, j, hi, hj, hij⟩
  · rw [hi, hj]
  · obtain ⟨hop, _, hoperand, _⟩ := Instruction.read_eq_iff.1 hij
    rw [hi, hj]
    simp only [hop, hoperand]

theorem pointer? : ix.pointer? = ix'.pointer? := by
  funext id
  rw [Index.pointer?, h.typeOf?, h.type?, ← Index.pointer?]

theorem element? : ix.element? = ix'.element? := by
  funext id
  rw [Index.element?, h.type?, ← Index.element?]

theorem stripWithin (n : Nat) (id : Id) : ix.stripWithin n id = ix'.stripWithin n id := by
  induction n generalizing id with
  | zero => rfl
  | succ n ih => simp only [Index.stripWithin, h.element?, ih]

theorem stripArrays : ix.stripArrays = ix'.stripArrays := by
  funext id
  rw [Index.stripArrays, h.stripWithin, h.size, ← Index.stripArrays]

theorem integer? : ix.integer? = ix'.integer? := by
  funext id
  unfold Index.integer?
  rw [h.type?]
  apply h.readInst
  intro i j hij
  obtain ⟨hop, htype, hoperand, _⟩ := Instruction.read_eq_iff.1 hij
  rw [hop, htype, hoperand]

theorem constant? : ix.constant? = ix'.constant? := by
  funext id
  rw [Index.constant?, h.integer?, ← Index.constant?]

theorem numericShape? : ix.numericShape? = ix'.numericShape? := by
  funext id
  simp only [Index.numericShape?, h.type?]

theorem inside : Nesting.inside ix = Nesting.inside ix' := by
  funext m
  simp only [Nesting.inside, Nesting.members, h.element?, h.type?]

theorem below : Nesting.below ix = Nesting.below ix' := by
  funext root
  rw [Nesting.below, Nesting.below, Search.run, Search.run, h.size, h.inside,
    Search.taken_congr h.mem_defs, Nesting.members, Nesting.members, h.type?]

end Index.Agrees

end SpirvRules
