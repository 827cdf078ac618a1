import SpirvRules.Proofs.Index.Reordering

/-!
# Indexes of modules with other names

Debug names have no results, and where no function stands open they use nothing. They move what
comes after them, but all of it by as many places: the index of the module without them gives the
same answers, and finds the same things before each other.
-/

set_option autoImplicit false

namespace SpirvRules

open Located Outcome

namespace Located

def later (k : Nat) (l : Located) : Located := { l with position := l.position + k }

theorem scan_add (n k : Nat) (current : Option Id) (is : List Instruction) :
    scan (n + k) current is = (scan n current is).map (later k) := by
  induction is generalizing n current with
  | nil => rfl
  | cons i is ih =>
    rw [scan, scan, List.map_cons, Nat.add_right_comm, ih]
    rfl

theorem mem_standing {current : Option Id} {is : List Instruction} {n : Nat} {l : Located}
    (h : l ∈ (is.zipIdx n).map (standing current)) : l.inst ∈ is ∧ l.function = current := by
  obtain ⟨p, hp, rfl⟩ := List.mem_map.1 h
  exact ⟨List.fst_mem_of_mem_zipIdx hp, rfl⟩

end Located

theorem Instruction.idAt?_eq_none {i : Instruction} (h : i.idOperands = []) (n : Nat) :
    i.idAt? n = none := by
  rw [idAt?, operand?, Option.bind_eq_none_iff]
  intro o ho
  rw [idOperands, List.filterMap_eq_nil_iff] at h
  exact Option.map_eq_none_iff.1 (h _ (List.mk_mem_zipIdx_iff_getElem?.2 ho))

namespace Module

def beforeNames (m : Module) : List Instruction :=
  m.capabilities ++ m.extensions ++ m.extInstImports ++ m.memoryModel.toList ++ m.entryPoints ++
    m.executionModes ++ m.debugStrings

def afterNames (m : Module) : List Instruction := m.annotations ++ m.after

def openAtNames (m : Module) : Option Id := leftOpen none m.beforeNames

def unnamed (m : Module) : Module := { m with debugNames := [] }

/-- Debug names that do nothing but name: they have no results, and either no function stands open
before them or they mention no id and neither begin a function nor end one. -/
structure OnlyNames (m : Module) : Prop where
  results : ∀ i ∈ m.debugNames, i.result = none
  functions : m.openAtNames = none ∨
    ∀ i ∈ m.debugNames, i.op ≠ .opFunction ∧ i.op ≠ .opFunctionEnd ∧ i.idOperands = []

def moved (m : Module) (l : Located) : Located :=
  if l.position < m.beforeNames.length then l else l.later m.debugNames.length

theorem inst_moved (m : Module) (l : Located) : (m.moved l).inst = l.inst := by
  unfold moved
  split <;> rfl

theorem function_moved (m : Module) (l : Located) : (m.moved l).function = l.function := by
  unfold moved
  split <;> rfl

theorem position_moved (m : Module) (l k : Located) :
    (m.moved l).position < (m.moved k).position ↔ l.position < k.position := by
  unfold moved later
  split <;> split <;> simp only <;> omega

variable {m : Module}

theorem instructions_names :
    m.instructions = m.beforeNames ++ (m.debugNames ++ m.afterNames) := by
  simp only [instructions, beforeNames, afterNames, after, List.append_assoc]

theorem OnlyNames.steady (h : m.OnlyNames) : Steady m.openAtNames m.debugNames := by
  intro i hi
  rcases h.functions with hnone | hno
  · rw [hnone]
    constructor
    · unfold enter
      split
      · exact h.results i hi
      · rfl
    · unfold leave
      split <;> rfl
  · obtain ⟨hbegin, hend, _⟩ := hno i hi
    exact ⟨if_neg hbegin, if_neg hend⟩

def naming (m : Module) : List Located :=
  (m.debugNames.zipIdx m.beforeNames.length).map (standing m.openAtNames)

theorem stream_unnamed : m.unnamed.stream = scan 0 none m.beforeNames ++
    scan m.beforeNames.length m.openAtNames m.afterNames := by
  have hnames : m.unnamed.instructions = m.beforeNames ++ m.afterNames := instructions_names
  rw [stream, hnames, scan_append, Nat.zero_add]
  rfl

/-- Debug names are put in between, and what follows them is moved. -/
theorem stream_names (h : m.OnlyNames) : m.stream = scan 0 none m.beforeNames ++ (m.naming ++
    (scan m.beforeNames.length m.openAtNames m.afterNames).map (later m.debugNames.length)) := by
  -- the function open before the names is open after them too
  rw [stream, instructions_names, scan_append, scan_append, Nat.zero_add, ← scan_add,
    show leftOpen none m.beforeNames = m.openAtNames from rfl, leftOpen_steady h.steady,
    scan_steady h.steady]
  rfl

theorem map_moved_unnamed : m.unnamed.stream.map m.moved = scan 0 none m.beforeNames ++
    (scan m.beforeNames.length m.openAtNames m.afterNames).map (later m.debugNames.length) := by
  rw [stream_unnamed, List.map_append]
  congr 1
  · refine (List.map_congr_left fun l hl => ?_).trans (List.map_id _)
    have hposition := position_of_mem_scan hl
    exact if_pos (by omega)
  · apply List.map_congr_left
    intro l hl
    have hposition := position_of_mem_scan hl
    exact if_neg (by omega)

theorem mem_stream_names (h : m.OnlyNames) {l : Located} :
    l ∈ m.stream ↔ l ∈ m.unnamed.stream.map m.moved ∨ l ∈ m.naming := by
  rw [stream_names h, map_moved_unnamed]
  simp only [List.mem_append]
  tauto

section Reading

variable {β : Type} (h : m.OnlyNames)

include h

/-- What debug names give nothing to is had without them, if it does not hang on positions. -/
theorem flatMap_names {f : Located → List β} (hf : ∀ l k, f (later k l) = f l)
    (hnames : ∀ l ∈ m.naming, f l = []) : m.stream.flatMap f = m.unnamed.stream.flatMap f := by
  rw [stream_names h, stream_unnamed]
  simp only [List.flatMap_append, List.flatMap_map, hf, List.flatMap_eq_nil_iff.2 hnames,
    List.nil_append]

theorem filterMap_names {f : Located → Option β} (hf : ∀ l k, f (later k l) = f l)
    (hnames : ∀ l ∈ m.naming, f l = none) :
    m.stream.filterMap f = m.unnamed.stream.filterMap f := by
  rw [stream_names h, stream_unnamed]
  simp only [List.filterMap_append, List.filterMap_map, Function.comp_def, hf,
    List.filterMap_eq_nil_iff.2 hnames, List.nil_append]

theorem silent_names {l : Located} (hl : l ∈ m.naming) :
    l.function = none ∨ l.inst.idOperands = [] := by
  obtain ⟨hi, hopen⟩ := mem_standing hl
  rw [hopen]
  exact h.functions.imp_right fun hno => (hno _ hi).2.2

theorem uses_names : m.stream.flatMap Index.usesOf = m.unnamed.stream.flatMap Index.usesOf := by
  apply flatMap_names h (fun _ _ => rfl)
  intro l hl
  unfold Index.usesOf
  rcases silent_names h hl with hnone | hids
  · rw [hnone]
  · rw [hids]
    split <;> rfl

theorem callGraph_names : CallGraph.ofStream m.stream = CallGraph.ofStream m.unnamed.stream := by
  have hmentions : m.stream.flatMap mentions = m.unnamed.stream.flatMap mentions := by
    apply flatMap_names h (fun _ _ => rfl)
    intro l hl
    unfold mentions
    rcases silent_names h hl with hnone | hids
    · rw [hnone]
    · rw [hids]
      split <;> rfl
  have hcalls : m.stream.filterMap call? = m.unnamed.stream.filterMap call? := by
    apply filterMap_names h (fun _ _ => rfl)
    intro l hl
    unfold call?
    rcases silent_names h hl with hnone | hids
    · rw [hnone]
    · rw [Instruction.idAt?_eq_none hids]
      split <;> rfl
  rw [CallGraph.ofStream, hmentions, hcalls, ← CallGraph.ofStream]

end Reading

end Module

namespace Index

variable {m : Module} {ix ix' : Index} {ls : List Located} {defs defs' : Std.TreeMap Id Located}

theorem define_append (ls ks : List Located) (defs : Std.TreeMap Id Located) :
    define (ls ++ ks) defs = define ls defs >>= define ks := by
  induction ls generalizing defs with
  | nil => rfl
  | cons l ls ih =>
    rw [List.cons_append, define, define]
    split
    · exact ih defs
    · split
      · rfl
      · exact ih _

theorem define_of_no_results (h : ∀ l ∈ ls, l.inst.result = none) : define ls defs = .ok defs := by
  induction ls with
  | nil => rfl
  | cons l ls ih =>
    obtain ⟨hl, hls⟩ := List.forall_mem_cons.1 h
    rw [define, hl]
    exact ih hls

theorem define_map {g : Located → Located} (hg : ∀ l, (g l).inst = l.inst)
    (hdefs : ∀ id, defs.contains id = defs'.contains id) :
    (define (ls.map g) defs).map (fun _ => ()) = (define ls defs').map fun _ => () := by
  induction ls generalizing defs defs' with
  | nil => rfl
  | cons l ls ih =>
    rw [List.map_cons, define, define, hg]
    split
    · exact ih hdefs
    · next id _ =>
      rw [hdefs]
      split
      · rfl
      · exact ih fun j => by rw [Std.TreeMap.contains_insert, Std.TreeMap.contains_insert, hdefs]

variable (h : m.OnlyNames)

include h

theorem define_names :
    define m.stream ∅ = define (m.unnamed.stream.map m.moved) ∅ := by
  rw [Module.stream_names h, Module.map_moved_unnamed, define_append, define_append]
  apply bind_congr
  intro defs
  have hnames : define m.naming defs = .ok defs :=
    define_of_no_results fun l hl => h.results _ (mem_standing hl).1
  rw [define_append, hnames]
  rfl

/-- A module has an index where it has one without names, and else the same fault. -/
theorem ofModule_names :
    (ofModule m).map (fun _ => ()) = (ofModule m.unnamed).map fun _ => () := by
  have hdefine : (define m.stream ∅).map (fun _ => ()) =
      (define m.unnamed.stream ∅).map fun _ => () := by
    rw [define_names h]
    exact define_map (Module.inst_moved m) fun _ => rfl
  have heps : entryPointsOf m.unnamed = entryPointsOf m := rfl
  simp only [ofModule, heps]
  rcases alike_of_map_eq hdefine with ⟨f, hf, hf'⟩ | ⟨defs, defs', hdefs, hdefs'⟩
  · rw [hf, hf']
    rfl
  · rw [hdefs, hdefs']
    cases entryPointsOf m <;> rfl

variable (hix : ofModule m = .ok ix) (hix' : ofModule m.unnamed = .ok ix')

include hix hix'

theorem def?_names (id : Id) : ix.def? id = (ix'.def? id).map m.moved := by
  apply Option.ext
  intro l
  rw [def?_eq_some_iff hix, Module.mem_stream_names h, Option.map_eq_some_iff]
  constructor
  · rintro ⟨hl | hl, hid⟩
    · obtain ⟨k, hk, rfl⟩ := List.mem_map.1 hl
      rw [Module.inst_moved] at hid
      exact ⟨k, (def?_eq_some_iff hix').2 ⟨hk, hid⟩, rfl⟩
    · rw [h.results _ (mem_standing hl).1] at hid
      cases hid
  · rintro ⟨k, hk, rfl⟩
    obtain ⟨hk, hid⟩ := (def?_eq_some_iff hix').1 hk
    rw [Module.inst_moved]
    exact ⟨.inl (List.mem_map_of_mem hk), hid⟩

theorem uses_names : ix.usesOfId = ix'.usesOfId := by
  obtain ⟨_, _, _, _, rfl⟩ := ofModule_eq_ok.1 hix
  obtain ⟨_, _, _, _, rfl⟩ := ofModule_eq_ok.1 hix'
  funext id
  show (Grouping.ofPairs _).under id = (Grouping.ofPairs _).under id
  rw [Module.uses_names h]

omit hix hix' in
theorem alike_names : m.Alike m.unnamed where
  version := rfl
  declares := fun _ => rfl
  hasExtension := fun _ => rfl
  globals := rfl
  entryFunctions := rfl
  used := fun f id => by rw [Module.callGraph_names h]
  uses := fun id r => by rw [Module.uses_names h]

theorem agrees_names : ix.Agrees ix' := by
  apply (alike_names h).agrees hix hix'
  intro id
  rw [def?_names h hix hix', Option.map_map]
  simp only [Function.comp_def, Module.inst_moved, Module.function_moved]

omit h in
theorem entryPoints_names : ix.entryPoints = ix'.entryPoints := entryPoints_congr hix hix' rfl

end Index

end SpirvRules
