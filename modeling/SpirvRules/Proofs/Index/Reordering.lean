import SpirvRules.Proofs.Decoration.Order
import SpirvRules.Proofs.Index.Agreement

/-!
# Indexes of reordered modules

Where the same function, or none, stands open throughout the annotation section, the order of the
annotations decides nothing but their positions: the index of the module with its annotations in
another order gives the same answers.
-/

set_option autoImplicit false

namespace SpirvRules

open Outcome

namespace Located

def leftOpen (current : Option Id) (is : List Instruction) : Option Id :=
  is.foldl (fun c i => leave (enter c i) i) current

theorem scan_append (n : Nat) (current : Option Id) (is js : List Instruction) :
    scan n current (is ++ js) =
      scan n current is ++ scan (n + is.length) (leftOpen current is) js := by
  induction is generalizing n current with
  | nil => rfl
  | cons i is ih =>
    rw [List.cons_append, scan, scan, ih, List.length_cons, Nat.add_right_comm, Nat.add_assoc]
    rfl

def Steady (current : Option Id) (is : List Instruction) : Prop :=
  ∀ i ∈ is, enter current i = current ∧ leave current i = current

def standing (current : Option Id) (p : Instruction × Nat) : Located := ⟨p.1, p.2, current⟩

theorem leftOpen_steady {current : Option Id} {is : List Instruction} (h : Steady current is) :
    leftOpen current is = current := by
  induction is with
  | nil => rfl
  | cons i is ih =>
    obtain ⟨hi, his⟩ := List.forall_mem_cons.1 h
    have hstep : leftOpen current (i :: is) = leftOpen (leave (enter current i) i) is := rfl
    rw [hstep, hi.1, hi.2, ih his]

theorem scan_steady {current : Option Id} {is : List Instruction} (h : Steady current is)
    (n : Nat) : scan n current is = (is.zipIdx n).map (standing current) := by
  induction is generalizing n with
  | nil => rfl
  | cons i is ih =>
    obtain ⟨hi, his⟩ := List.forall_mem_cons.1 h
    rw [scan, hi.1, hi.2, ih his, List.zipIdx_cons, List.map_cons]
    rfl

theorem position_of_mem_scan {n : Nat} {current : Option Id} {is : List Instruction} {l : Located}
    (h : l ∈ scan n current is) : n ≤ l.position ∧ l.position < n + is.length := by
  induction is generalizing n current with
  | nil => cases h
  | cons i is ih =>
    rw [scan] at h
    rw [List.length_cons]
    rcases List.mem_cons.1 h with rfl | h
    · show n ≤ n ∧ n < n + (is.length + 1)
      omega
    · have hrest := ih h
      omega

def site (l : Located) : Instruction × Option Id := (l.inst, l.function)

theorem site_standing (current : Option Id) (is : List Instruction) (n : Nat) :
    ((is.zipIdx n).map (standing current)).map site = is.map fun i => (i, current) := by
  induction is generalizing n with
  | nil => rfl
  | cons i is ih =>
    rw [List.zipIdx_cons, List.map_cons, List.map_cons, ih, List.map_cons]
    rfl

end Located

namespace Module

open Located

def before (m : Module) : List Instruction :=
  m.capabilities ++ m.extensions ++ m.extInstImports ++ m.memoryModel.toList ++ m.entryPoints ++
    m.executionModes ++ m.debugStrings ++ m.debugNames

def after (m : Module) : List Instruction :=
  m.globals ++ m.functions.flatMap Function.instructions

theorem instructions_eq (m : Module) : m.instructions = m.before ++ (m.annotations ++ m.after) := by
  simp only [instructions, before, after, List.append_assoc]

def openFunction (m : Module) : Option Id := leftOpen none m.before

def annotated (m : Module) (as : List Instruction) : Module := { m with annotations := as }

def around (m : Module) : List Located :=
  scan 0 none m.before ++ scan (m.before.length + m.annotations.length) m.openFunction m.after

def middle (m : Module) : List Located :=
  (m.annotations.zipIdx m.before.length).map (standing m.openFunction)

variable {m : Module} {as : List Instruction}

theorem stream_eq (h : Steady m.openFunction m.annotations) :
    m.stream = scan 0 none m.before ++ (m.middle ++
      scan (m.before.length + m.annotations.length) m.openFunction m.after) := by
  rw [stream, instructions_eq, scan_append, scan_append, Nat.zero_add]
  rw [show leftOpen none m.before = m.openFunction from rfl, leftOpen_steady h, scan_steady h]
  rfl

theorem mem_stream (h : Steady m.openFunction m.annotations) {l : Located} :
    l ∈ m.stream ↔ l ∈ m.around ∨ l ∈ m.middle := by
  rw [stream_eq h, around, List.mem_append, List.mem_append, List.mem_append]
  constructor
  · rintro (hl | hl | hl)
    · exact .inl (.inl hl)
    · exact .inr hl
    · exact .inl (.inr hl)
  · rintro ((hl | hl) | hl)
    · exact .inl hl
    · exact .inr (.inr hl)
    · exact .inr (.inl hl)

variable (hperm : as.Perm m.annotations) (h : Steady m.openFunction m.annotations)

include hperm

theorem around_annotated : (m.annotated as).around = m.around := by
  simp only [around]
  rw [show (m.annotated as).annotations = as from rfl, hperm.length_eq]
  rfl

theorem instructions_perm : (m.annotated as).instructions.Perm m.instructions := by
  rw [instructions_eq, instructions_eq]
  exact (hperm.append_right _).append_left _

include h

theorem steady_annotated : Steady (m.annotated as).openFunction (m.annotated as).annotations :=
  fun i hi => h i (hperm.mem_iff.1 hi)

theorem sites_perm : ((m.annotated as).stream.map site).Perm (m.stream.map site) := by
  rw [stream_eq (steady_annotated hperm h), stream_eq h]
  simp only [List.map_append, middle, site_standing]
  apply List.Perm.append (.refl _)
  apply List.Perm.append (hperm.map _)
  rw [show (m.annotated as).annotations = as from rfl, hperm.length_eq]
  exact .refl _

/-- What a stream gives without regard to positions, it gives in another order. -/
theorem flatMap_perm {β : Type} {f : Located → List β}
    (hf : ∀ l, f l = f ⟨l.inst, 0, l.function⟩) :
    ((m.annotated as).stream.flatMap f).Perm (m.stream.flatMap f) := by
  have hsite : ∀ ls : List Located,
      ls.flatMap f = (ls.map site).flatMap fun p => f ⟨p.1, 0, p.2⟩ := by
    intro ls
    rw [List.flatMap_map]
    exact congrArg (ls.flatMap ·) (funext hf)
  rw [hsite, hsite]
  exact (sites_perm hperm h).flatMap_right _

theorem filterMap_perm {β : Type} {f : Located → Option β}
    (hf : ∀ l, f l = f ⟨l.inst, 0, l.function⟩) :
    ((m.annotated as).stream.filterMap f).Perm (m.stream.filterMap f) := by
  have hsite : ∀ ls : List Located,
      ls.filterMap f = (ls.map site).filterMap fun p => f ⟨p.1, 0, p.2⟩ := by
    intro ls
    rw [List.filterMap_map]
    exact congrArg (List.filterMap · ls) (funext hf)
  rw [hsite, hsite]
  exact (sites_perm hperm h).filterMap _

end Module

namespace Grouping

variable {α : Type} {ps qs : List (Id × α)}

theorem under_perm (h : ps.Perm qs) (i : Id) :
    ((ofPairs ps).under i).Perm ((ofPairs qs).under i) := by
  rw [under_ofPairs, under_ofPairs]
  exact (h.filter _).map _

theorem mem_ofPairs_perm (h : ps.Perm qs) (i : Id) : i ∈ ofPairs ps ↔ i ∈ ofPairs qs := by
  rw [mem_ofPairs, mem_ofPairs]
  exact exists_congr fun a => h.mem_iff

end Grouping

namespace CallGraph

structure Alike (g g' : CallGraph) : Prop where
  mem : ∀ f, f ∈ g.mentions ↔ f ∈ g'.mentions
  mentions : ∀ f, (g.mentions.under f).Perm (g'.mentions.under f)
  calls : ∀ f, (g.calls.under f).Perm (g'.calls.under f)

variable {g g' : CallGraph}

theorem Alike.mem_reachedFrom (h : g.Alike g') (f i : Id) :
    i ∈ g.reachedFrom f ↔ i ∈ g'.reachedFrom f := by
  constructor
  · apply Search.mem_run_of_perm
    · exact fun i => (h.mem i).1
    · exact fun a b => (h.calls a).mem_iff.1
  · apply Search.mem_run_of_perm
    · exact fun i => (h.mem i).2
    · exact fun a b => (h.calls a).mem_iff.2

theorem Alike.contains_idsUsedFrom (h : g.Alike g') (f id : Id) :
    (g.idsUsedFrom f).contains id = (g'.idsUsedFrom f).contains id := by
  rw [Bool.eq_iff_iff, Std.TreeSet.contains_iff_mem, Std.TreeSet.contains_iff_mem, idsUsedFrom,
    idsUsedFrom, Std.TreeSet.mem_ofList, Std.TreeSet.mem_ofList, List.contains_iff_mem,
    List.contains_iff_mem, List.mem_flatMap, List.mem_flatMap]
  exact exists_congr fun i =>
    and_congr (h.mem_reachedFrom f i) (h.mentions i).mem_iff

end CallGraph

namespace Index

open Located SpirvRules.Module

variable {m : Module} {as : List Instruction} {ix ix' : Index} {id : Id}

theorem inst?_eq_some_iff (h : ofModule m = .ok ix) {i : Instruction} :
    ix.inst? id = some i ↔ i ∈ m.instructions ∧ i.result = some id := by
  constructor
  · intro hi
    obtain ⟨l, hl, rfl⟩ := Option.map_eq_some_iff.1 hi
    obtain ⟨hl, hid⟩ := (def?_eq_some_iff h).1 hl
    refine ⟨?_, hid⟩
    rw [← Located.scan_map_inst 0 none m.instructions]
    exact List.mem_map_of_mem hl
  · rintro ⟨hi, hid⟩
    exact inst?_eq_some h hi hid

variable (hperm : as.Perm m.annotations) (hsteady : Steady m.openFunction m.annotations)

include hperm hsteady

theorem callGraph_alike :
    (CallGraph.ofStream (m.annotated as).stream).Alike (CallGraph.ofStream m.stream) := by
  have hmentions : ((m.annotated as).stream.flatMap mentions).Perm (m.stream.flatMap mentions) :=
    flatMap_perm hperm hsteady fun _ => rfl
  have hcalls : ((m.annotated as).stream.filterMap call?).Perm (m.stream.filterMap call?) :=
    filterMap_perm hperm hsteady fun _ => rfl
  constructor
  · simp only [CallGraph.ofStream]
    exact Grouping.mem_ofPairs_perm hmentions
  · simp only [CallGraph.ofStream]
    exact Grouping.under_perm hmentions
  · simp only [CallGraph.ofStream]
    exact Grouping.under_perm hcalls

/-- A module with its annotations in another order has an index if it had one before. -/
theorem exists_ofModule_annotated (h : ofModule m = .ok ix) :
    ∃ ix', ofModule (m.annotated as) = .ok ix' := by
  obtain ⟨defs, eps, hdefs, heps, _⟩ := ofModule_eq_ok.1 h
  obtain ⟨hnodup, _⟩ := exists_define_iff.1 ⟨defs, hdefs⟩
  have hresults : (results (m.annotated as).stream).Perm (results m.stream) :=
    filterMap_perm hperm hsteady fun _ => rfl
  have hdefine : ∃ defs', define (m.annotated as).stream ∅ = .ok defs' := by
    apply exists_define_iff.2
    refine ⟨hresults.nodup_iff.2 hnodup, ?_⟩
    intro id _
    exact Std.TreeMap.not_mem_emptyc
  obtain ⟨defs', hdefs'⟩ := hdefine
  exact ⟨_, ofModule_eq_ok.2 ⟨defs', eps, hdefs', heps, rfl⟩⟩

variable (h : ofModule m = .ok ix) (h' : ofModule (m.annotated as) = .ok ix')

include h h'

omit hsteady in
theorem inst?_annotated (id : Id) : ix'.inst? id = ix.inst? id := by
  apply Option.ext
  intro i
  rw [inst?_eq_some_iff h, inst?_eq_some_iff h', (instructions_perm hperm).mem_iff]

theorem exists_def?_annotated {l : Located} (hl : ix'.def? id = some l) :
    ∃ k, ix.def? id = some k ∧ k.site = l.site := by
  obtain ⟨hl, hid⟩ := (def?_eq_some_iff h').1 hl
  have hsite : l.site ∈ m.stream.map site :=
    (sites_perm hperm hsteady).mem_iff.1 (List.mem_map_of_mem hl)
  obtain ⟨k, hk, hkl⟩ := List.mem_map.1 hsite
  have hinst : k.inst = l.inst := congrArg Prod.fst hkl
  refine ⟨k, (def?_eq_some_iff h).2 ⟨hk, ?_⟩, hkl⟩
  rw [hinst, hid]

theorem def?_annotated (hgroups : ∀ i ∈ m.annotations, i.result.isSome = true →
    i.op = .opDecorationGroup) {l : Located} (hl : ix'.def? id = some l)
    (hop : l.inst.op ≠ .opDecorationGroup) : l ∈ m.around ∧ ix.def? id = some l := by
  obtain ⟨hmem, hid⟩ := (def?_eq_some_iff h').1 hl
  rcases (mem_stream (steady_annotated hperm hsteady)).1 hmem with hl | hl
  · rw [around_annotated hperm] at hl
    exact ⟨hl, (def?_eq_some_iff h).2 ⟨(mem_stream hsteady).2 (.inl hl), hid⟩⟩
  · obtain ⟨⟨i, n⟩, hi, rfl⟩ := List.mem_map.1 hl
    have hi : i ∈ m.annotations := hperm.mem_iff.1 (List.fst_mem_of_mem_zipIdx hi)
    have hresult : i.result = some id := hid
    exact absurd (hgroups i hi (by rw [hresult]; rfl)) hop

/-- Reordering moves nothing past what is no group. -/
theorem position_lt_annotated {l p k : Located} {j : Id} (hl : l ∈ m.around)
    (hp : ix'.def? j = some p) (hk : ix.def? j = some k) :
    p.position < l.position ↔ k.position < l.position := by
  obtain ⟨hmem, hid⟩ := (def?_eq_some_iff h').1 hp
  obtain ⟨hmemk, hidk⟩ := (def?_eq_some_iff h).1 hk
  have bounds : ∀ {m : Module} {q : Located}, q ∈ m.middle →
      m.before.length ≤ q.position ∧ q.position < m.before.length + m.annotations.length := by
    intro m q hq
    obtain ⟨⟨i, n⟩, hi, rfl⟩ := List.mem_map.1 hq
    have hlt := List.snd_lt_of_mem_zipIdx hi
    rw [Nat.add_comm] at hlt
    exact ⟨List.le_snd_of_mem_zipIdx hi, hlt⟩
  rcases (mem_stream (steady_annotated hperm hsteady)).1 hmem with hp' | hp'
  · rw [around_annotated hperm] at hp'
    have hkp := (def?_eq_some_iff h).2 ⟨(mem_stream hsteady).2 (.inl hp'), hid⟩
    cases hk.symm.trans hkp
    rfl
  rcases (mem_stream hsteady).1 hmemk with hk' | hk'
  · rw [← around_annotated hperm] at hk'
    have hkp := (def?_eq_some_iff h').2
      ⟨(mem_stream (steady_annotated hperm hsteady)).2 (.inl hk'), hidk⟩
    cases hp.symm.trans hkp
    rfl
  · have hpb := bounds hp'
    have hkb := bounds hk'
    have hlen : (m.annotated as).annotations.length = m.annotations.length := hperm.length_eq
    have hbefore : (m.annotated as).before.length = m.before.length := rfl
    rcases List.mem_append.1 hl with hl | hl
    · have hlb := position_of_mem_scan hl
      omega
    · have hlb := position_of_mem_scan hl
      omega

theorem site_def?_annotated (id : Id) : (ix'.def? id).map site = (ix.def? id).map site := by
  cases hl : ix'.def? id with
  | none =>
    have hinst := inst?_annotated hperm h h' id
    rw [inst?, inst?, hl, Option.map_none] at hinst
    rw [Option.map_eq_none_iff.1 hinst.symm]
  | some l =>
    obtain ⟨k, hk, hkl⟩ := exists_def?_annotated hperm hsteady h h' hl
    rw [hk, Option.map_some, Option.map_some, hkl]

omit h h' in
theorem alike_annotated : (m.annotated as).Alike m where
  version := rfl
  declares := fun _ => rfl
  hasExtension := fun _ => rfl
  globals := rfl
  entryFunctions := rfl
  used := (callGraph_alike hperm hsteady).contains_idsUsedFrom
  uses := fun id _ =>
    ((Grouping.under_perm (flatMap_perm hperm hsteady fun _ => rfl) id).map _).mem_iff

theorem agrees_annotated : ix'.Agrees ix := by
  apply (alike_annotated hperm hsteady).agrees h' h
  intro id
  have hsite := congrArg (Option.map fun p => (p.1.read, p.2))
    (site_def?_annotated hperm hsteady h h' id)
  rwa [Option.map_map, Option.map_map] at hsite

omit hperm hsteady in
theorem entryPoints_annotated : ix'.entryPoints = ix.entryPoints := entryPoints_congr h' h rfl

end Index

end SpirvRules
