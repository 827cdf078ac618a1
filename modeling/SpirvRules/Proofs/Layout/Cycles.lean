import SpirvRules.Proofs.Layout.Buffers
import SpirvRules.Proofs.Layout.Canonical
import SpirvRules.Proofs.Layout.Chain
import SpirvRules.Proofs.Layout.Nesting

/-!
# Types made of themselves

No check looks for cycles among types. But an alignment is only ever computed of a type whose parts,
and the parts of these, come to an end, and a block is right only once all its members are aligned.
What is remembered from earlier blocks, right or not, has been computed in the same way.
-/

set_option autoImplicit false

namespace SpirvRules

open Outcome Stateful

namespace Index

abbrev MadeOf (ix : Index) (id x : Id) : Prop := x ∈ ix.parts id

abbrev Ends (ix : Index) : Id → Prop := Acc fun x id => ix.MadeOf id x

variable {ix : Index} {id x : Id}

theorem Ends.of_reaches (h : ix.Ends id) (hx : Relation.ReflTransGen ix.MadeOf id x) :
    ix.Ends x := by
  induction hx with
  | refl => exact h
  | tail _ hpart ih => exact ih.inv hpart

theorem Ends.not_cycle (h : ix.Ends id) : ¬ Relation.TransGen ix.MadeOf id id := by
  induction h with
  | intro id _ ih =>
    -- a cycle through a type is one through its first part on the way
    intro hcycle
    obtain ⟨x, hpart, hback⟩ := Relation.TransGen.head'_iff.1 hcycle
    exact ih x hpart (Relation.TransGen.tail' hback hpart)

theorem parts_struct {ms : List Operand} (h : ix.type? id = some (.struct ms)) :
    ix.parts id = ix.members id := by
  simp [parts, Explicit.inner, members, h, TypeView.element?]

theorem ends_vector {e : Id} {count : UInt32} (h : ix.type? id = some (.vector e count))
    (he : ix.Ends e) : ix.Ends id := by
  refine .intro id fun x hx => ?_
  obtain rfl : x = e := by simpa [MadeOf, parts, h] using hx
  exact he

end Index

namespace Quantity

variable {ix : Index} {t : Table} {id x : Id} {c : Constraints} {up : Bool} {q : Quantity}
  {v : UInt32}

/-- In aligning a type each of its parts is aligned, but for a row-major matrix the component of
its columns in their place. -/
inductive Aligned (ix : Index) (ps : List Quantity) (x : Id) : Prop where
  | part (p : Quantity) (hp : p ∈ ps) (hq : p.IsAlignment) (hx : p.type = x)
  | component (p : Quantity) (count : UInt32) (hp : p ∈ ps) (hq : p.IsAlignment)
    (hx : ix.type? x = some (.vector p.type count))

theorem parts_scalar (ix : Index) (t : Table) (id : Id) :
    (rule ix t (scalarAlignment id)).parts = (ix.parts id).map scalarAlignment := by
  simp only [rule, scalarRule, Index.parts, Explicit.inner]
  cases ix.type? id with
  | none => rfl
  | some v => cases v <;> rfl

theorem aligned_scalar (hx : ix.MadeOf id x) :
    Aligned ix (rule ix t (scalarAlignment id)).parts x := by
  rw [parts_scalar]
  exact .part (scalarAlignment x) (List.mem_map_of_mem hx) trivial rfl

theorem column_eq_or (ix : Index) (id : Id) :
    (∃ count, ix.type? id = some (.vector (column ix id).1 count)) ∨ (column ix id).1 = id := by
  unfold column
  split
  · next e count hv => exact .inl ⟨count, hv⟩
  · exact .inr rfl

theorem aligned_base (hx : ix.MadeOf id x) :
    Aligned ix (rule ix t (baseAlignment id c up)).parts x := by
  cases hv : ix.type? id with
  | none => simp [Index.MadeOf, Index.parts, Explicit.inner, hv] at hx
  | some v =>
    cases v with
    | struct ms =>
      rw [Index.MadeOf, Index.parts_struct hv, Index.members_eq hv] at hx
      obtain ⟨i, hi⟩ := List.getElem?_of_mem hx
      refine .part (baseAlignment x (t.constraints id i) up) ?_ trivial rfl
      rw [base_struct hv]
      exact List.mem_map.2 ⟨(x, i), List.mk_mem_zipIdx_iff_getElem?.2 hi, rfl⟩
    | matrix col columns =>
      obtain rfl : x = col := by simpa [Index.MadeOf, Index.parts, hv] using hx
      by_cases hrow : c.rowMajor = true
      · have hrule : (rule ix t (baseAlignment id c up)).parts =
            [baseAlignment (column ix x).1 c up] := by
          simp [rule, baseRule, hv, hrow, Rule.single]
        rw [hrule]
        rcases column_eq_or ix x with ⟨count, hcol⟩ | hcol
        · exact .component _ count List.mem_cons_self trivial hcol
        · exact .part _ List.mem_cons_self trivial hcol
      · refine .part (baseAlignment x c up) ?_ trivial rfl
        simp [rule, baseRule, hv, hrow, Rule.single]
    | vector | array | runtimeArray =>
      refine .part (baseAlignment x c up) ?_ trivial rfl
      simpa [Index.MadeOf, Index.parts, Explicit.inner, hv, rule, baseRule, Rule.single,
        TypeView.element?, TypeView.memberIds] using hx
    | void | bool | int | float | pointer | function | image | sampler | sampledImage | other =>
      -- these have no parts
      simp [Index.MadeOf, Index.parts, Explicit.inner, hv, TypeView.element?,
        TypeView.memberIds] at hx

theorem Aligned.ends {ps : List Quantity} (h : Aligned ix ps x)
    (hps : ∀ p ∈ ps, p.IsAlignment → ix.Ends p.type) : ix.Ends x := by
  cases h with
  | part p hp hq hx => exact hx ▸ hps p hp hq
  | component p count hp hq hx => exact Index.ends_vector hx (hps p hp hq)

/-- A type that has an alignment ends: it is found by way of the alignments of its parts. -/
theorem ends_of_value (hq : q.IsAlignment) (hv : q.Value ix t v) : ix.Ends q.type := by
  revert hq
  refine Rule.Value.induct (motive := fun q _ => q.IsAlignment → ix.Ends q.type) ?_ hv
  intro q vs hvs hq
  have hparts : ∀ p ∈ (rule ix t q).parts, p.IsAlignment → ix.Ends p.type :=
    ((List.forall₂_and_left _ _).1 (hvs.imp fun _ _ h => h.symm)).1
  refine .intro q.type fun x hx => Aligned.ends ?_ hparts
  cases q with
  | scalarAlignment id => exact aligned_scalar hx
  | baseAlignment id c up => exact aligned_base hx
  | size id c => cases hq

end Quantity

/-- A walker as checks of blocks leave it, one after the other, whether or not they found them
right. -/
inductive Walker.Reached (ix : Index) (t : Table) : Walker → Prop where
  | fresh : Reached ix t {}
  | block (w : Walker) (root : Id) (storage : StorageClass) (policy : Option LayoutPolicy)
      (hw : Reached ix t w) : Reached ix t (run (Walk.block ix t root storage policy) w).2

namespace Walk

variable {ix : Index} {t : Table} {u : BlockUse} {M : Id → Nat → Prop} {P : Site → Prop}

/-- A struct right at some place ends, for all its members are aligned there. -/
theorem ends_of_found {id : Id} {base : UInt32} (h : Found ix t u M P (.struct id base))
    {ms : List Operand} (hv : ix.type? id = some (.struct ms)) : ix.Ends id := by
  refine .intro id fun x hx => ?_
  obtain ⟨_, hchain⟩ := h ms hv
  rw [Index.MadeOf, Index.parts_struct hv] at hx
  obtain ⟨i, hi⟩ := List.getElem?_of_mem hx
  obtain ⟨s, hs, rfl⟩ : ∃ s ∈ Slot.judged ix t id base, s.type = x := by
    obtain ⟨s, hs, _, htype, _⟩ := Slot.exists_judged hi
    exact ⟨s, hs, htype⟩
  by_cases hempty : ix.type? s.type = some (.struct [])
  · refine .intro s.type fun y hy => ?_
    simp [Index.MadeOf, Index.parts_struct hempty, Index.members_eq hempty,
      TypeView.memberIds] at hy
  · obtain ⟨e, he⟩ := hchain.extends hs hempty
    have hends := Quantity.ends_of_value (LayoutPolicy.isAlignment_alignment _ _ _)
      he.measures.alignment
    rwa [LayoutPolicy.alignment_type] at hends

def EndsAt (ix : Index) : Site → Prop
  | .struct id _ => ∀ ms, ix.type? id = some (.struct ms) → ix.Ends id
  | .array .. => True

variable (ix t u M) in
theorem carries_ends : Carries ix t u (fun v => EndsAt ix (.struct v.struct 0)) M
    (fun _ => True) (EndsAt ix) :=
  carries_of_found (fun _ _ hf _ hv => ends_of_found hf hv) (fun _ _ _ _ => trivial)
    (fun _ _ _ _ _ _ => trivial) fun _ _ => .rfl

/-- Whatever checks a walker went through, every struct it has verified ends. -/
theorem upholds_of_reached {w : Walker} (hw : w.Reached ix t) :
    Upholds ix t (fun v => EndsAt ix (.struct v.struct 0)) w := by
  induction hw with
  | fresh => exact upholds_empty
  | block w root storage policy _ ih =>
    have hkeeps : Keeping (Upholds ix t fun v => EndsAt ix (.struct v.struct 0))
        (block ix t root storage policy) :=
      keeping_blockBy (fun u n s => keeping_walk (carries_ends ix t u _) n s) root storage policy
    exact hkeeps.after ih

/-- No type a block is made of is made of itself, once a walker has found the block right, whatever
blocks it went through before. -/
theorem acyclic_of_block {w : Walker} (hw : w.Reached ix t) {root : Id} {storage : StorageClass}
    {p : LayoutPolicy} (hr : Nesting.IsBlock ix t root)
    (h : (run (block ix t root storage (some p)) w).1 = .ok ()) {x : Id}
    (hx : Relation.ReflTransGen ix.MadeOf root x) : ¬ Relation.TransGen ix.MadeOf x x := by
  obtain ⟨kind, hk⟩ := Option.isSome_iff_exists.1 (Nesting.isSome_blockKind?_iff.2 hr.2)
  obtain ⟨ms, hv⟩ := Index.isStruct_iff.1 hr.1
  have hyields := yields_block hk (carries_ends ix t ⟨kind, storage, p⟩ fun _ _ => True) trivial
  obtain ⟨_, hends⟩ := hyields.ok (upholds_of_reached hw) (Prod.ext h rfl) fun _ _ => trivial
  exact ((hends ms hv).of_reaches hx).not_cycle

def sharedStruct : Module where
  annotations := [.placing 2 0 0, .decorating 3 .block [], .placing 3 0 0, .placing 3 1 6,
    .decorating 4 .block [], .placing 4 0 0]
  globals := [.declaring .opTypeFloat 1 [.literal 32], .declaring .opTypeStruct 2 [.id 1],
    .declaring .opTypeStruct 3 [.id 2, .id 1], .declaring .opTypeStruct 4 [.id 2]]

/-- The struct was verified in the block refused, and the other passes by it. -/
theorem acyclic_sharedStruct :
    ∃ cx f w, sharedStruct.context {} = .ok cx ∧
      run (block cx.index cx.table 3 .storageBuffer (some ⟨.storage, .standard⟩)) {} =
        (.error f, w) ∧ ⟨2, 0, .storage, .standard⟩ ∈ w.verified ∧
      (run (block cx.index cx.table 4 .storageBuffer (some ⟨.storage, .standard⟩)) w).1 = .ok () ∧
      Relation.ReflTransGen cx.index.MadeOf 4 2 ∧ ¬ Relation.TransGen cx.index.MadeOf 2 2 := by
  have hrun : (sharedStruct.context {}).toOption.any (fun cx =>
      let r := run (block cx.index cx.table 3 .storageBuffer (some ⟨.storage, .standard⟩)) {}
      decide ((cx.index.type? 4).any TypeView.isStruct ∧ cx.table.has 4 .block ∧
        2 ∈ cx.index.parts 4 ∧ r.1.isOk = false ∧
        r.2.verified.contains ⟨2, 0, .storage, .standard⟩ ∧
        (run (block cx.index cx.table 4 .storageBuffer (some ⟨.storage, .standard⟩)) r.2).1 =
          .ok ())) = true := by
    decide +kernel
  obtain ⟨cx, hcx, hq⟩ := exists_of_any hrun
  obtain ⟨hstruct, hblock, hpart, hrefused, hverified, hok⟩ := of_decide_eq_true hq
  have hfresh : Walker.Reached cx.index cx.table {} := .fresh
  have hw := hfresh.block {} 3 .storageBuffer (some ⟨.storage, .standard⟩)
  rcases hr : run (block cx.index cx.table 3 .storageBuffer (some ⟨.storage, .standard⟩)) {} with
    ⟨f | _, w⟩
  · rw [hr] at hw hverified hok
    have hpath : Relation.ReflTransGen cx.index.MadeOf 4 2 := .single hpart
    exact ⟨cx, f, w, hcx, hr, Std.TreeSet.contains_iff_mem.1 hverified, hok, hpath,
      acyclic_of_block hw ⟨hstruct, .inl hblock⟩ hok hpath⟩
  · rw [hr] at hrefused
    cases hrefused

end Walk

end SpirvRules
