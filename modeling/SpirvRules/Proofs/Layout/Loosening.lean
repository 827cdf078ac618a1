import SpirvRules.Proofs.Layout.Alignments
import SpirvRules.Proofs.Layout.Blocks
import SpirvRules.Proofs.Layout.Rounds

/-!
# Looser policies

A block that is right under a policy is right under every looser one. Relaxed packing adds a test
that standard packing lacks, but a vector aligned as a whole does not fail it.
-/

set_option autoImplicit false

namespace SpirvRules

open Outcome Stateful

/-- `q` packs no more strictly than `p` does, and by the same rules or by storage rules. -/
structure LayoutPolicy.Loosens (q p : LayoutPolicy) : Prop where
  packing : p.packing.rank ≤ q.packing.rank
  rules : q.rules = p.rules ∨ p.rules = .uniform ∧ q.rules = .storage

variable {ix : Index} {t : Table} {p q : LayoutPolicy} {type : Id} {c : Constraints}

namespace LayoutPolicy

namespace Loosens

theorem scalar (h : q.Loosens p) (hp : p.packing = .scalar) : q.packing = .scalar := by
  have hrank := h.packing
  rw [hp] at hrank
  revert hrank
  cases q.packing <;> decide

theorem not_standard (h : q.Loosens p) (hp : p.packing = .relaxed) :
    q.packing = .relaxed ∨ q.packing = .scalar := by
  have hrank := h.packing
  rw [hp] at hrank
  revert hrank
  cases q.packing <;> decide

theorem pads (h : q.Loosens p) {view : Option TypeView} (hq : q.pads view = true) :
    p.pads view = true := by
  simp only [LayoutPolicy.pads, ne_eq, Bool.and_eq_true, decide_eq_true_eq] at hq ⊢
  exact ⟨fun hp => hq.1 (h.scalar hp), hq.2⟩

theorem alignment_looser (h : q.Loosens p) (type : Id) (c : Constraints) :
    q.alignment type c = p.alignment type c ∨
      Quantity.Looser (q.alignment type c) (p.alignment type c) := by
  unfold LayoutPolicy.alignment
  by_cases hp : p.packing = .scalar
  · rw [if_pos hp, if_pos (h.scalar hp)]
    exact .inl rfl
  · rw [if_neg hp]
    by_cases hq : q.packing = .scalar
    · rw [if_pos hq]
      exact .inr (.scalar type c _)
    · rw [if_neg hq]
      rcases h.rules with hr | ⟨hp', hq'⟩
      · rw [hr]
        exact .inl rfl
      · rw [hp', hq']
        exact .inr (.storage type c)

theorem alignment_dvd (h : q.Loosens p) (hl : ix.LegalShapes) {a b : UInt32}
    (ha : (p.alignment type c).Value ix t a) (hb : (q.alignment type c).Value ix t b) :
    b.toNat ∣ a.toNat := by
  rcases h.alignment_looser type c with he | hlooser
  · rw [he] at hb
    have hsame := congrArg UInt32.toNat (hb.unique ha)
    exact hsame ▸ Nat.dvd_refl b.toNat
  · exact Quantity.dvd_of_mem_of_le (alignment_mem hl hb) (alignment_mem hl ha)
      (hlooser.le hl hb ha)

end Loosens

end LayoutPolicy

theorem Word.isAligned_of_dvd {x a b : UInt32} (ha : a.toNat ≠ 0) (hd : b.toNat ∣ a.toNat)
    (h : isAligned x a = true) : isAligned x b = true :=
  (isAligned_iff x b).2 (.inr (Nat.dvd_trans hd (((isAligned_iff x a).1 h).resolve_left ha)))

namespace Walk

section Placed

variable {u v : BlockUse} {o : UInt32} {e e' : Extent}
variable (hl : ix.LegalShapes) (h : v.policy.Loosens u.policy)
variable (he : Measures ix t u type o c e) (he' : Measures ix t v type o c e')

include hl h he he'

theorem alignments_dvd : e.alignment.toNat ≠ 0 ∧ e'.alignment.toNat ∣ e.alignment.toNat :=
  ⟨(Quantity.dvd_256_of_mem (LayoutPolicy.alignment_mem hl he.alignment)).1,
    h.alignment_dvd hl he.alignment he'.alignment⟩

theorem placed_whole (hn' : looseComponent? v (ix.type? type) = none)
    (ha : Word.isAligned o (e.component.getD e.alignment) = true) :
    Word.isAligned o e'.alignment = true := by
  have hdvd := alignments_dvd hl h he he'
  have hcomp := he.component
  generalize hx : looseComponent? u (ix.type? type) = x at hcomp
  generalize e.component = k at hcomp ha
  cases hcomp with
  | none => exact Word.isAligned_of_dvd hdvd.1 hdvd.2 ha
  | @some m a hm =>
    -- Only scalar packing is looser than relaxed packing, and it asks of a vector the same.
    obtain ⟨⟨n, hvec⟩, hrelaxed⟩ := looseComponent?_eq_some.1 hx
    have hscalar : v.policy.packing = .scalar := by
      rcases h.not_standard hrelaxed with hv | hv
      · have hsome := looseComponent?_eq_some.2 ⟨⟨n, hvec⟩, hv⟩
        rw [hn'] at hsome
        cases hsome
      · exact hv
    have hvalue := he'.alignment
    rw [LayoutPolicy.alignment, if_pos hscalar] at hvalue
    have hsame := (Quantity.scalar_single (e := m) (by simp [Quantity.scalarRule, hvec])).1 hvalue
    rw [hsame.unique hm]
    exact ha

/-- A vector whose component alone has to be aligned is placed well if it was under a stricter
policy. -/
theorem placed_component {m : Id} {a : UInt32} (hm : looseComponent? v (ix.type? type) = some m)
    (hv : (Quantity.scalarAlignment m).Value ix t a)
    (ha : Word.isAligned o (e.component.getD e.alignment) = true)
    (hs : e.component.isSome → straddles o e.size = false) :
    Word.isAligned o a = true ∧ straddles o e.size = false := by
  have hdvd := alignments_dvd hl h he he'
  obtain ⟨⟨n, hvec⟩, hrelaxed⟩ := looseComponent?_eq_some.1 hm
  have hcomp := he.component
  generalize hx : looseComponent? u (ix.type? type) = x at hcomp
  generalize e.component = k at hcomp ha hs
  cases hcomp with
  | none =>
    have hns : u.policy.packing ≠ .scalar := fun hu => by
      rw [h.scalar hu] at hrelaxed
      cases hrelaxed
    have hbase := he.alignment
    rw [LayoutPolicy.alignment, if_neg hns] at hbase
    have hd := ((Word.isAligned_iff _ _).1 ha).resolve_left hdvd.1
    have hplaced := Quantity.vector_placed hl hvec hbase hv he.size hd
    exact ⟨(Word.isAligned_iff _ _).2 (.inr hplaced.1), hplaced.2⟩
  | @some m' a' hm' =>
    obtain ⟨⟨n', hvec'⟩, _⟩ := looseComponent?_eq_some.1 hx
    cases hvec.symm.trans hvec'
    rw [hv.unique hm']
    exact ⟨ha, hs rfl⟩

/-- What is placed well under a policy is so under a looser one. -/
theorem placed_of_loosens (ha : e.alignmentFault? = none) (hs : e.straddleFault? = none) :
    e'.alignmentFault? = none ∧ e'.straddleFault? = none := by
  rw [Extent.alignmentFault?_eq_none, he.offset] at ha
  rw [Extent.straddleFault?_eq_none, he.offset] at hs
  rw [Extent.alignmentFault?_eq_none, Extent.straddleFault?_eq_none, he'.offset,
    he'.size.unique he.size]
  have hcomp := he'.component
  generalize hx : looseComponent? v (ix.type? type) = x at hcomp
  generalize e'.component = k at hcomp
  cases hcomp with
  | none => exact ⟨placed_whole hl h he he' hx ha, fun hk => by cases hk⟩
  | some hv =>
    have hplaced := placed_component hl h he he' hx hv ha hs
    exact ⟨hplaced.1, fun _ => hplaced.2⟩

/-- A slot without a fault has none under a looser policy, given that more was free before it. -/
theorem fault_loosens {free free' : UInt32} {later : List Slot}
    (hfree : free ≤ o → free' ≤ o) (hfault : e.fault? free later = none) :
    e'.fault? free' later = none := by
  have hview : e'.view = e.view := he'.view.trans he.view.symm
  have hdvd := alignments_dvd hl h he he'
  obtain ⟨horder, halign, hover, hstraddle, hmatrix⟩ := Extent.fault?_eq_none.1 hfault
  have hplaced := placed_of_loosens hl h he he' halign hstraddle
  refine Extent.fault?_eq_none.2 ⟨?_, hplaced.1, ?_, hplaced.2, ?_⟩
  · rw [Extent.orderFault?] at horder ⊢
    rwa [hview, he'.offset, ← he.offset]
  · rw [Extent.overlapFault?_eq_none] at hover ⊢
    rw [he.offset] at hover
    rw [he'.offset]
    exact hfree hover
  · rw [Extent.matrixFault?_eq_none] at hmatrix ⊢
    rw [hview, he'.constraints, ← he.constraints]
    exact fun hm => Word.isAligned_of_dvd hdvd.1 hdvd.2 (hmatrix hm)

/-- A slot ends no later under a looser policy. -/
theorem free_le_of_loosens : e'.free v.policy ≤ e.free u.policy := by
  have hdvd := alignments_dvd hl h he he'
  have hview : e'.view = e.view := he'.view.trans he.view.symm
  have hstop : e'.stop v.policy ≤ e.stop u.policy := by
    have hend := Extent.end_le_stop e u.policy
    unfold Extent.stop at hend ⊢
    rw [he'.offset, ← he.offset, he'.size.unique he.size, hview]
    by_cases hq : v.policy.pads e.view = true
    · rw [if_pos hq, if_pos (h.pads hq)]
      exact Word.ceil_mono_right _ hdvd.1 hdvd.2
    · rw [if_neg hq]
      exact hend
  rw [UInt32.le_iff_toNat_le, Extent.toNat_free, Extent.toNat_free]
  omega

end Placed

def loosening (u v : BlockUse) : Comparison where
  first := u
  second := v
  strict := false
  boundFirst := false
  boundSecond := false
  verified V₁ V₂ := ∀ id n, ⟨id, n, u.policy⟩ ∈ V₁ ↔ ⟨id, n, v.policy⟩ ∈ V₂
  offsets := Eq

section Loosening

variable {u v : BlockUse}

theorem known_iff {w₁ w₂ : Walker} (hr : Related ix t (loosening u v) w₁ w₂) {s s' : Site}
    (hs : (loosening u v).Sites s s') : Known u w₁ s ↔ Known v w₂ s' := by
  cases hs with
  | struct id a b hab =>
    obtain rfl : a = b := hab
    have hv := hr.verified id (a % 256)
    simp only [Known, Site.visit?, Option.some.injEq, exists_eq_left']
    exact hv
  | array => simp [Known, Site.visit?]

theorem inStep_unlessVerified {s s' : Site} (hs : (loosening u v).Sites s s') {x y : Walk Unit}
    (hxy : InStep ix t (loosening u v) (fun _ _ => True) x y) :
    InStep ix t (loosening u v) (fun _ _ => True) (unlessVerified u s x)
      (unlessVerified v s' y) := by
  intro w₁ w₂ hr
  by_cases hk : Known u w₁ s
  · rw [run_unlessVerified_of_known hk, run_unlessVerified_of_known ((known_iff hr hs).1 hk)]
    exact .ok () () w₁ w₂ trivial hr
  · rw [run_unlessVerified_of_not_known hk,
      run_unlessVerified_of_not_known fun hk' => hk ((known_iff hr hs).2 hk')]
    exact hxy w₁ w₂ hr

theorem inStep_verify {s s' : Site} (hs : (loosening u v).Sites s s') :
    InStep ix t (loosening u v) (fun _ _ => True) (verify u s) (verify v s') := by
  cases hs with
  | array => exact inStep_pure trivial
  | struct id a b hab =>
    obtain rfl : a = b := hab
    intro w₁ w₂ hr
    refine .ok () () _ _ trivial ⟨hr.first, hr.second, fun id' n => ?_⟩
    have hv := hr.verified id' n
    have hsame : (compare (⟨id, a % 256, u.policy⟩ : Visit) ⟨id', n, u.policy⟩ = .eq) ↔
        compare (⟨id, a % 256, v.policy⟩ : Visit) ⟨id', n, v.policy⟩ = .eq := by
      simp
    exact Std.TreeSet.mem_insert.trans ((or_congr hsame hv).trans Std.TreeSet.mem_insert.symm)

variable (hl : ix.LegalShapes) (h : v.policy.Loosens u.policy)

include hl h

theorem fair_loosening (t : Table) : (loosening u v).Fair ix t where
  uses := nofun
  lenient := nofun
  alignment type c a b ha hb := by
    have hne := (Quantity.dvd_256_of_mem (LayoutPolicy.alignment_mem hl ha)).1
    exact ⟨fun x hx => Word.isAligned_of_dvd hne (h.alignment_dvd hl ha hb) hx, nofun⟩
  fault type c o o' e e' a b l l' he _ hf hs := by
    obtain rfl : o = o' := he.offset
    obtain rfl := Comparison.eq_of_slots rfl hs
    exact ⟨fault_loosens hl h he.first he.second fun hle => hf.1 _ _ rfl hle, nofun⟩
  free type c o o' e e' he _ := by
    obtain rfl : o = o' := he.offset
    refine ⟨fun x y hxy hx => ?_, nofun⟩
    obtain rfl : x = y := hxy
    exact UInt32.le_trans (free_le_of_loosens hl h he.first he.second) hx
  element o o' stride i ho _ := congrArg (elementOffset · stride i) ho
  slots id a b hab _ _ := by
    obtain rfl : a = b := hab
    exact .inl (Comparison.slots_refl (C := loosening u v) rfl _)

theorem inStep_walk (n : Nat) {s s' : Site} (hs : (loosening u v).Sites s s') :
    InStep ix t (loosening u v) (fun _ _ => True) (walk ix t u n s) (walk ix t v n s') := by
  induction n generalizing s s' with
  | zero =>
    refine inStep_unlessVerified hs ?_
    have hvoid : s.isVoid ix = s'.isVoid ix := by cases hs <;> rfl
    have htype : s.type = s'.type := by cases hs <;> rfl
    rw [hvoid, htype]
    split
    · exact inStep_pure trivial
    · exact inStep_throw fun _ => rfl
  | succ n ih =>
    refine inStep_unlessVerified hs ?_
    have hround := inStep_within (fair_loosening hl h t) (growing_walk n) (growing_walk n)
      (fun _ _ hs' => ih hs') hs
    exact hround.bind (fun _ => growing_verify s) (fun _ => growing_verify s') fun _ _ _ =>
      inStep_verify hs

end Loosening

/-- Loosening the policy makes no block wrong. -/
theorem checkBlock_loosens (hl : ix.LegalShapes) (h : q.Loosens p) {root : Id}
    {storage : StorageClass} (hok : checkBlock ix t root storage (some p) = .ok ()) :
    checkBlock ix t root storage (some q) = .ok () ∨
      ∃ id, checkBlock ix t root storage (some q) = .error (.tooDeep id) := by
  unfold checkBlock block blockBy at hok ⊢
  cases hk : t.blockKind? root with
  | none => exact .inl rfl
  | some kind =>
    rw [hk] at hok
    dsimp only at hok ⊢
    have hwalks := inStep_walk (t := t) (u := ⟨kind, storage, p⟩) (v := ⟨kind, storage, q⟩) hl h
      Quantity.maxTypeDepth (.struct root 0 0 rfl)
    have hsteps := inStep_afterExplicit (growing_walk _ _) (growing_walk _ _) root kind hwalks
    have hempty := Walker.faithful_empty ix t
    have hm := hsteps {} {} ⟨hempty, hempty, fun id n => by simp⟩
    unfold run at hm
    generalize (explicit ix t root kind >>= fun _ =>
      walk ix t ⟨kind, storage, p⟩ Quantity.maxTypeDepth (.struct root 0)) {} = r₁ at hm hok
    generalize (explicit ix t root kind >>= fun _ =>
      walk ix t ⟨kind, storage, q⟩ Quantity.maxTypeDepth (.struct root 0)) {} = r₂ at hm
    cases hm with
    | first _ _ hgiven =>
      cases hgiven with
      | tooDeep id w => cases hok
      | tooLarge _ hb _ => cases hb
    | second _ _ hgiven =>
      cases hgiven with
      | tooDeep id w => exact .inr ⟨id, rfl⟩
      | tooLarge _ hb _ => cases hb
    | ok _ _ _ _ _ _ => exact .inl rfl
    | error f _ _ _ => cases hok

theorem checkBlock_loosens_plainBlock :
    ∃ t ix, Buffer.plainBlock.validate {} = .ok t ∧ Index.ofModule Buffer.plainBlock = .ok ix ∧
      checkBlock ix t 3 .uniform (some ⟨.uniform, .standard⟩) = .ok () ∧
      (checkBlock ix t 3 .uniform (some ⟨.storage, .relaxed⟩) = .ok () ∨
        ∃ id, checkBlock ix t 3 .uniform (some ⟨.storage, .relaxed⟩) = .error (.tooDeep id)) := by
  have hrun : bothPass (Buffer.plainBlock.validate {}) (Index.ofModule Buffer.plainBlock)
      (fun t ix => decide ix.LegalShapes &&
        (checkBlock ix t 3 .uniform (some ⟨.uniform, .standard⟩)).isOk) = true := by
    decide +kernel
  obtain ⟨t, ix, ht, hix, hq⟩ := exists_of_bothPass hrun
  obtain ⟨hl, hok⟩ := Bool.and_eq_true_iff.1 hq
  have hblock := eq_ok_of_isOk hok
  exact ⟨t, ix, ht, hix, hblock,
    checkBlock_loosens (of_decide_eq_true hl) ⟨by decide, .inr ⟨rfl, rfl⟩⟩ hblock⟩

end Walk

end SpirvRules
