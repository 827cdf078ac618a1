import SpirvRules.Proofs.Layout.Displacement

/-!
# Walks are periodic

What a walk comes to does not change when all offsets move by a multiple of 256, as long as a word
holds them: alignments divide 256, and straddling is a matter of offsets modulo sixteen. So nothing
is lost by passing by a struct that was walked at an offset of the same class.
-/

set_option autoImplicit false

namespace SpirvRules

open Outcome Stateful

namespace Walk

variable {ix : Index} {t : Table} {u : BlockUse} {k k' : Nat}

def shift (u : BlockUse) (k k' : Nat) : Comparison where
  first := u
  second := u
  strict := false
  boundFirst := true
  boundSecond := true
  verified _ _ := True
  offsets a b := a.toNat + 256 * k = b.toNat + 256 * k'

theorem modEq_shift {a : UInt32} (ha : a ∈ Quantity.powers) :
    256 * k ≡ 256 * k' [MOD a.toNat] := by
  have hd := (Quantity.dvd_256_of_mem ha).2
  have hzero : ∀ n, 256 * n ≡ 0 [MOD a.toNat] := fun n =>
    Nat.modEq_zero_iff_dvd.2 (Nat.dvd_trans hd (Nat.dvd_mul_right 256 n))
  exact (hzero k).trans (hzero k').symm

/-- A slot that is right and ends within a word is right where it is moved to. -/
theorem fault_shift (hl : ix.LegalShapes) {type : Id} {c : Constraints} {e : Extent}
    {o free free' : UInt32} {l l' : List Slot} (he : Measures ix t u type e.offset c e)
    (ho : e.offset.toNat + 256 * k = o.toNat + 256 * k')
    (hstop : e.stop u.policy < 0x100000000) (hfree : (shift u k k').Frees free free')
    (hslots : List.Forall₂ (shift u k k').Slots l l') (h : e.fault? free l = none) :
    { e with offset := o }.fault? free' l' = none := by
  refine fault_displaced ho (modEq_shift ?_) (fun _ => modEq_shift (a := 16) (by decide)) hstop
    hfree hslots h
  have hcomp := he.component
  generalize looseComponent? u (ix.type? type) = m at hcomp
  generalize e.component = a at hcomp
  cases hcomp with
  | none => exact LayoutPolicy.alignment_mem hl he.alignment
  | some ha => exact Quantity.scalar_mem hl ha

theorem Comparison.Extents.offset_shift {type : Id} {c : Constraints} {o o' : UInt32}
    {e e' : Extent} (h : (shift u k k').Extents ix t type c o o' e e') :
    e.offset.toNat + 256 * k = o'.toNat + 256 * k' := by
  rw [h.first.offset]
  exact h.offset

theorem fair_shift (hl : ix.LegalShapes) (t : Table) (u : BlockUse) (k k' : Nat) :
    (shift u k k').Fair ix t where
  uses := nofun
  lenient _ := rfl
  alignment type c a b ha hb := by
    obtain rfl := ha.unique hb
    exact ⟨fun _ hx => hx, nofun⟩
  fault type c o o' e e' a b l l' he hstop hf hs := by
    have hfirst := he.first
    have hoffset := he.offset_shift
    rw [hfirst.moved he.second]
    rw [← hfirst.offset] at hfirst
    exact ⟨fault_shift hl hfirst hoffset (hstop rfl) hf hs, nofun⟩
  free type c o o' e e' he hfit := by
    have hfirst := he.first
    have hoffset := he.offset_shift
    have hstop' := hfit.2 rfl
    rw [hfirst.moved he.second] at hstop' ⊢
    rw [← hfirst.offset] at hfirst
    have hmem := LayoutPolicy.alignment_mem hl hfirst.alignment
    exact free_displaced (modEq_shift hmem) hoffset (hfit.1 rfl) hstop'
  element o o' stride i ho hfit := by
    have ho : o.toNat + 256 * k = o'.toNat + 256 * k' := ho
    show (elementOffset o stride i).toNat + 256 * k = (elementOffset o' stride i).toNat + 256 * k'
    rw [toNat_elementOffset (hfit.1 rfl), toNat_elementOffset (hfit.2 rfl)]
    omega
  slots id a b hab ha hb := by
    by_cases hnone : ∃ s ∈ Slot.judged ix t id a, s.offset = none
    · exact .inr ⟨rfl, hnone⟩
    · have hmoved := judged_displaced hab (ha rfl) (hb rfl) fun s hs hs' => hnone ⟨s, hs, hs'⟩
      exact .inl (hmoved.imp fun _ _ h => h.slots)

/-- Walks of a site at two offsets agree, however deep each of them may go. -/
theorem inStep_shift (hl : ix.LegalShapes) (n m : Nat) {s s' : Site}
    (hs : (shift u k k').Sites s s') :
    InStep ix t (shift u k k') (fun _ _ => True) (walkAfresh ix t u n s)
      (walkAfresh ix t u m s') := by
  -- What is remembered may have been walked with more or less depth left, hence two depths.
  induction n generalizing m s s' with
  | zero =>
    by_cases hv : s.isVoid ix = true
    · have hv' : s'.isVoid ix = true := by cases hs <;> exact hv
      rw [walkAfresh_of_isVoid hv, walkAfresh_of_isVoid hv']
      exact inStep_pure trivial
    · rw [walkAfresh, if_neg hv]
      exact fun w₁ _ _ => .first _ _ (.tooDeep _ w₁)
  | succ n ih =>
    cases m with
    | zero =>
      by_cases hv : s'.isVoid ix = true
      · have hv' : s.isVoid ix = true := by cases hs <;> exact hv
        rw [walkAfresh_of_isVoid hv, walkAfresh_of_isVoid hv']
        exact inStep_pure trivial
      · rw [walkAfresh.eq_1 ix t u s', if_neg hv]
        exact fun _ w₂ _ => .second _ _ (.tooDeep _ w₂)
    | succ m =>
      exact inStep_within (fair_shift hl t u k k') (growing_walkAfresh n) (growing_walkAfresh m)
        (fun _ _ hs' => ih m hs') hs

def Proven (ix : Index) (t : Table) (u : BlockUse) (v : Visit) : Prop :=
  ∃ n base w w', base % 256 = v.offsetClass ∧ w.Faithful ix t ∧
    run (walkAfresh ix t u n (.struct v.struct base)) w = (.ok (), w') ∧ InRange w'

def remembering (ix : Index) (t : Table) (u : BlockUse) : Comparison where
  first := u
  second := u
  strict := true
  boundFirst := false
  boundSecond := true
  verified V _ := ∀ v ∈ V, v.policy = u.policy → Proven ix t u v
  offsets := Eq

theorem fair_remembering (ix : Index) (t : Table) (u : BlockUse) :
    (remembering ix t u).Fair ix t where
  uses _ := rfl
  lenient := nofun
  alignment type c a b ha hb := by
    obtain rfl := ha.unique hb
    exact ⟨fun _ hx => hx, fun _ => rfl⟩
  fault type c o o' e e' a b l l' he _ hf hs := by
    obtain rfl : o = o' := he.offset
    obtain rfl : e = e' := he.first.unique he.second
    obtain rfl := hf.2 rfl
    obtain rfl := Comparison.eq_of_slots rfl hs
    exact ⟨id, fun _ => rfl⟩
  free type c o o' e e' he _ := by
    obtain rfl : o = o' := he.offset
    obtain rfl : e = e' := he.first.unique he.second
    refine ⟨fun x y hxy hx => ?_, fun _ => rfl⟩
    obtain rfl : x = y := hxy
    exact hx
  element o o' stride i ho _ := congrArg (elementOffset · stride i) ho
  slots id a b hab _ _ := by
    obtain rfl : a = b := hab
    exact .inl (Comparison.slots_refl rfl _)

/-- A struct that was walked without a fault has none at an offset of the same class, unless the
walk gives up there. -/
theorem Proven.walkAfresh (hl : ix.LegalShapes) {v : Visit} (hv : Proven ix t u v) {base : UInt32}
    (hbase : base % 256 = v.offsetClass) (n : Nat) {w : Walker} (hw : w.Faithful ix t) :
    (∃ w', run (walkAfresh ix t u n (.struct v.struct base)) w = (.ok (), w') ∧ w'.Faithful ix t) ∨
      GivenUp true (run (walkAfresh ix t u n (.struct v.struct base)) w) := by
  obtain ⟨m, base', w₀, w₁, hbase', hw₀, hrun, hin⟩ := hv
  have hclass : base'.toNat % 256 = base.toNat % 256 := by
    have hsame := congrArg UInt32.toNat (hbase'.trans hbase.symm)
    rwa [UInt32.toNat_mod, UInt32.toNat_mod] at hsame
  have hoffsets : base'.toNat + 256 * (base.toNat / 256) = base.toNat + 256 * (base'.toNat / 256) :=
    by omega
  have hm := inStep_shift (u := u) (t := t) hl m n (.struct v.struct base' base hoffsets) w₀ w
    ⟨hw₀, hw, trivial⟩
  rw [hrun] at hm
  generalize run (Walk.walkAfresh ix t u n (.struct v.struct base)) w = r at hm
  cases hm with
  | first _ _ h =>
    cases h with
    | tooLarge _ _ hr => exact absurd hin hr
  | second _ _ h => exact .inr h
  | ok _ _ _ w₂ _ hr => exact .inl ⟨w₂, rfl, hr.second⟩

theorem match_of_known (hl : ix.LegalShapes) {s s' : Site} (hs : (remembering ix t u).Sites s s')
    {w₁ w₂ : Walker} (hr : Related ix t (remembering ix t u) w₁ w₂) (hk : Known u w₁ s) (n : Nat) :
    Match ix t (remembering ix t u) (fun _ _ => True)
      ((.ok (), w₁) : Except LayoutFault Unit × Walker) (run (walkAfresh ix t u n s') w₂) := by
  obtain ⟨v, hv, hmem⟩ := hk
  cases hs with
  | array => cases hv
  | struct id a b hab =>
    obtain rfl : a = b := hab
    cases hv
    rcases (hr.verified _ hmem rfl).walkAfresh hl rfl n hr.second with ⟨w', hrun, hw'⟩ | hgiven
    · rw [hrun]
      exact .ok () () _ _ trivial ⟨hr.first, hw', hr.verified⟩
    · exact .second _ _ hgiven

theorem related_verify {id : Id} {base : UInt32} {n : Nat} {w₁ w₁' w₂ w₂' : Walker}
    (hw : w₂.Faithful ix t) (hrun : run (walkAfresh ix t u n (.struct id base)) w₂ = (.ok (), w₂'))
    (hin : InRange w₂') (hr : Related ix t (remembering ix t u) w₁ w₂')
    (hverify : run (verify u (.struct id base)) w₁ = (.ok (), w₁')) :
    Related ix t (remembering ix t u) w₁' w₂' := by
  cases hverify
  refine ⟨hr.first, hr.second, fun v hv hp => ?_⟩
  rcases Std.TreeSet.mem_insert.1 hv with h | h
  · cases Std.LawfulEqOrd.eq_of_compare h
    exact ⟨n, base, w₂, w₂', rfl, hw, hrun, hin⟩
  · exact hr.verified v h hp

theorem match_verified {s s' : Site} (hs : (remembering ix t u).Sites s s') {n : Nat}
    {x : Walk Unit} {w₁ w₂ : Walker} (hw : w₂.Faithful ix t)
    (hm : Match ix t (remembering ix t u) (fun _ _ => True) (run x w₁)
      (run (walkAfresh ix t u n s') w₂)) :
    Match ix t (remembering ix t u) (fun _ _ => True) (run (x >>= fun _ => verify u s) w₁)
      (run (walkAfresh ix t u n s') w₂) := by
  generalize hx : run x w₁ = r₁ at hm
  generalize hy : run (walkAfresh ix t u n s') w₂ = r₂ at hm ⊢
  cases hm with
  | first _ _ h => exact .first _ _ (GivenUp.bind (by rwa [hx]) fun _ => growing_verify s)
  | second _ _ h => exact .second _ _ h
  | error f _ _ h =>
    rw [run_bind_of_error hx]
    exact .error f _ _ h
  | ok _ _ w₁' w₂' _ hr =>
    -- The walk that does not remember proves the visit, if what it met fits a word.
    rw [run_bind_of_ok hx]
    by_cases hin : InRange w₂'
    · cases hs with
      | array => exact .ok () () _ _ trivial hr
      | struct id a b hab =>
        obtain rfl : a = b := hab
        exact .ok () () _ _ trivial (related_verify hw hy hin hr rfl)
    · exact .second _ _ (.tooLarge _ rfl hin)

/-- Remembering what was walked does not change what a walk comes to. -/
theorem inStep_walkAfresh (hl : ix.LegalShapes) (n : Nat) {s s' : Site}
    (hs : (remembering ix t u).Sites s s') :
    InStep ix t (remembering ix t u) (fun _ _ => True) (walk ix t u n s)
      (walkAfresh ix t u n s') := by
  induction n generalizing s s' with
  | zero =>
    intro w₁ w₂ hr
    by_cases hk : Known u w₁ s
    · rw [walk, run_unlessVerified_of_known hk]
      exact match_of_known hl hs hr hk 0
    · have hsame : (if s.isVoid ix then pure () else throw (.tooDeep s.type) : Walk Unit) =
          walkAfresh ix t u 0 s' := by
        cases hs <;> rfl
      rw [walk, run_unlessVerified_of_not_known hk, hsame, walkAfresh]
      split
      · exact inStep_pure trivial w₁ w₂ hr
      · exact inStep_throw (fun _ => rfl) w₁ w₂ hr
  | succ n ih =>
    intro w₁ w₂ hr
    by_cases hk : Known u w₁ s
    · rw [walk, run_unlessVerified_of_known hk]
      exact match_of_known hl hs hr hk (n + 1)
    · rw [walk, run_unlessVerified_of_not_known hk]
      have hround := inStep_within (fair_remembering ix t u) (growing_walk n) (growing_walkAfresh n)
        (fun _ _ hs' => ih hs') hs
      exact match_verified (n := n + 1) hs hr.second (hround w₁ w₂ hr)

theorem match_block (hl : ix.LegalShapes) (t : Table) (root : Id) (storage : StorageClass)
    (policy : Option LayoutPolicy) :
    ∃ u, Match ix t (remembering ix t u) (fun _ _ => True)
      (run (block ix t root storage policy) {})
      (run (blockAfresh ix t root storage policy) {}) := by
  have hempty := Walker.faithful_empty ix t
  have hrelated : ∀ u, Related ix t (remembering ix t u) {} {} :=
    fun u => ⟨hempty, hempty, fun v hv => by simp at hv⟩
  unfold block blockAfresh blockBy
  split
  · next p kind _ =>
    have hwalks := inStep_walkAfresh (t := t) (u := ⟨kind, storage, p⟩) hl Quantity.maxTypeDepth
      (.struct root 0 0 rfl)
    have hsteps := inStep_afterExplicit (growing_walk _ _) (growing_walkAfresh _ _) root kind hwalks
    exact ⟨⟨kind, storage, p⟩, hsteps {} {} (hrelated _)⟩
  · exact ⟨⟨.block, storage, ⟨.storage, .standard⟩⟩, .ok () () {} {} trivial (hrelated _)⟩

/-- The check of a block comes to what it would without remembering, unless a type is nested too
deep or a word cannot hold what is met. -/
theorem checkBlock_eq_blockAfresh (hl : ix.LegalShapes) {root : Id} {storage : StorageClass}
    {policy : Option LayoutPolicy}
    (hin : ∀ x ∈ (run (blockAfresh ix t root storage policy) {}).2.met, x.2 < 0x100000000)
    (hdeep : ∀ id, checkBlock ix t root storage policy ≠ .error (.tooDeep id))
    (hdeep' : ∀ id, (run (blockAfresh ix t root storage policy) {}).1 ≠ .error (.tooDeep id)) :
    checkBlock ix t root storage policy = (run (blockAfresh ix t root storage policy) {}).1 := by
  obtain ⟨u, hm⟩ := match_block hl t root storage policy
  have hcheck : checkBlock ix t root storage policy =
      (run (block ix t root storage policy) {}).1 := rfl
  rw [hcheck] at hdeep ⊢
  generalize run (block ix t root storage policy) {} = r₁ at hm hdeep ⊢
  generalize run (blockAfresh ix t root storage policy) {} = r₂ at hm hin hdeep' ⊢
  cases hm with
  | first _ _ hgiven =>
    cases hgiven with
    | tooDeep id w => exact absurd rfl (hdeep id)
    | tooLarge _ hb _ => cases hb
  | second _ _ hgiven =>
    cases hgiven with
    | tooDeep id w => exact absurd rfl (hdeep' id)
    | tooLarge _ _ hr => exact absurd hin hr
  | ok _ _ _ _ _ _ => rfl
  | error f _ _ h => exact (h rfl).symm

def twinBlock : Module where
  annotations := [.decorating 3 .block [], .placing 2 0 0, .placing 2 1 16, .placing 3 0 0,
    .placing 3 1 256]
  globals := [.declaring .opTypeFloat 1 [.literal 32],
    .declaring .opTypeStruct 2 [.id 1, .id 1],
    .declaring .opTypeStruct 3 [.id 2, .id 2]] ++ Instruction.holding 4 5 3

theorem checkBlock_twinBlock :
    ∃ t ix, twinBlock.validate {} = .ok t ∧ Index.ofModule twinBlock = .ok ix ∧
      ⟨2, 0, .storage, .standard⟩ ∈ (run (block ix t 3 .storageBuffer
        (some ⟨.storage, .standard⟩)) {}).2.verified ∧
      checkBlock ix t 3 .storageBuffer (some ⟨.storage, .standard⟩) =
        (run (blockAfresh ix t 3 .storageBuffer (some ⟨.storage, .standard⟩)) {}).1 := by
  have hrun : bothPass (twinBlock.validate {}) (Index.ofModule twinBlock) (fun t ix =>
      (decide ix.LegalShapes &&
        (run (blockAfresh ix t 3 .storageBuffer (some ⟨.storage, .standard⟩)) {}).2.met.all
          fun x => x.2 < 0x100000000) &&
      ((checkBlock ix t 3 .storageBuffer (some ⟨.storage, .standard⟩)).isOk &&
        (run (blockAfresh ix t 3 .storageBuffer (some ⟨.storage, .standard⟩)) {}).1.isOk) &&
      (run (block ix t 3 .storageBuffer (some ⟨.storage, .standard⟩)) {}).2.verified.contains
        ⟨2, 0, .storage, .standard⟩) = true := by
    decide +kernel
  obtain ⟨t, ix, ht, hix, hq⟩ := exists_of_bothPass hrun
  simp only [Bool.and_eq_true, decide_eq_true_eq, List.all_eq_true] at hq
  obtain ⟨⟨⟨hl, hin⟩, hok, hok'⟩, hverified⟩ := hq
  have hdeep := eq_ok_of_isOk hok
  have hdeep' := eq_ok_of_isOk hok'
  refine ⟨t, ix, ht, hix, Std.TreeSet.contains_iff_mem.1 hverified, ?_⟩
  exact checkBlock_eq_blockAfresh hl hin (by simp [hdeep]) (by simp [hdeep'])

end Walk

end SpirvRules
