import SpirvRules.Proofs.Layout.Soundness
import SpirvRules.Rule.Buffer

/-!
# The blocks of a module

One walker goes through all blocks that variables and physical pointers hold. What every such walk
establishes of its block holds of all these blocks when the buffers pass.
-/

set_option autoImplicit false

namespace SpirvRules

open Stateful

namespace Walk

variable {ix : Index} {t : Table} {K : Visit → Prop} {M : Id → Nat → Prop}

theorem yields_demand (lack : LayoutFault) (o : Except Id Bool) :
    Yields ix t K M (demand lack o) fun _ => o = .ok false :=
  (triple_demand (fun _ _ => trivial) fun _ _ _ _ => trivial).mono (fun _ => id)
    (fun _ _ hw _ => hw) fun _ _ => id

theorem yields_explicit (root : Id) (kind : DecorationKind) :
    Yields ix t K M (explicit ix t root kind) fun _ =>
      ∀ n ∈ needs, Explicit.misses ix t n root = .ok false :=
  (yields_demand _ _).bind (fun _ => invariant_forM fun _ _ => keeping_demand _ _) fun _ _ =>
    yields_forM (fun _ => keeping_demand _ _) fun _ _ => yields_demand _ _

section Block

variable {root : Id} {storage : StorageClass} {p : LayoutPolicy} {kind : DecorationKind}
  (hk : t.blockKind? root = some kind) {start P : Site → Prop}
  (hc : Carries ix t ⟨kind, storage, p⟩ K M start P) (hs : start (.struct root 0))

include hk hc hs

theorem yields_block_explicit : Yields ix t K M (block ix t root storage (some p)) fun _ =>
    (∀ n ∈ needs, Explicit.misses ix t n root = .ok false) ∧ P (.struct root 0) := by
  simp only [block, blockBy, hk]
  exact (yields_explicit root kind).bind (fun _ => growing_walk _ _) fun _ hn =>
    (yields_walk hc _ hs).mono fun _ hp => ⟨hn, hp⟩

theorem yields_block :
    Yields ix t K M (block ix t root storage (some p)) fun _ => P (.struct root 0) :=
  (yields_block_explicit hk hc hs).mono fun _ h => h.2

end Block

end Walk

namespace Buffer

open Walk

variable {cx : Context} {K : Visit → Prop} {M : Id → Nat → Prop}

/-- The structs whose layout is checked: what the global variables hold, and what the physical
pointer types point to. -/
inductive Checked (cx : Context) : Held → Prop where
  | global (id : Id) (c : StorageClass) (pointee : Id) (h : Held)
      (hv : (id, c, pointee) ∈ cx.globalVariables) (hh : held? cx c pointee = some h) :
      Checked cx h
  | pointed (i : Instruction) (h : Held) (hi : i ∈ cx.index.module.globals)
      (hp : pointed? cx i = some h) : Checked cx h

theorem isStruct_of_behind {type : Id} {arrayed : Bool} {c : StorageClass} {h : Held}
    (hm : (cx.structBehind? type arrayed).map (⟨·, c⟩) = some h) :
    (cx.index.type? h.struct).any TypeView.isStruct := by
  obtain ⟨s, hs, rfl⟩ := Option.map_eq_some_iff.1 hm
  simp only [Context.structBehind?, Option.ite_none_right_eq_some] at hs
  obtain ⟨hv, hs⟩ := hs
  cases hs
  exact hv

theorem Checked.isStruct {h : Held} (hc : Checked cx h) :
    (cx.index.type? h.struct).any TypeView.isStruct := by
  cases hc with
  | global id c pointee _ hv hh =>
    unfold held? at hh
    split at hh
    · exact isStruct_of_behind hh
    · exact isStruct_of_behind hh
    · exact isStruct_of_behind hh
    · exact isStruct_of_behind (Option.ite_none_right_eq_some.1 hh).2
    · cases hh
  | pointed i _ hi hp =>
    unfold pointed? at hp
    obtain ⟨_, _, hp⟩ := Option.bind_eq_some_iff.1 hp
    obtain ⟨_, _, hp⟩ := Option.bind_eq_some_iff.1 hp
    obtain ⟨v, _, hp⟩ := Option.bind_eq_some_iff.1 hp
    split at hp
    · exact isStruct_of_behind hp
    · cases hp

theorem growing_checkHeld (h : Held) : Growing M (checkHeld cx h) :=
  Triple.adapt (keeping_blockBy (fun _ => growing_walk) _ _ _)

theorem yields_checkHeld {Q : LayoutPolicy → Prop} {h : Held}
    (hQ : ∀ p kind, policy? cx h = some p → cx.table.blockKind? h.struct = some kind →
      Yields cx.index cx.table K M (block cx.index cx.table h.struct h.storage (some p))
        fun _ => Q p) :
    Yields cx.index cx.table K M (checkHeld cx h) fun _ =>
      ∀ p, policy? cx h = some p → (cx.table.blockKind? h.struct).isSome → Q p := by
  refine Triple.adapt ?_
  cases hp : policy? cx h with
  | none => exact triple_pure fun _ hw _ => ⟨hw, by simp⟩
  | some p =>
    cases hk : cx.table.blockKind? h.struct with
    | none =>
      simp only [block, blockBy, hk]
      exact triple_pure fun _ hw _ => ⟨hw, by simp⟩
    | some kind => exact (hQ p kind hp hk).mono fun _ hq => by simpa using hq

theorem checkVariable_eq (id : Id) (c : StorageClass) (pointee : Id) :
    checkVariable cx id c pointee =
      match Resource.fault? cx id c pointee with
      | some f => throw (.resource f)
      | none => (held? cx c pointee).forM (checkHeld cx) := by
  unfold checkVariable
  cases Resource.fault? cx id c pointee <;> rfl

theorem growing_checkVariable (id : Id) (c : StorageClass) (pointee : Id) :
    Growing M (checkVariable cx id c pointee) := by
  rw [checkVariable_eq]
  cases Resource.fault? cx id c pointee with
  | some f => exact triple_throw fun _ hw => hw
  | none =>
    cases held? cx c pointee with
    | none => exact invariant_pure ()
    | some h => exact growing_checkHeld h

theorem yields_checkVariable {P : Held → Prop} {id : Id} {c : StorageClass} {pointee : Id}
    (hP : ∀ h, held? cx c pointee = some h →
      Yields cx.index cx.table K M (checkHeld cx h) fun _ => P h) :
    Yields cx.index cx.table K M (checkVariable cx id c pointee) fun _ =>
      ∀ h, held? cx c pointee = some h → P h := by
  rw [checkVariable_eq]
  cases Resource.fault? cx id c pointee with
  | some f => exact triple_throw fun _ _ => trivial
  | none =>
    cases hh : held? cx c pointee with
    | none => exact triple_pure fun _ hw _ => ⟨hw, by simp⟩
    | some h => exact (hP h hh).mono fun _ hp => by simpa using hp

/-- When the buffers pass, each block has been found right, if each single check finds it so. -/
theorem yields_checkAll {P : Held → Prop}
    (hP : ∀ h, Checked cx h → Yields cx.index cx.table K M (checkHeld cx h) fun _ => P h) :
    Yields cx.index cx.table K M (checkAll cx) fun _ => ∀ h, Checked cx h → P h := by
  refine Yields.bind (yields_forM (P := fun v => ∀ h, held? cx v.2.1 v.2.2 = some h → P h)
    (fun _ => growing_checkVariable _ _ _) fun v hv => yields_checkVariable fun h hh =>
      hP h (.global v.1 v.2.1 v.2.2 h hv hh))
    (fun _ => invariant_forM fun h _ => growing_checkHeld h) fun _ hvars => ?_
  refine (yields_forM (P := P) growing_checkHeld fun h hh => ?_).mono fun _ hptrs h hc => ?_
  · obtain ⟨i, hi, hp⟩ := List.mem_filterMap.1 hh
    exact hP h (.pointed i h hi hp)
  · cases hc with
    | global id c pointee _ hv hh => exact hvars _ hv h hh
    | pointed i _ hi hp => exact hptrs h (List.mem_filterMap.2 ⟨i, hi, hp⟩)

end Buffer

end SpirvRules
