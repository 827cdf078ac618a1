import Mathlib.Order.Lattice
import SpirvRules.Layout.Measure
import SpirvRules.Proofs.Stateful

/-!
# The value of a recurrence

A key has a value when the recurrence can be followed from it to an end; room and memory then no
longer matter. Whatever the memory holds is such a value, also after computations that failed.
-/

set_option autoImplicit false

namespace SpirvRules.Rule

open Stateful

variable {κ ν ε α β : Type}

theorem exists_right_of_mem {R : α → β → Prop} {as : List α} {bs : List β}
    (h : List.Forall₂ R as bs) {a : α} (ha : a ∈ as) : ∃ b ∈ bs, R a b := by
  induction h with
  | nil => cases ha
  | cons hr _ ih =>
    rcases List.mem_cons.1 ha with rfl | ha
    · exact ⟨_, by simp, hr⟩
    · obtain ⟨b, hb, hr⟩ := ih ha
      exact ⟨b, by simp [hb], hr⟩

theorem mapM_eq_ok (f : α → Except ε β) (xs : List α) (ys : List β) :
    xs.mapM f = .ok ys ↔ List.Forall₂ (fun x y => f x = .ok y) xs ys := by
  induction xs generalizing ys with
  | nil => cases ys <;> simp [pure, Except.pure]
  | cons x xs ih =>
    rw [List.mapM_cons]
    cases hx : f x with
    | error e => cases ys <;> simp [bind, Except.bind, hx]
    | ok y =>
      cases hs : xs.mapM f with
      | error e => cases ys <;> simp [bind, Except.bind, hx, ← ih, hs]
      | ok zs => cases ys <;> simp [bind, Except.bind, pure, Except.pure, hx, ← ih, hs]

variable {rule : κ → Rule κ ν} {k : κ} {v w : ν} {n m : Nat}

theorem plain_succ_eq_ok :
    plain rule (n + 1) k = .ok v ↔
      ∃ vs, List.Forall₂ (fun p w => plain rule n p = .ok w) (rule k).parts vs ∧
        (rule k).combine vs = v := by
  simp only [plain, ← mapM_eq_ok]
  cases (rule k).parts.mapM (plain rule n) with
  | error e => simp [bind, Except.bind]
  | ok vs => simp [bind, Except.bind, pure, Except.pure]

theorem plain_mono (h : plain rule n k = .ok v) (hnm : n ≤ m) : plain rule m k = .ok v := by
  induction n generalizing m k v with
  | zero => simp [plain] at h
  | succ n ih =>
    obtain ⟨m, rfl⟩ := Nat.exists_eq_add_of_le' (Nat.lt_of_lt_of_le n.succ_pos hnm)
    obtain ⟨vs, hvs, hv⟩ := plain_succ_eq_ok.1 h
    exact plain_succ_eq_ok.2 ⟨vs, hvs.imp fun _ _ hp => ih hp (by omega), hv⟩

theorem plain_fixed (h : rule k = .fixed w) : plain rule (n + 1) k = .ok w := by
  rw [plain_succ_eq_ok, h]
  exact ⟨[], .nil, rfl⟩

theorem plain_single [Inhabited ν] {p : κ} {f : ν → ν} (h : rule k = .single p f)
    (hp : plain rule n p = .ok v) : plain rule (n + 1) k = .ok (f v) := by
  rw [plain_succ_eq_ok, h]
  exact ⟨[v], .cons hp .nil, rfl⟩

/-- What a key comes to, given room enough. -/
def Value (rule : κ → Rule κ ν) (k : κ) (v : ν) : Prop := ∃ n, plain rule n k = .ok v

theorem Value.unique (hv : Value rule k v) (hw : Value rule k w) : v = w := by
  obtain ⟨n, hn⟩ := hv
  obtain ⟨m, hm⟩ := hw
  have h := (plain_mono hn (Nat.le_max_left n m)).symm.trans (plain_mono hm (Nat.le_max_right n m))
  exact Except.ok.inj h

theorem common_room {ks : List κ} {vs : List ν} (h : List.Forall₂ (Value rule) ks vs) :
    ∃ n, List.Forall₂ (fun p w => plain rule n p = .ok w) ks vs := by
  induction h with
  | nil => exact ⟨0, .nil⟩
  | cons hv _ ih =>
    obtain ⟨n, hn⟩ := hv
    obtain ⟨m, hm⟩ := ih
    exact ⟨max n m, .cons (plain_mono hn (Nat.le_max_left n m))
      (hm.imp fun _ _ hp => plain_mono hp (Nat.le_max_right n m))⟩

theorem value_iff :
    Value rule k v ↔
      ∃ vs, List.Forall₂ (Value rule) (rule k).parts vs ∧ (rule k).combine vs = v := by
  constructor
  · rintro ⟨_ | n, h⟩
    · simp [plain] at h
    · obtain ⟨vs, hvs, hv⟩ := plain_succ_eq_ok.1 h
      exact ⟨vs, hvs.imp fun _ _ hp => ⟨n, hp⟩, hv⟩
  · rintro ⟨vs, hvs, hv⟩
    obtain ⟨n, hn⟩ := common_room hvs
    exact ⟨n + 1, plain_succ_eq_ok.2 ⟨vs, hn, hv⟩⟩

theorem value_fixed (h : rule k = .fixed w) : Value rule k v ↔ v = w := by
  rw [value_iff, h]
  simp [fixed, eq_comm]

theorem value_single [Inhabited ν] {p : κ} {f : ν → ν} (h : rule k = .single p f) :
    Value rule k v ↔ ∃ w, Value rule p w ∧ v = f w := by
  rw [value_iff, h]
  constructor
  · rintro ⟨_, _ | ⟨hw, hs⟩, rfl⟩
    cases hs
    exact ⟨_, hw, rfl⟩
  · rintro ⟨w, hw, rfl⟩
    exact ⟨[w], .cons hw .nil, rfl⟩

/-- A recurrence is followed part by part, so that what holds of a key whenever it holds of its
parts holds of every key with a value. -/
theorem Value.induct {motive : κ → ν → Prop}
    (step : ∀ k vs, List.Forall₂ (fun p w => Value rule p w ∧ motive p w) (rule k).parts vs →
      motive k ((rule k).combine vs)) (h : Value rule k v) : motive k v := by
  obtain ⟨n, h⟩ := h
  induction n generalizing k v with
  | zero => simp [plain] at h
  | succ n ih =>
    obtain ⟨vs, hvs, rfl⟩ := plain_succ_eq_ok.1 h
    exact step k vs (hvs.imp fun _ _ hp => ⟨⟨n, hp⟩, ih hp⟩)

variable [Ord κ]

/-- Nothing but values is remembered. -/
def Faithful (rule : κ → Rule κ ν) (memory : Std.TreeMap κ ν) : Prop :=
  ∀ k v, memory[k]? = some v → Value rule k v

theorem faithful_empty [Std.TransOrd κ] : Faithful rule ∅ := by
  intro k v h
  simp at h

theorem Faithful.insert [Std.TransOrd κ] [Std.LawfulEqOrd κ] {memory : Std.TreeMap κ ν}
    (h : Faithful rule memory) (hv : Value rule k v) : Faithful rule (memory.insert k v) := by
  intro j w hj
  rw [Std.TreeMap.getElem?_insert] at hj
  by_cases hc : compare k j = .eq
  · cases Std.LawfulEqOrd.eq_of_compare hc
    rw [if_pos hc] at hj
    cases hj
    exact hv
  · rw [if_neg hc] at hj
    exact h j w hj

/-! ### With a memory -/

section Triple

variable {P I : Std.TreeMap κ ν → Prop} {Q : ν → Std.TreeMap κ ν → Prop}
variable {E : κ → Std.TreeMap κ ν → Prop}

theorem triple_lookUp {otherwise : Memo κ ν ν}
    (hk : ∀ memory v, P memory → memory[k]? = some v → Q v memory) (ho : Triple P otherwise Q E) :
    Triple P (lookUp k otherwise) Q E := by
  intro memory hm
  rw [lookUp, run_bind_of_ok (run_get memory)]
  cases hv : memory[k]? with
  | none => exact ho memory hm
  | some v => exact .ok (hk memory v hm hv)

theorem triple_remember (h : ∀ memory, P memory → Q v (memory.insert k v)) :
    Triple P (remember k v) Q E :=
  fun memory hm => .ok (h memory hm)

end Triple

variable [Std.TransOrd κ] [Std.LawfulEqOrd κ]

/-- Remembering changes no value: what a computation with a faithful memory gives is the value of
its key, and the memory stays faithful whether or not the computation fails. -/
theorem triple_memoised : Triple (Faithful rule) (memoised rule n k)
    (fun v memory => Faithful rule memory ∧ Value rule k v) fun _ => Faithful rule := by
  induction n generalizing k with
  | zero =>
    exact triple_lookUp (fun _ v hm hv => ⟨hm, hm k v hv⟩) (triple_throw fun _ hm => hm)
  | succ n ih =>
    refine triple_lookUp (fun _ v hm hv => ⟨hm, hm k v hv⟩) ?_
    refine (triple_mapM fun p _ => ih).bindFact fun vs hvs => ?_
    have hv : Value rule k ((rule k).combine vs) := value_iff.2 ⟨vs, hvs, rfl⟩
    exact triple_remember fun _ hm => ⟨hm.insert hv, hv⟩

/-- What can be computed without a memory can be computed with a faithful one, in the same room. -/
theorem triple_memoised_of_plain (h : plain rule n k = .ok v) :
    Triple (Faithful rule) (memoised rule n k)
      (fun w memory => Faithful rule memory ∧ plain rule n k = .ok w) fun _ _ => False := by
  induction n generalizing k v with
  | zero => cases h
  | succ n ih =>
    refine triple_lookUp (fun _ w hm hw => ⟨hm, ?_⟩) ?_
    · rw [h, (hm k w hw).unique ⟨n + 1, h⟩]
    obtain ⟨vs, hvs, -⟩ := plain_succ_eq_ok.1 h
    refine (triple_mapM (q := fun p w => plain rule n p = .ok w) fun p hp => ?_).bindFact
      fun ws hws => ?_
    · obtain ⟨w, _, hw⟩ := exists_right_of_mem hvs hp
      exact ih hw
    · have hplain := plain_succ_eq_ok.2 ⟨ws, hws, rfl⟩
      exact triple_remember fun _ hm => ⟨hm.insert ⟨n + 1, hplain⟩, hplain⟩

theorem memoised_of_plain {memory : Std.TreeMap κ ν} (hm : Faithful rule memory)
    (h : plain rule n k = .ok v) :
    ∃ memory', run (memoised rule n k) memory = (.ok v, memory') := by
  obtain ⟨w, memory', hrun, _, hw⟩ := (triple_memoised_of_plain h).exists_ok hm
  cases h.symm.trans hw
  exact ⟨memory', hrun⟩

/-! ### Room enough -/

omit [Std.TransOrd κ] [Std.LawfulEqOrd κ] in
/-- A computation does not run out of room where the parts of what fits some room fit less. -/
theorem memoised_total (fits : Nat → κ → Prop) (hzero : ∀ k, ¬ fits 0 k)
    (hsucc : ∀ n k, fits (n + 1) k → ∀ p ∈ (rule k).parts, fits n p) (h : fits n k) :
    Triple (fun _ => True) (memoised rule n k) (fun _ _ => True) fun _ _ => False := by
  induction n generalizing k with
  | zero => exact absurd h (hzero k)
  | succ n ih =>
    have hparts : ∀ p ∈ (rule k).parts, Triple (fun _ => True) (memoised rule n p)
        (fun _ _ => True ∧ True) fun _ _ => False := fun p hp =>
      (ih (hsucc n k h p hp)).mono (fun _ => id) (fun _ _ _ => ⟨trivial, trivial⟩) fun _ _ => id
    exact triple_lookUp (fun _ _ _ _ => trivial)
      ((triple_mapM hparts).bindFact fun _ _ => triple_remember fun _ _ => trivial)

end SpirvRules.Rule
