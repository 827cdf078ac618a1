import Mathlib.Data.List.TakeWhile
import Mathlib.Logic.Relation
import SpirvRules.Collection

/-!
# What a search finds

A search finds an item at every node that can be reached through nodes searched.
-/

set_option autoImplicit false

namespace SpirvRules.Search

variable {α β : Type} (node : α → Id) (next : α → List α)

/-- Some item of a list stands at a node. -/
def Covers (l : List α) (i : Id) : Prop := ∃ b ∈ l, node b = i

variable {node next} {fresh : Std.TreeMap Id β} {n : Nat} {stack : List α}

theorem not_contains_iff {i : Id} : (!fresh.contains i) = true ↔ i ∉ fresh := by
  rw [Bool.not_eq_true', ← Bool.not_eq_true, Std.TreeMap.contains_iff_mem]

theorem not_mem_of_dropWhile_eq_nil (h : stack.dropWhile (fun a => !fresh.contains (node a)) = [])
    {a : α} (ha : a ∈ stack) : node a ∉ fresh :=
  not_contains_iff.1 (List.dropWhile_eq_nil_iff.1 h a ha)

theorem mem_of_dropWhile_eq_cons {a : α} {rest : List α}
    (h : stack.dropWhile (fun a => !fresh.contains (node a)) = a :: rest) :
    node a ∈ fresh ∧ ∀ b ∈ stack, node b ∈ fresh → b = a ∨ b ∈ rest := by
  induction stack with
  | nil => cases h
  | cons c stack ih =>
    rw [List.dropWhile_cons] at h
    by_cases hc : node c ∈ fresh
    · rw [if_neg fun h => not_contains_iff.1 h hc] at h
      cases h
      exact ⟨hc, fun b hb _ => List.mem_cons.1 hb⟩
    · rw [if_pos (not_contains_iff.2 hc)] at h
      obtain ⟨ha, hrest⟩ := ih h
      refine ⟨ha, fun b hb hf => ?_⟩
      rcases List.mem_cons.1 hb with rfl | hb
      · exact absurd hf hc
      · exact hrest b hb hf

/-- The items taken cover the fresh nodes on the stack and, for each item taken, those it leads
to. The number of fresh nodes is room enough, for each item taken uses one up. -/
theorem taken_covers (node : α → Id) (next : α → List α) (stack : List α)
    (hn : fresh.size = n) :
    (∀ a ∈ stack, node a ∈ fresh → Covers node (taken node next n fresh stack) (node a)) ∧
      ∀ b ∈ taken node next n fresh stack, ∀ c ∈ next b, node c ∈ fresh →
        Covers node (taken node next n fresh stack) (node c) := by
  induction n generalizing fresh stack with
  | zero =>
    have hempty : ∀ i, i ∉ fresh := fun i =>
      Std.TreeMap.not_mem_of_isEmpty (by simp [Std.TreeMap.isEmpty_eq_size_eq_zero, hn])
    exact ⟨fun a _ hf => absurd hf (hempty _), fun b hb => by cases hb⟩
  | succ n ih =>
    rw [taken]
    cases hd : stack.dropWhile fun a => !fresh.contains (node a) with
    | nil =>
      exact ⟨fun a ha hf => absurd hf (not_mem_of_dropWhile_eq_nil hd ha), fun b hb => by cases hb⟩
    | cons a rest =>
      obtain ⟨ha, hrest⟩ := mem_of_dropWhile_eq_cons hd
      have hsize : (fresh.erase (node a)).size = n := by
        rw [Std.TreeMap.size_erase, if_pos (Std.TreeMap.contains_iff_mem.2 ha), hn]
        rfl
      obtain ⟨hstack, hclosed⟩ := ih (next a ++ rest) hsize
      have covers : ∀ i, (i ≠ node a → Covers node
          (taken node next n (fresh.erase (node a)) (next a ++ rest)) i) →
          Covers node (a :: taken node next n (fresh.erase (node a)) (next a ++ rest)) i := by
        intro i h
        by_cases hi : i = node a
        · exact ⟨a, by simp, hi.symm⟩
        · obtain ⟨b, hb, hbi⟩ := h hi
          exact ⟨b, by simp [hb], hbi⟩
      have keep : ∀ i, i ∈ fresh → i ≠ node a → i ∈ fresh.erase (node a) := by
        intro i hi hne
        rw [Std.TreeMap.mem_erase]
        exact ⟨fun h => hne (Std.LawfulEqOrd.eq_of_compare h).symm, hi⟩
      constructor
      · intro b hb hf
        refine covers _ fun hne => ?_
        rcases hrest b hb hf with rfl | hr
        · exact absurd rfl hne
        · exact hstack b (by simp [hr]) (keep _ hf hne)
      · intro b hb c hc hf
        refine covers _ fun hne => ?_
        rcases List.mem_cons.1 hb with rfl | hb
        · exact hstack c (by simp [hc]) (keep _ hf hne)
        · exact hclosed b hb c hc (keep _ hf hne)

/-- What a search over all `nodes` covers: whatever a chain of steps reaches from the stack, if each
node on the way is one of `nodes` and each item at a node leads where the step does. -/
theorem run_covers {nodes : Std.TreeMap Id β} {r : Id → Id → Prop} {root : Id}
    (hdef : ∀ i j, r i j → j ∈ nodes) (hroot : ∀ j, r root j → ∃ a ∈ stack, node a = j)
    (hstep : ∀ a j, r (node a) j → ∃ b ∈ next a, node b = j) {i : Id}
    (h : Relation.TransGen r root i) : Covers node (run node next nodes stack) i := by
  obtain ⟨hstack, hclosed⟩ := taken_covers node next stack (Eq.refl nodes.size)
  induction h with
  | single hr =>
    obtain ⟨a, ha, rfl⟩ := hroot _ hr
    exact hstack a ha (hdef _ _ hr)
  | tail _ hr ih =>
    obtain ⟨b, hb, rfl⟩ := ih
    obtain ⟨c, hc, rfl⟩ := hstep b _ hr
    exact hclosed b hb c hc (hdef _ _ hr)

theorem taken_congr {γ : Type} {fresh' : Std.TreeMap Id γ} (h : ∀ i, i ∈ fresh ↔ i ∈ fresh')
    (n : Nat) (stack : List α) :
    taken node next n fresh stack = taken node next n fresh' stack := by
  induction n generalizing fresh fresh' stack with
  | zero => rfl
  | succ n ih =>
    have hcontains : ∀ i, fresh.contains i = fresh'.contains i := by
      intro i
      rw [Bool.eq_iff_iff, Std.TreeMap.contains_iff_mem, Std.TreeMap.contains_iff_mem]
      exact h i
    have herase : ∀ j i, i ∈ fresh.erase j ↔ i ∈ fresh'.erase j := by
      intro j i
      rw [Std.TreeMap.mem_erase, Std.TreeMap.mem_erase, h i]
    simp only [taken, hcontains]
    split
    · rfl
    · rename_i a rest _
      rw [ih (herase (node a))]

theorem taken_subset {P : α → Prop} (nodes : Std.TreeMap Id β)
    (hnext : ∀ a, P a → ∀ b ∈ next a, node b ∈ nodes → P b) (hfresh : ∀ i ∈ fresh, i ∈ nodes)
    (hstack : ∀ a ∈ stack, node a ∈ nodes → P a) :
    ∀ a ∈ taken node next n fresh stack, P a := by
  induction n generalizing fresh stack with
  | zero => nofun
  | succ n ih =>
    rw [taken]
    cases hd : stack.dropWhile fun a => !fresh.contains (node a) with
    | nil => nofun
    | cons a rest =>
      have hmem : ∀ b ∈ a :: rest, b ∈ stack := by
        intro b hb
        rw [← hd] at hb
        exact List.dropWhile_subset _ hb
      have ha : P a := by
        apply hstack a (hmem a List.mem_cons_self)
        exact hfresh _ (mem_of_dropWhile_eq_cons hd).1
      have hrest : ∀ b ∈ taken node next n (fresh.erase (node a)) (next a ++ rest), P b := by
        apply ih
        · intro i hi
          exact hfresh i (Std.TreeMap.mem_of_mem_erase hi)
        · intro b hb hbn
          rcases List.mem_append.1 hb with hb | hb
          · exact hnext a ha b hb hbn
          · exact hstack b (hmem b (List.mem_cons_of_mem _ hb)) hbn
      exact List.forall_mem_cons.2 ⟨ha, hrest⟩

/-- A search of plain nodes finds those that a chain of steps through nodes searched leads to. -/
theorem mem_run_iff {next : Id → List Id} {nodes : Std.TreeMap Id β} {stack : List Id} {i : Id} :
    i ∈ run (fun i : Id => i) next nodes stack ↔
      ∃ a ∈ stack, a ∈ nodes ∧
        Relation.ReflTransGen (fun a b => b ∈ next a ∧ b ∈ nodes) a i := by
  constructor
  · intro hi
    apply taken_subset nodes ?_ (fun _ h => h) ?_ i hi
    · rintro a ⟨r, hr, hrn, hpath⟩ b hb hbn
      exact ⟨r, hr, hrn, hpath.tail ⟨hb, hbn⟩⟩
    · exact fun a ha han => ⟨a, ha, han, .refl⟩
  · rintro ⟨a, ha, han, hpath⟩
    obtain ⟨hstack, hclosed⟩ := taken_covers (fun i : Id => i) next stack (Eq.refl nodes.size)
    have hfound : Covers (fun i : Id => i) (run (fun i : Id => i) next nodes stack) i := by
      induction hpath with
      | refl => exact hstack a ha han
      | tail _ hstep ih =>
        obtain ⟨b, hb, rfl⟩ := ih
        exact hclosed b hb _ hstep.1 hstep.2
    obtain ⟨b, hb, rfl⟩ := hfound
    exact hb

/-- What is found does not depend on the order in which nodes are stacked. -/
theorem mem_run_of_perm {γ : Type} {next next' : Id → List Id} {nodes : Std.TreeMap Id β}
    {nodes' : Std.TreeMap Id γ} {stack : List Id} (hnodes : ∀ i, i ∈ nodes → i ∈ nodes')
    (hnext : ∀ a, ∀ b ∈ next a, b ∈ next' a) {i : Id}
    (hi : i ∈ run (fun i : Id => i) next nodes stack) :
    i ∈ run (fun i : Id => i) next' nodes' stack := by
  obtain ⟨a, ha, han, hpath⟩ := mem_run_iff.1 hi
  refine mem_run_iff.2 ⟨a, ha, hnodes a han, Relation.ReflTransGen.mono ?_ _ _ hpath⟩
  exact fun b c hstep => ⟨hnext b c hstep.1, hnodes c hstep.2⟩

end SpirvRules.Search
