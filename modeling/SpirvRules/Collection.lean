import SpirvRules.Word
import Std.Data.TreeMap

/-!
# Lists, maps and ordered sets

What the rules need of collections: searches of a graph, groups by key, sets kept in order, and what
occurs twice.
-/

set_option autoImplicit false

namespace SpirvRules

/-!
### Depth-first search

Items wait on a stack, each standing at a node. The next item is the topmost whose node is still
fresh; its node is used up and its own successors are stacked above the rest. Every step uses up a
node, so the number of fresh nodes bounds the search, cycles or not.
-/

namespace Search

variable {α β : Type}

def taken (node : α → Id) (next : α → List α) : Nat → Std.TreeMap Id β → List α → List α
  | 0, _, _ => []
  | n + 1, fresh, stack =>
    match stack.dropWhile fun a => !fresh.contains (node a) with
    | [] => []
    | a :: rest => a :: taken node next n (fresh.erase (node a)) (next a ++ rest)

def run (node : α → Id) (next : α → List α) (nodes : Std.TreeMap Id β) (stack : List α) : List α :=
  taken node next nodes.size nodes stack

end Search

/-!
### Grouping by id

Pairs of an id and a value, gathered under the ids; under each id the values keep their order.
-/

abbrev Grouping (α : Type) := Std.TreeMap Id (List α)

namespace Grouping

variable {α : Type}

def ofPairs : List (Id × α) → Grouping α
  | [] => ∅
  | (i, a) :: rest => (ofPairs rest).alter i fun held => some (a :: held.getD [])

def under (g : Grouping α) (i : Id) : List α := g[i]?.getD []

theorem under_ofPairs (ps : List (Id × α)) (i : Id) :
    (ofPairs ps).under i = (ps.filter (·.1 = i)).map (·.2) := by
  induction ps with
  | nil => simp [ofPairs, under]
  | cons p rest ih =>
    obtain ⟨j, a⟩ := p
    rw [under] at ih ⊢
    rw [ofPairs, Std.TreeMap.getElem?_alter]
    by_cases h : j = i
    · subst h
      simp [ih]
    · have hc : compare j i ≠ .eq := fun hc => h (Std.LawfulEqOrd.eq_of_compare hc)
      simp [h, hc, ih]

end Grouping

/-!
### Ordered lists

A list in strictly ascending order stands for a set: inserting keeps the order and drops what is
already there.
-/

namespace Ordered

variable {α : Type} [Ord α]

def insert (a : α) : List α → List α
  | [] => [a]
  | b :: bs =>
    match compare a b with
    | .lt => a :: b :: bs
    | .eq => b :: bs
    | .gt => b :: insert a bs

def ofList (as : List α) : List α := as.foldl (fun s a => insert a s) []

theorem mem_insert [Std.LawfulEqOrd α] (a b : α) (s : List α) :
    b ∈ insert a s ↔ b = a ∨ b ∈ s := by
  induction s with
  | nil => simp [insert]
  | cons c cs ih =>
    unfold insert
    split
    · simp
    · rename_i h
      have hc := Std.LawfulEqOrd.eq_of_compare h
      simp [hc]
    · simp only [List.mem_cons, ih]
      constructor
      · rintro (h | h | h)
        · exact .inr (.inl h)
        · exact .inl h
        · exact .inr (.inr h)
      · rintro (h | h | h)
        · exact .inr (.inl h)
        · exact .inl h
        · exact .inr (.inr h)

theorem pairwise_insert [Std.TransOrd α] [Std.LawfulEqOrd α] (a : α) (s : List α)
    (h : s.Pairwise fun x y => compare x y = .lt) :
    (insert a s).Pairwise fun x y => compare x y = .lt := by
  induction s with
  | nil => simp [insert]
  | cons c cs ih =>
    obtain ⟨hc, hcs⟩ := List.pairwise_cons.1 h
    unfold insert
    split
    · rename_i hac
      refine List.pairwise_cons.2 ⟨fun x hx => ?_, h⟩
      rcases List.mem_cons.1 hx with rfl | hx
      · exact hac
      · exact Std.TransCmp.lt_trans hac (hc x hx)
    · exact h
    · rename_i hac
      refine List.pairwise_cons.2 ⟨fun x hx => ?_, ih hcs⟩
      rcases (mem_insert a x cs).1 hx with rfl | hx
      · exact Std.OrientedCmp.lt_of_gt hac
      · exact hc x hx

theorem mem_ofList [Std.LawfulEqOrd α] (b : α) (as : List α) : b ∈ ofList as ↔ b ∈ as := by
  have h (s : List α) : b ∈ as.foldl (fun s a => insert a s) s ↔ b ∈ as ∨ b ∈ s := by
    induction as generalizing s with
    | nil => simp
    | cons a rest ih =>
      rw [List.foldl_cons, ih, mem_insert, List.mem_cons]
      constructor
      · rintro (h | h | h)
        · exact .inl (.inr h)
        · exact .inl (.inl h)
        · exact .inr h
      · rintro ((h | h) | h)
        · exact .inr (.inl h)
        · exact .inl h
        · exact .inr (.inr h)
  simpa [ofList] using h []

theorem pairwise_ofList [Std.TransOrd α] [Std.LawfulEqOrd α] (as : List α) :
    (ofList as).Pairwise fun x y => compare x y = .lt := by
  have h (s : List α) (hs : s.Pairwise fun x y => compare x y = .lt) :
      (as.foldl (fun s a => insert a s) s).Pairwise fun x y => compare x y = .lt := by
    induction as generalizing s with
    | nil => exact hs
    | cons a rest ih => exact ih _ (pairwise_insert a s hs)
  exact h [] .nil

end Ordered

/-!
### Repetitions

The first item of a list whose key an earlier item has.
-/

variable {α κ : Type} [DecidableEq κ]

def repeatAfter? (key : α → κ) : List κ → List α → Option α
  | _, [] => none
  | seen, a :: rest =>
    if key a ∈ seen then some a else repeatAfter? key (key a :: seen) rest

def firstRepeat? (key : α → κ) (as : List α) : Option α := repeatAfter? key [] as

theorem repeatAfter?_eq_none (key : α → κ) (seen : List κ) (as : List α) :
    repeatAfter? key seen as = none ↔
      (as.map key).Nodup ∧ ∀ k ∈ as.map key, k ∉ seen := by
  induction as generalizing seen with
  | nil => simp [repeatAfter?]
  | cons a rest ih =>
    by_cases h : key a ∈ seen
    · simp [repeatAfter?, h]
    · simp only [repeatAfter?, h, if_false, ih, List.map_cons, List.nodup_cons, List.mem_cons]
      constructor
      · rintro ⟨hn, hs⟩
        refine ⟨⟨fun hm => hs _ hm (.inl rfl), hn⟩, ?_⟩
        rintro k (rfl | hk)
        · exact h
        · exact fun hks => hs k hk (.inr hks)
      · rintro ⟨⟨hm, hn⟩, hs⟩
        refine ⟨hn, fun k hk => ?_⟩
        rintro (rfl | hks)
        · exact hm hk
        · exact hs k (.inr hk) hks

theorem firstRepeat?_eq_none (key : α → κ) (as : List α) :
    firstRepeat? key as = none ↔ (as.map key).Nodup := by
  simp [firstRepeat?, repeatAfter?_eq_none]

end SpirvRules
