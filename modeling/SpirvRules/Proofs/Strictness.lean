import SpirvRules.Proofs.Outcome
import SpirvRules.Proofs.Stateful

/-!
# Checks that refuse more

One check is stricter than another when it does the same, except that it may stop earlier at a fault
of some sort. The sort is a parameter, and a check put together from stricter parts is stricter.
-/

set_option autoImplicit false

namespace SpirvRules

open Stateful

variable {ε ε' σ α β : Type} {P : ε → Prop}

/-- A search for faults finds what another finds, or before that a fault of `P`. -/
def FindsMore (P : ε → Prop) (f g : Option ε) : Prop := f = g ∨ ∃ e, P e ∧ f = some e

namespace FindsMore

variable {f g f' g' : Option ε}

theorem refl (f : Option ε) : FindsMore P f f := .inl rfl

theorem of_none (hg : g = none) (h : ∀ e, f = some e → P e) : FindsMore P f g := by
  rw [hg]
  cases hf : f with
  | none => exact .inl rfl
  | some e => exact .inr ⟨e, h e hf, rfl⟩

theorem ite {p : Prop} [Decidable p] (h : p → FindsMore P f g) (h' : ¬p → FindsMore P f' g') :
    FindsMore P (if p then f else f') (if p then g else g') := by
  split
  · exact h ‹p›
  · exact h' ‹¬p›

theorem guard {p q : Prop} [Decidable p] [Decidable q] {e : ε} (hq : ¬q) (he : P e)
    (h : FindsMore P f g) :
    FindsMore P (if p then some e else f) (if q then some e else g) := by
  rw [if_neg hq]
  by_cases hp : p
  · rw [if_pos hp]
    exact .inr ⟨e, he, rfl⟩
  · rw [if_neg hp]
    exact h

theorem or (h : FindsMore P f g) (h' : FindsMore P f' g') : FindsMore P (f <|> f') (g <|> g') := by
  rcases h with rfl | ⟨e, he, rfl⟩
  · cases f with
    | none => exact h'
    | some e => exact .inl rfl
  · exact .inr ⟨e, he, rfl⟩

theorem map {Q : ε' → Prop} {c : ε → ε'} (hc : ∀ e, P e → Q (c e)) (h : FindsMore P f g) :
    FindsMore Q (f.map c) (g.map c) := by
  rcases h with rfl | ⟨e, he, rfl⟩
  · exact .inl rfl
  · exact .inr ⟨c e, hc e he, rfl⟩

theorem bind {o : Option α} {f g : α → Option ε} (h : ∀ a, FindsMore P (f a) (g a)) :
    FindsMore P (o.bind f) (o.bind g) := by
  cases o with
  | none => exact .inl rfl
  | some a => exact h a

end FindsMore

namespace Outcome

/-- A check does what another does, or stops before that at a fault of `P`. -/
def Stricter (P : ε → Prop) (x y : Except ε α) : Prop := x = y ∨ ∃ e, P e ∧ x = .error e

namespace Stricter

variable {x y : Except ε α}

theorem refl (x : Except ε α) : Stricter P x x := .inl rfl

theorem bind {f g : α → Except ε β} (h : Stricter P x y) (hf : ∀ a, Stricter P (f a) (g a)) :
    Stricter P (x >>= f) (y >>= g) := by
  rcases h with rfl | ⟨e, he, rfl⟩
  · cases x with
    | error e => exact .inl rfl
    | ok a => exact hf a
  · exact .inr ⟨e, he, rfl⟩

theorem mapError {Q : ε' → Prop} {c : ε → ε'} (hc : ∀ e, P e → Q (c e)) (h : Stricter P x y) :
    Stricter Q (x.mapError c) (y.mapError c) := by
  rcases h with rfl | ⟨e, he, rfl⟩
  · exact .inl rfl
  · exact .inr ⟨c e, hc e he, rfl⟩

theorem forM {f g : α → Except ε Unit} (h : ∀ a, Stricter P (f a) (g a)) (l : List α) :
    Stricter P (l.forM f) (l.forM g) := by
  induction l with
  | nil => exact .refl _
  | cons a l ih => exact (h a).bind fun _ => ih

theorem eq_of_ok {a : α} (h : Stricter P x y) (hx : x = .ok a) : y = .ok a := by
  rcases h with rfl | ⟨e, _, rfl⟩
  · exact hx
  · cases hx

theorem eq_of_error {e : ε} (h : Stricter P x y) (hx : x = .error e) (he : ¬P e) :
    y = .error e := by
  rcases h with rfl | ⟨e', he', rfl⟩
  · exact hx
  · cases hx
    exact absurd he' he

end Stricter

end Outcome

namespace Stateful

def Stricter (P : ε → Prop) (x y : ExceptT ε (StateM σ) α) : Prop :=
  ∀ s, run x s = run y s ∨ ∃ e s', P e ∧ run x s = (.error e, s')

namespace Stricter

variable {x y : ExceptT ε (StateM σ) α}

theorem refl (x : ExceptT ε (StateM σ) α) : Stricter P x x := fun _ => .inl rfl

theorem bind {f g : α → ExceptT ε (StateM σ) β} (h : Stricter P x y)
    (hf : ∀ a, Stricter P (f a) (g a)) : Stricter P (x >>= f) (y >>= g) := by
  intro s
  rcases h s with hs | ⟨e, s', he, hs⟩
  · rw [run_bind, run_bind, hs]
    rcases run y s with ⟨_ | a, s'⟩
    · exact .inl rfl
    · exact hf a s'
  · exact .inr ⟨e, s', he, run_bind_of_error hs⟩

theorem forM {f g : α → ExceptT ε (StateM σ) Unit} (h : ∀ a, Stricter P (f a) (g a))
    (l : List α) : Stricter P (l.forM f) (l.forM g) := by
  induction l with
  | nil => exact .refl _
  | cons a l ih => exact (h a).bind fun _ => ih

theorem fst (h : Stricter P x y) (s : σ) : Outcome.Stricter P (run x s).1 (run y s).1 := by
  rcases h s with hs | ⟨e, s', he, hs⟩
  · exact .inl (congrArg Prod.fst hs)
  · exact .inr ⟨e, he, congrArg Prod.fst hs⟩

end Stricter

end Stateful

end SpirvRules
