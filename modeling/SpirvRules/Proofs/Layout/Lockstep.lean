import SpirvRules.Proofs.Layout.Faults
import SpirvRules.Proofs.Layout.Slots
import SpirvRules.Proofs.Layout.Steps

/-!
# Two walks side by side

Two walks go through related sites in the same order. If the first finds no fault the second finds
none, and where that is asked for the second finds the fault the first does. A walk that meets a
type nested too deep, or a number its offsets cannot hold, has given up and is compared no further.
-/

set_option autoImplicit false

namespace SpirvRules.Walk

open Stateful

/-- How two walks are related. -/
structure Comparison where
  first : BlockUse
  second : BlockUse
  /-- Faults have to be the same. -/
  strict : Bool
  /-- The walk gives up when it meets a number that fits no word. -/
  boundFirst : Bool
  boundSecond : Bool
  verified : Std.TreeSet Visit → Std.TreeSet Visit → Prop
  offsets : UInt32 → UInt32 → Prop

variable {ix : Index} {t : Table} {α β α' β' : Type}

abbrev InWord (_ : Id) (n : Nat) : Prop := n < 0x100000000

abbrev InRange (w : Walker) : Prop := w.Meets InWord

/-- Nothing can be said of a walk: a type is nested too deep, or some number met is too large. -/
inductive GivenUp (bound : Bool) : Except LayoutFault α × Walker → Prop where
  | tooDeep (id : Id) (w : Walker) : GivenUp bound (.error (.tooDeep id), w)
  | tooLarge (r : Except LayoutFault α × Walker) (hb : bound = true) (hr : ¬ InRange r.2) :
    GivenUp bound r

/-- Who has given up does not go on. -/
theorem GivenUp.bind {bound : Bool} {x : Walk α} {f : α → Walk β} {w : Walker}
    (h : GivenUp bound (run x w)) (hf : ∀ a, Growing InWord (f a)) :
    GivenUp bound (run (x >>= f) w) := by
  rcases hr : run x w with ⟨e | a, w'⟩
  · rw [hr] at h
    rw [run_bind_of_error hr]
    cases h with
    | tooDeep id _ => exact .tooDeep id w'
    | tooLarge _ hb hr' => exact .tooLarge _ hb hr'
  · rw [hr] at h
    rw [run_bind_of_ok hr]
    cases h with
    | tooLarge _ hb hr' => exact .tooLarge _ hb ((hf a).after hr')

structure Related (ix : Index) (t : Table) (C : Comparison) (w₁ w₂ : Walker) : Prop where
  first : w₁.Faithful ix t
  second : w₂.Faithful ix t
  verified : C.verified w₁.verified w₂.verified

/-- What two walks came to is comparable. -/
inductive Match (ix : Index) (t : Table) (C : Comparison) (Q : α → β → Prop) :
    Except LayoutFault α × Walker → Except LayoutFault β × Walker → Prop where
  | first (r₁ : Except LayoutFault α × Walker) (r₂ : Except LayoutFault β × Walker)
      (h : GivenUp C.boundFirst r₁) : Match ix t C Q r₁ r₂
  | second (r₁ : Except LayoutFault α × Walker) (r₂ : Except LayoutFault β × Walker)
      (h : GivenUp C.boundSecond r₂) : Match ix t C Q r₁ r₂
  | ok (a : α) (b : β) (w₁ w₂ : Walker) (hq : Q a b) (hr : Related ix t C w₁ w₂) :
      Match ix t C Q (.ok a, w₁) (.ok b, w₂)
  | error (f : LayoutFault) (w₁ : Walker) (r₂ : Except LayoutFault β × Walker)
      (h : C.strict = true → r₂.1 = .error f) : Match ix t C Q (.error f, w₁) r₂

/-- From related walkers two computations come to comparable results. -/
def InStep (ix : Index) (t : Table) (C : Comparison) (Q : α → β → Prop) (x : Walk α)
    (y : Walk β) : Prop :=
  ∀ w₁ w₂, Related ix t C w₁ w₂ → Match ix t C Q (run x w₁) (run y w₂)

variable {C : Comparison}

theorem inStep_pure {Q : α → β → Prop} {a : α} {b : β} (h : Q a b) :
    InStep ix t C Q (pure a) (pure b) := fun w₁ w₂ hr => .ok a b w₁ w₂ h hr

theorem inStep_throw {Q : α → β → Prop} {f g : LayoutFault} (h : C.strict = true → g = f) :
    InStep ix t C Q (throw f) (throw g) :=
  fun w₁ w₂ _ => .error f w₁ (.error g, w₂) fun hs => congrArg Except.error (h hs)

theorem inStep_of_error {Q : α → β → Prop} {x : Walk α} {y : Walk β} (hs : C.strict = false)
    (hx : ∀ w w' a, run x w ≠ (.ok a, w')) : InStep ix t C Q x y := by
  intro w₁ w₂ _
  rcases hr : run x w₁ with ⟨f | a, w'⟩
  · exact .error f w' _ fun h => absurd h (by simp [hs])
  · exact absurd hr (hx w₁ w' a)

theorem InStep.bind {Q : α → β → Prop} {R : α' → β' → Prop} {x : Walk α} {y : Walk β}
    {f : α → Walk α'} {g : β → Walk β'} (h : InStep ix t C Q x y) (hf : ∀ a, Growing InWord (f a))
    (hg : ∀ b, Growing InWord (g b)) (hfg : ∀ a b, Q a b → InStep ix t C R (f a) (g b)) :
    InStep ix t C R (x >>= f) (y >>= g) := by
  intro w₁ w₂ hr
  have hm := h w₁ w₂ hr
  generalize hx : run x w₁ = r₁ at hm
  generalize hy : run y w₂ = r₂ at hm
  cases hm with
  | first _ _ h => exact .first _ _ (GivenUp.bind (by rwa [hx]) hf)
  | second _ _ h => exact .second _ _ (GivenUp.bind (by rwa [hy]) hg)
  | ok a b w₁' w₂' hq hr' =>
    rw [run_bind_of_ok hx, run_bind_of_ok hy]
    exact hfg a b hq w₁' w₂' hr'
  | error e w₁' _ h =>
    rw [run_bind_of_error hx]
    refine .error e w₁' _ fun hs => ?_
    have he : run y w₂ = (.error e, r₂.2) := hy.trans (Prod.ext (h hs) rfl)
    rw [run_bind_of_error he]

theorem Measuring.inStep {P : α → Prop} {Q : β → Prop} {x : Walk α} {y : Walk β}
    (hx : Measuring ix t x P) (hy : Measuring ix t y Q) :
    InStep ix t C (fun a b => P a ∧ Q b) x y := by
  intro w₁ w₂ hr
  have hends := hx _ (remembering_verified w₁.verified) w₁ ⟨hr.first, rfl⟩
  have hends' := hy _ (remembering_verified w₂.verified) w₂ ⟨hr.second, rfl⟩
  generalize run x w₁ = r₁ at hends ⊢
  generalize run y w₂ = r₂ at hends' ⊢
  cases hends with
  | error he =>
    obtain ⟨id, rfl⟩ := he
    exact .first _ _ (.tooDeep id _)
  | ok hp =>
    cases hends' with
    | error he =>
      obtain ⟨id, rfl⟩ := he
      exact .second _ _ (.tooDeep id _)
    | ok hq =>
      obtain ⟨⟨hfaithful, hverified⟩, hp⟩ := hp
      obtain ⟨⟨hfaithful', hverified'⟩, hq⟩ := hq
      exact .ok _ _ _ _ ⟨hp, hq⟩ ⟨hfaithful, hfaithful', hverified ▸ hverified' ▸ hr.verified⟩

/-- Numbers met fit a word from here on, where a walk gives up at others. -/
theorem inStep_meet (struct struct' : Id) (ns ms : List Nat) :
    InStep ix t C (fun _ _ => (C.boundFirst = true → ∀ n ∈ ns, n < 0x100000000) ∧
      (C.boundSecond = true → ∀ n ∈ ms, n < 0x100000000)) (meet struct ns) (meet struct' ms) := by
  intro w₁ w₂ hr
  have small : ∀ {struct : Id} {ns : List Nat} {w : Walker},
      InRange (run (meet struct ns) w).2 → ∀ n ∈ ns, n < 0x100000000 := by
    intro struct ns w h n hn
    exact h (struct, n) (List.mem_append_left _ (List.mem_map_of_mem hn))
  by_cases h₁ : C.boundFirst = true ∧ ¬ InRange (run (meet struct ns) w₁).2
  · exact .first _ _ (.tooLarge _ h₁.1 h₁.2)
  by_cases h₂ : C.boundSecond = true ∧ ¬ InRange (run (meet struct' ms) w₂).2
  · exact .second _ _ (.tooLarge _ h₂.1 h₂.2)
  refine .ok () () _ _ ⟨fun hb => ?_, fun hb => ?_⟩ ⟨hr.first, hr.second, hr.verified⟩
  · exact small (Classical.byContradiction fun h => h₁ ⟨hb, h⟩)
  · exact small (Classical.byContradiction fun h => h₂ ⟨hb, h⟩)

theorem inStep_rejectAny {struct : Id} {member : Nat} {f g : Option SlotFault}
    (hfg : f = none → g = none)
    (hs : C.strict = true → C.first = C.second ∧ f = g) :
    InStep ix t C (fun _ _ => f = none ∧ g = none) (rejectAny C.first struct member f)
      (rejectAny C.second struct member g) := by
  cases f with
  | none =>
    cases hfg rfl
    exact inStep_pure ⟨rfl, rfl⟩
  | some f =>
    intro w₁ w₂ _
    refine .error _ w₁ _ fun hstrict => ?_
    obtain ⟨hu, rfl⟩ := hs hstrict
    rw [hu]
    rfl

theorem inStep_forM {l : List α} {f g : α → Walk Unit} (hf : ∀ a, Growing InWord (f a))
    (hg : ∀ a, Growing InWord (g a)) (hfg : ∀ a ∈ l, InStep ix t C (fun _ _ => True) (f a) (g a)) :
    InStep ix t C (fun _ _ => True) (l.forM f) (l.forM g) := by
  induction l with
  | nil => exact inStep_pure trivial
  | cons a l ih =>
    have hrest := ih fun b hb => hfg b (by simp [hb])
    exact (hfg a (by simp)).bind (fun _ => invariant_forM fun b _ => hf b)
      (fun _ => invariant_forM fun b _ => hg b)
      fun _ _ _ => hrest

end SpirvRules.Walk
