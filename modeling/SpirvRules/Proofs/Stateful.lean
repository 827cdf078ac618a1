import Mathlib.Data.List.Forall2

/-!
# Computations that fail and keep their state

A computation with a state either gives a value or fails, and leaves a state in both cases. Its
runs are taken apart here into the runs of its steps. What holds before a run and what after it, be
it a value or a failure, is said by one triple, with one rule for each way to put computations
together.
-/

set_option autoImplicit false

namespace SpirvRules.Stateful

variable {ε ε' σ α β : Type}

def run (x : ExceptT ε (StateM σ) α) (s : σ) : Except ε α × σ := x s

@[simp] theorem run_get (s : σ) : run (get : ExceptT ε (StateM σ) σ) s = (.ok s, s) := rfl

theorem run_bind (x : ExceptT ε (StateM σ) α) (f : α → ExceptT ε (StateM σ) β) (s : σ) :
    run (x >>= f) s =
      match run x s with
      | (.ok a, s') => run (f a) s'
      | (.error e, s') => (.error e, s') := by
  simp only [run, bind, ExceptT.bind, ExceptT.mk, StateT.bind]
  rcases x s with ⟨_ | _, _⟩ <;> rfl

theorem run_bind_of_ok {x : ExceptT ε (StateM σ) α} {f : α → ExceptT ε (StateM σ) β}
    {s s' : σ} {a : α} (h : run x s = (.ok a, s')) : run (x >>= f) s = run (f a) s' := by
  rw [run_bind, h]

theorem run_bind_of_error {x : ExceptT ε (StateM σ) α} {f : α → ExceptT ε (StateM σ) β}
    {s s' : σ} {e : ε} (h : run x s = (.error e, s')) : run (x >>= f) s = (.error e, s') := by
  rw [run_bind, h]

theorem run_bind_eq_ok {x : ExceptT ε (StateM σ) α} {f : α → ExceptT ε (StateM σ) β}
    {s s'' : σ} {b : β} :
    run (x >>= f) s = (.ok b, s'') ↔
      ∃ a s', run x s = (.ok a, s') ∧ run (f a) s' = (.ok b, s'') := by
  rw [run_bind]
  rcases run x s with ⟨_ | a, s'⟩
  · simp
  · constructor
    · intro h
      exact ⟨a, s', rfl, h⟩
    · rintro ⟨_, _, h, hf⟩
      cases h
      exact hf

theorem run_forM_eq_ok {l : List α} {f : α → ExceptT ε (StateM σ) Unit} {s s' : σ}
    (h : run (l.forM f) s = (.ok (), s')) {a : α} (ha : a ∈ l) :
    ∃ s₁ s₂, run (f a) s₁ = (.ok (), s₂) := by
  induction l generalizing s with
  | nil => cases ha
  | cons b l ih =>
    obtain ⟨_, s₁, hb, hl⟩ := run_bind_eq_ok.1 h
    rcases List.mem_cons.1 ha with rfl | ha
    · exact ⟨s, s₁, hb⟩
    · exact ih hl ha

@[simp] theorem run_adapt (f : ε → ε') (x : ExceptT ε (StateM σ) α) (s : σ) :
    run (x.adapt f) s = ((run x s).1.mapError f, (run x s).2) := rfl

/-! ### What holds before and after -/

section Triple

variable {P P' I C : σ → Prop} {Q Q' : α → σ → Prop} {R : β → σ → Prop} {E E' : ε → σ → Prop}

/-- A value and a state with `Q`, or a fault and a state with `E`. -/
inductive Ends (Q : α → σ → Prop) (E : ε → σ → Prop) : Except ε α × σ → Prop where
  | ok {a : α} {s : σ} (h : Q a s) : Ends Q E (.ok a, s)
  | error {e : ε} {s : σ} (h : E e s) : Ends Q E (.error e, s)

/-- From every state with `P` a computation comes to a value with `Q`, or fails with `E`. -/
def Triple (P : σ → Prop) (x : ExceptT ε (StateM σ) α) (Q : α → σ → Prop) (E : ε → σ → Prop) :
    Prop :=
  ∀ s, P s → Ends Q E (run x s)

/-- Whatever comes of a computation it keeps `I`, and it fails with nothing but `E`. -/
abbrev Invariant (I : σ → Prop) (E : ε → σ → Prop) (x : ExceptT ε (StateM σ) α) : Prop :=
  Triple I x (fun _ => I) E

theorem Triple.ok {x : ExceptT ε (StateM σ) α} {s s' : σ} {a : α} (h : Triple P x Q E) (hs : P s)
    (hr : run x s = (.ok a, s')) : Q a s' := by
  have hends := h s hs
  rw [hr] at hends
  cases hends with
  | ok hq => exact hq

theorem Triple.error {x : ExceptT ε (StateM σ) α} {s s' : σ} {e : ε} (h : Triple P x Q E)
    (hs : P s) (hr : run x s = (.error e, s')) : E e s' := by
  have hends := h s hs
  rw [hr] at hends
  cases hends with
  | error he => exact he

theorem Triple.after {x : ExceptT ε (StateM σ) α} {s : σ} (h : Triple P x (fun _ => I) fun _ => I)
    (hs : P s) : I (run x s).2 := by
  have hends := h s hs
  generalize run x s = r at hends ⊢
  cases hends with
  | ok hi => exact hi
  | error hi => exact hi

theorem Triple.outcome {x : ExceptT ε (StateM σ) α} {s : σ} (h : Triple P x Q E) (hs : P s) :
    (∃ a s', run x s = (.ok a, s') ∧ Q a s') ∨ ∃ e s', run x s = (.error e, s') ∧ E e s' := by
  have hends := h s hs
  generalize run x s = r at hends
  cases hends with
  | ok hq => exact .inl ⟨_, _, rfl, hq⟩
  | error he => exact .inr ⟨_, _, rfl, he⟩

theorem Triple.exists_ok {x : ExceptT ε (StateM σ) α} {s : σ} (h : Triple P x Q fun _ _ => False)
    (hs : P s) : ∃ a s', run x s = (.ok a, s') ∧ Q a s' :=
  (h.outcome hs).resolve_right fun ⟨_, _, _, he⟩ => he

theorem triple_pure {a : α} (h : ∀ s, P s → Q a s) : Triple P (pure a) Q E :=
  fun s hs => .ok (h s hs)

theorem invariant_pure (a : α) : Invariant I E (pure a : ExceptT ε (StateM σ) α) :=
  triple_pure fun _ hs => hs

theorem triple_throw {e : ε} (h : ∀ s, P s → E e s) : Triple P (throw e) Q E :=
  fun s hs => .error (h s hs)

theorem triple_modify {f : σ → σ} {Q : Unit → σ → Prop} (h : ∀ s, P s → Q () (f s)) :
    Triple P (modify f : ExceptT ε (StateM σ) Unit) Q E :=
  fun s hs => .ok (h s hs)

theorem triple_true {x : ExceptT ε (StateM σ) α} :
    Triple P x (fun _ _ => True) fun _ _ => True := by
  intro s _
  rcases run x s with ⟨e | a, s'⟩
  · exact .error trivial
  · exact .ok trivial

theorem Triple.mono {x : ExceptT ε (StateM σ) α} (h : Triple P x Q E) (hP : ∀ s, P' s → P s)
    (hQ : ∀ a s, Q a s → Q' a s) (hE : ∀ e s, E e s → E' e s) : Triple P' x Q' E' := by
  intro s hs
  have hends := h s (hP s hs)
  generalize run x s = r at hends ⊢
  cases hends with
  | ok hq => exact .ok (hQ _ _ hq)
  | error he => exact .error (hE _ _ he)

theorem Triple.and {x : ExceptT ε (StateM σ) α} (h : Triple P x Q E) (h' : Triple P x Q' E') :
    Triple P x (fun a s => Q a s ∧ Q' a s) fun e s => E e s ∧ E' e s := by
  intro s hs
  have hends := h s hs
  have hends' := h' s hs
  generalize run x s = r at hends hends' ⊢
  cases hends with
  | ok hq =>
    cases hends' with
    | ok hq' => exact .ok ⟨hq, hq'⟩
  | error he =>
    cases hends' with
    | error he' => exact .error ⟨he, he'⟩

theorem Triple.bind {x : ExceptT ε (StateM σ) α} {f : α → ExceptT ε (StateM σ) β}
    (hx : Triple P x Q E) (hf : ∀ a, Triple (Q a) (f a) R E) : Triple P (x >>= f) R E := by
  intro s hs
  have hends := hx s hs
  rw [run_bind]
  generalize run x s = r at hends ⊢
  cases hends with
  | ok hq => exact hf _ _ hq
  | error he => exact .error he

/-- A fact about the value of the first step is at hand in the second. -/
theorem Triple.bindFact {q : α → Prop} {x : ExceptT ε (StateM σ) α}
    {f : α → ExceptT ε (StateM σ) β} (hx : Triple P x (fun a s => I s ∧ q a) E)
    (hf : ∀ a, q a → Triple I (f a) R E) : Triple P (x >>= f) R E :=
  hx.bind fun a s hs => hf a hs.2 s hs.1

/-- The same where the fact hangs on a condition that, once broken, the second step leaves
broken. -/
theorem Triple.bindUnless {q : α → Prop} {x : ExceptT ε (StateM σ) α}
    {f : α → ExceptT ε (StateM σ) β} (hx : Triple P x (fun a s => C s → I s ∧ q a) E)
    (hC : ∀ a, Triple (fun s => ¬ C s) (f a) R E) (hf : ∀ a, q a → Triple I (f a) R E) :
    Triple P (x >>= f) R E := by
  refine hx.bind fun a s hs => ?_
  by_cases hc : C s
  · exact hf a (hs hc).2 s (hs hc).1
  · exact hC a s hc

theorem invariant_forM {l : List α} {f : α → ExceptT ε (StateM σ) Unit}
    (hf : ∀ a ∈ l, Invariant I E (f a)) : Invariant I E (l.forM f) := by
  induction l with
  | nil => exact triple_pure fun _ hs => hs
  | cons a l ih =>
    exact (hf a List.mem_cons_self).bind fun _ => ih fun b hb => hf b (List.mem_cons_of_mem a hb)

/-- All members have their facts in the end, unless the condition is broken on the way. -/
theorem triple_forM_unless {q : α → Prop} {l : List α} {f : α → ExceptT ε (StateM σ) Unit}
    (hC : ∀ a, Invariant (fun s => ¬ C s) E (f a))
    (hf : ∀ a ∈ l, Triple I (f a) (fun _ s => C s → I s ∧ q a) E) :
    Triple I (l.forM f) (fun _ s => C s → I s ∧ ∀ a ∈ l, q a) E := by
  induction l with
  | nil => exact triple_pure fun _ hs _ => ⟨hs, nofun⟩
  | cons a l ih =>
    have hrest := ih fun b hb => hf b (List.mem_cons_of_mem a hb)
    refine Triple.bindUnless (q := fun _ => q a) (hf a List.mem_cons_self) (fun _ => ?_)
      fun _ ha => ?_
    · exact (invariant_forM fun b _ => hC b).mono (fun _ => id) (fun _ _ hn hc => absurd hc hn)
        fun _ _ => id
    · exact hrest.mono (fun _ => id)
        (fun _ _ h hc => ⟨(h hc).1, List.forall_mem_cons.2 ⟨ha, (h hc).2⟩⟩) fun _ _ => id

theorem Triple.adapt {x : ExceptT ε (StateM σ) α} {c : ε → ε'} {E : ε' → σ → Prop}
    (h : Triple P x Q fun e => E (c e)) : Triple P (x.adapt c) Q E := by
  intro s hs
  have hends := h s hs
  rw [run_adapt]
  generalize run x s = r at hends ⊢
  cases hends with
  | ok hq => exact .ok hq
  | error he => exact .error he

theorem triple_mapM {q : α → β → Prop} {l : List α} {f : α → ExceptT ε (StateM σ) β}
    (hf : ∀ a ∈ l, Triple I (f a) (fun b s => I s ∧ q a b) E) :
    Triple I (l.mapM f) (fun bs s => I s ∧ List.Forall₂ q l bs) E := by
  induction l with
  | nil => exact triple_pure fun _ hs => ⟨hs, .nil⟩
  | cons a l ih =>
    rw [List.mapM_cons]
    have hrest := ih fun b hb => hf b (List.mem_cons_of_mem a hb)
    exact (hf a List.mem_cons_self).bindFact fun b hb => hrest.bindFact fun bs hbs =>
      triple_pure fun _ hs => ⟨hs, .cons hb hbs⟩

end Triple

end SpirvRules.Stateful
