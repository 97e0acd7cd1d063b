import Mathlib.Data.List.Basic

/-!
# Labelled transition systems given by a partial step function

Every source of non-determinism (which task resumes, which answer arrives) is
named by the label, so a step is a partial function of state and label. A run
is a list of labels; a guard restricts the labels a run may take in a state.
-/

namespace Foundation.Transition

variable {σ α : Type*} {step : σ → α → Option σ} {guard : σ → α → Prop} {as : List α} {s : σ}
  {I : σ → Prop}

/-- The state after taking all labels in order, `none` where one is not enabled. -/
def run (step : σ → α → Option σ) : σ → List α → Option σ
  | s, [] => some s
  | s, a :: as => (step s a).bind fun t => run step t as

/-- Every label of the run is taken in a state that meets the guard. -/
def Guarded (step : σ → α → Option σ) (guard : σ → α → Prop) : σ → List α → Prop
  | _, [] => True
  | s, a :: as => guard s a ∧
      match step s a with
      | none => True
      | some t => Guarded step guard t as

instance decidableGuarded (step : σ → α → Option σ) (guard : σ → α → Prop)
    [∀ s a, Decidable (guard s a)] : ∀ (s : σ) (as : List α), Decidable (Guarded step guard s as)
  | _, [] => inferInstanceAs (Decidable True)
  | s, a :: as => by
      have : Decidable (match step s a with
          | none => True
          | some t => Guarded step guard t as) :=
        match step s a with
        | none => inferInstanceAs (Decidable True)
        | some t => decidableGuarded step guard t as
      unfold Guarded
      infer_instance

/-- A step that is taken under a condition. -/
theorem enabled_eq_some {c : Prop} [Decidable c] {s t : σ} :
    (if c then some s else none) = some t ↔ c ∧ s = t := by
  rw [Option.ite_none_right_eq_some, Option.some.injEq]

theorem enabled_map_eq_some {τ : Type*} {c : Prop} [Decidable c] {f : σ → τ} {s : σ} {t : τ} :
    (if c then some s else none).map f = some t ↔ c ∧ f s = t := by
  simp only [Option.map_eq_some_iff, enabled_eq_some, and_assoc, exists_and_left, exists_eq_left']

@[simp] theorem run_nil (s : σ) : run step s [] = some s := rfl

theorem run_cons (s : σ) (a : α) (as : List α) :
    run step s (a :: as) = (step s a).bind fun t => run step t as := rfl

theorem run_cons_eq_some {u : σ} {a : α} :
    run step s (a :: as) = some u ↔ ∃ t, step s a = some t ∧ run step t as = some u := by
  rw [run_cons, Option.bind_eq_some_iff]

theorem run_append (s : σ) (as bs : List α) :
    run step s (as ++ bs) = (run step s as).bind fun t => run step t bs := by
  induction as generalizing s with
  | nil => rfl
  | cons a as ih =>
    simp only [List.cons_append, run_cons]
    cases step s a with
    | none => rfl
    | some t => exact ih t

theorem guarded_cons {a : α} (h : Guarded step guard s (a :: as)) :
    guard s a ∧ ∀ t, step s a = some t → Guarded step guard t as := by
  refine ⟨h.1, fun t ht => ?_⟩
  have htail := h.2
  rw [ht] at htail
  exact htail

/-- A property every guarded step keeps is kept by every guarded run. -/
theorem guarded_run_invariant (hstep : ∀ s a t, I s → guard s a → step s a = some t → I t) {t : σ}
    (hs : I s) (hg : Guarded step guard s as) (hrun : run step s as = some t) : I t := by
  induction as generalizing s with
  | nil =>
    cases hrun
    exact hs
  | cons a as ih =>
    obtain ⟨u, hu, hrest⟩ := run_cons_eq_some.mp hrun
    obtain ⟨ha, htail⟩ := guarded_cons hg
    exact ih (hstep s a u hs ha hu) (htail u hu) hrest

theorem guarded_true (s : σ) (as : List α) : Guarded step (fun _ _ => True) s as := by
  induction as generalizing s with
  | nil => trivial
  | cons a as ih =>
    refine ⟨trivial, ?_⟩
    cases step s a with
    | none => trivial
    | some t => exact ih t

/-- A property every step keeps is kept by every run. -/
theorem run_invariant (hstep : ∀ s a t, I s → step s a = some t → I t) {t : σ} (hs : I s)
    (hrun : run step s as = some t) : I t :=
  guarded_run_invariant (fun s a t h _ => hstep s a t h) hs (guarded_true s as) hrun

/-- A condition on all labels of a run may be added to its guard. -/
theorem guarded_and {P : α → Prop} (hP : ∀ a ∈ as, P a) (hg : Guarded step guard s as) :
    Guarded step (fun s a => P a ∧ guard s a) s as := by
  induction as generalizing s with
  | nil => trivial
  | cons a as ih =>
    obtain ⟨ha, htail⟩ := guarded_cons hg
    refine ⟨⟨hP a List.mem_cons_self, ha⟩, ?_⟩
    cases ht : step s a with
    | none => trivial
    | some t => exact ih (fun b hb => hP b (List.mem_cons_of_mem _ hb)) (htail t ht)

theorem Guarded.both {guard' : σ → α → Prop} (hg : Guarded step guard s as)
    (hg' : Guarded step guard' s as) : Guarded step (fun s a => guard s a ∧ guard' s a) s as := by
  induction as generalizing s with
  | nil => trivial
  | cons a as ih =>
    obtain ⟨ha, htail⟩ := guarded_cons hg
    obtain ⟨ha', htail'⟩ := guarded_cons hg'
    refine ⟨⟨ha, ha'⟩, ?_⟩
    cases ht : step s a with
    | none => trivial
    | some t => exact ih (htail t ht) (htail' t ht)

/-- A guard that follows from another in every reachable state holds along its runs. -/
theorem guarded_imp {guard' : σ → α → Prop}
    (hstep : ∀ s a t, I s → guard s a → step s a = some t → I t)
    (himp : ∀ s a, I s → guard s a → guard' s a) (hs : I s) (hg : Guarded step guard s as) :
    Guarded step guard' s as := by
  induction as generalizing s with
  | nil => trivial
  | cons a as ih =>
    obtain ⟨ha, htail⟩ := guarded_cons hg
    refine ⟨himp s a hs ha, ?_⟩
    cases ht : step s a with
    | none => trivial
    | some t => exact ih (hstep s a t hs ha ht) (htail t ht)

/-- Every step of a guarded run starts in a state that satisfies the invariant. -/
theorem guarded_run_split (hstep : ∀ s a t, I s → guard s a → step s a = some t → I t) {u : σ}
    {bs : List α} {a : α} (hs : I s) (hg : Guarded step guard s (as ++ a :: bs))
    (hrun : run step s as = some u) :
    I u ∧ guard u a := by
  induction as generalizing s with
  | nil =>
    cases hrun
    exact ⟨hs, hg.1⟩
  | cons b as ih =>
    obtain ⟨v, hv, hrest⟩ := run_cons_eq_some.mp hrun
    obtain ⟨hb, htail⟩ := guarded_cons hg
    exact ih (hstep s b v hs hb hv) (htail v hv) hrest

end Foundation.Transition
