import Mathlib

namespace Columnar

variable {σ τ ι κ α β : Type}

/-- The answers to the inputs in their order, and the state after the last of them. -/
def trace (step : σ → ι → α × σ) (s : σ) : List ι → List α × σ
  | [] => ([], s)
  | i :: is =>
    let (a, s) := step s i
    let (as, s) := trace step s is
    (a :: as, s)

/-- What an observer who notes every input with its answer has in the end. -/
def noted (f : β → ι → α → β) (b : β) (is : List ι) (as : List α) : β :=
  (is.zip as).foldl (fun b (i, a) => f b i a) b

section Steps

variable {step : σ → ι → α × σ}

theorem trace_cons (s : σ) (i : ι) (is : List ι) : trace step s (i :: is) =
    ((step s i).1 :: (trace step (step s i).2 is).1, (trace step (step s i).2 is).2) :=
  rfl

/-- Machines that are related, and are given related inputs, stay related and answer alike. -/
theorem trace_related {other : τ → κ → β × τ} {I : ι → κ → Prop} {A : α → β → Prop}
    {R : σ → τ → Prop} (hstep : ∀ s u i k, I i k → R s u →
      A (step s i).1 (other u k).1 ∧ R (step s i).2 (other u k).2)
    {s : σ} {u : τ} (h : R s u) {is : List ι} {ks : List κ} (hinputs : List.Forall₂ I is ks) :
    List.Forall₂ A (trace step s is).1 (trace other u ks).1 ∧
      R (trace step s is).2 (trace other u ks).2 := by
  induction hinputs generalizing s u with
  | nil => exact ⟨.nil, h⟩
  | cons hinput _ ih =>
    obtain ⟨hanswer, hnext⟩ := hstep s u _ _ hinput h
    obtain ⟨hanswers, hlast⟩ := ih hnext
    exact ⟨.cons hanswer hanswers, hlast⟩

theorem trace_agrees {admits : ι → Prop} {other : τ → ι → α × τ} {R : σ → τ → Prop}
    (hstep : ∀ s u i, admits i → R s u →
      (step s i).1 = (other u i).1 ∧ R (step s i).2 (other u i).2)
    {s : σ} {u : τ} (h : R s u) (is : List ι) (his : ∀ i ∈ is, admits i) :
    (trace step s is).1 = (trace other u is).1 ∧ R (trace step s is).2 (trace other u is).2 := by
  have hinputs : List.Forall₂ (fun i k => admits i ∧ i = k) is is :=
    List.forall₂_same.mpr fun i hi => ⟨his i hi, rfl⟩
  obtain ⟨hanswers, hlast⟩ := trace_related (A := Eq) (R := R)
    (by rintro s u i _ ⟨hi, rfl⟩ h; exact hstep s u i hi h) h hinputs
  exact ⟨List.forall₂_eq_eq_eq ▸ hanswers, hlast⟩

/-- What holds of a state together with the notes taken so far, as long as the answers are admitted. -/
theorem trace_noted {f : β → ι → α → β} {R : σ → β → Prop} {A : ι → α → Prop}
    (hstep : ∀ s b i, A i (step s i).1 → R s b → R (step s i).2 (f b i (step s i).1))
    {s : σ} {b : β} (h : R s b) (is : List ι)
    (his : ∀ p ∈ is.zip (trace step s is).1, A p.1 p.2) :
    R (trace step s is).2 (noted f b is (trace step s is).1) := by
  induction is generalizing s b with
  | nil => exact h
  | cons i is ih =>
    have hfirst : A i (step s i).1 := his _ List.mem_cons_self
    exact ih (hstep s b i hfirst h) fun p hp => his p (List.mem_cons_of_mem _ hp)

theorem trace_keeps {P : σ → Prop} (hstep : ∀ s i, P s → P (step s i).2) {s : σ} (h : P s)
    (is : List ι) : P (trace step s is).2 :=
  trace_noted (f := fun _ _ _ => ()) (R := fun s _ => P s) (A := fun _ _ => True)
    (fun s _ i _ => hstep s i) (b := ()) h is fun _ _ => trivial

/-- Inputs that leave the state as they find it can be left out: the other answers stay the same. -/
theorem trace_without {P : σ → Prop} {Q : α → Bool} (hstep : ∀ s i, P s → P (step s i).2)
    (hidle : ∀ s i, P s → Q (step s i).1 → (step s i).2 = s) {s : σ} (h : P s) (is : List ι) :
    let kept := (is.zip (trace step s is).1).filter fun p => !Q p.2
    trace step s (kept.map Prod.fst) = (kept.map Prod.snd, (trace step s is).2) := by
  induction is generalizing s with
  | nil => rfl
  | cons i is ih =>
    have hnext := ih (hstep s i h)
    simp only [trace_cons, List.zip_cons_cons]
    by_cases hi : Q (step s i).1
    · rw [hidle s i h hi] at hnext ⊢
      rw [List.filter_cons_of_neg (by simpa using hi)]
      exact hnext
    · rw [List.filter_cons_of_pos (by simpa using hi), List.map_cons, List.map_cons, trace_cons,
        hnext]

end Steps

end Columnar
