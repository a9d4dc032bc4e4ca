import Mathlib.Data.List.Induction

/-!
# Runs of a guarded machine

A machine has one function for what an action does and one predicate for where
it may be taken. An invariant is proved once per action and holds along every run.
-/

namespace MultiIp.Lib

structure Machine (σ α : Type*) where
  step : σ → α → σ
  /-- Which actions may be taken in a state. -/
  allowed : σ → α → Prop

namespace Machine

variable {σ α γ : Type*} (M : Machine σ α)

def run (s : σ) (as : List α) : σ := as.foldl M.step s

/-- Every action of the run is allowed where it is taken. -/
def Legal : σ → List α → Prop
  | _, [] => True
  | s, a :: as => M.allowed s a ∧ Legal (M.step s a) as

/-- A history of the run: `f` adds what the action does in the state where it is taken. -/
def record (f : γ → σ → α → γ) : γ → σ → List α → γ
  | g, _, [] => g
  | g, s, a :: as => record f (f g s a) (M.step s a) as

def decidableLegal [∀ s a, Decidable (M.allowed s a)] : (s : σ) → (as : List α) → Decidable (M.Legal s as)
  | _, [] => isTrue trivial
  | s, a :: as =>
    have := decidableLegal (M.step s a) as
    inferInstanceAs (Decidable (M.allowed s a ∧ M.Legal (M.step s a) as))

instance [∀ s a, Decidable (M.allowed s a)] (s : σ) (as : List α) : Decidable (M.Legal s as) :=
  M.decidableLegal s as

@[simp] theorem run_nil (s : σ) : M.run s [] = s := rfl
@[simp] theorem run_cons (s : σ) (a : α) (as : List α) : M.run s (a :: as) = M.run (M.step s a) as := rfl

theorem run_append (s : σ) (as bs : List α) : M.run s (as ++ bs) = M.run (M.run s as) bs := by
  simp [run]

theorem legal_append (s : σ) (as bs : List α) :
    M.Legal s (as ++ bs) ↔ M.Legal s as ∧ M.Legal (M.run s as) bs := by
  induction as generalizing s with
  | nil => simp [Legal]
  | cons a as ih => simp [Legal, ih, and_assoc]

theorem record_append (f : γ → σ → α → γ) (g : γ) (s : σ) (as bs : List α) :
    M.record f g s (as ++ bs) = M.record f (M.record f g s as) (M.run s as) bs := by
  induction as generalizing g s with
  | nil => rfl
  | cons a as ih => simp [record, ih]

variable {M}

/-- What every allowed action keeps, every run keeps. -/
theorem run_invariant {P : σ → Prop} (hstep : ∀ s a, P s → M.allowed s a → P (M.step s a))
    {s : σ} (h : P s) {as : List α} (hl : M.Legal s as) : P (M.run s as) := by
  induction as generalizing s with
  | nil => exact h
  | cons a as ih => exact ih (hstep s a h hl.1) hl.2

/-- The same for a state together with its history. -/
theorem record_invariant {f : γ → σ → α → γ} {P : γ → σ → Prop}
    (hstep : ∀ g s a, P g s → M.allowed s a → P (f g s a) (M.step s a))
    {g : γ} {s : σ} (h : P g s) {as : List α} (hl : M.Legal s as) :
    P (M.record f g s as) (M.run s as) := by
  induction as generalizing g s with
  | nil => exact h
  | cons a as ih => exact ih (hstep g s a h hl.1) hl.2

/-- The same for a state together with the run that led to it. -/
theorem past_invariant {P : List α → σ → Prop} {s : σ} (h : P [] s)
    (hstep : ∀ as a, M.Legal s as → P as (M.run s as) → M.allowed (M.run s as) a →
      P (as ++ [a]) (M.step (M.run s as) a))
    {as : List α} (hl : M.Legal s as) : P as (M.run s as) := by
  induction as using List.reverseRecOn with
  | nil => exact h
  | append_singleton as a ih =>
    obtain ⟨hfront, ha, -⟩ := (M.legal_append s as [a]).mp hl
    rw [M.run_append]
    exact hstep as a hfront (ih hfront) ha

/-! ## Steps made of smaller steps -/

variable (M) in
/-- Some legal run leads from the one state to the other. -/
def Reaches (s t : σ) : Prop := ∃ as, M.Legal s as ∧ M.run s as = t

theorem Reaches.refl (s : σ) : M.Reaches s s := ⟨[], trivial, rfl⟩

theorem Reaches.trans {s t u : σ} (h : M.Reaches s t) (h' : M.Reaches t u) : M.Reaches s u := by
  obtain ⟨as, hl, rfl⟩ := h
  obtain ⟨bs, hl', rfl⟩ := h'
  exact ⟨as ++ bs, (M.legal_append s as bs).mpr ⟨hl, hl'⟩, M.run_append s as bs⟩

theorem Reaches.step {s : σ} {a : α} (h : M.allowed s a) : M.Reaches s (M.step s a) := ⟨[a], ⟨h, trivial⟩, rfl⟩

theorem Reaches.invariant {P : σ → Prop} (hstep : ∀ s a, P s → M.allowed s a → P (M.step s a)) {s t : σ}
    (h : M.Reaches s t) (hs : P s) : P t := by
  obtain ⟨as, hl, rfl⟩ := h
  exact run_invariant hstep hs hl

/-- A machine each of whose steps is a run of `M`: so is each of its runs. -/
theorem Reaches.of_run {τ β : Type*} {N : Machine τ β} (view : τ → σ)
    (hstep : ∀ t b, N.allowed t b → M.Reaches (view t) (view (N.step t b))) {t : τ} {bs : List β}
    (hl : N.Legal t bs) : M.Reaches (view t) (view (N.run t bs)) := by
  induction bs generalizing t with
  | nil => exact .refl _
  | cons b bs ih => exact (hstep t b hl.1).trans (ih hl.2)

end Machine

end MultiIp.Lib
