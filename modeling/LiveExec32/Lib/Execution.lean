import Mathlib.Algebra.Order.Ring.Int
import Mathlib.Data.List.Basic

/-! # Runs of an event system

A system is a total step function: an event that is not enabled leaves the state as it is. Every
interleaving of the parties is then a list of events, and a property of all interleavings is a
property of `run` over all lists. -/

namespace Execution

variable {σ ε : Type} {step : σ → ε → σ} {inv : σ → Prop} {good good' : σ → ε → Prop}

/-- The state after a list of events. -/
def run (step : σ → ε → σ) (s : σ) (events : List ε) : σ := events.foldl step s

@[simp] theorem run_cons (s : σ) (e : ε) (events : List ε) :
    run step s (e :: events) = run step (step s e) events := rfl

/-- What every step of a run preserves holds after the run. -/
theorem run_invariant_of_mem {events : List ε}
    (hstep : ∀ s, ∀ e ∈ events, inv s → inv (step s e)) {s : σ} (h : inv s) :
    inv (run step s events) := by
  induction events generalizing s with
  | nil => exact h
  | cons e _ ih =>
    exact ih (fun s e he => hstep s e (List.mem_cons_of_mem _ he))
      (hstep s e List.mem_cons_self h)

theorem run_invariant (hstep : ∀ s e, inv s → inv (step s e)) {s : σ} (h : inv s)
    (events : List ε) : inv (run step s events) :=
  run_invariant_of_mem (fun s e _ => hstep s e) h

/-- What the steps of a run put out, in order. -/
def outputs {ω : Type} (out : σ → ε → List ω) (step : σ → ε → σ) : σ → List ε → List ω
  | _, [] => []
  | s, e :: rest => out s e ++ outputs out step (step s e) rest

/-- A record to which every step appends what it puts out holds the outputs of the run. -/
theorem record_run {ω : Type} {record : σ → List ω} {out : σ → ε → List ω}
    (hstep : ∀ s e, record (step s e) = record s ++ out s e) (s : σ) (events : List ε) :
    record (run step s events) = record s ++ outputs out step s events := by
  induction events generalizing s with
  | nil => exact (List.append_nil _).symm
  | cons e _ ih => rw [run_cons, ih, hstep, List.append_assoc, outputs]

/-! ## Conditions on the steps of a run -/

/-- Every step of the run is taken from a state in which `good` allows it. -/
def Always (good : σ → ε → Prop) (step : σ → ε → σ) : σ → List ε → Prop
  | _, [] => True
  | s, e :: rest => good s e ∧ Always good step (step s e) rest

instance Always.decidable [∀ s e, Decidable (good s e)] :
    (s : σ) → (events : List ε) → Decidable (Always good step s events)
  | _, [] => isTrue trivial
  | s, e :: rest =>
    have : Decidable (Always good step (step s e) rest) := Always.decidable (step s e) rest
    inferInstanceAs (Decidable (good s e ∧ Always good step (step s e) rest))

/-- What every good step preserves holds after a run of good steps. -/
theorem run_invariant_of_always (hstep : ∀ s e, inv s → good s e → inv (step s e)) {s : σ}
    (h : inv s) {events : List ε} (hall : Always good step s events) :
    inv (run step s events) := by
  induction events generalizing s with
  | nil => exact h
  | cons e _ ih => exact ih (hstep s e h hall.1) hall.2

theorem always_append {s : σ} {before after : List ε} : Always good step s (before ++ after)
      ↔ Always good step s before ∧ Always good step (run step s before) after := by
  induction before generalizing s with
  | nil => exact (and_iff_right trivial).symm
  | cons _ _ ih =>
    rw [List.cons_append, Always, Always, ih, and_assoc]
    rfl

theorem Always.and {s : σ} {events : List ε} (hall : Always good step s events)
    (hall' : Always good' step s events) :
    Always (fun s e => good s e ∧ good' s e) step s events := by
  induction events generalizing s with
  | nil => exact trivial
  | cons _ _ ih => exact ⟨⟨hall.1, hall'.1⟩, ih hall.2 hall'.2⟩

/-- What holds of every state of a run holds after each of its steps. -/
theorem Always.visited {visits : σ → Prop} {s : σ} {events : List ε}
    (hall : Always good step s events)
    (hvisits : ∀ before after, events = before ++ after → visits (run step s before)) :
    Always (fun s e => good s e ∧ visits (step s e)) step s events := by
  induction events generalizing s with
  | nil => exact trivial
  | cons e rest ih =>
    obtain ⟨he, hrest⟩ := hall
    refine ⟨⟨he, hvisits [e] rest rfl⟩, ih hrest fun before after hsplit => ?_⟩
    exact hvisits (e :: before) after (by rw [hsplit]; rfl)

/-- Good steps keep the invariant, and from states with the invariant they are also `good'`. -/
theorem Always.imp (hstep : ∀ s e, inv s → good s e → inv (step s e))
    (hgood : ∀ s e, inv s → good s e → good' s e) {s : σ} (h : inv s) {events : List ε}
    (hall : Always good step s events) : Always good' step s events := by
  induction events generalizing s with
  | nil => exact trivial
  | cons e _ ih =>
    obtain ⟨he, hrest⟩ := hall
    exact ⟨hgood s e h he, ih (hstep s e h he) hrest⟩

/-- A property that exactly the good steps keep, and that no step restores, holds after a run
    exactly when all its steps are good. -/
theorem run_iff_always {p : σ → Prop} (hstep : ∀ s e, inv s → inv (step s e))
    (hgood : ∀ s e, inv s → (p (step s e) ↔ p s ∧ good s e)) {s : σ} (h : inv s)
    (events : List ε) : p (run step s events) ↔ p s ∧ Always good step s events := by
  induction events generalizing s with
  | nil => exact (and_iff_left trivial).symm
  | cons e _ ih =>
    rw [run_cons, ih (hstep s e h), hgood s e h, and_assoc]
    rfl

/-- A property that from a state with it exactly the good steps keep holds in every state reached
    exactly when all steps are good. -/
theorem always_iff_always {p : σ → Prop} (hstep : ∀ s e, inv s → inv (step s e))
    (hgood : ∀ s e, inv s → p s → (p (step s e) ↔ good s e)) {s : σ} (h : inv s) (hp : p s)
    (events : List ε) :
    Always (fun s e => p (step s e)) step s events ↔ Always good step s events := by
  induction events generalizing s with
  | nil => exact Iff.rfl
  | cons e _ ih =>
    constructor
    · intro ⟨he, hrest⟩
      exact ⟨(hgood s e h hp).1 he, (ih (hstep s e h) he).1 hrest⟩
    · intro ⟨he, hrest⟩
      have hp' := (hgood s e h hp).2 he
      exact ⟨hp', (ih (hstep s e h) hp').2 hrest⟩

/-! ## How often a step can happen -/

/-- What the steps of a run bring in, added up. -/
def total (weight : σ → ε → ℕ) (step : σ → ε → σ) : σ → List ε → ℕ
  | _, [] => 0
  | s, e :: rest => weight s e + total weight step (step s e) rest

/-- **A potential bounds the ticks of a run.** Where every tick lowers the potential, and every step
    raises it by its weight at most, a run has no more ticks than the potential and the weights
    allow. -/
theorem countP_le_potential {potential : σ → ℕ} {weight : σ → ε → ℕ} {tick : ε → Bool}
    (hstep : ∀ s e, inv s → inv (step s e)) (hpotential : ∀ s e, inv s → good s e →
      potential (step s e) + (if tick e then 1 else 0) ≤ potential s + weight s e)
    {s : σ} (h : inv s) {events : List ε} (hgood : Always good step s events) :
    events.countP tick ≤ potential s + total weight step s events := by
  induction events generalizing s with
  | nil => exact Nat.zero_le _
  | cons e _ ih =>
    obtain ⟨he, hrest⟩ := hgood
    have hone := hpotential s e h he
    have hmore := ih (hstep s e h) hrest
    rw [List.countP_cons]
    simp only [total]
    omega

end Execution
