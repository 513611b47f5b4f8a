import Mathlib.Algebra.Order.Ring.Int
import Mathlib.Data.List.Basic

/-! # Interruptible programs and their pre- and postconditions

A `Prog` is straight-line code whose only effects are atomic actions on a shared state: between two
actions other parties may run. `Prog.run` executes it without interference; a scheduler that
interleaves programs keeps the rest of each one and performs a single action at a time.

`Prog.Spec` is the matching weakest precondition. Besides the postcondition it carries a *step
invariant* `inv` that every state after an action has to satisfy, which is what another party may
rely on in the middle of the program. The rules below decompose it along `bind` and lists; nothing
here depends on what the actions are. -/

/-- Code over the actions `A`, where performing `a : A` answers with a value of type `R a`. -/
inductive Prog (A : Type) (R : A → Type) (α : Type) where
  | ret (value : α)
  | act (a : A) (k : R a → Prog A R α)

namespace Prog

variable {A : Type} {R : A → Type} {α β σ : Type}

protected def bind : Prog A R α → (α → Prog A R β) → Prog A R β
  | .ret v, f => f v
  | .act a k, f => .act a (fun r => (k r).bind f)

instance : Monad (Prog A R) where
  pure := .ret
  bind := Prog.bind

/-- The program that performs one action and returns its answer. -/
def perform (a : A) : Prog A R (R a) := .act a .ret

@[simp] theorem pure_eq (v : α) : (pure v : Prog A R α) = .ret v := rfl

@[simp] theorem ret_bind (v : α) (f : α → Prog A R β) : (Prog.ret v >>= f) = f v := rfl

@[simp] theorem act_bind (a : A) (k : R a → Prog A R α) (f : α → Prog A R β) :
    (Prog.act a k >>= f) = .act a (fun r => k r >>= f) := rfl

/-- The loop `for x in xs`: run the body on each element in order. -/
def forEach (f : β → Prog A R Unit) : List β → Prog A R Unit
  | [] => .ret ()
  | x :: rest => f x >>= fun _ => forEach f rest

/-! ## Uninterrupted execution -/

/-- Run a program to its end, with `sem` as the effect of an action. -/
def run (sem : (a : A) → σ → R a × σ) : Prog A R α → σ → α × σ
  | .ret v, s => (v, s)
  | .act a k, s => (k (sem a s).1).run sem (sem a s).2

variable {sem : (a : A) → σ → R a × σ} {inv : σ → Prop}

@[simp] theorem run_act (a : A) (k : R a → Prog A R α) (s : σ) :
    (Prog.act a k).run sem s = (k (sem a s).1).run sem (sem a s).2 := rfl

/-! ## Specifications -/

/-- Started in `s`, the program keeps `inv` after each of its actions and ends with an answer and a
    state related by `post`. -/
def Spec (sem : (a : A) → σ → R a × σ) (inv : σ → Prop) :
    Prog A R α → σ → (α → σ → Prop) → Prop
  | .ret v, s, post => post v s
  | .act a k, s, post => inv (sem a s).2 ∧ Spec sem inv (k (sem a s).1) (sem a s).2 post

@[simp] theorem spec_ret (v : α) (s : σ) (post : α → σ → Prop) :
    Spec sem inv (Prog.ret v : Prog A R α) s post ↔ post v s := Iff.rfl

@[simp] theorem spec_act (a : A) (k : R a → Prog A R α) (s : σ) (post : α → σ → Prop) :
    Spec sem inv (Prog.act a k) s post
      ↔ inv (sem a s).2 ∧ Spec sem inv (k (sem a s).1) (sem a s).2 post := Iff.rfl

@[simp] theorem spec_perform (a : A) (s : σ) (post : R a → σ → Prop) :
    Spec sem inv (perform a) s post ↔ inv (sem a s).2 ∧ post (sem a s).1 (sem a s).2 := Iff.rfl

@[simp] theorem spec_bind (p : Prog A R α) (f : α → Prog A R β) (s : σ) (post : β → σ → Prop) :
    Spec sem inv (p >>= f) s post ↔ Spec sem inv p s (fun v t => Spec sem inv (f v) t post) := by
  induction p generalizing s with
  | ret => rfl
  | act a k ih => simp only [act_bind, spec_act, ih]

variable {p : Prog A R α} {s : σ} {post : α → σ → Prop}

theorem Spec.mono {post' : α → σ → Prop} (h : Spec sem inv p s post)
    (himp : ∀ v t, post v t → post' v t) : Spec sem inv p s post' := by
  induction p generalizing s with
  | ret v => exact himp v s h
  | act a k ih => exact ⟨h.1, ih _ h.2⟩

/-- Sequential composition with an intermediate assertion. -/
theorem Spec.seq {f : α → Prog A R β} {mid : α → σ → Prop} {post : β → σ → Prop}
    (hp : Spec sem inv p s mid) (hf : ∀ v t, mid v t → Spec sem inv (f v) t post) :
    Spec sem inv (p >>= f) s post :=
  (spec_bind p f s post).2 (hp.mono hf)

/-- A specification holds of the uninterrupted execution. -/
theorem Spec.run (h : Spec sem inv p s post) : post (p.run sem s).1 (p.run sem s).2 := by
  induction p generalizing s with
  | ret => exact h
  | act a k ih => exact ih _ h.2

/-- **Loop rule.** `loopInv rest` is the loop invariant when the elements `rest` are still to be
    visited. -/
theorem Spec.forEach {f : β → Prog A R Unit} (loopInv : List β → σ → Prop)
    (hbody : ∀ x rest s, loopInv (x :: rest) s → Spec sem inv (f x) s (fun _ t => loopInv rest t)) :
    ∀ (xs : List β) (s : σ), loopInv xs s →
      Spec sem inv (forEach f xs) s (fun _ t => loopInv [] t) := by
  intro xs
  induction xs with
  | nil => intro s h; exact h
  | cons x rest ih =>
    intro s h
    exact Spec.seq (hbody x rest s h) (fun _ t ht => ih t ht)

/-! ## What a program leaves alone -/

section Keeps

variable {γ : Type} {f : σ → γ}

/-- No action of the program changes `f` of the state, whatever the actions before it answer. -/
def Keeps (sem : (a : A) → σ → R a × σ) (f : σ → γ) : Prog A R α → Prop
  | .ret _ => True
  | .act a k => (∀ s, f (sem a s).2 = f s) ∧ ∀ r, Keeps sem f (k r)

theorem Keeps.bind {g : α → Prog A R β} (hp : p.Keeps sem f) (hg : ∀ v, (g v).Keeps sem f) :
    (p >>= g).Keeps sem f := by
  induction p with
  | ret v => exact hg v
  | act a k ih => exact ⟨hp.1, fun r => ih r (hp.2 r)⟩

theorem Keeps.forEach {g : β → Prog A R Unit} (hg : ∀ x, (g x).Keeps sem f) (xs : List β) :
    (forEach g xs).Keeps sem f := by
  induction xs with
  | nil => exact trivial
  | cons x _ ih => exact (hg x).bind fun _ => ih

theorem Keeps.spec (hp : p.Keeps sem f) (s : σ) :
    Spec sem (fun _ => True) p s (fun _ t => f t = f s) := by
  induction p generalizing s with
  | ret => exact rfl
  | act a k ih => exact ⟨trivial, (ih _ (hp.2 _) _).mono fun _ t ht => ht.trans (hp.1 s)⟩

end Keeps

end Prog
