import LiveExec32.Lib.Program

/-! # The actions a program performs

`Prog.footprint` lists the actions of a run, each with the state it is performed in. `Prog.Guarded
ok` is the weakest precondition under which a run performs only actions that `ok` allows and ends in
`post`: since its rules are equivalences, unfolding a program along them computes exactly when the
program stays within bounds, not only a sufficient condition. -/

namespace Prog

variable {A : Type} {R : A → Type} {α β σ : Type}

/-- The actions of the run from `s`, each with the state before it. -/
def footprint (sem : (a : A) → σ → R a × σ) : Prog A R α → σ → List (A × σ)
  | .ret _, _ => []
  | .act a k, s => (a, s) :: (k (sem a s).1).footprint sem (sem a s).2

/-- Started in `s`, every action is allowed where it is performed, and the program ends with an
    answer and a state related by `post`. -/
def Guarded (sem : (a : A) → σ → R a × σ) (ok : A → σ → Prop) :
    Prog A R α → σ → (α → σ → Prop) → Prop
  | .ret v, s, post => post v s
  | .act a k, s, post => ok a s ∧ Guarded sem ok (k (sem a s).1) (sem a s).2 post

variable {sem : (a : A) → σ → R a × σ} {ok : A → σ → Prop}

/-- The weakest precondition and the run it speaks about. -/
theorem guarded_iff_footprint (p : Prog A R α) (s : σ) (post : α → σ → Prop) :
    Guarded sem ok p s post ↔ (∀ entry ∈ p.footprint sem s, ok entry.1 entry.2)
        ∧ post (p.run sem s).1 (p.run sem s).2 := by
  induction p generalizing s with
  | ret => simp [Guarded, footprint, run]
  | act a k ih => simp only [Guarded, footprint, run, ih, List.forall_mem_cons, and_assoc]

@[simp] theorem guarded_ret (v : α) (s : σ) (post : α → σ → Prop) :
    Guarded sem ok (Prog.ret v : Prog A R α) s post ↔ post v s := Iff.rfl

@[simp] theorem guarded_perform (a : A) (s : σ) (post : R a → σ → Prop) :
    Guarded sem ok (perform a) s post ↔ ok a s ∧ post (sem a s).1 (sem a s).2 := Iff.rfl

@[simp] theorem guarded_bind (p : Prog A R α) (f : α → Prog A R β) (s : σ) (post : β → σ → Prop) :
    Guarded sem ok (p >>= f) s post
      ↔ Guarded sem ok p s (fun v t => Guarded sem ok (f v) t post) := by
  induction p generalizing s with
  | ret => rfl
  | act a k ih => simp only [act_bind, Guarded, ih]

@[simp] theorem guarded_ite (c : Prop) [Decidable c] (p q : Prog A R α) (s : σ)
    (post : α → σ → Prop) :
    Guarded sem ok (if c then p else q) s post
      ↔ (c → Guarded sem ok p s post) ∧ (¬c → Guarded sem ok q s post) := by
  split
  next h => simp [h]
  next h => simp [h]

end Prog
