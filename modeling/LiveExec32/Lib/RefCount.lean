import Mathlib.Algebra.Order.Ring.Int
import Mathlib.Data.Finset.Card
import Mathlib.Data.Multiset.Count

/-! # Reference counting

A finite set `S` of slots, each empty or pointing to an object (`f : ι → Option β`), and a counter
per object. While an operation is under way it also holds references in local variables; they are
the multiset `held`. `Balanced` says that every counter is the number of slots pointing to the
object plus the number of held references, and the rules below say how the four primitive moves
(take a reference, drop one, store one in a slot, create an object) keep the balance. -/

namespace RefCount

open Function Multiset

variable {ι β : Type}

/-- The slots of `S` that point to `b`. -/
def holders [DecidableEq β] (S : Finset ι) (f : ι → Option β) (b : β) : Finset ι :=
  S.filter (fun i => f i = some b)

/-- The references an optional pointer stands for. -/
def ofOption : Option β → Multiset β
  | none => 0
  | some b => {b}

@[simp] theorem ofOption_none : ofOption (none : Option β) = 0 := rfl

@[simp] theorem ofOption_some (b : β) : ofOption (some b) = {b} := rfl

variable [DecidableEq β]

theorem count_ofOption (v : Option β) (b : β) :
    (ofOption v).count b = if v = some b then 1 else 0 := by
  cases v with
  | none => simp
  | some =>
    simp only [ofOption_some, count_singleton, Option.some.injEq]
    split <;> split <;> simp_all

variable {S : Finset ι} {f : ι → Option β} {b : β} {i : ι}

theorem mem_holders : i ∈ holders S f b ↔ i ∈ S ∧ f i = some b := by
  simp [holders]

theorem holders_congr {g : ι → Option β} (h : ∀ i ∈ S, f i = g i) (b : β) :
    holders S f b = holders S g b := by
  apply Finset.filter_congr
  intro i hi
  rw [h i hi]

/-- Storing `v` in slot `i` moves one holder from the old pointer to the new one. -/
theorem card_holders_update [DecidableEq ι] (f : ι → Option β) (hi : i ∈ S) (v : Option β) (b : β) :
    (holders S (update f i v) b).card + (if f i = some b then 1 else 0)
      = (holders S f b).card + (if v = some b then 1 else 0) := by
  have hsplit : ∀ g : ι → Option β,
      (holders S g b).card = (holders (S.erase i) g b).card + (if g i = some b then 1 else 0) := by
    intro g
    conv_lhs => rw [holders, ← Finset.insert_erase hi, Finset.filter_insert]
    split
    · rw [Finset.card_insert_of_notMem (by simp), holders]
    · rw [holders, Nat.add_zero]
  have hrest : holders (S.erase i) (update f i v) b = holders (S.erase i) f b := by
    apply holders_congr
    intro j hj
    rw [update_of_ne (Finset.ne_of_mem_erase hj)]
  rw [hsplit (update f i v), hsplit f, hrest, update_self]
  omega

/-- Every counter is the number of slots pointing to the object plus the held references. -/
def Balanced (S : Finset ι) (f : ι → Option β) (held : Multiset β) (refs : β → ℕ) : Prop :=
  ∀ b, refs b = (holders S f b).card + held.count b

variable {S : Finset ι} {f : ι → Option β} {held : Multiset β} {refs : β → ℕ}

/-- An object some slot points to has a positive counter. -/
theorem Balanced.pos_of_slot (h : Balanced S f held refs) (hi : i ∈ S) (hb : f i = some b) :
    0 < refs b := by
  have hmem : i ∈ holders S f b := by simp [holders, hi, hb]
  have hcard : 0 < (holders S f b).card := Finset.card_pos.2 ⟨i, hmem⟩
  rw [h b]
  omega

/-- An object somebody holds has a positive counter. -/
theorem Balanced.pos_of_held (h : Balanced S f held refs) (hb : b ∈ held) : 0 < refs b := by
  have hcount : 0 < held.count b := count_pos.2 hb
  rw [h b]
  omega

theorem Balanced.retain (h : Balanced S f held refs) (b : β) :
    Balanced S f (b ::ₘ held) (update refs b (refs b + 1)) := by
  intro c
  rw [count_cons]
  by_cases hcb : c = b
  · subst hcb
    rw [update_self, if_pos rfl, h c]
    omega
  · rw [update_of_ne hcb, if_neg hcb, h c]
    omega

theorem Balanced.release (h : Balanced S f (b ::ₘ held) refs) :
    Balanced S f held (update refs b (refs b - 1)) := by
  intro c
  have hc := h c
  rw [count_cons] at hc
  by_cases hcb : c = b
  · subst hcb
    rw [update_self]
    rw [if_pos rfl] at hc
    omega
  · rw [update_of_ne hcb]
    rw [if_neg hcb] at hc
    omega

/-- Storing a held reference in a slot hands back the reference the slot had. -/
theorem Balanced.store [DecidableEq ι] (hi : i ∈ S) {v : Option β}
    (h : Balanced S f (ofOption v + held) refs) :
    Balanced S (update f i v) (ofOption (f i) + held) refs := by
  intro b
  have hb := h b
  have hupd := card_holders_update f hi v b
  rw [count_add, count_ofOption] at hb ⊢
  omega

/-- An object created with `n` references, all held by its creator. -/
theorem Balanced.create (h : Balanced S f held refs) (hb : refs b = 0) (n : ℕ) :
    Balanced S f (replicate n b + held) (update refs b n) := by
  intro c
  have hc := h c
  rw [count_add, count_replicate]
  by_cases hcb : c = b
  · subst hcb
    rw [update_self, if_pos rfl]
    omega
  · rw [update_of_ne hcb, if_neg (fun he => hcb he.symm)]
    omega

end RefCount
