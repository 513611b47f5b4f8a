import Mathlib.Algebra.Order.Ring.Int
import Mathlib.Data.List.Nodup
import Mathlib.Data.List.Forall2

/-! # Memory with patches

A patch keeps what stands in a cell and plants something else there. `Overlaid l m patches` relates
a memory without patches, the memory with them, and the patches. Planting, restoring and writing
through the patches keep this relation, and the order in which patches are restored does not matter.
-/

namespace Overlay

open List Function

variable {κ β : Type} [DecidableEq κ]

/-- What stands on the right of a relation between lists has a partner on the left. -/
theorem exists_left_of_mem {α α' : Type} {R : α → α' → Prop} {xs : List α} {ys : List α'}
    (h : List.Forall₂ R xs ys) {y : α'} (hy : y ∈ ys) : ∃ x ∈ xs, R x y := by
  induction h with
  | nil => simp at hy
  | cons hhead _ ih =>
    rcases mem_cons.mp hy with rfl | hy
    · exact ⟨_, mem_cons_self, hhead⟩
    · obtain ⟨x, hx, hR⟩ := ih hy
      exact ⟨x, mem_cons_of_mem _ hx, hR⟩

/-! ## Writing cells -/

/-- Write one cell after the other. -/
def put (m : κ → β) : List (κ × β) → κ → β
  | [] => m
  | (k, v) :: rest => put (update m k v) rest

variable {writes : List (κ × β)} {address : ℕ} {c : κ}

theorem put_of_notMem (h : c ∉ writes.map Prod.fst) (m : κ → β) : put m writes c = m c := by
  induction writes generalizing m with
  | nil => rfl
  | cons _ _ ih =>
    rw [map_cons, mem_cons, not_or] at h
    rw [put, ih h.2, update_of_ne h.1]

/-- A cell that is written only with `v` holds `v`. -/
theorem put_of_forall {v : β} (h : ∀ e ∈ writes, e.1 = c → e.2 = v) {m : κ → β}
    (hm : m c = v ∨ c ∈ writes.map Prod.fst) : put m writes c = v := by
  induction writes generalizing m with
  | nil => exact hm.resolve_right (by simp)
  | cons e _ ih =>
    rw [forall_mem_cons] at h
    refine ih h.2 ?_
    by_cases hc : e.1 = c
    · subst hc
      exact .inl ((update_self _ _ _).trans (h.1 rfl))
    · rw [update_of_ne (Ne.symm hc)]
      refine hm.imp id fun hmem => ?_
      rw [map_cons, mem_cons] at hmem
      exact hmem.resolve_left (Ne.symm hc)

variable {writes' : List (κ × β)}

/-- What a cell holds depends on what is written there. -/
theorem put_congr {m m' : κ → β} (hm : m c = m' c)
    (h : List.Forall₂ (fun e e' => e'.1 = e.1 ∧ (e.1 = c → e'.2 = e.2)) writes writes') :
    put m' writes' c = put m writes c := by
  induction h generalizing m m' with
  | nil => exact hm.symm
  | @cons e e' rest rest' hhead _ ih =>
    obtain ⟨k, v⟩ := e
    obtain ⟨k', v'⟩ := e'
    obtain ⟨rfl, hvalue⟩ := hhead
    refine ih ?_
    by_cases hc : k' = c
    · subst hc
      rw [update_self, update_self]
      exact (hvalue rfl).symm
    · rw [update_of_ne (Ne.symm hc), update_of_ne (Ne.symm hc)]
      exact hm

/-! ## Patches -/

/-- A patched cell. -/
structure Patch (κ β : Type) where
  key : κ
  saved : β
  planted : β

open Patch

def plantings (patches : List (Patch κ β)) : List (κ × β) := patches.map fun p => (p.key, p.planted)

def restorations (patches : List (Patch κ β)) : List (κ × β) :=
  patches.map fun p => (p.key, p.saved)

omit [DecidableEq κ] in
@[simp] theorem keys_plantings (patches : List (Patch κ β)) :
    (plantings patches).map Prod.fst = patches.map key := by
  simp [plantings]

omit [DecidableEq κ] in
@[simp] theorem keys_restorations (patches : List (Patch κ β)) :
    (restorations patches).map Prod.fst = patches.map key := by
  simp [restorations]

/-- `m` is `l` with the patches planted, and each patch keeps what `l` holds. -/
structure Overlaid (l m : κ → β) (patches : List (Patch κ β)) : Prop where
  nodup : (patches.map key).Nodup
  saved_eq : ∀ p ∈ patches, p.saved = l p.key
  planted_eq : ∀ p ∈ patches, m p.key = p.planted
  clear : ∀ c, c ∉ patches.map key → m c = l c

variable {patches' : List (Patch κ β)} {p : Patch κ β} {patches : List (Patch κ β)}

omit [DecidableEq κ] in
theorem eq_of_key (hnodup : (patches.map key).Nodup) {q : Patch κ β} (hp : p ∈ patches)
    (hq : q ∈ patches) (h : p.key = q.key) : p = q :=
  inj_on_of_nodup_map hnodup hp hq h

/-- What a patch with its own cell writes there. -/
theorem put_written (value : Patch κ β → β) (hnodup : (patches.map key).Nodup) (hp : p ∈ patches)
    (m : κ → β) : put m (patches.map fun q => (q.key, value q)) p.key = value p := by
  refine put_of_forall (fun e he hkey => ?_) (.inr ?_)
  · obtain ⟨q, hq, rfl⟩ := mem_map.mp he
    rw [eq_of_key hnodup hq hp hkey]
  · rw [map_map]
    exact mem_map_of_mem hp

namespace Overlaid

variable {l m : κ → β} {patches : List (Patch κ β)}

omit [DecidableEq κ] in
theorem of_nil (m : κ → β) : Overlaid m m [] := ⟨nodup_nil, by simp, by simp, fun _ _ => rfl⟩

omit [DecidableEq κ] in
/-- Without patches the memories are the same. -/
theorem eq_of_nil (h : Overlaid l m []) : m = l := funext fun c => h.clear c (by simp)

omit [DecidableEq κ] in
theorem perm (h : Overlaid l m patches) (hperm : patches.Perm patches') :
    Overlaid l m patches' where
  nodup := (hperm.map key).nodup_iff.mp h.nodup
  saved_eq p hp := h.saved_eq p (hperm.mem_iff.mpr hp)
  planted_eq p hp := h.planted_eq p (hperm.mem_iff.mpr hp)
  clear c hc := h.clear c fun hmem => hc ((hperm.map key).mem_iff.mp hmem)

/-- **Planting** patches in cells of their own that keep what stands there. -/
theorem plant (h : Overlaid l m patches) {new : List (Patch κ β)}
    (hnodup : (new.map key).Nodup)
    (hapart : ∀ p ∈ patches, ∀ q ∈ new, p.key ≠ q.key) (hsaved : ∀ q ∈ new, q.saved = m q.key) :
    Overlaid l (put m (plantings new)) (patches ++ new) := by
  have hold : ∀ p ∈ patches, p.key ∉ new.map key := by
    intro p hp hmem
    obtain ⟨q, hq, hkey⟩ := mem_map.mp hmem
    exact hapart p hp q hq hkey.symm
  have hnew : ∀ q ∈ new, q.key ∉ patches.map key := by
    intro q hq hmem
    obtain ⟨p, hp, hkey⟩ := mem_map.mp hmem
    exact hapart p hp q hq hkey
  refine ⟨?_, fun p hp => ?_, fun p hp => ?_, fun c hc => ?_⟩
  · rw [map_append]
    refine h.nodup.append hnodup fun c hc hc' => ?_
    obtain ⟨p, hp, rfl⟩ := mem_map.mp hc
    exact hold p hp hc'
  · rcases mem_append.mp hp with hp | hp
    · exact h.saved_eq p hp
    · rw [hsaved p hp, h.clear _ (hnew p hp)]
  · rcases mem_append.mp hp with hp | hp
    · rw [put_of_notMem (by simpa using hold p hp), h.planted_eq p hp]
    · exact put_written planted hnodup hp m
  · rw [map_append, mem_append, not_or] at hc
    rw [put_of_notMem (by simpa using hc.2), h.clear c hc.1]

/-- **Restoring** some of the patches. -/
theorem restore {old rest : List (Patch κ β)} (h : Overlaid l m (old ++ rest)) :
    Overlaid l (put m (restorations old)) rest := by
  have hnodup := h.nodup
  rw [map_append, nodup_append] at hnodup
  obtain ⟨hold, hrest, hapart⟩ := hnodup
  refine ⟨hrest, fun p hp => h.saved_eq p (mem_append_right _ hp), fun p hp => ?_, fun c hc => ?_⟩
  · have hkey : p.key ∉ old.map key :=
      fun hmem => hapart _ hmem _ (mem_map_of_mem hp) rfl
    rw [put_of_notMem (by simpa using hkey)]
    exact h.planted_eq p (mem_append_right _ hp)
  · by_cases hmem : c ∈ old.map key
    · obtain ⟨p, hp, rfl⟩ := mem_map.mp hmem
      rw [restorations, put_written saved hold hp]
      exact h.saved_eq p (mem_append_left _ hp)
    · rw [put_of_notMem (by simpa using hmem)]
      refine h.clear c ?_
      rw [map_append, mem_append, not_or]
      exact ⟨hmem, hc⟩

/-- What a write through the patches puts into a cell: what is planted there, or else the value. -/
structure Covers (patches : List (Patch κ β)) (e e' : κ × β) : Prop where
  key_eq : e'.1 = e.1
  planted_eq : ∀ p ∈ patches, p.key = e.1 → e'.2 = p.planted
  value_eq : e.1 ∉ patches.map key → e'.2 = e.2

/-- What becomes of a patch when `l` becomes `l'`. -/
structure Refreshes (l' : κ → β) (p p' : Patch κ β) : Prop where
  key_eq : p'.key = p.key
  planted_eq : p'.planted = p.planted
  saved_eq : p'.saved = l' p.key

omit [DecidableEq κ] in
theorem keys_of_refreshes {l' : κ → β} (h : List.Forall₂ (Refreshes l') patches patches') :
    patches'.map key = patches.map key := by
  induction h with
  | nil => rfl
  | cons hhead _ ih => rw [map_cons, map_cons, hhead.key_eq, ih]

/-- **Writing through the patches**: the planted values stay, and what is kept changes. -/
theorem write (h : Overlaid l m patches) (hwrites : List.Forall₂ (Covers patches) writes writes')
    (hpatches : List.Forall₂ (Refreshes (put l writes)) patches patches') :
    Overlaid (put l writes) (put m writes') patches' := by
  have hkeys := keys_of_refreshes hpatches
  have hcovered : ∀ p ∈ patches, ∀ e' ∈ writes', e'.1 = p.key → e'.2 = p.planted := by
    intro p hp e' he' hkey
    obtain ⟨e, -, hcovers⟩ := exists_left_of_mem hwrites he'
    exact hcovers.planted_eq p hp (hkey.symm.trans hcovers.key_eq)
  refine ⟨by rw [hkeys]; exact h.nodup, fun p' hp' => ?_, fun p' hp' => ?_, fun c hc => ?_⟩
  · obtain ⟨p, -, hp⟩ := exists_left_of_mem hpatches hp'
    rw [hp.saved_eq, hp.key_eq]
  · obtain ⟨p, hmem, hp⟩ := exists_left_of_mem hpatches hp'
    rw [hp.key_eq, hp.planted_eq]
    exact put_of_forall (hcovered p hmem) (.inl (h.planted_eq p hmem))
  · rw [hkeys] at hc
    refine put_congr (h.clear c hc).symm (hwrites.imp fun e e' hcovers => ⟨hcovers.key_eq, ?_⟩)
    intro hkey
    exact hcovers.value_eq (by rw [hkey]; exact hc)

end Overlaid

/-! ## Ranges of addresses

An address is mapped to a cell; different addresses may be mapped to the same one. -/

section

variable {cell : ℕ → κ}

/-- The writes of a range. -/
def entries (cell : ℕ → κ) : ℕ → List β → List (κ × β)
  | _, [] => []
  | address, v :: rest => (cell address, v) :: entries cell (address + 1) rest

/-- The patches of a range. -/
def patchesAt (cell : ℕ → κ) : ℕ → (saved planted : List β) → List (Patch κ β)
  | address, s :: saved, p :: planted =>
    ⟨cell address, s, p⟩ :: patchesAt cell (address + 1) saved planted
  | _, _, _ => []

variable {saved planted : List β}

omit [DecidableEq κ] in
theorem mem_patchesAt : p ∈ patchesAt cell address saved planted ↔
      ∃ i, saved[i]? = some p.saved ∧ planted[i]? = some p.planted ∧
        p.key = cell (address + i) := by
  induction saved generalizing address planted with
  | nil => simp [patchesAt]
  | cons _ _ ih =>
    cases planted with
    | nil => simp [patchesAt]
    | cons =>
      rw [patchesAt, mem_cons, ih]
      constructor
      · rintro (rfl | ⟨i, hsaved, hplanted, hkey⟩)
        · exact ⟨0, rfl, rfl, rfl⟩
        · exact ⟨i + 1, hsaved, hplanted, by rw [hkey, Nat.add_right_comm, Nat.add_assoc]⟩
      · rintro ⟨i, hsaved, hplanted, hkey⟩
        cases i with
        | zero =>
          obtain ⟨k, s', v'⟩ := p
          cases hsaved
          cases hplanted
          exact .inl (by rw [← show k = cell address from hkey])
        | succ i =>
          exact .inr ⟨i, hsaved, hplanted, by rw [hkey, Nat.add_right_comm, Nat.add_assoc]⟩

omit [DecidableEq κ] in
/-- The patches of a range plant one list and restore the other. -/
theorem writes_patchesAt (h : saved.length = planted.length) :
    plantings (patchesAt cell address saved planted) = entries cell address planted
      ∧ restorations (patchesAt cell address saved planted) = entries cell address saved := by
  induction saved generalizing address planted with
  | nil => rw [length_eq_zero_iff.mp h.symm]; exact ⟨rfl, rfl⟩
  | cons s saved ih =>
    cases planted with
    | nil => simp at h
    | cons v planted =>
      have hrest : saved.length = planted.length := Nat.succ.inj h
      rw [entries, entries, ← (ih hrest).1, ← (ih hrest).2]
      exact ⟨rfl, rfl⟩

omit [DecidableEq κ] in
theorem mem_entries {data : List β} {e : κ × β} :
    e ∈ entries cell address data ↔ ∃ i, data[i]? = some e.2 ∧ e.1 = cell (address + i) := by
  rw [← (writes_patchesAt rfl).1, plantings, mem_map]
  constructor
  · rintro ⟨p, hp, rfl⟩
    obtain ⟨i, -, hplanted, hkey⟩ := mem_patchesAt.mp hp
    exact ⟨i, hplanted, hkey⟩
  · rintro ⟨i, hvalue, hkey⟩
    exact ⟨⟨e.1, e.2, e.2⟩, mem_patchesAt.mpr ⟨i, hvalue, hvalue, hkey⟩, rfl⟩

omit [DecidableEq κ] in
/-- The cells of a range without two addresses for one cell. -/
theorem nodup_patchesAt
    (h : ∀ i < saved.length, ∀ j < saved.length, cell (address + i) = cell (address + j) → i = j) :
    ((patchesAt cell address saved planted).map key).Nodup := by
  induction saved generalizing address planted with
  | nil => exact nodup_nil
  | cons _ _ ih =>
    cases planted with
    | nil => exact nodup_nil
    | cons =>
      rw [patchesAt, map_cons, nodup_cons]
      constructor
      · intro hmem
        obtain ⟨p, hp, hkey⟩ := mem_map.mp hmem
        obtain ⟨i, hsaved, -, hcell⟩ := mem_patchesAt.mp hp
        have hi := (List.getElem?_eq_some_iff.mp hsaved).1
        rw [hcell, Nat.add_right_comm, Nat.add_assoc] at hkey
        cases h (i + 1) (by simpa using hi) 0 (by simp) hkey
      · refine ih fun i hi j hj hcell => ?_
        rw [Nat.add_right_comm, Nat.add_assoc, Nat.add_right_comm address 1 j,
          Nat.add_assoc address j] at hcell
        exact Nat.succ.inj (h (i + 1) (by simpa using hi) (j + 1) (by simpa using hj) hcell)

omit [DecidableEq κ] in
theorem forall₂_entries {R : κ × β → κ × β → Prop} {data data' : List β}
    (hlength : data.length = data'.length) (h : ∀ i v v', data[i]? = some v → data'[i]? = some v' →
      R (cell (address + i), v) (cell (address + i), v')) :
    List.Forall₂ R (entries cell address data) (entries cell address data') := by
  induction data generalizing address data' with
  | nil => rw [length_eq_zero_iff.mp hlength.symm]; exact .nil
  | cons v _ ih =>
    cases data' with
    | nil => simp at hlength
    | cons v' =>
      refine .cons (h 0 v v' rfl rfl) (ih (Nat.succ.inj hlength) fun i w w' hw hw' => ?_)
      rw [Nat.add_right_comm, Nat.add_assoc]
      exact h (i + 1) w w' hw hw'

omit [DecidableEq κ] in
theorem forall₂_patchesAt {R : Patch κ β → Patch κ β → Prop} {saved' : List β}
    (hlength : saved.length = saved'.length)
    (h : ∀ i s s' v, saved[i]? = some s → saved'[i]? = some s' → planted[i]? = some v →
      R ⟨cell (address + i), s, v⟩ ⟨cell (address + i), s', v⟩) :
    List.Forall₂ R (patchesAt cell address saved planted)
      (patchesAt cell address saved' planted) := by
  induction saved generalizing address saved' planted with
  | nil => rw [length_eq_zero_iff.mp hlength.symm]; exact .nil
  | cons s _ ih =>
    cases saved' with
    | nil => simp at hlength
    | cons s' =>
      cases planted with
      | nil => exact .nil
      | cons v =>
        refine .cons (h 0 s s' v rfl rfl rfl)
          (ih (Nat.succ.inj hlength) fun i t t' w ht ht' hw => ?_)
        rw [Nat.add_right_comm, Nat.add_assoc]
        exact h (i + 1) t t' w ht ht' hw

end

end Overlay
