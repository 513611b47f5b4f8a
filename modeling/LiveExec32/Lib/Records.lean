import Mathlib.Algebra.Order.Ring.Int
import Mathlib.Data.List.Basic

/-! # Tables kept in a list

A table is a list of records that are found by a linear search. `recordFirst` changes the first
record that matches or appends a new one. Tables with at most one record for each key (`UniqueKeys`)
behave like finite maps: the lemmas below say how storing and removing a record change what a search
finds. -/

namespace Records

open List

variable {α κ : Type}

/-- Change the first record that matches, or append a new one. -/
def recordFirst (isMatch : α → Bool) (change : α → α) (fresh : α) : List α → List α
  | [] => [fresh]
  | x :: rest =>
    if isMatch x then change x :: rest else x :: recordFirst isMatch change fresh rest

/-- Change the first record that matches. -/
def modifyFirst (isMatch : α → Bool) (change : α → α) : List α → List α
  | [] => []
  | x :: rest => if isMatch x then change x :: rest else x :: modifyFirst isMatch change rest

section Modify

variable {p q isMatch : α → Bool} {change : α → α} {records : List α} {x : α}

/-- The record that changes is the first match, if there is one. -/
theorem modifyFirst_cases (isMatch : α → Bool) (change : α → α) (records : List α) :
    (∃ before e after, records = before ++ e :: after ∧ (∀ x ∈ before, isMatch x = false)
        ∧ isMatch e ∧ modifyFirst isMatch change records = before ++ change e :: after)
      ∨ (∀ x ∈ records, isMatch x = false) ∧ modifyFirst isMatch change records = records := by
  induction records with
  | nil => exact .inr ⟨by simp, rfl⟩
  | cons x rest ih =>
    unfold modifyFirst
    cases hx : isMatch x with
    | true => exact .inl ⟨[], x, rest, rfl, by simp, hx, rfl⟩
    | false =>
      rcases ih with ⟨before, e, after, rfl, hbefore, he, heq⟩ | ⟨hnone, heq⟩
      · exact .inl ⟨x :: before, e, after, rfl, by simpa [hx] using hbefore, he, by simp [heq]⟩
      · exact .inr ⟨by simpa [hx] using hnone, by simp [heq]⟩

/-- Recording is changing the first match, or appending. -/
theorem recordFirst_eq (new : α) (records : List α) : recordFirst isMatch change new records
      = if records.any isMatch then modifyFirst isMatch change records else records ++ [new] := by
  induction records with
  | nil => rfl
  | cons e _ ih =>
    unfold recordFirst modifyFirst
    rw [any_cons]
    by_cases hmatch : isMatch e = true
    · simp [hmatch]
    · simp only [hmatch, Bool.false_eq_true, if_false, Bool.false_or, ih]
      split <;> rfl

theorem recordFirst_cases (isMatch : α → Bool) (change : α → α) (new : α) (records : List α) :
    (∃ before e after, records = before ++ e :: after ∧ (∀ x ∈ before, isMatch x = false)
        ∧ isMatch e ∧ recordFirst isMatch change new records = before ++ change e :: after)
      ∨ (∀ x ∈ records, isMatch x = false)
        ∧ recordFirst isMatch change new records = records ++ [new] := by
  rw [recordFirst_eq]
  rcases modifyFirst_cases isMatch change records with
    ⟨before, e, after, rfl, hbefore, he, heq⟩ | ⟨hnone, -⟩
  · exact .inl ⟨before, e, after, rfl, hbefore, he, by simp [he, heq]⟩
  · exact .inr ⟨hnone, if_neg (by simpa using hnone)⟩

theorem mem_modifyFirst (h : x ∈ modifyFirst isMatch change records) :
    x ∈ records ∨ ∃ e ∈ records, isMatch e ∧ x = change e := by
  rcases modifyFirst_cases isMatch change records with
    ⟨before, e, after, rfl, -, he, heq⟩ | ⟨-, heq⟩
  · rw [heq] at h
    rcases mem_append.1 h with h | h
    · exact .inl (mem_append_left _ h)
    · rcases mem_cons.1 h with rfl | h
      · exact .inr ⟨e, by simp, he, rfl⟩
      · exact .inl (by simp [h])
  · exact .inl (heq ▸ h)

theorem mem_recordFirst {fresh : α} (h : x ∈ recordFirst isMatch change fresh records) :
    x = fresh ∨ x ∈ records ∨ ∃ e ∈ records, isMatch e ∧ x = change e := by
  rw [recordFirst_eq] at h
  split at h
  · exact .inr (mem_modifyFirst h)
  · rcases mem_append.1 h with h | h
    · exact .inr (.inl h)
    · exact .inl (mem_singleton.1 h)

theorem modifyFirst_of_none (h : ∀ x ∈ records, isMatch x = false) :
    modifyFirst isMatch change records = records := by
  rcases modifyFirst_cases isMatch change records with ⟨before, e, after, rfl, -, he, -⟩ | ⟨-, heq⟩
  · exact absurd (h e (by simp)) (by simp [he])
  · exact heq

/-- A change that keeps a field keeps the list of that field. -/
theorem map_modifyFirst {field : α → κ} (h : ∀ x, field (change x) = field x) (records : List α) :
    (modifyFirst isMatch change records).map field = records.map field := by
  rcases modifyFirst_cases isMatch change records with ⟨before, e, after, rfl, -, -, heq⟩ | ⟨-, heq⟩
  · simp [heq, h]
  · rw [heq]

/-- Two counts after a change that raises the first no more than the second. -/
theorem countP_modifyFirst_add_le
    (h : ∀ x ∈ records, (if p (change x) then 1 else 0) + (if q x then 1 else 0)
      ≤ (if p x then 1 else 0) + (if q (change x) then 1 else 0)) :
    (modifyFirst isMatch change records).countP p + records.countP q
      ≤ records.countP p + (modifyFirst isMatch change records).countP q := by
  rcases modifyFirst_cases isMatch change records with ⟨before, e, after, rfl, -, -, heq⟩ | ⟨-, heq⟩
  · have he := h e (by simp)
    simp only [heq, countP_append, countP_cons]
    omega
  · exact Nat.le_of_eq (by rw [heq])

/-- Counting after a change that makes no record count that did not before. -/
theorem countP_modifyFirst_le (h : ∀ x ∈ records, p (change x) → p x) :
    (modifyFirst isMatch change records).countP p ≤ records.countP p := by
  have hle := @countP_modifyFirst_add_le α p (fun _ => false) isMatch change records fun x hx => by
    by_cases hp : p (change x) = true
    · simp [hp, h x hx hp]
    · simp [hp]
  simpa using hle

theorem countP_modifyFirst (h : ∀ x ∈ records, p (change x) = p x) :
    (modifyFirst isMatch change records).countP p = records.countP p := by
  rcases modifyFirst_cases isMatch change records with ⟨before, e, after, rfl, -, -, heq⟩ | ⟨-, heq⟩
  · simp [heq, countP_cons, h e (by simp)]
  · rw [heq]

end Modify

/-! ## Recording and tokens

A record may hold a token. A change that takes the token away, keeps it or replaces it by a fresh
one keeps the tokens distinct. -/

variable {β : Type}

section Tokens

variable {token : α → Option κ} {fresh : κ} {isMatch : α → Bool} {change : α → α}
  {records : List α}

/-- What may become of the token of a record. -/
def Renews (token : α → Option κ) (fresh : κ) (x y : α) : Prop :=
  token y = none ∨ token y = token x ∨ token y = some fresh

theorem mem_tokens_modifyFirst (h : ∀ x, Renews token fresh x (change x)) {t : κ}
    (ht : t ∈ (modifyFirst isMatch change records).filterMap token) :
    t = fresh ∨ t ∈ records.filterMap token := by
  obtain ⟨x, hx, htoken⟩ := mem_filterMap.1 ht
  rcases mem_modifyFirst hx with hold | ⟨e, he, -, rfl⟩
  · exact .inr (mem_filterMap.2 ⟨x, hold, htoken⟩)
  · rcases h e with hnone | hsame | hfresh
    · rw [hnone] at htoken
      simp at htoken
    · exact .inr (mem_filterMap.2 ⟨e, he, hsame.symm.trans htoken⟩)
    · exact .inl (Option.some.inj (htoken.symm.trans hfresh))

theorem nodup_tokens_modifyFirst (h : ∀ x, Renews token fresh x (change x))
    (hnodup : (records.filterMap token).Nodup) (hfresh : fresh ∉ records.filterMap token) :
    ((modifyFirst isMatch change records).filterMap token).Nodup := by
  rcases modifyFirst_cases isMatch change records with ⟨before, e, after, rfl, -, -, heq⟩ | ⟨-, heq⟩
  · have hsplit : ∀ y, (before ++ y :: after).filterMap token
        = before.filterMap token ++ ((token y).toList ++ after.filterMap token) := fun y => by
      cases htoken : token y <;> simp [htoken]
    rw [hsplit] at hnodup hfresh
    rw [heq, hsplit]
    have hothers : (before.filterMap token ++ after.filterMap token).Nodup :=
      hnodup.sublist ((sublist_append_right _ _).append_left _)
    rcases h e with hnone | hsame | hnew
    · rw [hnone]
      exact hothers
    · rw [hsame]
      exact hnodup
    · rw [hnew]
      refine (perm_middle.nodup_iff).2 (nodup_cons.2 ⟨fun hmem => hfresh ?_, hothers⟩)
      rcases mem_append.1 hmem with hmem | hmem
      · exact mem_append_left _ hmem
      · exact mem_append_right _ (mem_append_right _ hmem)
  · rwa [heq]

/-- Up to the order, recording removes the record that matches and adds one. -/
theorem perm_map_recordFirst {g : α → β} {k : β} {new : α} (hchange : ∀ x, g (change x) = k)
    (hnew : g new = k) (hone : records.countP isMatch ≤ 1) :
    ((recordFirst isMatch change new records).map g).Perm
      (k :: (records.filter (fun x => !isMatch x)).map g) := by
  rcases recordFirst_cases isMatch change new records with
    ⟨before, e, after, rfl, hbefore, he, heq⟩ | ⟨hnone, heq⟩
  · -- no other record matches
    rw [countP_append, countP_cons, if_pos he] at hone
    have hafter := countP_eq_zero.1 (show after.countP isMatch = 0 by omega)
    rw [heq, filter_append, filter_cons_of_neg (by simp [he]),
      filter_eq_self.2 (by simpa using hbefore), filter_eq_self.2 (by simpa using hafter),
      map_append, map_cons, hchange, map_append]
    exact perm_middle
  · rw [heq, filter_eq_self.2 (by simpa using hnone), map_append, map_singleton, hnew]
    exact perm_append_singleton _ _

end Tokens

/-! ## At most one record for each key -/

section Keys

variable {key : α → κ} {records : List α}

/-- No two records have the same key. -/
def UniqueKeys (key : α → κ) (records : List α) : Prop :=
  records.Pairwise (fun x y => key x ≠ key y)

theorem UniqueKeys.nil : UniqueKeys key [] := Pairwise.nil

variable {x y : α}

theorem UniqueKeys.eq_of_key_eq (h : UniqueKeys key records) (hx : x ∈ records) (hy : y ∈ records)
    (hkey : key x = key y) : x = y := by
  induction records with
  | nil => simp at hx
  | cons _ _ ih =>
    obtain ⟨he, hrest⟩ := pairwise_cons.1 h
    rcases mem_cons.1 hx with rfl | hx' <;> rcases mem_cons.1 hy with rfl | hy'
    · rfl
    · exact absurd hkey (he y hy')
    · exact absurd hkey.symm (he x hx')
    · exact ih hrest hx' hy'

theorem UniqueKeys.eraseP (h : UniqueKeys key records) (p : α → Bool) :
    UniqueKeys key (records.eraseP p) :=
  h.sublist eraseP_sublist

theorem UniqueKeys.key_ne {before after : List α} {e : α}
    (h : UniqueKeys key (before ++ e :: after)) (hy : y ∈ after) : key y ≠ key e :=
  ((pairwise_cons.1 (pairwise_append.1 h).2.1).1 y hy).symm

variable [BEq κ] [LawfulBEq κ]

theorem UniqueKeys.mem_eraseP (h : UniqueKeys key records) {k : κ}
    (hy : y ∈ records.eraseP (fun x => key x == k)) : y ∈ records ∧ key y ≠ k := by
  refine ⟨mem_of_mem_eraseP hy, ?_⟩
  rcases exists_or_eq_self_of_eraseP (fun x => key x == k) records with
    hsame | ⟨e, before, after, hbefore, he, rfl, heq⟩
  · simpa using eraseP_eq_self_iff.1 hsame y (hsame ▸ hy)
  · rw [heq] at hy
    rcases mem_append.1 hy with hy | hy
    · simpa using hbefore y hy
    · exact beq_iff_eq.1 he ▸ h.key_ne hy

/-- Store a record in the place of the one with its key. -/
def store (key : α → κ) (x : α) (records : List α) : List α :=
  recordFirst (fun old => key old == key x) (fun _ => x) x records

/-- The record takes the place of the first one with its key, or comes last. -/
theorem store_cases (key : α → κ) (x : α) (records : List α) :
    (∃ before e after, records = before ++ e :: after ∧ (∀ y ∈ before, key y ≠ key x)
        ∧ key e = key x ∧ store key x records = before ++ x :: after)
      ∨ (∀ y ∈ records, key y ≠ key x) ∧ store key x records = records ++ [x] := by
  have hcases := recordFirst_cases (fun old => key old == key x) (fun _ => x) x records
  simp only [beq_eq_false_iff_ne, beq_iff_eq] at hcases
  exact hcases

theorem mem_store (h : UniqueKeys key records) (hy : y ∈ store key x records) :
    y = x ∨ (y ∈ records ∧ key y ≠ key x) := by
  rcases store_cases key x records with ⟨before, e, after, rfl, hbefore, he, heq⟩ | ⟨hnone, heq⟩
  · rw [heq] at hy
    rcases mem_append.1 hy with hy | hy
    · exact .inr ⟨mem_append_left _ hy, hbefore y hy⟩
    · rcases mem_cons.1 hy with rfl | hy
      · exact .inl rfl
      · exact .inr ⟨by simp [hy], he ▸ h.key_ne hy⟩
  · rw [heq] at hy
    rcases mem_append.1 hy with hy | hy
    · exact .inr ⟨hy, hnone y hy⟩
    · exact .inl (mem_singleton.1 hy)

theorem self_mem_store (x : α) (records : List α) : x ∈ store key x records := by
  rcases store_cases key x records with ⟨_, _, _, -, -, -, heq⟩ | ⟨-, heq⟩ <;> simp [heq]

theorem mem_store_of_ne (hy : y ∈ records) (hne : key y ≠ key x) : y ∈ store key x records := by
  rcases store_cases key x records with ⟨before, e, after, rfl, -, he, heq⟩ | ⟨-, heq⟩
  · have hye : y ≠ e := fun hye => hne (hye ▸ he)
    simpa [heq, hye, or_comm, or_left_comm] using Or.inr hy
  · simp [heq, hy]

/-- What holds between any two records holds after storing one that fits the others. -/
theorem pairwise_store {r : α → α → Prop} (h : UniqueKeys key records) (hr : records.Pairwise r)
    (hx : ∀ y ∈ records, key y ≠ key x → r y x ∧ r x y) : (store key x records).Pairwise r := by
  rcases store_cases key x records with ⟨before, e, after, rfl, hbefore, he, heq⟩ | ⟨hnone, heq⟩
  · obtain ⟨hrbefore, hrafter, hacross⟩ := pairwise_append.1 hr
    rw [heq]
    refine pairwise_append.2 ⟨hrbefore, pairwise_cons.2 ⟨fun y hy => ?_,
      (pairwise_cons.1 hrafter).2⟩, fun y hy z hz => ?_⟩
    · exact (hx y (by simp [hy]) (he ▸ h.key_ne hy)).2
    · rcases mem_cons.1 hz with rfl | hz
      · exact (hx y (by simp [hy]) (hbefore y hy)).1
      · exact hacross y hy z (mem_cons_of_mem _ hz)
  · rw [heq]
    refine pairwise_append.2 ⟨hr, pairwise_singleton _ _, fun y hy z hz => ?_⟩
    rw [mem_singleton.1 hz]
    exact (hx y hy (hnone y hy)).1

theorem UniqueKeys.store (h : UniqueKeys key records) (x : α) :
    UniqueKeys key (store key x records) :=
  pairwise_store h h (fun _ _ hne => ⟨hne, hne.symm⟩)

/-- The record with the key of `x` is the one whose place `x` takes. -/
theorem UniqueKeys.store_eq (h : UniqueKeys key records) (hy : y ∈ records) (hkey : key y = key x) :
    ∃ before after, records = before ++ y :: after
      ∧ Records.store key x records = before ++ x :: after := by
  rcases store_cases key x records with ⟨before, e, after, rfl, -, he, heq⟩ | ⟨hnone, -⟩
  · obtain rfl := h.eq_of_key_eq (by simp) hy (he.trans hkey.symm)
    exact ⟨before, after, rfl, heq⟩
  · exact absurd hkey (hnone y hy)

/-- Counting after a record was replaced. -/
theorem UniqueKeys.countP_store (h : UniqueKeys key records) (p : α → Bool) (hy : y ∈ records)
    (hkey : key y = key x) :
    (Records.store key x records).countP p + (if p y then 1 else 0)
      = records.countP p + (if p x then 1 else 0) := by
  obtain ⟨before, after, rfl, heq⟩ := h.store_eq hy hkey
  simp only [heq, countP_append, countP_cons]
  omega

/-- Counting after a record was removed. -/
theorem UniqueKeys.countP_eraseP (h : UniqueKeys key records) (p : α → Bool) (hy : y ∈ records) :
    (records.eraseP (fun x => key x == key y)).countP p + (if p y then 1 else 0)
      = records.countP p := by
  obtain ⟨e, before, after, -, he, rfl, heq⟩ :=
    @exists_of_eraseP _ (fun x => key x == key y) _ _ hy (beq_self_eq_true (key y))
  obtain rfl := h.eq_of_key_eq (by simp) hy (beq_iff_eq.1 he)
  simp only [heq, countP_append, countP_cons]
  omega

/-- A stored record that agrees in a field with the one it replaces. -/
theorem UniqueKeys.map_store {field : α → β} (h : UniqueKeys key records) (hy : y ∈ records)
    (hkey : key y = key x) (hfield : field x = field y) :
    (Records.store key x records).map field = records.map field := by
  obtain ⟨before, after, rfl, heq⟩ := h.store_eq hy hkey
  simp [heq, hfield]

/-- Up to the order, storing a record removes the one with its key and adds it. -/
theorem UniqueKeys.perm_store (h : UniqueKeys key records) (x : α) :
    (Records.store key x records).Perm (x :: records.filter (fun y => key y != key x)) := by
  rcases store_cases key x records with ⟨before, e, after, rfl, hbefore, he, heq⟩ | ⟨hnone, heq⟩
  · have hafter : ∀ y ∈ after, key y ≠ key x := fun y hy => he ▸ h.key_ne hy
    rw [heq, filter_append, filter_cons_of_neg (by simp [he]),
      filter_eq_self.2 (by simpa using hbefore), filter_eq_self.2 (by simpa using hafter)]
    exact perm_middle
  · rw [heq, filter_eq_self.2 (by simpa using hnone)]
    exact perm_append_singleton _ _

theorem store_store (hkey : key y = key x) (records : List α) :
    store key y (store key x records) = store key y records := by
  induction records with
  | nil => simp [store, recordFirst, hkey]
  | cons e _ ih =>
    simp only [store, recordFirst, hkey] at ih ⊢
    by_cases hmatch : (key e == key x) = true
    · simp only [hmatch, if_true, recordFirst, beq_self_eq_true]
    · simp only [hmatch, Bool.false_eq_true, if_false, recordFirst, ih]

theorem store_of_fresh (h : ∀ y ∈ records, key y ≠ key x) :
    store key x records = records ++ [x] := by
  rw [store, recordFirst_eq, if_neg]
  simpa using h

/-- A search after storing a record finds it under its key. -/
theorem find?_store (x : α) (k : κ) (records : List α) :
    (store key x records).find? (fun y => key y == k)
      = if key x == k then some x else records.find? (fun y => key y == k) := by
  have hnone : ∀ {others : List α}, (∀ y ∈ others, key y ≠ key x) → key x = k →
      others.find? (fun y => key y == k) = none := by
    rintro others hothers rfl
    exact find?_eq_none.2 (by simpa using hothers)
  rcases store_cases key x records with ⟨before, e, after, rfl, hbefore, he, heq⟩ | ⟨hall, heq⟩
  · by_cases hk : key x = k
    · simp [heq, hk, hnone hbefore hk]
    · simp [heq, hk, he]
  · by_cases hk : key x = k
    · simp [heq, hk, hnone hall hk]
    · simp [heq, hk]

/-- A search after removing a record finds nothing under its key, and the same as before elsewhere.
    -/
theorem find?_eraseP (h : UniqueKeys key records) (j k : κ) :
    (records.eraseP (fun y => key y == j)).find? (fun y => key y == k)
      = if j == k then none else records.find? (fun y => key y == k) := by
  by_cases hjk : j = k
  · rw [if_pos (by simp [hjk]), find?_eq_none]
    intro y hy
    simpa [hjk] using (h.mem_eraseP hy).2
  · rw [if_neg (by simp [hjk])]
    rcases exists_or_eq_self_of_eraseP (fun y => key y == j) records with
      hsame | ⟨e, before, after, -, he, rfl, heq⟩
    · rw [hsame]
    · simp [heq, beq_iff_eq.1 he, hjk]

end Keys

end Records
