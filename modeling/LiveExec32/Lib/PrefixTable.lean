import Mathlib.Algebra.Order.Ring.Int
import Mathlib.Data.List.Basic

/-! # Tables of prefix replacements

A table replaces the prefix of a word by another: the first pair with a nonempty left side that is a
prefix of the word applies, and if there is none, the last pair with an empty left side. Read from
right to left, the same pairs are the table that undoes the replacement. It undoes it exactly if the
two pairs that apply, one in each direction, say the same: `Agree`. -/

namespace PrefixTable

open List

variable {α : Type} [DecidableEq α]

/-- The pair that applies to `word`, where `fallback` is the pair with an empty left side seen last.
    -/
def selectFrom (fallback : List α × List α) : List (List α × List α) → List α → List α × List α
  | [], _ => fallback
  | pair :: rest, word =>
    if pair.1 = [] then selectFrom pair rest word
    else if pair.1 <+: word then pair
    else selectFrom fallback rest word

def select (table : List (List α × List α)) (word : List α) : List α × List α :=
  selectFrom ([], []) table word

def translate (table : List (List α × List α)) (word : List α) : List α :=
  (select table word).2 ++ word.drop (select table word).1.length

/-- The table in the other direction. -/
def swap (table : List (List α × List α)) : List (List α × List α) := table.map Prod.swap

variable {word : List α}

theorem selectFrom_prefix {fallback : List α × List α} (table : List (List α × List α))
    (h : fallback.1 = []) : (selectFrom fallback table word).1 <+: word := by
  induction table generalizing fallback with
  | nil =>
    rw [selectFrom, h]
    exact nil_prefix
  | cons _ _ ih =>
    unfold selectFrom
    split
    · next hempty => exact ih hempty
    · split
      · next hprefix => exact hprefix
      · exact ih h

theorem select_prefix (table : List (List α × List α)) (word : List α) :
    (select table word).1 <+: word :=
  selectFrom_prefix table rfl

theorem selectFrom_mem (fallback : List α × List α) (table : List (List α × List α))
    (word : List α) :
    selectFrom fallback table word = fallback ∨ selectFrom fallback table word ∈ table := by
  induction table generalizing fallback with
  | nil => exact .inl rfl
  | cons pair _ ih =>
    unfold selectFrom
    split
    · rcases ih pair with heq | hmem
      · rw [heq]
        exact .inr mem_cons_self
      · exact .inr (mem_cons_of_mem _ hmem)
    · split
      · exact .inr mem_cons_self
      · exact (ih fallback).imp_right (mem_cons_of_mem _)

/-- The pair is the first with a nonempty left side that is a prefix of the word; or there is none,
    and it is the last with an empty left side. -/
def Selects (table : List (List α × List α)) (word : List α) (pair : List α × List α) : Prop :=
  (∃ before after, table = before ++ pair :: after ∧ pair.1 ≠ [] ∧ pair.1 <+: word
      ∧ ∀ x ∈ before, x.1 <+: word → x.1 = [])
    ∨ ∃ before after, table = before ++ pair :: after ∧ pair.1 = []
      ∧ (∀ x ∈ after, x.1 ≠ []) ∧ ∀ x ∈ table, x.1 <+: word → x.1 = []

omit [DecidableEq α] in
theorem Selects.mem {table : List (List α × List α)} {pair : List α × List α}
    (h : Selects table word pair) : pair ∈ table := by
  rcases h with ⟨before, after, rfl, -⟩ | ⟨before, after, rfl, -⟩ <;> simp

omit [DecidableEq α] in
theorem Selects.cons {table : List (List α × List α)} {pair found : List α × List α}
    (hpair : pair.1 <+: word → pair.1 = []) (h : Selects table word found) :
    Selects (pair :: table) word found := by
  rcases h with ⟨before, after, rfl, hne, hfits, hbefore⟩ |
    ⟨before, after, rfl, hnil, hafter, hnone⟩
  · exact .inl ⟨pair :: before, after, rfl, hne, hfits, forall_mem_cons.2 ⟨hpair, hbefore⟩⟩
  · exact .inr ⟨pair :: before, after, rfl, hnil, hafter, forall_mem_cons.2 ⟨hpair, hnone⟩⟩

theorem selects_selectFrom (fallback : List α × List α) (table : List (List α × List α)) :
    Selects table word (selectFrom fallback table word)
      ∨ selectFrom fallback table word = fallback ∧ ∀ x ∈ table, ¬ x.1 <+: word := by
  induction table generalizing fallback with
  | nil => exact .inr ⟨rfl, by simp⟩
  | cons pair rest ih =>
    unfold selectFrom
    split
    · next hempty =>
      left
      rcases ih pair with hselects | ⟨heq, hnone⟩
      · exact hselects.cons fun _ => hempty
      · rw [heq]
        refine .inr ⟨[], rest, rfl, hempty, fun x hx hnil => hnone x hx (hnil ▸ nil_prefix), ?_⟩
        exact forall_mem_cons.2 ⟨fun _ => hempty, fun x hx hfits => absurd hfits (hnone x hx)⟩
    · split
      · next hne hfits => exact .inl (.inl ⟨[], rest, rfl, hne, hfits, by simp⟩)
      · next hfits =>
        exact (ih fallback).imp (Selects.cons fun h => absurd h hfits) fun h =>
          ⟨h.1, forall_mem_cons.2 ⟨hfits, h.2⟩⟩

theorem selects_select {table : List (List α × List α)} (h : ∃ x ∈ table, x.1 <+: word) :
    Selects table word (select table word) := by
  obtain ⟨x, hx, hprefix⟩ := h
  exact (selects_selectFrom ([], []) table).resolve_right fun hnone => hnone.2 x hx hprefix

/-- A translated word has letters of the table and of the word only. -/
theorem mem_translate {table : List (List α × List α)} {x : α} (h : x ∈ translate table word) :
    (∃ pair ∈ table, x ∈ pair.2) ∨ x ∈ word := by
  rcases mem_append.1 h with hselected | hrest
  · rcases selectFrom_mem ([], []) table word with hnone | hmem
    · rw [select, hnone] at hselected
      simp at hselected
    · exact .inl ⟨_, hmem, hselected⟩
  · exact .inr (mem_of_mem_drop hrest)

/-- The word is its selected prefix and a rest, which the translation keeps. -/
theorem exists_rest (table : List (List α × List α)) (word : List α) :
    ∃ rest, word = (select table word).1 ++ rest
      ∧ translate table word = (select table word).2 ++ rest := by
  obtain ⟨rest, hrest⟩ := select_prefix table word
  refine ⟨rest, hrest.symm, ?_⟩
  unfold translate
  generalize select table word = pair at hrest ⊢
  rw [← hrest, drop_left]

/-- The pairs extend each other by the same word on both sides. -/
def Agree (p q : List α × List α) : Prop :=
  ∃ t, (p.1 = q.1 ++ t ∧ p.2 = q.2 ++ t) ∨ (q.1 = p.1 ++ t ∧ q.2 = p.2 ++ t)

variable {p q : List α × List α}

omit [DecidableEq α] in
theorem Agree.symm (h : Agree p q) : Agree q p := by
  obtain ⟨t, ht⟩ := h
  exact ⟨t, ht.symm⟩

omit [DecidableEq α] in
theorem Agree.swap (h : Agree p q) : Agree p.swap q.swap := by
  obtain ⟨t, ht⟩ := h
  exact ⟨t, ht.imp And.symm And.symm⟩

omit [DecidableEq α] in
theorem swap_swap (table : List (List α × List α)) : swap (swap table) = table := by
  simp [swap]

omit [DecidableEq α] in
/-- Two pairs that write the same word on the left write the same on the right iff they agree. -/
theorem append_eq_append_iff_agree {r s : List α} (h : p.1 ++ r = q.1 ++ s) :
    p.2 ++ r = q.2 ++ s ↔ Agree p q := by
  constructor
  · intro hright
    rcases append_eq_append_iff.1 h with ⟨t, hq, rfl⟩ | ⟨t, hp, rfl⟩
    · refine ⟨t, .inr ⟨hq, ?_⟩⟩
      rw [← append_assoc] at hright
      exact (append_cancel_right hright).symm
    · refine ⟨t, .inl ⟨hp, ?_⟩⟩
      rw [← append_assoc] at hright
      exact append_cancel_right hright
  · rintro ⟨t, ⟨hleft, hright⟩ | ⟨hleft, hright⟩⟩
    · rw [hleft, append_assoc] at h
      rw [hright, append_assoc, append_cancel_left h]
    · rw [hleft, append_assoc] at h
      rw [hright, append_assoc, append_cancel_left h]

/-- **The translation back and forth gives the word again iff the two selected pairs agree.** -/
theorem translate_translate_iff (table : List (List α × List α)) (word : List α) :
    translate table (translate (swap table) word) = word
      ↔ Agree (select table (translate (swap table) word)) (select (swap table) word).swap := by
  obtain ⟨rest, hword, hback⟩ := exists_rest (swap table) word
  obtain ⟨rest', hback', hforth⟩ := exists_rest table (translate (swap table) word)
  have hsame : (select table (translate (swap table) word)).1 ++ rest'
      = (select (swap table) word).swap.1 ++ rest := hback'.symm.trans hback
  rw [hforth, ← append_eq_append_iff_agree hsame]
  exact ⟨fun h => h.trans hword, fun h => h.trans hword.symm⟩

theorem translate_swap_translate_iff (table : List (List α × List α)) (word : List α) :
    translate (swap table) (translate table word) = word
      ↔ Agree (select table word) (select (swap table) (translate table word)).swap := by
  have hiff := translate_translate_iff (swap table) word
  rw [swap_swap] at hiff
  exact hiff.trans ⟨fun h => h.swap.symm, fun h => h.symm.swap⟩

end PrefixTable
