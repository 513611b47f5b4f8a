import LiveExec32.Lib.Records

/-! # Labels with an optional discriminator

A record is found by its key, and where the record or the request asks for it also by its `udata`.
Such a request can meet two records. It meets at most one, whatever it is, exactly when any two
records with the same key both insist on their `udata` and differ in it (`unambiguous_iff`). -/

/-- What a record is found by, or what a request looks for. -/
structure Label (κ υ : Type) where
  key : κ
  udata : υ
  /-- The `udata` has to agree as well. -/
  specific : Bool

namespace Label

variable {κ υ : Type} [DecidableEq κ] [DecidableEq υ]

/-- A record with the first label is found by a request with the second. -/
def meets (stored request : Label κ υ) : Bool :=
  stored.key == request.key
    && (!(stored.specific || request.specific) || stored.udata == request.udata)

/-- No request finds both. -/
def apart (a b : Label κ υ) : Bool :=
  a.key != b.key || (a.specific && b.specific && a.udata != b.udata)

/-- A record that a request passes by would be `apart` from the record that stores the request. -/
def settles (stored request : Label κ υ) : Bool :=
  stored.key != request.key || stored.specific == request.specific || stored.udata == request.udata

theorem apart_iff (a b : Label κ υ) :
    a.apart b ↔ ∀ request, ¬ (a.meets request ∧ b.meets request) := by
  constructor
  · intro h request hboth
    simp only [apart, meets, Bool.and_eq_true, Bool.or_eq_true, bne_iff_ne, beq_iff_eq,
      Bool.not_eq_true'] at h hboth
    grind
  · intro h
    -- a request that does not insist, with the `udata` of one that does
    have hnone := h ⟨a.key, if a.specific then a.udata else b.udata, false⟩
    simp only [apart, meets, Bool.and_eq_true, Bool.or_eq_true, bne_iff_ne, beq_iff_eq,
      Bool.not_eq_true'] at hnone ⊢
    grind

variable {stored request : Label κ υ}

/-- A request that does not find a record settles with it exactly when it would be apart from it. -/
theorem settles_of_not_meets (h : stored.meets request = false) :
    stored.settles request = stored.apart request := by
  simp only [meets, Bool.and_eq_false_iff, Bool.or_eq_false_iff, beq_eq_false_iff_ne,
    Bool.not_eq_false'] at h
  simp only [settles, apart]
  grind

theorem settles_of_meets (h : stored.meets request) : stored.settles request := by
  simp only [meets, Bool.and_eq_true, Bool.or_eq_true, beq_iff_eq, Bool.not_eq_true',
    Bool.or_eq_false_iff] at h
  simp only [settles, Bool.or_eq_true, bne_iff_ne, beq_iff_eq]
  grind

/-- Every request finds at most one record. -/
def Unambiguous (labels : List (Label κ υ)) : Prop :=
  ∀ request, labels.countP (·.meets request) ≤ 1

variable {labels labels' : List (Label κ υ)}

theorem Unambiguous.perm (h : labels'.Perm labels) : Unambiguous labels' ↔ Unambiguous labels := by
  unfold Unambiguous
  simp only [h.countP_eq]

theorem Unambiguous.sublist (h : Unambiguous labels) (hsublist : labels'.Sublist labels) :
    Unambiguous labels' :=
  fun request => Nat.le_trans hsublist.countP_le (h request)

theorem unambiguous_cons (label : Label κ υ) (labels : List (Label κ υ)) :
    Unambiguous (label :: labels) ↔ (∀ other ∈ labels, other.apart label) ∧ Unambiguous labels := by
  constructor
  · intro h
    refine ⟨fun other hother => (apart_iff _ _).2 fun request hboth => ?_,
      h.sublist (List.sublist_cons_self _ _)⟩
    have hcount := h request
    have hpos : 0 < labels.countP (·.meets request) :=
      List.countP_pos_iff.2 ⟨other, hother, hboth.1⟩
    rw [List.countP_cons, if_pos hboth.2] at hcount
    omega
  · rintro ⟨hapart, hrest⟩ request
    rw [List.countP_cons]
    split
    · rename_i hmeets
      have hzero : labels.countP (·.meets request) = 0 :=
        List.countP_eq_zero.2 fun other hother hother' =>
          (apart_iff other label).1 (hapart other hother) request ⟨hother', hmeets⟩
      omega
    · exact hrest request

/-- A request that is stored in the place of the record it finds leaves no ambiguity exactly when
    every record settles with it. -/
theorem unambiguous_store (h : Unambiguous labels) (request : Label κ υ) :
    Unambiguous (request :: labels.filter (fun stored => !stored.meets request))
      ↔ ∀ stored ∈ labels, stored.settles request := by
  rw [unambiguous_cons]
  constructor
  · rintro ⟨hapart, -⟩ stored hstored
    by_cases hmeets : stored.meets request = true
    · exact settles_of_meets hmeets
    · rw [Bool.not_eq_true] at hmeets
      rw [settles_of_not_meets hmeets]
      exact hapart stored (List.mem_filter.2 ⟨hstored, by simp [hmeets]⟩)
  · intro hsettles
    refine ⟨fun stored hstored => ?_, h.sublist List.filter_sublist⟩
    obtain ⟨hmem, hmeets⟩ := List.mem_filter.1 hstored
    rw [← settles_of_not_meets (by simpa using hmeets)]
    exact hsettles stored hmem

end Label
