import LiveExec32.Psynch.Preposts

/-! # Waking registered waiters

Every wake scans `nativeGuestWaiters` for the eligible waiter that registered first, signals it, and
a wake-all repeats that until nobody is eligible. The scans differ in who is eligible and in what is
stored in the waiter besides the flag, so they are one definition with these two parameters. -/

namespace LiveExec32.Psynch

open List

/-! ## The scan and the loop -/

/-- The waiter with the lowest `sequence`, the one that registered first. -/
def lowestSequence (waiters : List NativeGuestWaiter) : Option NativeGuestWaiter :=
  Selection.select (fun waiter selected => decide (waiter.sequence < selected.sequence)) waiters

/-- Change the waiter with the given identity. -/
def updateWaiter (sequence : ℕ) (change : NativeGuestWaiter → NativeGuestWaiter)
    (waiters : List NativeGuestWaiter) : List NativeGuestWaiter :=
  waiters.map (fun waiter => if waiter.sequence = sequence then change waiter else waiter)

/-- Wake the eligible waiter that registered first; `none` when nobody is eligible. -/
def wakeLowest (eligible : NativeGuestWaiter → Bool)
    (wake : NativeGuestWaiter → NativeGuestWaiter) (waiters : List NativeGuestWaiter) :
    Option (List NativeGuestWaiter) :=
  (lowestSequence (waiters.filter eligible)).map
    (fun selected => updateWaiter selected.sequence wake waiters)

/-- The loop of a wake with the number of waiters woken. Each round but the last wakes a waiter, so
    as many rounds as there are waiters are enough (`wakeRounds_all`). -/
def wakeRounds (eligible : NativeGuestWaiter → Bool)
    (wake : NativeGuestWaiter → NativeGuestWaiter) (wakeAll : Bool) :
    ℕ → List NativeGuestWaiter → ℕ × List NativeGuestWaiter
  | 0, waiters => (0, waiters)
  | rounds + 1, waiters =>
    match wakeLowest eligible wake waiters with
    | none => (0, waiters)
    | some woken =>
      if wakeAll then
        let rest := wakeRounds eligible wake wakeAll rounds woken
        (rest.1 + 1, rest.2)
      else (1, woken)

def wakeWaiters (eligible : NativeGuestWaiter → Bool)
    (wake : NativeGuestWaiter → NativeGuestWaiter) (wakeAll : Bool)
    (waiters : List NativeGuestWaiter) : ℕ × List NativeGuestWaiter :=
  wakeRounds eligible wake wakeAll waiters.length waiters

/-! ## The wakes of the source -/

/-- `MACH_PORT_VALID`: neither the null nor the dead name. -/
def machPortValid (port : U32) : Bool := port != 0 && port != 0xffffffff

def NativeGuestWaiter.signal (waiter : NativeGuestWaiter) : NativeGuestWaiter :=
  { waiter with signaled := true }

def mutexEligible (address targetSequence : U32) (firstFit : Bool) (waiter : NativeGuestWaiter) :
    Bool :=
  !waiter.signaled && decide (waiter.kind = .mutex) && decide (waiter.address = address)
    && (firstFit || decide (waiter.mutexSequence = targetSequence))

def wakeNativeGuestMutexThreadLocked (address targetSequence : U32) (firstFit : Bool)
    (waiters : List NativeGuestWaiter) : ℕ × List NativeGuestWaiter :=
  match wakeLowest (mutexEligible address targetSequence firstFit) .signal waiters with
  | none => (0, waiters)
  | some woken => (1, woken)

def conditionEligible (address throughSequence targetThread : U32) (waiter : NativeGuestWaiter) :
    Bool :=
  !waiter.signaled && decide (waiter.kind = .condition) && decide (waiter.address = address)
    && guestPsynchSequenceLowerOrEqual waiter.conditionSequence throughSequence
    && (!machPortValid targetThread || decide (waiter.threadPort = targetThread))

/-- A waiter that is already registered receives zero: an increment would let it consume a
    generation reserved for a waiter still on its way. -/
def wakeCondition (waiter : NativeGuestWaiter) : NativeGuestWaiter :=
  { waiter with wakeResult := 0, signaled := true }

def wakeNativeGuestConditionThreadsLocked (address throughSequence : U32) (wakeAll : Bool)
    (targetThread : U32) (waiters : List NativeGuestWaiter) : ℕ × List NativeGuestWaiter :=
  wakeWaiters (conditionEligible address throughSequence targetThread) wakeCondition
    (wakeAll && !machPortValid targetThread) waiters

/-! ## Waiters in order -/

/-- Waiters stand in the order of their registration. -/
def InOrder (waiters : List NativeGuestWaiter) : Prop :=
  waiters.Pairwise (fun earlier later => earlier.sequence < later.sequence)

variable {eligible : NativeGuestWaiter → Bool} {wake : NativeGuestWaiter → NativeGuestWaiter}
  {waiters : List NativeGuestWaiter} {change : NativeGuestWaiter → NativeGuestWaiter}

theorem InOrder.map (h : InOrder waiters) (hsequence : ∀ w, (change w).sequence = w.sequence) :
    InOrder (waiters.map change) :=
  pairwise_map.2 (h.imp (fun hlt => by simpa only [hsequence] using hlt))

/-- A change that keeps the identity of a waiter keeps the order. -/
theorem InOrder.update (h : InOrder waiters) (sequence : ℕ)
    (hsequence : ∀ w, (change w).sequence = w.sequence) :
    InOrder (updateWaiter sequence change waiters) := by
  refine h.map (fun w => ?_)
  split
  · exact hsequence w
  · rfl

theorem updateWaiter_of_forall_ne {sequence : ℕ} (change : NativeGuestWaiter → NativeGuestWaiter)
    (h : ∀ w ∈ waiters, w.sequence ≠ sequence) :
    updateWaiter sequence change waiters = waiters := by
  refine (map_congr_left (fun w hw => ?_)).trans (map_id waiters)
  rw [if_neg (h w hw), id]

variable {w : NativeGuestWaiter}

/-- Identities are unique. -/
theorem InOrder.eq_of_sequence_eq (h : InOrder waiters) {v : NativeGuestWaiter} (hv : v ∈ waiters)
    (hw : w ∈ waiters) (hsequence : v.sequence = w.sequence) : v = w := by
  induction waiters with
  | nil => simp at hv
  | cons _ _ ih =>
    obtain ⟨hx, hrest⟩ := pairwise_cons.1 h
    rcases mem_cons.1 hv with rfl | hv' <;> rcases mem_cons.1 hw with rfl | hw'
    · rfl
    · exact absurd hsequence (hx w hw').ne
    · exact absurd hsequence (hx v hv').ne'
    · exact ih hrest hv' hw'

variable {m : NativeGuestWaiter}

/-- Changing one waiter moves that waiter, and nobody else, between the counted and the others. -/
theorem InOrder.countP_update (h : InOrder waiters) (hm : m ∈ waiters)
    (change : NativeGuestWaiter → NativeGuestWaiter) (p : NativeGuestWaiter → Bool) :
    (updateWaiter m.sequence change waiters).countP p + (if p m then 1 else 0)
      = waiters.countP p + (if p (change m) then 1 else 0) := by
  induction waiters with
  | nil => simp at hm
  | cons x rest ih =>
    obtain ⟨hx, hrest⟩ := pairwise_cons.1 h
    simp only [updateWaiter, map_cons, countP_cons] at ih ⊢
    rcases mem_cons.1 hm with rfl | hm
    · -- the head changes, and the rest has other identities
      have hsame := updateWaiter_of_forall_ne change (fun w hw => (hx w hw).ne')
      rw [updateWaiter] at hsame
      rw [hsame, if_pos rfl]
      omega
    · rw [if_neg (hx m hm).ne]
      have := ih hrest hm
      omega

/-! ## What the scan finds -/

/-- The waiter `selected` is eligible and nobody eligible registered before it. -/
structure FirstEligible (eligible : NativeGuestWaiter → Bool) (waiters : List NativeGuestWaiter)
    (selected : NativeGuestWaiter) : Prop where
  mem : selected ∈ waiters
  can : eligible selected = true
  first : ∀ w ∈ waiters, eligible w = true → selected.sequence ≤ w.sequence

theorem wakeLowest_cases (eligible : NativeGuestWaiter → Bool)
    (wake : NativeGuestWaiter → NativeGuestWaiter) (waiters : List NativeGuestWaiter) :
    (wakeLowest eligible wake waiters = none ∧ ∀ w ∈ waiters, eligible w = false)
      ∨ ∃ selected, FirstEligible eligible waiters selected
        ∧ wakeLowest eligible wake waiters
          = some (updateWaiter selected.sequence wake waiters) := by
  rcases Selection.select_spec (waiters.filter eligible)
      (fun x _ y _ => decide_eq_true_iff (p := x.sequence < y.sequence)) with
    ⟨hnone, hselect⟩ | ⟨m, hselect, hmem, hle⟩
  · refine .inl ⟨?_, fun w hw => ?_⟩
    · rw [wakeLowest, lowestSequence, hselect, Option.map_none]
    · simpa using filter_eq_nil_iff.1 hnone w hw
  · obtain ⟨hm, helig⟩ := mem_filter.1 hmem
    refine .inr ⟨m, ⟨hm, helig, fun w hw hwe => hle w (mem_filter.2 ⟨hw, hwe⟩)⟩, ?_⟩
    rw [wakeLowest, lowestSequence, hselect, Option.map_some]

/-- A wake that finds nobody changes nobody. -/
theorem map_wake_of_none (h : ∀ w ∈ waiters, eligible w = false) :
    waiters.map (fun w => if eligible w then wake w else w) = waiters := by
  refine (map_congr_left (fun w hw => ?_)).trans (map_id waiters)
  simp [h w hw]

/-- **The loop of a wake-all wakes every eligible waiter** and counts them. -/
theorem wakeRounds_all (h : InOrder waiters) (hsequence : ∀ w, (wake w).sequence = w.sequence)
    (hwake : ∀ w, eligible (wake w) = false) {rounds : ℕ}
    (hrounds : waiters.countP eligible ≤ rounds) :
    wakeRounds eligible wake true rounds waiters
      = (waiters.countP eligible, waiters.map (fun w => if eligible w then wake w else w)) := by
  induction rounds generalizing waiters with
  | zero =>
    have hnone : ∀ w ∈ waiters, eligible w = false := by
      simpa using countP_eq_zero.1 (Nat.le_zero.1 hrounds)
    rw [wakeRounds, Nat.le_zero.1 hrounds, map_wake_of_none hnone]
  | succ rounds ih =>
    unfold wakeRounds
    rcases wakeLowest_cases eligible wake waiters with ⟨heq, hnone⟩ | ⟨m, hm, heq⟩
    · have hzero : waiters.countP eligible = 0 := countP_eq_zero.2 (by simpa using hnone)
      simp only [heq, hzero, map_wake_of_none hnone]
    · -- the round woke `m`; the other rounds wake the others
      have hcount := h.countP_update hm.mem wake eligible
      simp only [hm.can, hwake, if_true, Bool.false_eq_true, if_false] at hcount
      have hrest := ih (h.update m.sequence hsequence) (by omega)
      simp only [heq, if_true, hrest]
      refine Prod.ext (by simpa using hcount) ?_
      simp only [updateWaiter, map_map]
      refine map_congr_left (fun w hw => ?_)
      by_cases hwm : w.sequence = m.sequence
      · obtain rfl := h.eq_of_sequence_eq hw hm.mem hwm
        simp [hm.can, hwake]
      · simp [hwm]

theorem mem_updateWaiter (h : InOrder waiters) (hm : m ∈ waiters)
    (hw : w ∈ updateWaiter m.sequence wake waiters) : w ∈ waiters ∨ w = wake m := by
  obtain ⟨x, hx, rfl⟩ := mem_map.1 hw
  split
  · rename_i hsequence
    rw [h.eq_of_sequence_eq hx hm hsequence]
    exact .inr rfl
  · exact .inl hx

/-- After a wake every waiter is as before, or was eligible and is woken. -/
theorem mem_wakeRounds (h : InOrder waiters) (hsequence : ∀ w, (wake w).sequence = w.sequence)
    (hwake : ∀ w, eligible (wake w) = false) (wakeAll : Bool) (rounds : ℕ)
    (hw : w ∈ (wakeRounds eligible wake wakeAll rounds waiters).2) :
    w ∈ waiters ∨ ∃ old ∈ waiters, eligible old ∧ w = wake old := by
  induction rounds generalizing waiters with
  | zero => exact .inl hw
  | succ _ ih =>
    unfold wakeRounds at hw
    rcases wakeLowest_cases eligible wake waiters with ⟨heq, -⟩ | ⟨m, hm, heq⟩
    · rw [heq] at hw
      exact .inl hw
    · have hround : ∀ x ∈ updateWaiter m.sequence wake waiters,
          x ∈ waiters ∨ ∃ old ∈ waiters, eligible old ∧ x = wake old := fun x hx =>
        (mem_updateWaiter h hm.mem hx).imp_right (fun hx => ⟨m, hm.mem, hm.can, hx⟩)
      rw [heq] at hw
      cases wakeAll with
      | false => exact hround w hw
      | true =>
        rcases ih (h.update m.sequence hsequence) hw with hw | ⟨old, hold, hcan, rfl⟩
        · exact hround w hw
        · -- a waiter woken in a later round was not woken in this one
          rcases hround old hold with hold | ⟨x, -, -, rfl⟩
          · exact .inr ⟨old, hold, hcan, rfl⟩
          · simp [hwake] at hcan

/-- What a wake that stops after the first waiter does. -/
theorem wakeWaiters_one (eligible : NativeGuestWaiter → Bool)
    (wake : NativeGuestWaiter → NativeGuestWaiter) (waiters : List NativeGuestWaiter) :
    (wakeWaiters eligible wake false waiters = (0, waiters) ∧ ∀ w ∈ waiters, eligible w = false)
      ∨ ∃ selected, FirstEligible eligible waiters selected
        ∧ wakeWaiters eligible wake false waiters
          = (1, updateWaiter selected.sequence wake waiters) := by
  cases waiters with
  | nil => exact .inl ⟨rfl, by simp⟩
  | cons x rest =>
    simp only [wakeWaiters, length_cons, wakeRounds]
    rcases wakeLowest_cases eligible wake (x :: rest) with ⟨heq, hnone⟩ | ⟨m, hm, heq⟩
    · exact .inl ⟨by rw [heq], hnone⟩
    · exact .inr ⟨m, hm, by simp [heq]⟩

theorem wakeWaiters_all (h : InOrder waiters) (hsequence : ∀ w, (wake w).sequence = w.sequence)
    (hwake : ∀ w, eligible (wake w) = false) :
    wakeWaiters eligible wake true waiters
      = (waiters.countP eligible, waiters.map (fun w => if eligible w then wake w else w)) :=
  wakeRounds_all h hsequence hwake countP_le_length

end LiveExec32.Psynch
