import LiveExec32.Psynch.Invariant

/-! # Generations of a condition variable

Every wait on a condition carries a generation, and a signal or broadcast with generation `C` is
meant for the waiters up to `C`, whether they have registered already or are still on their way.
Generations count modulo `2 ^ 24` and are compared circularly. As long as the live ones lie in one
window of `2 ^ 23` generations, `position` puts them in a linear order, and the statements of this
file are about that order.

`ConditionWake` says what a signal is for: whom it wakes, and how many preposts it leaves. -/

namespace LiveExec32.Psynch

open List

/-! ## What a signal is for -/

/-- A waiter of the condition that was not signaled yet. -/
def pendingCondition (condition : U32) (waiter : NativeGuestWaiter) : Bool :=
  !waiter.signaled && decide (waiter.kind = .condition) && decide (waiter.address = condition)

/-- A pending waiter whose generation is not newer than that of the signal. -/
def reachedBy (base : ℕ) (condition conditionSequence : U32) (waiter : NativeGuestWaiter) : Bool :=
  pendingCondition condition waiter
    && decide (position base waiter.conditionSequence ≤ position base conditionSequence)

/-- The preposts a broadcast keeps: those of other conditions and those newer than it. -/
def outlasts (base : ℕ) (condition conditionSequence : U32)
    (prepost : GuestConditionPrepost) : Bool :=
  !(decide (prepost.address = condition)
    && decide (position base prepost.throughSequence ≤ position base conditionSequence))

/-- **A signal with generation `conditionSequence`**: the number of waiters it wakes, the number of
    preposts it records, and the tables afterwards. -/
inductive ConditionWake (base : ℕ) (condition conditionSequence conditionSSequence target : U32)
    (before : WaitTables) : Bool → ℕ → ℕ → WaitTables → Prop where
  /-- A broadcast wakes everybody it reaches, and preposts for the generations still missing. -/
  | broadcast {woken recorded : ℕ} (htarget : machPortValid target = false)
      (hwoken : woken = before.waiters.countP (reachedBy base condition conditionSequence))
      (hrecorded : recorded
        = guestPsynchSequenceDistance conditionSequence conditionSSequence - woken) :
      ConditionWake base condition conditionSequence conditionSSequence target before true woken
        recorded
        { before with
          waiters := before.waiters.map (fun waiter =>
            if reachedBy base condition conditionSequence waiter then wakeCondition waiter
            else waiter)
          conditionPreposts :=
            before.conditionPreposts.filter (outlasts base condition conditionSequence)
              ++ if recorded ≠ 0 then
                [⟨condition, conditionSequence &&& guestPsynchCountMask, recorded⟩] else [] }
  /-- A signal wakes one of the waiters it reaches, -/
  | signal (htarget : machPortValid target = false) (m : NativeGuestWaiter)
      (hm : FirstEligible (reachedBy base condition conditionSequence) before.waiters m) :
      ConditionWake base condition conditionSequence conditionSSequence target before false 1 0
        { before with waiters := updateWaiter m.sequence wakeCondition before.waiters }
  /-- or leaves one prepost if there is none. -/
  | prepost (htarget : machPortValid target = false)
      (hnone : ∀ w ∈ before.waiters, reachedBy base condition conditionSequence w = false)
      (after : List GuestConditionPrepost)
      (hunits : ∀ p, conditionUnits p after = conditionUnits p before.conditionPreposts
        + (if p condition (conditionSequence &&& guestPsynchCountMask) then 1 else 0)) :
      ConditionWake base condition conditionSequence conditionSSequence target before false 0 1
        { before with conditionPreposts := after }
  /-- A targeted signal wakes a waiter of that thread, -/
  | targeted (broadcast : Bool) (htarget : machPortValid target = true) (m : NativeGuestWaiter)
      (hm : FirstEligible (fun w => reachedBy base condition conditionSequence w
        && decide (w.threadPort = target)) before.waiters m) :
      ConditionWake base condition conditionSequence conditionSSequence target before broadcast 1 0
        { before with waiters := updateWaiter m.sequence wakeCondition before.waiters }
  /-- or does nothing. -/
  | missed (broadcast : Bool) (htarget : machPortValid target = true)
      (hnone : ∀ w ∈ before.waiters, reachedBy base condition conditionSequence w = true →
        w.threadPort ≠ target) :
      ConditionWake base condition conditionSequence conditionSSequence target before broadcast 0 0
        before

/-- **A wait with generation `conditionSequence` arrives**: it takes one unit of a prepost, or
    registers. -/
inductive ConditionArrival (base : ℕ) (condition conditionSequence : U32) (before : WaitTables) :
    Option U32 → WaitTables → Prop where
  /-- It takes the oldest prepost that reaches it, -/
  | taken (e : GuestConditionPrepost) (he : e ∈ before.conditionPreposts)
      (haddress : e.address = condition)
      (hreach : position base conditionSequence ≤ position base e.throughSequence)
      (holdest : ∀ x ∈ before.conditionPreposts, x.address = condition →
        position base conditionSequence ≤ position base x.throughSequence →
        position base e.throughSequence ≤ position base x.throughSequence)
      (after : List GuestConditionPrepost)
      (hunits : ∀ p, conditionUnits p before.conditionPreposts
        = conditionUnits p after + (if p condition e.throughSequence then 1 else 0)) :
      ConditionArrival base condition conditionSequence before (some e.throughSequence)
        { before with conditionPreposts := after }
  /-- and waits if there is none. -/
  | registered (w : NativeGuestWaiter)
      (hnone : ∀ e ∈ before.conditionPreposts, e.address = condition →
        position base e.throughSequence < position base conditionSequence) :
      ConditionArrival base condition conditionSequence before none (registerWaiter w before)

/-- The flag a signal returns: `2` for a prepost, `1` when nothing is outstanding any more. -/
def conditionFlag (outstanding woken recorded : ℕ) : ℕ :=
  if recorded ≠ 0 then 2 else if outstanding ≠ 0 ∧ outstanding ≤ woken then 1 else 0

/-- The live generations of the condition lie in the window that starts at `base`. -/
structure LiveWindow (base : ℕ) (condition : U32) (tables : WaitTables) : Prop where
  waiters : ∀ w ∈ tables.waiters, w.kind = .condition → w.address = condition →
    InWindow base w.conditionSequence
  preposts : ∀ e ∈ tables.conditionPreposts, e.address = condition →
    InWindow base e.throughSequence

/-! ## The code does what a signal is for -/

variable {w : NativeGuestWaiter} {e : GuestConditionPrepost} {broadcast : Bool}
  {outstanding woken : ℕ}

section Signal

variable {base : ℕ} {condition conditionSequence conditionSSequence target : U32}
  {tables : WaitTables}

theorem FirstEligible.congr {p q : NativeGuestWaiter → Bool} {waiters : List NativeGuestWaiter}
    {m : NativeGuestWaiter} (h : FirstEligible p waiters m) (heq : ∀ w ∈ waiters, p w = q w) :
    FirstEligible q waiters m :=
  ⟨h.mem, heq m h.mem ▸ h.can, fun w hw hq => h.first w hw ((heq w hw).trans hq)⟩

/-- Inside the window the scan's circular comparison is the order of the positions. -/
theorem conditionEligible_eq (hlive : LiveWindow base condition tables)
    (hsequence : InWindow base conditionSequence) (hw : w ∈ tables.waiters) :
    conditionEligible condition (conditionSequence &&& guestPsynchCountMask) target w
      = (reachedBy base condition conditionSequence w
        && (!machPortValid target || decide (w.threadPort = target))) := by
  unfold conditionEligible reachedBy pendingCondition
  by_cases hkind : w.kind = .condition
  · by_cases haddress : w.address = condition
    · rw [guestPsynchSequenceLowerOrEqual_and_countMask_right,
        guestPsynchSequenceLowerOrEqual_eq_position (hlive.waiters w hw hkind haddress) hsequence]
    · simp [haddress]
  · simp [hkind]

theorem outlasts_eq (hlive : LiveWindow base condition tables)
    (hsequence : InWindow base conditionSequence) (he : e ∈ tables.conditionPreposts) :
    (!(decide (e.address = condition) && guestPsynchSequenceLowerOrEqual e.throughSequence
        (conditionSequence &&& guestPsynchCountMask)))
          = outlasts base condition conditionSequence e := by
  unfold outlasts
  by_cases haddress : e.address = condition
  · rw [guestPsynchSequenceLowerOrEqual_and_countMask_right,
      guestPsynchSequenceLowerOrEqual_eq_position (hlive.preposts e he haddress) hsequence]
  · simp [haddress]

theorem recordGuestConditionBroadcastPrepost_eq (hlive : LiveWindow base condition tables)
    (hsequence : InWindow base conditionSequence) (count : ℕ) :
    recordGuestConditionBroadcastPrepost condition
      (conditionSequence &&& guestPsynchCountMask) count
        tables.conditionPreposts
      = tables.conditionPreposts.filter (outlasts base condition conditionSequence)
        ++ if count ≠ 0 then
          [⟨condition, conditionSequence &&& guestPsynchCountMask, count⟩] else [] := by
  simp only [recordGuestConditionBroadcastPrepost, BitVec.and_assoc, BitVec.and_self]
  rw [filter_congr (fun e he => outlasts_eq hlive hsequence he)]
  split
  · rfl
  · rw [append_nil]

theorem recordGuestConditionSignalPrepost_and_countMask (condition conditionSequence : U32)
    (preposts : List GuestConditionPrepost) :
    recordGuestConditionSignalPrepost condition
      (conditionSequence &&& guestPsynchCountMask) preposts
      = recordGuestConditionSignalPrepost condition conditionSequence preposts := by
  simp only [recordGuestConditionSignalPrepost, BitVec.and_assoc, BitVec.and_self]

/-- The word of a signal: the count of woken waiters and the flag. -/
theorem toNat_conditionUpdate {recorded : ℕ} (hrecorded : recorded ≠ 0 ↔ (!machPortValid target
      && (if broadcast then decide (outstanding > woken) else decide (woken = 0)))) :
    (conditionUpdate target broadcast outstanding woken).toNat
      = min (woken * 0x100) 0xffffff00 + conditionFlag outstanding woken recorded := by
  obtain ⟨k, hk⟩ : ∃ k, min (woken * guestPsynchCountIncrement.toNat) guestPsynchCountMask.toNat
      = 2 ^ 8 * k := by
    rcases min_cases (woken * guestPsynchCountIncrement.toNat) guestPsynchCountMask.toNat with
      ⟨hmin, -⟩ | ⟨hmin, -⟩
    · exact ⟨woken, by rw [hmin, Nat.mul_comm]; rfl⟩
    · exact ⟨0xffffff, by rw [hmin]; rfl⟩
  have hlt : 2 ^ 8 * k < 2 ^ 32 := hk ▸ (min_le_right _ _).trans_lt (by decide)
  -- the count leaves the low byte free for the flag
  have hor : ∀ flag : U32, flag.toNat < 2 ^ 8 →
      (BitVec.ofNat 32 (2 ^ 8 * k) ||| flag).toNat = 2 ^ 8 * k + flag.toNat := by
    intro flag hflag
    rw [BitVec.toNat_or, BitVec.toNat_ofNat, Nat.mod_eq_of_lt hlt,
      Nat.two_pow_add_eq_or_of_lt hflag]
  have hcount : min (woken * 0x100) 0xffffff00 = 2 ^ 8 * k := hk
  simp only [conditionUpdate, hk, hcount, conditionFlag]
  by_cases hprepost : recorded ≠ 0
  · rw [if_pos (hrecorded.1 hprepost), if_pos hprepost]
    exact hor 0x02 (by decide)
  · rw [if_neg (mt hrecorded.2 hprepost), if_neg hprepost]
    split
    · exact hor 0x01 (by decide)
    · rw [BitVec.toNat_ofNat, Nat.mod_eq_of_lt hlt, Nat.add_zero]

/-- The number of waiters a signal wakes. -/
abbrev signalWoken (condition conditionSequence target : U32) (broadcast : Bool)
    (tables : WaitTables) : ℕ :=
  (wakeNativeGuestConditionThreadsLocked condition (conditionSequence &&& guestPsynchCountMask)
    broadcast target tables.waiters).1

/-- **The critical section of a signal is a `ConditionWake`.** -/
theorem guestPsynchConditionSignal_wake (hv : TablesWf tables)
    (hlive : LiveWindow base condition tables) (hsequence : InWindow base conditionSequence)
    (conditionSSequence target : U32) (broadcast : Bool) :
    ∃ recorded,
      ConditionWake base condition conditionSequence conditionSSequence target tables broadcast
        (signalWoken condition conditionSequence target broadcast tables) recorded
        (guestPsynchConditionSignal condition conditionSequence conditionSSequence target
          broadcast tables).2
      ∧ (recorded ≠ 0 ↔ (!machPortValid target && (if broadcast then
          decide (guestPsynchSequenceDistance conditionSequence conditionSSequence
            > signalWoken condition conditionSequence target broadcast tables)
          else decide (signalWoken condition conditionSequence target broadcast tables = 0)))
       ) := by
  have heligible : ∀ w ∈ tables.waiters,
      conditionEligible condition (conditionSequence &&& guestPsynchCountMask) target w
        = (reachedBy base condition conditionSequence w
          && (!machPortValid target || decide (w.threadPort = target))) :=
    fun w hw => conditionEligible_eq hlive hsequence hw
  have hone := wakeWaiters_one (conditionEligible condition
    (conditionSequence &&& guestPsynchCountMask) target) wakeCondition tables.waiters
  rw [guestPsynchConditionSignal_tables]
  simp only [signalWoken, wakeNativeGuestConditionThreadsLocked, recordConditionPreposts]
  by_cases htarget : machPortValid target = true
  · simp only [htarget, Bool.not_true, Bool.and_false, Bool.false_or, Bool.false_and,
      if_true] at heligible ⊢
    rcases hone with ⟨heq, hnone⟩ | ⟨m, hm, heq⟩
    · refine ⟨0, ?_, by simp⟩
      rw [heq]
      refine .missed broadcast htarget (fun w hw hreached => ?_)
      simpa [heligible w hw, hreached] using hnone w hw
    · refine ⟨0, ?_, by simp⟩
      rw [heq]
      exact .targeted broadcast htarget m (hm.congr heligible)
  · have hinvalid : machPortValid target = false := Bool.eq_false_iff.2 htarget
    simp only [hinvalid, Bool.not_false, Bool.and_true, Bool.true_or, Bool.true_and,
      Bool.false_eq_true, if_false] at heligible ⊢
    cases broadcast with
    | true =>
      have hall : wakeWaiters (conditionEligible condition
          (conditionSequence &&& guestPsynchCountMask) target) wakeCondition true tables.waiters
          = _ :=
        wakeWaiters_all hv.order (fun _ => rfl)
          (fun w => by simp [conditionEligible, wakeCondition])
      rw [countP_congr (fun w hw => Bool.eq_iff_iff.1 (heligible w hw)),
        map_congr_left (fun w hw => by rw [heligible w hw])] at hall
      rw [hall, if_pos rfl, recordGuestConditionBroadcastPrepost_eq hlive hsequence]
      refine ⟨_, .broadcast hinvalid rfl rfl, ?_⟩
      simp [Nat.sub_eq_zero_iff_le]
    | false =>
      rcases hone with ⟨heq, hnone⟩ | ⟨m, hm, heq⟩
      · refine ⟨1, ?_, by simp [heq]⟩
        rw [heq, recordGuestConditionSignalPrepost_and_countMask]
        exact .prepost hinvalid (fun w hw => (heligible w hw).symm.trans (hnone w hw)) _
          (fun p => conditionUnits_recordSignal p)
      · refine ⟨0, ?_, by simp [heq]⟩
        rw [heq]
        exact .signal hinvalid m (hm.congr heligible)

end Signal

/-! ## Arriving at a condition -/

section Arrival

variable {base : ℕ} {condition conditionSequence : U32} {preposts : List GuestConditionPrepost}

/-- Inside the window a wait takes a prepost if one reaches it, and then the oldest that does. -/
theorem consumeGuestConditionPrepost_cases
    (hlive : ∀ e ∈ preposts, e.address = condition → InWindow base e.throughSequence)
    (hsequence : InWindow base conditionSequence) :
    (consumeGuestConditionPrepost condition conditionSequence preposts = none
        ∧ ∀ e ∈ preposts, e.address = condition →
          position base e.throughSequence < position base conditionSequence)
      ∨ ∃ taken after,
        consumeGuestConditionPrepost condition conditionSequence preposts = some (taken, after)
        ∧ ∀ e ∈ preposts, e.address = condition →
          position base conditionSequence ≤ position base e.throughSequence →
          position base taken ≤ position base e.throughSequence := by
  have heligible : ∀ {entry},
      entry ∈ eligibleConditionPreposts condition conditionSequence preposts →
      entry.1 ∈ preposts ∧ entry.1.address = condition := by
    intro entry hentry
    obtain ⟨hmem, hcan⟩ := mem_filter.1 hentry
    simp only [Bool.and_eq_true, decide_eq_true_eq] at hcan
    exact ⟨mem_of_getElem? (mem_zipIdx_iff_getElem?.1 hmem), hcan.1⟩
  -- an entry that reaches the wait is one of those the scan looks at
  have hreaches : ∀ e ∈ preposts, e.address = condition →
      position base conditionSequence ≤ position base e.throughSequence →
      ∃ place, (e, place) ∈ eligibleConditionPreposts condition conditionSequence preposts := by
    intro e he haddress hle
    obtain ⟨place, hplace⟩ := mem_iff_getElem?.1 he
    refine ⟨place, mem_filter.2 ⟨mem_zipIdx_iff_getElem?.2 hplace, ?_⟩⟩
    simp only [haddress, decide_true, Bool.true_and, guestPsynchSequenceLowerOrEqual_and_countMask,
      guestPsynchSequenceLowerOrEqual_eq_position hsequence (hlive e he haddress), hle]
  have horder : ∀ x ∈ eligibleConditionPreposts condition conditionSequence preposts,
      ∀ y ∈ eligibleConditionPreposts condition conditionSequence preposts,
      (guestPsynchSequenceLower x.1.throughSequence y.1.throughSequence
        ↔ position base x.1.throughSequence < position base y.1.throughSequence) := by
    intro x hx y hy
    exact guestPsynchSequenceLower_iff_position (hlive x.1 (heligible hx).1 (heligible hx).2)
      (hlive y.1 (heligible hy).1 (heligible hy).2)
  unfold consumeGuestConditionPrepost
  rcases Selection.select_spec _ horder with ⟨hempty, hnone⟩ | ⟨⟨selected, place⟩, hsome, -, hle⟩
  · refine .inl ⟨by rw [hnone], fun e he haddress => not_le.1 (fun hle => ?_)⟩
    obtain ⟨place, hplace⟩ := hreaches e he haddress hle
    simp [hempty] at hplace
  · right
    simp only [hsome]
    have holdest : ∀ e ∈ preposts, e.address = condition →
        position base conditionSequence ≤ position base e.throughSequence →
        position base selected.throughSequence ≤ position base e.throughSequence := by
      intro e he haddress hreach
      obtain ⟨other, hother⟩ := hreaches e he haddress hreach
      exact hle _ hother
    split
    · exact ⟨_, _, rfl, holdest⟩
    · exact ⟨_, _, rfl, holdest⟩

end Arrival

/-! ## Runs -/

/-- A wait that was released was released by a signal at or after its generation; a prepost it took
    is one of that signal. -/
def Observation.reachedBySignal (earlier : List Observation) : Observation → Prop
  | .returned _ (.conditionWait condition conditionSequence _ _ _ _ _ _ _) _ ending _ =>
    ending.granted = true → ∃ sequence, .conditionSignaled condition sequence ∈ earlier
      ∧ (∀ taken, ending = .prepost taken → taken = sequence &&& guestPsynchCountMask)
      ∧ guestPsynchSequenceLowerOrEqual conditionSequence sequence = true
  | _ => True

/-- Where the releases of conditions come from. -/
structure SignalsReach (v : View) : Prop where
  preposts : ∀ e ∈ v.tables.conditionPreposts, 0 < e.count
    ∧ ∃ sequence, .conditionSignaled e.address sequence ∈ v.trace
      ∧ e.throughSequence = sequence &&& guestPsynchCountMask
  waiters : ∀ w ∈ v.tables.waiters, w.kind = .condition → w.signaled = true →
    ∃ sequence, .conditionSignaled w.address sequence ∈ v.trace
      ∧ guestPsynchSequenceLowerOrEqual w.conditionSequence sequence = true
  returns : ∀ o earlier, o :: earlier <:+ v.trace → o.reachedBySignal earlier

section Effects

variable {cut : NativeGuestWaiter → Prop} {call : Call} {self : ℕ} {v v' : View}
  {tables : WaitTables} {o : Observation}

/-- What is observed next has to be explained, and so do the preposts and the signaled waiters that
    were not there before. -/
theorem SignalsReach.grow (h : SignalsReach v) (ho : o.reachedBySignal v.trace)
    (hpreposts : ∀ e ∈ tables.conditionPreposts, 0 < e.count ∧ ((∃ old ∈ v.tables.conditionPreposts,
          old.address = e.address ∧ old.throughSequence = e.throughSequence)
        ∨ ∃ sequence, o = .conditionSignaled e.address sequence
          ∧ e.throughSequence = sequence &&& guestPsynchCountMask))
    (hwaiters : ∀ w ∈ tables.waiters, w.kind = .condition → w.signaled →
      w ∈ v.tables.waiters ∨ ∃ sequence, o = .conditionSignaled w.address sequence
        ∧ guestPsynchSequenceLowerOrEqual w.conditionSequence sequence) :
    SignalsReach ⟨tables, o :: v.trace⟩ := by
  refine ⟨fun e he => ?_, fun w hw hkind hsignaled => ?_, fun x earlier hsuffix => ?_⟩
  · obtain ⟨hpos, ⟨old, hold, haddress, hsame⟩ | ⟨sequence, rfl, hthrough⟩⟩ := hpreposts e he
    · obtain ⟨-, sequence, hsignal, hthrough⟩ := h.preposts old hold
      exact ⟨hpos, sequence, mem_cons_of_mem _ (haddress ▸ hsignal), hsame ▸ hthrough⟩
    · exact ⟨hpos, sequence, mem_cons_self, hthrough⟩
  · rcases hwaiters w hw hkind hsignaled with hold | ⟨sequence, rfl, hreach⟩
    · obtain ⟨sequence, hsignal, hreach⟩ := h.waiters w hold hkind hsignaled
      exact ⟨sequence, mem_cons_of_mem _ hsignal, hreach⟩
    · exact ⟨sequence, mem_cons_self, hreach⟩
  · rcases suffix_cons_iff.1 hsuffix with heq | hsuffix
    · obtain ⟨rfl, rfl⟩ := cons.inj heq
      exact ho
    · exact h.returns x earlier hsuffix

/-- The case in which the preposts stay and no condition waiter is signaled. -/
theorem SignalsReach.observe (h : SignalsReach v) (ho : o.reachedBySignal v.trace)
    (hpreposts : tables.conditionPreposts = v.tables.conditionPreposts)
    (hwaiters : ∀ w ∈ tables.waiters, w.kind = .condition → w ∈ v.tables.waiters) :
    SignalsReach ⟨tables, o :: v.trace⟩ := by
  refine h.grow ho (fun e he => ?_) (fun w hw hkind _ => .inl (hwaiters w hw hkind))
  rw [hpreposts] at he
  exact ⟨(h.preposts e he).1, .inl ⟨e, he, rfl, rfl⟩⟩

/-- The waiter of a condition wait carries its arguments. -/
theorem origin_conditionWait {condition cs ss mutex mgen ugen flags nanoseconds : U32} {seconds : ℤ}
    (h : (Call.conditionWait condition cs ss mutex mgen ugen flags seconds nanoseconds).origin
      = some w.origin) :
    w.kind = .condition ∧ w.address = condition ∧ w.conditionSequence = cs := by
  have horigin := Option.some.inj h
  exact ⟨(congrArg NativeGuestWaiter.kind horigin).symm,
    (congrArg NativeGuestWaiter.address horigin).symm,
    (congrArg NativeGuestWaiter.conditionSequence horigin).symm⟩

/-- A signal only brings in preposts with its own generation. -/
theorem mem_recordConditionPreposts {condition sequence target : U32}
    {preposts : List GuestConditionPrepost}
    (he : e ∈ recordConditionPreposts condition sequence target broadcast outstanding
      woken preposts) :
    e ∈ preposts ∨ (e.address = condition ∧ e.throughSequence = sequence &&& guestPsynchCountMask
      ∧ 0 < e.count) := by
  unfold recordConditionPreposts at he
  split at he
  · exact .inl he
  · split at he
    · exact mem_recordGuestConditionBroadcastPrepost he
    · split at he
      · exact mem_recordGuestConditionSignalPrepost he
      · exact .inl he

/-- **Every effect keeps `SignalsReach`.** -/
theorem SignalsReach.effect (h : SignalsReach v) (hv : TablesWf v.tables)
    (he : Effect cut call self v v') : SignalsReach v' := by
  cases he with
  | register _ _ _ hsignaled =>
    refine ⟨h.preposts, fun x hx hkind hx' => ?_, h.returns⟩
    rcases mem_append.1 hx with hx | hx
    · exact h.waiters x hx hkind hx'
    · rw [mem_singleton.1 hx] at hx'
      simp [hsignaled] at hx'
  | leave _ w hw _ horigin hleaves =>
    refine h.observe ?_ rfl (fun x hx _ => (mem_filter.1 hx).1)
    cases call with
    | conditionWait =>
      obtain ⟨hkind, rfl, rfl⟩ := origin_conditionWait horigin
      cases hleaves with
      | woken hsignaled =>
        obtain ⟨sequence, hsignal, hreach⟩ := h.waiters w hw hkind hsignaled
        exact fun _ => ⟨sequence, hsignal, by simp, hreach⟩
      | interrupted | timedOut => exact fun hgranted => absurd hgranted (by decide)
    | _ => trivial
  | shortcut _ _ hargs hshortcut =>
    rcases waitShortcut_cases hshortcut with ⟨-, -, rfl, overlaps, -, rfl⟩ |
      ⟨hkind, -, taken, preposts, htaken, rfl, rfl⟩ | ⟨hkind, -, taken, preposts, -, rfl, rfl⟩
    · refine h.observe ?_ rfl (fun x hx _ => hx)
      cases call <;> first | trivial | exact fun hgranted => absurd hgranted (by decide)
    · obtain ⟨⟨e, hmem, haddress, hthrough⟩, hreach, -, hafter⟩ :=
        consumeGuestConditionPrepost_some (fun e he => (h.preposts e he).1) htaken
      refine h.grow ?_ (fun e he => (hafter e he).imp_right .inl) (fun x hx _ _ => .inl hx)
      cases call with
      | conditionWait condition =>
        cases hargs
        obtain ⟨-, sequence, hsignal, hkey⟩ := h.preposts e hmem
        rw [hthrough] at hkey
        rw [show e.address = condition from haddress] at hsignal
        refine fun _ => ⟨sequence, hsignal, fun _ heq => Ending.prepost.inj heq ▸ hkey, ?_⟩
        rwa [hkey, guestPsynchSequenceLowerOrEqual_and_countMask_right] at hreach
      | _ => trivial
    · refine h.observe ?_ rfl (fun x hx _ => hx)
      cases call with
      | conditionWait =>
        cases hargs
        simp at hkind
      | _ => trivial
  | grant _ _ hdue =>
    refine h.observe trivial rfl (fun x hx hkind => ?_)
    have hspec := dueGrant_spec hdue
    refine (mem_applyGrant hv.order hspec hx).resolve_right ?_
    rintro ⟨old, hold, rfl⟩
    have hrwlock : old.kind = .rwlock := kind_of_rwlockPending (hspec.mem_pending hold).2
    cases hkind.symm.trans hrwlock
  | post => exact h.observe trivial rfl (fun x hx _ => hx)
  | drop mutex mgen ugen flags =>
    refine h.observe trivial ?_ (fun x hx hkind => ?_)
    · rcases guestPsynchMutexDrop_cases mutex mgen ugen flags v.tables with
        ⟨m, -, heq⟩ | ⟨-, heq⟩ <;> rw [heq]
    · refine (mem_guestPsynchMutexDrop hv.order hx).resolve_right (fun hmutex => ?_)
      cases hkind.symm.trans hmutex
  | signal condition cs =>
    refine h.grow trivial (fun e he => ?_) (fun x hx hkind hsignaled => ?_)
    · have hrecorded : e ∈ v.tables.conditionPreposts ∨ (e.address = condition
          ∧ e.throughSequence = cs &&& guestPsynchCountMask ∧ 0 < e.count) := by
        rw [guestPsynchConditionSignal_tables] at he
        simpa only [BitVec.and_assoc, BitVec.and_self] using mem_recordConditionPreposts he
      rcases hrecorded with hold | ⟨rfl, hkey, hpos⟩
      · exact ⟨(h.preposts e hold).1, .inl ⟨e, hold, rfl, rfl⟩⟩
      · exact ⟨hpos, .inr ⟨cs, rfl, hkey⟩⟩
    · refine (mem_guestPsynchConditionSignal hv.order hx).imp_right ?_
      rintro ⟨old, -, hcan, rfl⟩
      simp only [conditionEligible, Bool.and_eq_true, decide_eq_true_eq,
        guestPsynchSequenceLowerOrEqual_and_countMask_right] at hcan
      exact ⟨cs, by rw [← hcan.1.1.2]; rfl, hcan.1.2⟩
  | ulockWake =>
    refine ⟨h.preposts, fun x hx hkind hsignaled => ?_, h.returns⟩
    refine h.waiters x ((mem_guestUlockWake hv.order hx).resolve_right ?_) hkind hsignaled
    rintro ⟨old, -, hcan, rfl⟩
    simp only [ulockEligible, isUlockWaiter, Bool.and_eq_true, decide_eq_true_eq] at hcan
    cases hkind.symm.trans hcan.1.1.1.1
  | answer =>
    refine h.observe ?_ rfl (fun x hx _ => hx)
    cases call <;> first | trivial | exact fun hgranted => absurd hgranted (by decide)

end Effects

/-- **Condition signals keep to their generations.** Take any run. Every wait on a condition that
    was released was released by an earlier signal of that condition whose generation is not older
    than its own, in every window that holds both; if it took a prepost, that signal has the
    prepost's generation. The next signal wakes and preposts as `ConditionWake` says, and returns
    the number of waiters it woke with its flag. The next wait takes one unit of the oldest prepost
    that reaches it, or registers. -/
theorem conditionSignals_keepGenerations (host : ℕ → HostThread) (memory : U32 → Option U32)
    (environment : Environment) (events : List Event) :
    let c := run host (.initial memory environment) events
    (∀ thread condition cs ss mutex mgen ugen flags seconds nanoseconds waiter ending value earlier,
      Observation.returned thread
        (.conditionWait condition cs ss mutex mgen ugen flags seconds nanoseconds)
          waiter ending value
        :: earlier <:+ c.trace → ending.granted = true →
      ∃ sequence, Observation.conditionSignaled condition sequence ∈ earlier
        ∧ (∀ taken, ending = .prepost taken → taken = sequence &&& guestPsynchCountMask)
        ∧ ∀ base, InWindow base cs → InWindow base sequence →
          position base cs ≤ position base sequence)
    ∧ (∀ thread condition cs ss difference target broadcast base,
      c.threads thread
        = some (.conditionSignal condition cs ss difference target broadcast, .called) →
      c.mutexOwner = none → LiveWindow base condition c.tables → InWindow base cs →
      ∃ woken recorded value,
        ConditionWake base condition cs ss target c.tables broadcast woken recorded
          (step host c (.advance thread)).tables
        ∧ (step host c (.advance thread)).trace
          = .returned thread (.conditionSignal condition cs ss difference target broadcast) none
              .answered value :: .conditionSignaled condition cs :: c.trace
        ∧ (value.carry = true ↔ machPortValid target = true ∧ woken = 0)
        ∧ (value.carry = false → value.value.toNat = min (woken * 0x100) 0xffffff00
          + conditionFlag (guestPsynchSequenceDistance cs ss) woken recorded))
    ∧ ∀ thread condition cs ss mutex mgen ugen flags seconds nanoseconds args base,
      let call := Call.conditionWait condition cs ss mutex mgen ugen flags seconds nanoseconds
      c.threads thread = some (call, .prepared) → c.mutexOwner = none →
      call.waitArguments = some args → args.timeoutInvalid = false →
      LiveWindow base condition c.tables → InWindow base cs →
      ∃ taken, ConditionArrival base condition cs c.tables taken
        (step host c (.advance thread)).tables
        ∧ (step host c (.advance thread)).trace
          = (taken.map (fun sequence => Observation.returned thread call none (.prepost sequence)
              (.success guestPsynchCountIncrement))).toList ++ c.trace := by
  intro c
  have hwf : Wf c := run_wf memory environment events
  have hreach : SignalsReach c.view :=
    run_view (fun _ _ _ _ _ _ hv he h => h.effect hv he)
      ⟨by simp, by simp, fun o earlier hsuffix => absurd hsuffix (by simp)⟩ memory environment
      (fun _ _ _ => trivial)
  refine ⟨?_, ?_, ?_⟩
  · intro thread condition cs ss mutex mgen ugen flags seconds nanoseconds waiter
      ending value earlier
      hreturned hgranted
    obtain ⟨sequence, hsignal, htaken, hle⟩ := hreach.returns _ earlier hreturned hgranted
    refine ⟨sequence, hsignal, htaken, fun base hcs hsequence => ?_⟩
    simpa [guestPsynchSequenceLowerOrEqual_eq_position hcs hsequence] using hle
  · intro thread condition cs ss difference target broadcast base hcall hfree hlive hcs
    obtain ⟨recorded, hwake, hrecorded⟩ :=
      guestPsynchConditionSignal_wake hwf.tables hlive hcs ss target broadcast
    -- the whole call is one critical section
    simp only [step, hcall, Config.advance, Config.start, Config.locked, hfree, if_true]
    refine ⟨_, recorded, _, hwake, rfl, ?_, ?_⟩
    all_goals
      simp only [guestPsynchConditionSignal]
      split
    · next hmissed => exact ⟨fun _ => hmissed, fun _ => rfl⟩
    · next hmissed => exact ⟨by simp [SyscallReturn.success],
        fun h => absurd h hmissed⟩
    · exact by simp [SyscallReturn.failure]
    · exact fun _ => toNat_conditionUpdate hrecorded
  · intro thread condition cs ss mutex mgen ugen flags seconds nanoseconds args base
      call hcall hfree
      hargs hvalid hlive hcs
    obtain rfl := Option.some.inj hargs
    simp only [call, step, hcall, Config.advance, Config.proceed, hargs, Config.enterWait, hvalid,
      Bool.false_eq_true, if_false, Config.locked, hfree, if_true, waitShortcut]
    rcases consumeGuestConditionPrepost_cases hlive.preposts hcs with
      ⟨hnone, hnewer⟩ | ⟨taken, after, htaken, holdest⟩
    · simp only [hnone, Option.map_none, Config.register, reduceCtorEq, if_false]
      exact ⟨none, .registered _ hnewer, rfl⟩
    · obtain ⟨⟨e, he, haddress, rfl⟩, hle, hunits, -⟩ :=
        consumeGuestConditionPrepost_some (fun e he => (hreach.preposts e he).1) htaken
      rw [guestPsynchSequenceLowerOrEqual_eq_position hcs (hlive.preposts e he haddress),
        decide_eq_true_iff] at hle
      simp only [htaken, Option.map_some]
      exact ⟨some e.throughSequence, .taken e he haddress hle holdest after hunits, rfl⟩

/-- Two waits on a condition, of which the second is newer than the broadcast that thread `1` is
    about to make. -/
def waitersAroundBroadcast : List Event :=
  [.begin 2 (.conditionWait 0x5000 0x100 0 0 0 0 0 0 0), .advance 2, .advance 2,
    .begin 3 (.conditionWait 0x5000 0x400 0 0 0 0 0 0 0), .advance 3, .advance 3,
    .begin 1 (.conditionSignal 0x5000 0x300 0 0 0 true)]

/-- The broadcast wakes the older wait and leaves two preposts for generations still missing. -/
theorem conditionSignals_keepGenerations_broadcast :
    let c := run mainAndWorkers (.initial (fun _ => none) {}) waitersAroundBroadcast
    (∃ woken recorded value,
      ConditionWake 0 0x5000 0x300 0 0 c.tables true woken recorded
        (step mainAndWorkers c (.advance 1)).tables
      ∧ (step mainAndWorkers c (.advance 1)).trace
        = .returned 1 (.conditionSignal 0x5000 0x300 0 0 0 true) none .answered value
          :: .conditionSignaled 0x5000 0x300 :: c.trace
      ∧ (value.carry = true ↔ machPortValid 0 = true ∧ woken = 0)
      ∧ (value.carry = false → value.value.toNat = min (woken * 0x100) 0xffffff00
        + conditionFlag (guestPsynchSequenceDistance 0x300 0) woken recorded))
    ∧ (step mainAndWorkers c (.advance 1)).tables.waiters.map (fun w => (w.sequence, w.signaled))
      = [(1, true), (2, false)]
    ∧ (step mainAndWorkers c (.advance 1)).tables.conditionPreposts = [⟨0x5000, 0x300, 2⟩] := by
  refine ⟨(conditionSignals_keepGenerations mainAndWorkers (fun _ => none) {}
    waitersAroundBroadcast).2.1 1 0x5000 0x300 0 0 0 true 0 (by decide) (by decide) ⟨?_, ?_⟩
    (by decide), by decide, by decide⟩
  · decide
  · decide

end LiveExec32.Psynch
