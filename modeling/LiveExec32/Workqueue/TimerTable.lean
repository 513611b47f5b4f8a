import LiveExec32.Workqueue.TimerQueue

/-! # What the operations do to the timer table

Every operation of the timer queue changes one timer at most. `Applies` lists what an `Apply` can
do, `Collects` what becomes of a dequeued event. New timers get a native ident that was never used
(`IdentsBelow`), so an `Apply` that fails after inserting a timer leaves the table as it was. -/

namespace LiveExec32.Workqueue

theorem TimerMap.ext {timers timers' : TimerMap} (h : timers.entries = timers'.entries) :
    timers = timers' := by
  cases timers
  cases timers'
  simpa using h

def Kevent64.token (native : Kevent64) : U64 × U64 := (native.ident, native.udata)

/-- The token of the timer's current registration. -/
def Timer.token (timer : Timer) : U64 × U64 := (timer.nativeIdent, timer.generation)

namespace TimerQueue

/-- The native idents in use are below the next one; zero means that all were used. -/
def IdentsBelow (q : TimerQueue) : Prop :=
  q.nextIdent ≠ 0 → ∀ timer ∈ q.timers.entries, timer.nativeIdent.toNat < q.nextIdent.toNat

/-! ## `Apply` -/

/-- What an `Apply` of `change` can do. -/
inductive Applies (q : TimerQueue) (change : KeventQos) : Option Errno → TimerQueue → Prop where
  | failed (error : Errno) (nextIdent : U64)
      (hnext : nextIdent = q.nextIdent ∨ (q.nextIdent ≠ 0 ∧ nextIdent = q.nextIdent + 1)) :
      Applies q change (some error) { q with nextIdent }
  | deleted (timer : Timer)
      (hfind : q.timers.entries.find? (timerMatches change) = some timer)
      (hdelete : hasAny change.flags evDelete = true) :
      Applies q change none (q.erase timer.nativeIdent)
  | rearmed (timer : Timer)
      (hfind : q.timers.entries.find? (timerMatches change) = some timer)
      (hdelete : hasAny change.flags evDelete = false) (hadd : hasAny change.flags evAdd = true)
      (hgeneration : timer.generation ≠ BitVec.allOnes 64) :
      Applies q change none (q.rearmed change timer)
  | switched (timer : Timer)
      (hfind : q.timers.entries.find? (timerMatches change) = some timer)
      (hdelete : hasAny change.flags evDelete = false) (hadd : hasAny change.flags evAdd = false) :
      Applies q change none (q.store (switched change timer))
  | inserted (hfind : q.timers.entries.find? (timerMatches change) = none)
      (hdelete : hasAny change.flags evDelete = false) (hadd : hasAny change.flags evAdd = true)
      (hident : q.nextIdent ≠ 0) :
      Applies q change none
        ({ q with nextIdent := q.nextIdent + 1 }.rearmed change { nativeIdent := q.nextIdent })

variable {q : TimerQueue}

theorem fresh_of_identsBelow (h : q.IdentsBelow) (hident : q.nextIdent ≠ 0) :
    ∀ timer ∈ q.timers.entries, timer.nativeIdent ≠ q.nextIdent := by
  intro timer htimer heq
  have hlt := h hident timer htimer
  rw [heq] at hlt
  omega

variable {timer : Timer}

/-- A fresh timer that is erased again leaves the table as it was. -/
theorem erase_store_fresh (h : ∀ other ∈ q.timers.entries, other.nativeIdent ≠ timer.nativeIdent) :
    (q.store timer).erase timer.nativeIdent = q := by
  have hentries : (q.timers.store timer).erase timer.nativeIdent = q.timers := by
    refine TimerMap.ext ?_
    simp only [TimerMap.erase, TimerMap.store, Records.store_of_fresh h]
    rw [List.eraseP_append_right _ (by simpa using h)]
    simp
  simp only [erase, store, hentries]

/-- Arming a timer that was just stored is arming it at once. -/
theorem rearmed_store (q : TimerQueue) (change : KeventQos) (timer : Timer) :
    (q.store timer).rearmed change timer = q.rearmed change timer := by
  have hentries : ∀ timer', timer'.nativeIdent = timer.nativeIdent →
      (q.timers.store timer).store timer' = q.timers.store timer' := fun timer' hkey =>
    TimerMap.ext (Records.store_store hkey q.timers.entries)
  simp only [rearmed, store, hentries]

variable {change : KeventQos}

theorem applyTo_applies (reply : KernelReply)
    (hfind : q.timers.entries.find? (timerMatches change) = some timer) :
    Applies q change (q.applyTo reply change false timer).1
      (q.applyTo reply change false timer).2 := by
  have same : ∀ error, Applies q change (some error) q := fun error =>
    .failed error q.nextIdent (.inl rfl)
  simp only [applyTo, Bool.false_eq_true, if_false]
  split
  · exact same _
  · rename_i hroom
    split
    · exact same _
    · split
      · next hdelete => exact .deleted timer hfind hdelete
      · rename_i hdelete
        rw [Bool.not_eq_true] at hdelete
        split
        · next hadd => exact .rearmed timer hfind hdelete hadd (by simpa [hadd] using hroom)
        · rename_i hadd
          rw [Bool.not_eq_true] at hadd
          exact .switched timer hfind hdelete hadd

theorem applyTo_inserted (h : q.IdentsBelow) (reply : KernelReply)
    (hfind : q.timers.entries.find? (timerMatches change) = none)
    (hdelete : hasAny change.flags evDelete = false) (hadd : hasAny change.flags evAdd)
    (hident : q.nextIdent ≠ 0) :
    let timer : Timer := { nativeIdent := q.nextIdent }
    let grown := { q with nextIdent := q.nextIdent + 1 }.store timer
    Applies q change (grown.applyTo reply change true timer).1
      (grown.applyTo reply change true timer).2 := by
  intro timer grown
  have hundone : grown.erase timer.nativeIdent = { q with nextIdent := q.nextIdent + 1 } :=
    erase_store_fresh (q := { q with nextIdent := q.nextIdent + 1 })
      (fresh_of_identsBelow h hident)
  simp only [applyTo, if_true, hundone, hadd, hdelete, Bool.false_eq_true, if_false]
  split
  · exact .failed _ _ (.inr ⟨hident, rfl⟩)
  · split
    · exact .failed _ _ (.inr ⟨hident, rfl⟩)
    · rw [rearmed_store]
      exact .inserted hfind hdelete hadd hident

theorem apply_applies (h : q.IdentsBelow) (host : TimerHost) (change : KeventQos) :
    Applies q change (q.apply host change).1 (q.apply host change).2 := by
  have same : ∀ error, Applies q change (some error) q := fun error =>
    .failed error q.nextIdent (.inl rfl)
  unfold apply
  split
  · exact same _
  · split
    · exact same _
    · split
      · exact same _
      · split
        · next timer hfind => exact applyTo_applies host.kernel hfind
        · rename_i hfind
          split
          · exact same _
          · rename_i hadds
            simp only [Bool.or_eq_true, Bool.not_eq_true', not_or, Bool.not_eq_false,
              Bool.not_eq_true] at hadds
            split
            · exact same _
            · split
              · exact same _
              · rename_i hident
                have hident : q.nextIdent ≠ 0 := by simpa using hident
                split
                · exact .failed _ _ (.inr ⟨hident, rfl⟩)
                · exact applyTo_inserted h host.kernel hfind hadds.2 hadds.1 hident

/-! ## The waiter -/

/-- What becomes of a dequeued event. -/
inductive Collects (q : TimerQueue) (event : Kevent64) : TimerQueue → Prop where
  | ignored (hfilter : event.filter ≠ evfiltTimer) : Collects q event q
  | dropped (hfilter : event.filter = evfiltTimer)
      (hstale : ∀ timer ∈ q.timers.entries, timer.token ≠ event.token) :
      Collects q event (q.dequeue event)
  | collected (timer : Timer) (hmem : timer ∈ q.timers.entries)
      (hfilter : event.filter = evfiltTimer) (htoken : timer.token = event.token) :
      Collects q event ((q.dequeue event).store
        { timer with pending := true, readyEvent := collected timer event })

theorem collect_collects (q : TimerQueue) (event : Kevent64) :
    Collects q event (q.collect event) := by
  unfold collect
  split
  · next hfilter => exact .ignored (by simpa using hfilter)
  · rename_i hfilter
    have hfilter : event.filter = evfiltTimer := by simpa using hfilter
    split
    · rename_i hfind
      refine .dropped hfilter fun timer hmem htoken => ?_
      exact List.find?_eq_none.1 hfind timer hmem (beq_iff_eq.2 (congrArg Prod.fst htoken))
    · rename_i timer hfind
      have hmem := List.mem_of_find?_eq_some hfind
      have hident : timer.nativeIdent = event.ident := by simpa using List.find?_some hfind
      split
      · rename_i hgeneration
        refine .dropped hfilter fun other hother htoken => ?_
        -- the table holds one timer with this ident, and that one has another generation
        obtain rfl := q.timers.unique.eq_of_key_eq hother hmem
          ((congrArg Prod.fst htoken).trans hident.symm)
        exact bne_iff_ne.1 hgeneration (congrArg Prod.snd htoken).symm
      · rename_i hgeneration
        have hgeneration : event.udata = timer.generation := by simpa using hgeneration
        exact .collected timer hmem hfilter (Prod.ext hident hgeneration.symm)

variable {inv : TimerQueue → Prop} {genuine : Kevent64 → Prop}

/-- What every dequeued event preserves, a batch preserves. -/
theorem foldl_collect_invariant
    (hcollect : ∀ q event, inv q → genuine event → inv (q.collect event)) (h : inv q)
    {events : List Kevent64} (hall : ∀ event ∈ events, genuine event) :
    inv (events.foldl collect q) := by
  induction events generalizing q with
  | nil => exact h
  | cons event _ ih =>
    exact ih (hcollect q event h (hall event List.mem_cons_self))
      (fun e he => hall e (List.mem_cons_of_mem _ he))

theorem waiterRound_invariant
    (hcollect : ∀ q event, inv q → genuine event → inv (q.collect event))
    (herror : ∀ q error, inv q → inv { q with error }) (h : inv q) {result : WaitResult}
    (hresult : ∀ events, result = .ok events → ∀ event ∈ events, genuine event) :
    inv (q.waiterRound result) := by
  unfold waiterRound
  split
  · exact h
  · cases result with
    | error error => exact herror q (some error) h
    | ok events => exact foldl_collect_invariant hcollect h (hresult events rfl)

/-! ## `Take` -/

@[simp] theorem taken_nextIdent (q : TimerQueue) (timer : Timer) :
    (q.taken timer).nextIdent = q.nextIdent := by
  unfold taken
  split <;> rfl

@[simp] theorem taken_armed (q : TimerQueue) (timer : Timer) : (q.taken timer).armed = q.armed := by
  unfold taken
  split <;> rfl

@[simp] theorem taken_dequeued (q : TimerQueue) (timer : Timer) :
    (q.taken timer).dequeued = q.dequeued := by
  unfold taken
  split <;> rfl

@[simp] theorem taken_returned (q : TimerQueue) (timer : Timer) :
    (q.taken timer).returned = q.returned ++ [(timer.arming, takenEvent timer)] := rfl

variable {other : Timer}

/-- A one-shot is gone once it was taken; a repeating timer has nothing pending. -/
theorem mem_taken (h : other ∈ (q.taken timer).timers.entries) :
    (other ∈ q.timers.entries ∧ other.nativeIdent ≠ timer.nativeIdent)
      ∨ (timer.oneShot = false ∧ other = { timer with pending := false }) := by
  unfold taken at h
  split at h
  · exact .inl (q.timers.unique.mem_eraseP h)
  · rename_i honeShot
    rcases Records.mem_store q.timers.unique h with heq | hmem
    · exact .inr ⟨by simpa using honeShot, heq⟩
    · exact .inl hmem

/-- The other timers stay. -/
theorem mem_taken_of_ne (h : other ∈ q.timers.entries)
    (hne : other.nativeIdent ≠ timer.nativeIdent) : other ∈ (q.taken timer).timers.entries := by
  unfold taken
  split
  · exact (List.mem_eraseP_of_neg (by simpa using hne)).2 h
  · exact Records.mem_store_of_ne h hne

/-! ## Native idents -/

namespace IdentsBelow

variable {q q' : TimerQueue}

/-- No new timer appears. -/
theorem mono (h : q.IdentsBelow) (hnext : q'.nextIdent = q.nextIdent)
    (hidents : ∀ timer ∈ q'.timers.entries, ∃ old ∈ q.timers.entries,
      timer.nativeIdent = old.nativeIdent) : q'.IdentsBelow := by
  intro hident timer htimer
  obtain ⟨old, hold, heq⟩ := hidents timer htimer
  rw [hnext] at hident ⊢
  rw [heq]
  exact h hident old hold

theorem store (h : q.IdentsBelow) {old : Timer} (hold : old ∈ q.timers.entries)
    (hident : timer.nativeIdent = old.nativeIdent) : (q.store timer).IdentsBelow := by
  refine h.mono rfl fun other hother => ?_
  rcases Records.mem_store q.timers.unique hother with rfl | ⟨hmem, -⟩
  · exact ⟨old, hold, hident⟩
  · exact ⟨other, hmem, rfl⟩

theorem erase (h : q.IdentsBelow) (ident : U64) : (q.erase ident).IdentsBelow :=
  h.mono rfl fun timer htimer => ⟨timer, List.mem_of_mem_eraseP htimer, rfl⟩

/-- The next ident is used. -/
theorem grow (h : q.IdentsBelow) (hident : q.nextIdent ≠ 0) (hnext : q'.nextIdent = q.nextIdent + 1)
    (hidents : ∀ timer ∈ q'.timers.entries, timer.nativeIdent = q.nextIdent
      ∨ ∃ old ∈ q.timers.entries, timer.nativeIdent = old.nativeIdent) : q'.IdentsBelow := by
  intro hident' timer htimer
  have hsucc : q'.nextIdent.toNat = q.nextIdent.toNat + 1 := by
    bv_omega
  rcases hidents timer htimer with heq | ⟨old, hold, heq⟩
  · rw [heq]
    omega
  · have hlt := h hident old hold
    rw [heq]
    omega

theorem applies (h : q.IdentsBelow) {error : Option Errno} (happlies : Applies q change error q') :
    q'.IdentsBelow := by
  cases happlies with
  | failed _ _ hnext =>
    rcases hnext with hsame | ⟨hident, hsucc⟩
    · exact h.mono hsame fun timer htimer => ⟨timer, htimer, rfl⟩
    · exact h.grow hident hsucc fun timer htimer => .inr ⟨timer, htimer, rfl⟩
  | deleted timer => exact h.erase timer.nativeIdent
  | rearmed _ hfind => exact h.store (List.mem_of_find?_eq_some hfind) rfl
  | switched _ hfind =>
    refine h.store (List.mem_of_find?_eq_some hfind) ?_
    unfold TimerQueue.switched
    split
    · rfl
    · split <;> rfl
  | inserted _ _ _ hident =>
    refine h.grow hident rfl fun timer htimer => ?_
    rcases Records.mem_store q.timers.unique htimer with rfl | ⟨hmem, -⟩
    · exact .inl rfl
    · exact .inr ⟨timer, hmem, rfl⟩

theorem collects (h : q.IdentsBelow) {event : Kevent64} (hcollects : Collects q event q') :
    q'.IdentsBelow := by
  cases hcollects with
  | ignored | dropped => exact h
  | collected _ hmem => exact @IdentsBelow.store _ (q.dequeue event) h _ hmem rfl

theorem taken (h : q.IdentsBelow) (hmem : timer ∈ q.timers.entries) :
    (q.taken timer).IdentsBelow := by
  unfold TimerQueue.taken
  split
  · exact h.erase timer.nativeIdent
  · exact h.store hmem rfl

theorem requestStop (h : q.IdentsBelow) : q.requestStop.IdentsBelow := by
  unfold TimerQueue.requestStop
  split
  · exact h
  · exact fun _ timer htimer => absurd htimer (by simp)

end IdentsBelow

end TimerQueue

end LiveExec32.Workqueue
