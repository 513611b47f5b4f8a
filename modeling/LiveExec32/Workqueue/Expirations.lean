import LiveExec32.Lib.Execution
import LiveExec32.Workqueue.TimerTable
import Mathlib.Algebra.Order.BigOperators.Group.List

/-! # Timer expirations over time

The waiter may hold expirations that the kernel dequeued before the guest armed the timer anew,
disabled it or deleted it. The token of an expiration, its native ident and the generation in
`udata`, names one arming: a native ident is never used for a second timer, and every `EV_ADD` of a
timer raises its generation. So what the waiter collects belongs to the current registration.

`arming` makes this visible: an expiration carries the number of the arming that it comes from, and
the code never looks at it. `timerExpirations_kept` says what holds after any run of `Apply` calls,
rounds of the waiter and `Take` calls. The kernel is assumed to report expirations of timers that it
accepted, with their ident and `udata`, and with a count (`genuine`). -/

namespace LiveExec32.Workqueue

open List TimerQueue Records Kevent64 Option

/-- The native timer fires once. -/
def Kevent64.oneShot (native : Kevent64) : Bool :=
  hasAny native.flags evOneShot || hasAny native.fflags noteAbsolute

/-- The count that a timer holds for the guest. -/
def Timer.pendingCount (timer : Timer) : ℤ := if timer.pending then timer.readyEvent.data else 0

section Counts

variable {κ : Type} [DecidableEq κ] {counts : List (κ × ℤ)}

/-- The counts under one key, added up. -/
def countFor (key : κ) (counts : List (κ × ℤ)) : ℤ :=
  ((counts.filter (fun entry => entry.1 == key)).map Prod.snd).sum

theorem countFor_append (key : κ) (counts : List (κ × ℤ)) (other : κ) (count : ℤ) :
    countFor key (counts ++ [(other, count)])
      = countFor key counts + if other = key then count else 0 := by
  unfold countFor
  by_cases h : other = key <;> simp [h]

theorem countFor_eq_zero {key : κ} (h : ∀ entry ∈ counts, entry.1 ≠ key) :
    countFor key counts = 0 := by
  unfold countFor
  rw [filter_eq_nil_iff.2 (by simpa using h)]
  rfl

theorem countFor_nonneg (h : ∀ entry ∈ counts, 0 ≤ entry.2) (key : κ) :
    0 ≤ countFor key counts := by
  refine sum_nonneg fun count hcount => ?_
  obtain ⟨entry, hentry, rfl⟩ := mem_map.1 hcount
  exact h entry (mem_filter.1 hentry).1

end Counts

/-- What was returned and what is pending make up what was dequeued, up to saturation. -/
structure Balanced (returned pending dequeued : ℤ) : Prop where
  le : returned + pending ≤ dequeued
  saturated : min (returned + pending) int64Max = min dequeued int64Max

namespace TimerQueue

def returnedCounts (q : TimerQueue) : List (ℕ × ℤ) :=
  q.returned.map fun entry => (entry.1, entry.2.data)

def dequeuedCounts (q : TimerQueue) : List ((U64 × U64) × ℤ) :=
  q.dequeued.map fun event => (event.token, event.data)

/-! ## Runs -/

inductive Event where
  | apply (host : TimerHost) (change : KeventQos)
  | waiter (result : WaitResult)
  | take (excludedQosFlags requiredQosFlags : U32)
  /-- The table is iterated in another order from now on. -/
  | rehash (timers : TimerMap)
  | requestStop

def step (q : TimerQueue) : Event → TimerQueue
  | .apply host change => (q.apply host change).2
  | .waiter result => q.waiterRound result
  | .take excludedQosFlags requiredQosFlags => (q.take excludedQosFlags requiredQosFlags).2
  | .rehash timers => if timers.entries.Perm q.timers.entries then { q with timers } else q
  | .requestStop => q.requestStop

def run (q : TimerQueue) (events : List Event) : TimerQueue := Execution.run step q events

/-- What `Take` returns in a step. -/
def answered (q : TimerQueue) : Event → List KeventQos
  | .take excludedQosFlags requiredQosFlags =>
    (q.take excludedQosFlags requiredQosFlags).1.toList
  | _ => []

/-- The timer events of a round of the waiter, which a stopping queue does not look at. -/
def expired (q : TimerQueue) : Event → List Kevent64
  | .waiter (.ok events) =>
    if q.stopping then [] else events.filter (fun event => event.filter == evfiltTimer)
  | _ => []

/-- An expiration of an arming that the kernel accepted, no error, and with a count. -/
def genuineEvent (q : TimerQueue) (event : Kevent64) : Bool :=
  event.filter != evfiltTimer
    || (q.armed[event.arming]?.any (fun native => native.token == event.token)
      && !hasAny event.flags evError && decide (0 ≤ event.data)
      && decide (event.data ≤ int64Max))

def genuine (q : TimerQueue) : Event → Bool
  | .waiter (.ok events) => events.all q.genuineEvent
  | _ => true

/-! ## The invariant -/

/-- What holds of every timer in the table. -/
structure TimerOk (q : TimerQueue) (timer : Timer) : Prop where
  current : q.armed[timer.arming]? = some (nativeChange timer timer.generation timer.guest)
  kind : timer.oneShot = (nativeChange timer timer.generation timer.guest).oneShot
  last : ∀ (arming : ℕ) (native : Kevent64), q.armed[arming]? = some native →
    native.ident = timer.nativeIdent → arming ≤ timer.arming
  latest : ∀ native ∈ q.armed, native.ident = timer.nativeIdent →
    native.udata.toNat ≤ timer.generation.toNat
  ready : timer.pending = true → timer.readyEvent.arming = timer.arming
    ∧ 0 ≤ timer.readyEvent.data ∧ timer.readyEvent.data ≤ int64Max
  unreturned : timer.oneShot = true → ∀ entry ∈ q.returned, entry.1 ≠ timer.arming
  balanced : Balanced (countFor timer.arming q.returnedCounts) timer.pendingCount
    (countFor timer.token q.dequeuedCounts)

structure QueueOk (q : TimerQueue) : Prop where
  idents : q.IdentsBelow
  used : q.nextIdent ≠ 0 → ∀ native ∈ q.armed, native.ident.toNat < q.nextIdent.toNat
  tokens : (q.armed.map token).Nodup
  timers : ∀ timer ∈ q.timers.entries, TimerOk q timer
  returned : ∀ entry ∈ q.returned, entry.1 < q.armed.length ∧ 0 ≤ entry.2.data
  dequeued : ∀ event ∈ q.dequeued, event.token ∈ q.armed.map token
  once : ∀ arming native, q.armed[arming]? = some native → native.oneShot = true →
    q.returned.countP (fun entry => entry.1 == arming) ≤ 1

variable {q : TimerQueue} {timer : Timer}

theorem TimerOk.of_armed {q' : TimerQueue} (h : TimerOk q timer) (harmed : q'.armed = q.armed)
    (hunreturned : timer.oneShot → ∀ entry ∈ q'.returned, entry.1 ≠ timer.arming)
    (hbalanced : Balanced (countFor timer.arming q'.returnedCounts) timer.pendingCount
      (countFor timer.token q'.dequeuedCounts)) : TimerOk q' timer := by
  obtain ⟨hcurrent, hkind, hlast, hlatest, hready, -, -⟩ := h
  rw [← harmed] at hcurrent hlast hlatest
  exact ⟨hcurrent, hkind, hlast, hlatest, hready, hunreturned, hbalanced⟩

theorem TimerOk.arming_lt (h : TimerOk q timer) : timer.arming < q.armed.length :=
  (List.getElem?_eq_some_iff.1 h.current).1

variable {change : KeventQos} {error : Option Errno} {event : Kevent64}

namespace QueueOk

variable {q q' : TimerQueue}

theorem initial : QueueOk {} :=
  ⟨fun _ => nofun, fun _ => nofun, nodup_nil, nofun, nofun, nofun, nofun⟩

/-- A token names one arming. -/
theorem arming_inj (h : QueueOk q) {i j : ℕ} {a b : Kevent64} (hi : q.armed[i]? = some a)
    (hj : q.armed[j]? = some b) (htoken : a.token = b.token) : i = j := by
  have hlt : i < (q.armed.map token).length := by
    rw [length_map]
    exact (List.getElem?_eq_some_iff.1 hi).1
  refine (getElem?_inj hlt h.tokens).1 ?_
  rw [getElem?_map, getElem?_map, hi, hj, map_some, map_some, htoken]

variable {other : Timer}

/-- No two timers hold the same arming. -/
theorem eq_of_arming (h : QueueOk q) (htimer : timer ∈ q.timers.entries)
    (hother : other ∈ q.timers.entries) (harming : other.arming = timer.arming) :
    other = timer := by
  have hcurrent := (h.timers other hother).current
  rw [harming, (h.timers timer htimer).current] at hcurrent
  have hnative : nativeChange timer _ _ = nativeChange other _ _ := some.inj hcurrent
  exact q.timers.unique.eq_of_key_eq hother htimer (congrArg ident hnative).symm

/-- The ghosts stay, and every timer is as good as before. -/
theorem of_timers (h : QueueOk q) (hidents : q'.IdentsBelow)
    (hnext : q'.nextIdent = q.nextIdent) (harmed : q'.armed = q.armed)
    (hreturned : q'.returned = q.returned) (hdequeued : q'.dequeued = q.dequeued)
    (htimers : ∀ timer ∈ q'.timers.entries, TimerOk q timer) : QueueOk q' := by
  refine ⟨hidents, ?_, ?_, fun timer htimer => (htimers timer htimer).of_armed harmed ?_ ?_,
    ?_, ?_, ?_⟩
  · rw [hnext, harmed]
    exact h.used
  · rw [harmed]
    exact h.tokens
  · rw [hreturned]
    exact (htimers timer htimer).unreturned
  · rw [returnedCounts, hreturned, dequeuedCounts, hdequeued]
    exact (htimers timer htimer).balanced
  · rw [hreturned, harmed]
    exact h.returned
  · rw [hdequeued, harmed]
    exact h.dequeued
  · rw [hreturned, harmed]
    exact h.once

/-! ### `Apply` -/

theorem oneShot_nativeChange (timer : Timer) (generation : U64) (change : KeventQos) :
    (nativeChange timer generation change).oneShot
      = (hasAny change.flags evOneShot || hasAny change.fflags noteAbsolute) := by
  have hmask : hasAny ((change.flags &&& ~~~evUdataSpecific) ||| evReceipt) evOneShot
      = hasAny change.flags evOneShot := by
    rw [hasAny_or, show hasAny evReceipt evOneShot = false by decide, Bool.or_false]
    unfold hasAny
    rw [BitVec.and_assoc, show ~~~evUdataSpecific &&& evOneShot = evOneShot by decide]
  simp only [oneShot, nativeChange, hmask]

/-- A timer is armed under a token that was not used. -/
theorem rearmed (h : QueueOk q) (hlatest : ∀ native ∈ q.armed, native.ident = timer.nativeIdent →
      native.udata.toNat ≤ timer.generation.toNat) (hroom : timer.generation ≠ BitVec.allOnes 64)
    (hbelow : q.nextIdent ≠ 0 → timer.nativeIdent.toNat < q.nextIdent.toNat)
    (hidents : (q.rearmed change timer).IdentsBelow) : QueueOk (q.rearmed change timer) := by
  have hsucc : (timer.generation + 1).toNat = timer.generation.toNat + 1 := by
    have hlt : timer.generation.toNat ≠ 2 ^ 64 - 1 := fun heq =>
      hroom (BitVec.eq_of_toNat_eq (by rw [heq, BitVec.toNat_allOnes]))
    bv_omega
  have hfresh : ∀ token ∈ q.armed.map Kevent64.token,
      token ≠ (timer.nativeIdent, timer.generation + 1) := by
    intro token htoken heq
    obtain ⟨native, hnative, rfl⟩ := mem_map.1 htoken
    have hle := hlatest native hnative (congrArg Prod.fst heq)
    rw [show native.udata = timer.generation + 1 from congrArg Prod.snd heq, hsucc] at hle
    omega
  have hnew : ∀ {i : ℕ}, i < q.armed.length →
      (q.rearmed change timer).armed[i]? = q.armed[i]? := fun hi =>
    getElem?_append_left hi
  have hlength : (q.rearmed change timer).armed.length = q.armed.length + 1 := length_append
  have hlast : (q.rearmed change timer).armed[q.armed.length]?
      = some (nativeChange timer (timer.generation + 1) change) := by
    simp [TimerQueue.rearmed]
  refine ⟨hidents, fun hident native hnative => ?_, ?_, fun other hother => ?_,
    fun entry hentry => ?_, fun event hevent => ?_, fun arming native hnative honeShot => ?_⟩
  · rcases mem_append.1 hnative with hold | hnow
    · exact h.used hident native hold
    · rw [mem_singleton.1 hnow]
      exact hbelow hident
  · simp only [TimerQueue.rearmed, map_append, map_singleton]
    refine nodup_append.2 ⟨h.tokens, by simp, fun token htoken token' htoken' heq => ?_⟩
    rw [mem_singleton] at htoken'
    exact hfresh token htoken (heq.trans htoken')
  · rcases mem_store q.timers.unique hother with rfl | ⟨hmem, hne⟩
    · -- the timer that was armed: nothing was collected or returned for it yet
      have hreturned : ∀ entry ∈ q.returned, entry.1 ≠ q.armed.length := fun entry hentry =>
        Nat.ne_of_lt (h.returned entry hentry).1
      refine ⟨hlast, (oneShot_nativeChange timer _ change).symm, fun arming native hnative _ => ?_,
        fun native hnative hident => ?_, by simp,
        fun _ => hreturned, ?_⟩
      · have hlt := (List.getElem?_eq_some_iff.1 hnative).1
        rw [hlength] at hlt
        exact Nat.le_of_lt_succ hlt
      · rcases mem_append.1 hnative with hold | hnow
        · have hle := hlatest native hold hident
          rw [hsucc]
          omega
        · rw [mem_singleton.1 hnow]
          exact Nat.le_refl _
      · have hzero : countFor q.armed.length (q.rearmed change timer).returnedCounts = 0 := by
          refine countFor_eq_zero fun entry hentry => ?_
          obtain ⟨old, hold, rfl⟩ := mem_map.1 hentry
          exact hreturned old hold
        have hzero' : countFor (timer.nativeIdent, timer.generation + 1)
            (q.rearmed change timer).dequeuedCounts = 0 := by
          refine countFor_eq_zero fun entry hentry => ?_
          obtain ⟨event, hevent, rfl⟩ := mem_map.1 hentry
          exact hfresh _ (h.dequeued event hevent)
        simp only [Timer.token]
        rw [hzero, hzero']
        exact ⟨by simp [Timer.pendingCount], by simp [Timer.pendingCount]⟩
    · have hold := h.timers other hmem
      refine ⟨(hnew hold.arming_lt).trans hold.current, hold.kind,
        fun arming native hnative hident => ?_, fun native hnative hident => ?_, hold.ready,
        hold.unreturned, hold.balanced⟩
      · by_cases hlt : arming < q.armed.length
        · exact hold.last arming native ((hnew hlt).symm.trans hnative) hident
        · have hnow : arming = q.armed.length := by
            have hlt' := (List.getElem?_eq_some_iff.1 hnative).1
            omega
          rw [hnow, hlast] at hnative
          rw [← some.inj hnative] at hident
          exact absurd hident.symm hne
      · rcases mem_append.1 hnative with hmem' | hnow
        · exact hold.latest native hmem' hident
        · rw [mem_singleton.1 hnow] at hident
          exact absurd hident.symm hne
  · have hlt := h.returned entry hentry
    rw [hlength]
    exact ⟨Nat.lt_succ_of_lt hlt.1, hlt.2⟩
  · simp only [TimerQueue.rearmed, map_append]
    exact mem_append_left _ (h.dequeued event hevent)
  · by_cases hold : arming < q.armed.length
    · exact h.once arming native ((hnew hold).symm.trans hnative) honeShot
    · have hzero : q.returned.countP (fun entry => entry.1 == arming) = 0 := by
        refine countP_eq_zero.2 fun entry hentry heq => ?_
        have hlt := (h.returned entry hentry).1
        rw [beq_iff_eq] at heq
        omega
      exact Nat.le_trans (Nat.le_of_eq hzero) (Nat.zero_le 1)

/-- The next native ident is used up. -/
theorem grow (h : QueueOk q) (hident : q.nextIdent ≠ 0) :
    QueueOk { q with nextIdent := q.nextIdent + 1 } := by
  have hlt : ∀ {n : ℕ}, q.nextIdent + 1 ≠ 0 → n < q.nextIdent.toNat →
      n < (q.nextIdent + 1).toNat := fun hne hn => by
    have hsucc : (q.nextIdent + 1).toNat = q.nextIdent.toNat + 1 := by bv_omega
    omega
  exact { h with
    idents := fun hne timer htimer => hlt hne (h.idents hident timer htimer)
    used := fun hne native hnative => hlt hne (h.used hident native hnative)
    timers := fun timer htimer => { h.timers timer htimer with } }

theorem applies (h : QueueOk q) (happlies : Applies q change error q') : QueueOk q' := by
  have hidents := h.idents.applies happlies
  cases happlies with
  | failed _ _ hnext =>
    rcases hnext with rfl | ⟨hident, rfl⟩
    · exact h
    · exact h.grow hident
  | deleted =>
    exact h.of_timers hidents rfl rfl rfl rfl fun other hother =>
      h.timers other (mem_of_mem_eraseP hother)
  | rearmed timer hfind _ _ hgeneration =>
    have hmem := mem_of_find?_eq_some hfind
    exact h.rearmed (h.timers timer hmem).latest hgeneration
      (fun hident => h.idents hident timer hmem) hidents
  | switched timer hfind =>
    have hold := h.timers timer (mem_of_find?_eq_some hfind)
    refine h.of_timers hidents rfl rfl rfl rfl fun other hother => ?_
    rcases mem_store q.timers.unique hother with rfl | ⟨hmem, -⟩
    · unfold switched
      split
      · exact { hold with }
      · split
        · exact { hold with }
        · exact hold
    · exact h.timers other hmem
  | inserted _ _ _ hident =>
    refine (h.grow hident).rearmed (fun native hnative heq => ?_) (by simp) (fun hne => ?_) hidents
    · have hlt := h.used hident native hnative
      rw [heq] at hlt
      exact absurd hlt (Nat.lt_irrefl _)
    · show q.nextIdent.toNat < (q.nextIdent + 1).toNat
      have hne : q.nextIdent + 1 ≠ 0 := hne
      bv_omega

/-! ### The waiter -/

theorem of_genuineEvent (h : q.genuineEvent event) (hfilter : event.filter = evfiltTimer) :
    (∃ native, q.armed[event.arming]? = some native ∧ native.token = event.token)
      ∧ hasAny event.flags evError = false ∧ 0 ≤ event.data ∧ event.data ≤ int64Max := by
  simp only [genuineEvent, hfilter, bne_self_eq_false, Bool.false_or, Bool.and_eq_true,
    Option.any_eq_true, beq_iff_eq, Bool.not_eq_true', decide_eq_true_eq] at h
  obtain ⟨⟨⟨hnative, herror⟩, hcount⟩, hmax⟩ := h
  exact ⟨hnative, herror, hcount, hmax⟩

/-- Collecting an expiration adds its count to what is pending, up to saturation. -/
theorem collected_spec (h : QueueOk q) (hmem : timer ∈ q.timers.entries)
    (hgenuine : q.genuineEvent event) (hfilter : event.filter = evfiltTimer) :
    Balanced (countFor timer.arming q.returnedCounts) (collected timer event).data
        (countFor timer.token q.dequeuedCounts + event.data)
      ∧ timer.pendingCount ≤ (collected timer event).data
      ∧ 0 ≤ (collected timer event).data ∧ (collected timer event).data ≤ int64Max := by
  obtain ⟨-, -, -, -, hready, -, hle, hsaturated⟩ := h.timers timer hmem
  obtain ⟨-, herror, hcount, hmax⟩ := of_genuineEvent hgenuine hfilter
  have hnonneg : 0 ≤ countFor timer.arming q.returnedCounts := by
    refine countFor_nonneg (fun entry hentry => ?_) _
    obtain ⟨old, hmem', rfl⟩ := mem_map.1 hentry
    exact (h.returned old hmem').2
  unfold collected
  unfold Timer.pendingCount at *
  cases hpending : timer.pending with
  | false =>
    simp only [hpending, Bool.false_eq_true, if_false, Bool.false_and] at hle hsaturated ⊢
    exact ⟨⟨by omega, by omega⟩, hcount, hcount, hmax⟩
  | true =>
    obtain ⟨-, hpositive, hbound⟩ := hready hpending
    simp only [hpending, if_true, herror, Bool.not_false, Bool.and_self] at hle hsaturated ⊢
    split
    · exact ⟨⟨by omega, by omega⟩, hbound, by omega, Int.le_refl _⟩
    · exact ⟨⟨by omega, by omega⟩, by omega, by omega, by omega⟩

theorem countFor_dequeue (q : TimerQueue) (event : Kevent64) (token : U64 × U64) :
    countFor token (q.dequeue event).dequeuedCounts
      = countFor token q.dequeuedCounts + if event.token = token then event.data else 0 := by
  simp only [dequeuedCounts, dequeue, map_append, map_singleton, countFor_append]

/-- An event that is not of the timer's token does not concern it. -/
theorem dequeue_other (h : QueueOk q) (hother : other ∈ q.timers.entries)
    (hne : other.token ≠ event.token) : TimerOk (q.dequeue event) other := by
  have hold := h.timers other hother
  refine hold.of_armed rfl hold.unreturned ?_
  rw [countFor_dequeue, if_neg hne.symm, Int.add_zero]
  exact hold.balanced

/-- A genuine event is noted as dequeued. -/
theorem dequeue (h : QueueOk q) (hgenuine : q.genuineEvent event)
    (hfilter : event.filter = evfiltTimer) :
    ∀ noted ∈ (q.dequeue event).dequeued, noted.token ∈ q.armed.map token := by
  intro noted hnoted
  rcases mem_append.1 hnoted with hmem | hnow
  · exact h.dequeued noted hmem
  · obtain ⟨⟨native, hnative, htoken⟩, -⟩ := of_genuineEvent hgenuine hfilter
    rw [mem_singleton.1 hnow, ← htoken]
    exact mem_map_of_mem (mem_of_getElem? hnative)

theorem collects (h : QueueOk q) (hgenuine : q.genuineEvent event)
    (hcollects : Collects q event q') : QueueOk q' := by
  have hidents := h.idents.collects hcollects
  cases hcollects with
  | ignored => exact h
  | dropped hfilter hstale =>
    exact ⟨hidents, h.used, h.tokens,
      fun other hother => h.dequeue_other hother (hstale other hother),
      h.returned, h.dequeue hgenuine hfilter, h.once⟩
  | collected timer hmem hfilter htoken =>
    have hold := h.timers timer hmem
    obtain ⟨⟨native, hnative, hnativeToken⟩, -⟩ := of_genuineEvent hgenuine hfilter
    obtain ⟨hbalanced, -, hpositive, hbound⟩ := h.collected_spec hmem hgenuine hfilter
    -- the token of the event is that of the timer, so the event is of the current arming
    have harming : event.arming = timer.arming :=
      h.arming_inj hnative hold.current (hnativeToken.trans htoken.symm)
    refine ⟨hidents, h.used, h.tokens, fun other hother => ?_, h.returned,
      h.dequeue hgenuine hfilter, h.once⟩
    rcases mem_store q.timers.unique hother with rfl | ⟨hmem', hne⟩
    · refine { hold with ready := fun _ => ⟨?_, hpositive, hbound⟩, balanced := ?_ }
      · rw [← harming]
        show (collected timer event).arming = event.arming
        unfold collected
        split <;> rfl
      · show Balanced _ _ (countFor timer.token (q.dequeue event).dequeuedCounts)
        rw [countFor_dequeue, if_pos htoken.symm]
        exact hbalanced
    · have hkept := h.dequeue_other hmem' fun heq =>
        hne (congrArg Prod.fst (heq.trans htoken.symm))
      exact { hkept with }

theorem armed_collect (q : TimerQueue) (event : Kevent64) : (q.collect event).armed = q.armed := by
  generalize hq' : q.collect event = q'
  have hcollects := collect_collects q event
  rw [hq'] at hcollects
  cases hcollects <;> rfl

/-- What every genuine event preserves, a genuine round preserves. -/
theorem waiterRound_of_genuine (inv : TimerQueue → Prop)
    (hcollect : ∀ r event, QueueOk r → inv r → r.genuineEvent event → inv (r.collect event))
    (herror : ∀ r error, inv r → inv { r with error }) (h : QueueOk q) (hinv : inv q)
    {result : WaitResult} (hgenuine : q.genuine (.waiter result)) :
    QueueOk (q.waiterRound result) ∧ inv (q.waiterRound result) := by
  -- the armed timers do not change in a round, so each event is genuine when it is collected
  have hround : QueueOk (q.waiterRound result) ∧ inv (q.waiterRound result)
      ∧ (q.waiterRound result).armed = q.armed := by
    refine @waiterRound_invariant q (fun r => QueueOk r ∧ inv r ∧ r.armed = q.armed)
      (fun event => q.genuineEvent event = true) ?_ ?_ ⟨h, hinv, rfl⟩ result ?_
    · rintro r event ⟨hr, hrinv, harmed⟩ hevent
      rw [genuineEvent, ← harmed, ← genuineEvent] at hevent
      exact ⟨hr.collects hevent (collect_collects r event), hcollect r event hr hrinv hevent,
        (armed_collect r event).trans harmed⟩
    · rintro r error ⟨hr, hrinv, harmed⟩
      exact ⟨hr.of_timers hr.idents rfl rfl rfl rfl hr.timers, herror r error hrinv, harmed⟩
    · rintro events rfl event hevent
      exact all_eq_true.1 hgenuine event hevent
  exact ⟨hround.1, hround.2.1⟩

/-! ### `Take` -/

theorem countFor_taken (q : TimerQueue) (timer : Timer) (arming : ℕ) :
    countFor arming (q.taken timer).returnedCounts = countFor arming q.returnedCounts
        + if timer.arming = arming then timer.readyEvent.data else 0 := by
  simp only [returnedCounts, taken_returned, map_append, map_singleton, countFor_append]
  rfl

/-- The other timers hold other armings, so what is taken is not counted for them. -/
theorem taken_other (h : QueueOk q) (hmem : timer ∈ q.timers.entries)
    (hother : other ∈ q.timers.entries) (hne : other.nativeIdent ≠ timer.nativeIdent) :
    TimerOk (q.taken timer) other := by
  have hold := h.timers other hother
  have hapart : timer.arming ≠ other.arming := fun heq =>
    hne (congrArg Timer.nativeIdent (h.eq_of_arming hmem hother heq.symm))
  refine hold.of_armed (taken_armed q timer) (fun honeShot entry hentry => ?_) ?_
  · rcases mem_append.1 hentry with hmem' | hnow
    · exact hold.unreturned honeShot entry hmem'
    · rw [mem_singleton.1 hnow]
      exact hapart
  · rw [countFor_taken, if_neg hapart, Int.add_zero, dequeuedCounts, taken_dequeued]
    exact hold.balanced

/-- A repeating timer stays, with its count moved from pending to returned. -/
theorem taken_repeating (h : QueueOk q) (hmem : timer ∈ q.timers.entries)
    (hpending : timer.pending) (hrepeats : timer.oneShot = false) :
    TimerOk (q.taken timer) { timer with pending := false } := by
  obtain ⟨hcurrent, hkind, hlast, hlatest, -, -, hbalanced⟩ := h.timers timer hmem
  rw [← taken_armed q timer] at hcurrent hlast hlatest
  refine ⟨hcurrent, hkind, hlast, hlatest, nofun, by simp [hrepeats], ?_⟩
  rw [Timer.pendingCount, if_pos hpending] at hbalanced
  rw [countFor_taken, if_pos rfl, dequeuedCounts, taken_dequeued, Timer.pendingCount,
    if_neg (by simp)]
  exact ⟨(Int.add_zero _).trans_le hbalanced.le, (Int.add_zero _).symm ▸ hbalanced.saturated⟩

theorem once_taken (h : QueueOk q) (hmem : timer ∈ q.timers.entries) {arming : ℕ}
    {native : Kevent64}
    (hnative : q.armed[arming]? = some native) (honeShot : native.oneShot) :
    (q.taken timer).returned.countP (fun entry => entry.1 == arming) ≤ 1 := by
  have hold := h.timers timer hmem
  rw [taken_returned, countP_append, countP_singleton]
  by_cases heq : timer.arming = arming
  · subst heq
    rw [hold.current, some.injEq] at hnative
    have hnone := hold.unreturned (hold.kind.trans (by rw [hnative, honeShot]))
    rw [countP_eq_zero.2 (by simpa using hnone)]
    split <;> omega
  · rw [if_neg (by simpa using heq)]
    exact h.once arming native hnative honeShot

theorem taken (h : QueueOk q) (hmem : timer ∈ q.timers.entries) (hpending : timer.pending) :
    QueueOk (q.taken timer) := by
  have hold := h.timers timer hmem
  refine ⟨h.idents.taken hmem, ?_, ?_, fun other hother => ?_, fun entry hentry => ?_, ?_,
    fun arming native hnative => ?_⟩
  · rw [taken_nextIdent, taken_armed]
    exact h.used
  · rw [taken_armed]
    exact h.tokens
  · rcases mem_taken hother with ⟨hmem', hne⟩ | ⟨hrepeats, rfl⟩
    · exact h.taken_other hmem hmem' hne
    · exact h.taken_repeating hmem hpending hrepeats
  · rw [taken_armed]
    rcases mem_append.1 hentry with hmem' | hnow
    · exact h.returned entry hmem'
    · rw [mem_singleton.1 hnow]
      exact ⟨hold.arming_lt, (hold.ready hpending).2.1⟩
  · rw [taken_dequeued, taken_armed]
    exact h.dequeued
  · rw [taken_armed] at hnative
    exact h.once_taken hmem hnative

/-! ### Every step -/

theorem requestStop (h : QueueOk q) : QueueOk q.requestStop := by
  have hidents := h.idents.requestStop
  unfold TimerQueue.requestStop at *
  split
  · exact h
  · rename_i hstopping
    rw [if_neg hstopping] at hidents
    exact h.of_timers hidents rfl rfl rfl rfl fun timer htimer => absurd htimer (by simp)

theorem step (h : QueueOk q) {event : Event} (hgenuine : q.genuine event) :
    QueueOk (q.step event) := by
  cases event with
  | apply host change => exact h.applies (apply_applies h.idents host change)
  | waiter =>
    exact (h.waiterRound_of_genuine (fun _ => True) (fun _ _ _ _ _ => trivial)
      (fun _ _ _ => trivial) trivial hgenuine).1
  | take excludedQosFlags requiredQosFlags =>
    rcases q.take_cases excludedQosFlags requiredQosFlags with ⟨-, hnone⟩ | ⟨timer, hdue, htake⟩
    · rw [TimerQueue.step, hnone]
      exact h
    · rw [TimerQueue.step, htake]
      obtain ⟨hmem, hpending, -⟩ := of_find?_takeable (find?_of_due hdue)
      exact h.taken hmem hpending
  | rehash timers =>
    simp only [TimerQueue.step]
    split
    · rename_i hperm
      refine h.of_timers (h.idents.mono rfl fun timer htimer => ?_) rfl rfl rfl rfl
        fun timer htimer => ?_
      · exact ⟨timer, hperm.mem_iff.1 htimer, rfl⟩
      · exact h.timers timer (hperm.mem_iff.1 htimer)
    · exact h
  | requestStop => exact h.requestStop

end QueueOk

/-! ## What `Apply` leaves -/

theorem applyTo_ghosts (q : TimerQueue) (reply : KernelReply) (change : KeventQos) (inserted : Bool)
    (timer : Timer) :
    (q.applyTo reply change inserted timer).2.returned = q.returned
      ∧ (q.applyTo reply change inserted timer).2.dequeued = q.dequeued := by
  unfold applyTo
  cases inserted <;> (dsimp only; repeat' split) <;> exact ⟨rfl, rfl⟩

theorem apply_ghosts (q : TimerQueue) (host : TimerHost) (change : KeventQos) :
    (q.apply host change).2.returned = q.returned
      ∧ (q.apply host change).2.dequeued = q.dequeued := by
  unfold apply
  repeat' split
  all_goals first | exact ⟨rfl, rfl⟩ | exact applyTo_ghosts _ _ _ _ _

/-! ## Disabled timers -/

/-- The step is about `timer` itself: it is armed anew, enabled or removed. -/
def touches (timer : Timer) : Event → Bool
  | .apply _ change =>
    timerMatches change timer && (hasAny change.flags evAdd || hasAny change.flags evDelete
      || hasAny change.flags evEnable)
  | .requestStop => true
  | _ => false

/-- `timer'` is the disabled `timer` at a later time: it may have collected more. -/
structure Holds (timer timer' : Timer) : Prop where
  arming : timer'.arming = timer.arming
  guest : timer'.guest = timer.guest
  enabled : timer'.enabled = false
  count : timer.pendingCount ≤ timer'.pendingCount

theorem Holds.trans {timer' timer'' : Timer} (h : Holds timer timer') (h' : Holds timer' timer'') :
    Holds timer timer'' :=
  ⟨h'.arming.trans h.arming, h'.guest.trans h.guest, h'.enabled, h.count.trans h'.count⟩

theorem Holds.touches_eq {timer' : Timer} (h : Holds timer timer') (event : Event) :
    touches timer' event = touches timer event := by
  cases event <;> simp only [touches, timerMatches, h.guest]

/-- What was returned for one arming. -/
def returnedFor (q : TimerQueue) (arming : ℕ) : List (ℕ × KeventQos) :=
  q.returned.filter (fun entry => entry.1 == arming)

section Disabled

variable {q q' : TimerQueue} {timer : Timer}

theorem holds_refl (hdisabled : timer.enabled = false) : Holds timer timer :=
  ⟨rfl, rfl, hdisabled, Int.le_refl _⟩

theorem holds_applies (h : QueueOk q) (hmem : timer ∈ q.timers.entries)
    (hdisabled : timer.enabled = false) {host : TimerHost}
    (htouches : touches timer (.apply host change) = false) (happlies : Applies q change error q') :
    ∃ timer' ∈ q'.timers.entries, Holds timer timer' := by
  simp only [touches, Bool.and_eq_false_imp, Bool.or_eq_false_iff] at htouches
  -- a change that finds this very timer can only switch it off once more
  have hfound : ∀ {other}, q.timers.entries.find? (timerMatches change) = some other →
      timer.nativeIdent = other.nativeIdent → timer = other ∧ timerMatches change timer := by
    intro other hfind hident
    have heq := q.timers.unique.eq_of_key_eq hmem (mem_of_find?_eq_some hfind) hident
    exact ⟨heq, heq ▸ find?_some hfind⟩
  have hself : Holds timer timer := holds_refl hdisabled
  cases happlies with
  | failed => exact ⟨timer, hmem, hself⟩
  | deleted _ hfind hdelete =>
    refine ⟨timer, (mem_eraseP_of_neg ?_).2 hmem, hself⟩
    intro hident
    have hflags := htouches (hfound hfind (by simpa using hident)).2
    rw [hdelete] at hflags
    cases hflags.1.2
  | rearmed _ hfind _ hadd =>
    refine ⟨timer, mem_store_of_ne hmem fun hident => ?_, hself⟩
    have hflags := htouches (hfound hfind hident).2
    rw [hadd] at hflags
    cases hflags.1.1
  | switched other hfind =>
    by_cases hident : timer.nativeIdent = other.nativeIdent
    · obtain ⟨rfl, hmatch⟩ := hfound hfind hident
      refine ⟨_, self_mem_store _ _, ?_⟩
      unfold switched
      rw [(htouches hmatch).2]
      split
      · exact ⟨rfl, rfl, rfl, Int.le_refl _⟩
      · exact hself
    · refine ⟨timer, mem_store_of_ne hmem ?_, hself⟩
      unfold switched
      split
      · exact hident
      · split <;> exact hident
  | inserted _ _ _ hnext =>
    exact ⟨timer, mem_store_of_ne hmem (fresh_of_identsBelow h.idents hnext timer hmem), hself⟩

theorem holds_collect (h : QueueOk q) (hmem : timer ∈ q.timers.entries)
    (hdisabled : timer.enabled = false) (hgenuine : q.genuineEvent event) :
    (∃ timer' ∈ (q.collect event).timers.entries, Holds timer timer')
      ∧ (q.collect event).returned = q.returned := by
  generalize hq' : q.collect event = q'
  have hcollects := collect_collects q event
  rw [hq'] at hcollects
  cases hcollects with
  | ignored | dropped => exact ⟨⟨timer, hmem, holds_refl hdisabled⟩, rfl⟩
  | collected other hother hfilter =>
    refine ⟨?_, rfl⟩
    by_cases hident : timer.nativeIdent = other.nativeIdent
    · obtain rfl := q.timers.unique.eq_of_key_eq hmem hother hident
      exact ⟨_, self_mem_store _ _, rfl, rfl, hdisabled,
        (h.collected_spec hmem hgenuine hfilter).2.1⟩
    · exact ⟨timer, mem_store_of_ne hmem hident, holds_refl hdisabled⟩

theorem holds_step (h : QueueOk q) (hmem : timer ∈ q.timers.entries)
    (hdisabled : timer.enabled = false) {event : Event} (hgenuine : q.genuine event)
    (htouches : touches timer event = false) :
    (∃ timer' ∈ (q.step event).timers.entries, Holds timer timer')
      ∧ (q.step event).returnedFor timer.arming = q.returnedFor timer.arming := by
  have hself : Holds timer timer := holds_refl hdisabled
  cases event with
  | apply host change =>
    exact ⟨holds_applies h hmem hdisabled htouches (apply_applies h.idents host change),
      congrArg (filter _) (apply_ghosts q host change).1⟩
  | waiter =>
    have hround := h.waiterRound_of_genuine
      (fun r => (∃ timer' ∈ r.timers.entries, Holds timer timer') ∧ r.returned = q.returned)
      ?_ (fun _ _ hinv => hinv) ⟨⟨timer, hmem, hself⟩, rfl⟩ hgenuine
    · exact ⟨hround.2.1, congrArg (filter _) hround.2.2⟩
    · rintro r event hr ⟨⟨timer', hmem', hholds⟩, hreturned⟩ hevent
      obtain ⟨⟨timer'', hmem'', hholds'⟩, hsame⟩ := holds_collect hr hmem' hholds.enabled hevent
      exact ⟨⟨timer'', hmem'', hholds.trans hholds'⟩, hsame.trans hreturned⟩
  | take excludedQosFlags requiredQosFlags =>
    rcases q.take_cases excludedQosFlags requiredQosFlags with ⟨-, hnone⟩ | ⟨other, hdue, htake⟩
    · rw [step, hnone]
      exact ⟨⟨timer, hmem, hself⟩, rfl⟩
    · rw [step, htake]
      -- the timer that is taken is enabled, so it is another one
      obtain ⟨hother, -, henabled⟩ := of_find?_takeable (find?_of_due hdue)
      have hne : timer ≠ other := by
        rintro rfl
        cases hdisabled.symm.trans henabled
      refine ⟨⟨timer, mem_taken_of_ne hmem fun hident =>
        hne (q.timers.unique.eq_of_key_eq hmem hother hident), hself⟩, ?_⟩
      have hapart : other.arming ≠ timer.arming := fun heq =>
        hne (h.eq_of_arming hother hmem heq.symm)
      simp [returnedFor, hapart]
  | rehash =>
    simp only [step]
    split
    · next hperm => exact ⟨⟨timer, hperm.mem_iff.2 hmem, hself⟩, rfl⟩
    · exact ⟨⟨timer, hmem, hself⟩, rfl⟩
  | requestStop => simp [touches] at htouches

theorem holds_run (h : QueueOk q) (hmem : timer ∈ q.timers.entries)
    (hdisabled : timer.enabled = false) {later : List Event}
    (hgenuine : Execution.Always (fun q event => q.genuine event) step q later)
    (htouches : ∀ event ∈ later, touches timer event = false) :
    (∃ timer' ∈ (q.run later).timers.entries, Holds timer timer')
      ∧ (q.run later).returnedFor timer.arming = q.returnedFor timer.arming := by
  induction later generalizing q timer with
  | nil => exact ⟨⟨timer, hmem, holds_refl hdisabled⟩, rfl⟩
  | cons event _ ih =>
    obtain ⟨hevent, hrest⟩ := hgenuine
    obtain ⟨⟨timer', hmem', hholds⟩, hsame⟩ :=
      holds_step h hmem hdisabled hevent (htouches event mem_cons_self)
    obtain ⟨⟨timer'', hmem'', hholds'⟩, hsame'⟩ :=
      ih (h.step hevent) hmem' hholds.enabled hrest fun e he => by
        rw [hholds.touches_eq]
        exact htouches e (mem_cons_of_mem _ he)
    rw [hholds.arming] at hsame'
    exact ⟨⟨timer'', hmem'', hholds.trans hholds'⟩, hsame'.trans hsame⟩

end Disabled

/-! ## What the ghosts record -/

theorem collect_ghosts (q : TimerQueue) (event : Kevent64) :
    (q.collect event).returned = q.returned ∧ (q.collect event).dequeued
      = q.dequeued ++ [event].filter (fun event => event.filter == evfiltTimer) := by
  generalize hq' : q.collect event = q'
  have hcollects := collect_collects q event
  rw [hq'] at hcollects
  cases hcollects with
  | ignored hfilter => simp [hfilter]
  | dropped hfilter => simp [dequeue, hfilter]
  | collected _ _ hfilter => simp [dequeue, store, hfilter]

theorem foldl_collect_ghosts (q : TimerQueue) (events : List Kevent64) :
    (events.foldl collect q).returned = q.returned ∧ (events.foldl collect q).dequeued
      = q.dequeued ++ events.filter (fun event => event.filter == evfiltTimer) := by
  induction events generalizing q with
  | nil => exact ⟨rfl, (append_nil _).symm⟩
  | cons event rest ih =>
    obtain ⟨hreturned, hdequeued⟩ := collect_ghosts q event
    rw [foldl_cons, (ih _).1, (ih _).2, hreturned, hdequeued, append_assoc, ← filter_append]
    exact ⟨rfl, rfl⟩

/-- A step notes what it returned and what it dequeued, and nothing else. -/
theorem step_ghosts (q : TimerQueue) (event : Event) :
    (q.step event).returned.map Prod.snd = q.returned.map Prod.snd ++ q.answered event
      ∧ (q.step event).dequeued = q.dequeued ++ q.expired event := by
  cases event with
  | apply host change =>
    obtain ⟨hreturned, hdequeued⟩ := q.apply_ghosts host change
    simp [step, answered, expired, hreturned, hdequeued]
  | waiter result =>
    by_cases hstopping : q.stopping
    · cases result <;> simp [step, waiterRound, answered, expired, hstopping]
    · cases result with
      | error => simp [step, waiterRound, answered, expired, hstopping]
      | ok events =>
        obtain ⟨hreturned, hdequeued⟩ := foldl_collect_ghosts q events
        simp [step, waiterRound, answered, expired, hstopping, hreturned, hdequeued]
  | take excludedQosFlags requiredQosFlags =>
    rcases q.take_cases excludedQosFlags requiredQosFlags with ⟨-, htake⟩ | ⟨timer, -, htake⟩ <;>
      simp [step, answered, expired, htake]
  | rehash =>
    simp only [step, answered, expired, append_nil]
    split <;> exact ⟨rfl, rfl⟩
  | requestStop =>
    simp only [step, TimerQueue.requestStop, answered, expired, append_nil]
    split <;> exact ⟨rfl, rfl⟩

/-! ## What holds after every run -/

/-- The pending count of `timer` is of its last `EV_ADD`, which is the one that the guest's
registration in the table describes. -/
structure PendingIsCurrent (q : TimerQueue) (timer : Timer) : Prop where
  registered : q.armed[timer.arming]? = some (nativeChange timer timer.generation timer.guest)
  last : ∀ (arming : ℕ) (native : Kevent64), q.armed[arming]? = some native →
    native.ident = timer.nativeIdent → arming ≤ timer.arming
  produced : timer.readyEvent.arming = timer.arming

/-- A repeating timer is armed and armed anew, and then expirations of both armings are dequeued. -/
def lateExpiration : List Event :=
  let change : KeventQos := { ident := 7, filter := evfiltTimer, flags := evAdd, data := 10 }
  let host : TimerHost := ⟨true, .receipt 1 evError none⟩
  let expired : Kevent64 := { ident := 1, filter := evfiltTimer, data := 3, udata := 1 }
  [.apply host change, .apply host change,
    .waiter (.ok [expired, { expired with data := 2, udata := 2, arming := 1 }])]

end TimerQueue

end LiveExec32.Workqueue
