import LiveExec32.Lib.Labels
import LiveExec32.Workqueue.Registrations
import LiveExec32.Workqueue.TimerTable

/-! # Which registration a change is for

A change looks for a registration with its ident (and filter); the `udata` has to agree as well if
the registration or the change has `EV_UDATA_SPECIFIC`. Both tables, `guestWorkqueueKevents` and the
timers, use this lookup, which is the one of `Label`.

A guest that registers one ident both with and without `EV_UDATA_SPECIFIC` can make two
registrations that one change finds (`specific_andNot_ambiguous`); which of them it modifies then
depends on the order in which the table is searched. `keysUnambiguous_iff` says exactly which
changes bring this about. -/

namespace LiveExec32.Workqueue

open List TimerQueue KeventQos EventSources Records

def KeventQos.specific (event : KeventQos) : Bool := hasAny event.flags evUdataSpecific

/-- What `GuestKeventMatches` looks at. -/
def KeventQos.label (event : KeventQos) : Label (U64 × ℤ) U64 :=
  ⟨(event.ident, event.filter), event.udata, event.specific⟩

/-- What the lookup of `LC32GuestTimerQueue::Apply` looks at. -/
def KeventQos.timerLabel (event : KeventQos) : Label U64 U64 :=
  ⟨event.ident, event.udata, event.specific⟩

theorem guestKeventMatches_eq_meets (registered : GuestWorkqueueKevent) (change : KeventQos) :
    guestKeventMatches registered change = registered.event.label.meets change.label := by
  simp only [guestKeventMatches, Label.meets, label, specific, hasAny_or]
  grind

theorem timerMatches_eq_meets (change : KeventQos) (timer : Timer) :
    timerMatches change timer = timer.guest.timerLabel.meets change.timerLabel := by
  simp only [timerMatches, Label.meets, timerLabel, specific, hasAny_or]

def keventLabels (kevents : List GuestWorkqueueKevent) : List (Label (U64 × ℤ) U64) :=
  kevents.map (·.event.label)

def TimerQueue.labels (q : TimerQueue) : List (Label U64 U64) :=
  q.timers.entries.map (·.guest.timerLabel)

/-- The change finds at most one registration, in either table. -/
def EventSources.KeysUnambiguous (sources : EventSources) : Prop :=
  ∀ change, sources.kevents.countP (guestKeventMatches · change) ≤ 1
    ∧ ∀ queue, sources.timerQueue = some queue →
      queue.timers.entries.countP (TimerQueue.timerMatches change) ≤ 1

/-- The timers of the queue, if there is one. -/
def EventSources.timerLabels (sources : EventSources) : List (Label U64 U64) :=
  sources.timerQueue.elim [] TimerQueue.labels

/-- Every label is that of some change. -/
theorem keysUnambiguous_iff_labels (sources : EventSources) : sources.KeysUnambiguous
      ↔ Label.Unambiguous (keventLabels sources.kevents)
        ∧ Label.Unambiguous sources.timerLabels := by
  have hflags : ∀ specific : Bool,
      hasAny (if specific then evUdataSpecific else 0) evUdataSpecific = specific := by decide
  have hkevents : ∀ change, sources.kevents.countP (guestKeventMatches · change)
      = (keventLabels sources.kevents).countP (·.meets change.label) := fun change => by
    rw [keventLabels, countP_map]
    exact countP_congr fun registered _ => by
      rw [guestKeventMatches_eq_meets]
      rfl
  have htimers : ∀ (queue : TimerQueue) change,
      queue.timers.entries.countP (timerMatches change)
        = queue.labels.countP (·.meets change.timerLabel) := fun queue change => by
    rw [labels, countP_map]
    exact countP_congr fun timer _ => by
      rw [timerMatches_eq_meets]
      rfl
  unfold EventSources.KeysUnambiguous
  simp only [hkevents, htimers]
  constructor
  · intro h
    refine ⟨fun request => ?_, fun request => ?_⟩
    · obtain ⟨⟨ident, filter⟩, udata, specific⟩ := request
      have hone := (h { ident, filter, udata
                        flags := if specific then evUdataSpecific else 0 }).1
      simpa only [KeventQos.label, KeventQos.specific, hflags] using hone
    · obtain ⟨ident, udata, specific⟩ := request
      have hone := (h { ident, udata, flags := if specific then evUdataSpecific else 0 }).2
      unfold timerLabels
      cases hqueue : sources.timerQueue with
      | none => simp
      | some queue =>
        have hone := hone queue hqueue
        simp only [KeventQos.timerLabel, KeventQos.specific, hflags] at hone
        exact hone
  · rintro ⟨hkevents, htimers⟩ change
    refine ⟨hkevents change.label, fun queue hqueue => ?_⟩
    have hone := htimers change.timerLabel
    rw [timerLabels, hqueue] at hone
    exact hone

/-! ## Changes of `guestWorkqueueKevents` -/

/-- The change is stored as a registration. -/
def storesKevent (change : KeventQos) (kevents : List GuestWorkqueueKevent) : Bool :=
  !change.isTrigger && !hasAny change.flags evDelete
    && (hasAny change.flags evAdd || kevents.any (guestKeventMatches · change))

/-- Every registration differs from the change in ident or filter, or agrees with it in `udata`, or
    in whether it is `EV_UDATA_SPECIFIC`. -/
def settlesKevent (change : KeventQos) (kevents : List GuestWorkqueueKevent) : Bool :=
  !storesKevent change kevents
    || kevents.all (fun registered => registered.event.label.settles change.label)

variable {sources : EventSources} {kevents : List GuestWorkqueueKevent} {c : Registrations}
  {q : TimerQueue}

theorem keventLabels_recordFirst (h : Label.Unambiguous (keventLabels kevents))
    (change : KeventQos) {f : GuestWorkqueueKevent → GuestWorkqueueKevent}
    {new : GuestWorkqueueKevent} (hf : ∀ registered, (f registered).event = change)
    (hnew : new.event = change) :
    Label.Unambiguous (keventLabels
        (recordFirst (guestKeventMatches · change) f new kevents))
      ↔ kevents.all (fun registered => registered.event.label.settles change.label) := by
  have hmatches : (fun registered => guestKeventMatches registered change)
      = (fun registered => registered.event.label.meets change.label) :=
    funext fun registered => guestKeventMatches_eq_meets registered change
  have hone : kevents.countP (guestKeventMatches · change) ≤ 1 := by
    rw [hmatches]
    have hcount := h change.label
    rw [keventLabels, countP_map] at hcount
    exact hcount
  have hlabel : ∀ registered, (f registered).event.label = change.label := fun registered =>
    congrArg label (hf registered)
  have hperm := perm_map_recordFirst
    (g := fun registered : GuestWorkqueueKevent => registered.event.label) hlabel
    (congrArg label hnew) hone
  have hfilter : (kevents.filter (fun registered => !guestKeventMatches registered change)).map
        (fun registered => registered.event.label)
      = (keventLabels kevents).filter (fun stored => !stored.meets change.label) := by
    rw [keventLabels, filter_map]
    simp only [Function.comp_def, guestKeventMatches_eq_meets]
  rw [hfilter] at hperm
  rw [keventLabels, Label.Unambiguous.perm hperm, Label.unambiguous_store h]
  simp [keventLabels]

theorem keventLabels_applyGuestKeventChange (h : Label.Unambiguous (keventLabels kevents))
    (number : ℕ) (change : KeventQos) :
    Label.Unambiguous (keventLabels (applyGuestKeventChange number change kevents))
      ↔ settlesKevent change kevents := by
  simp only [applyGuestKeventChange]
  split
  · rename_i htrigger
    have hsame : keventLabels (modifyFirst
        (fun registered => guestKeventMatches registered change)
        (fun r => { r with triggered := true }) kevents) = keventLabels kevents := by
      refine map_modifyFirst ?_ kevents
      exact fun _ => rfl
    simp [hsame, h, settlesKevent, storesKevent, htrigger]
  · rename_i htrigger
    split
    · rename_i hdelete
      have herased : Label.Unambiguous (keventLabels (kevents.eraseP
          (fun registered => guestKeventMatches registered change))) :=
        h.sublist (eraseP_sublist.map _)
      simp [herased, settlesKevent, storesKevent, hdelete]
    · rename_i hdelete
      split
      · rename_i hadd
        have hstores : storesKevent change kevents := by
          simp [storesKevent, htrigger, hdelete, hadd]
        rw [keventLabels_recordFirst h change (fun _ => rfl) rfl, settlesKevent, hstores,
          Bool.not_true, Bool.false_or]
      · rename_i hadd
        by_cases hany : kevents.any (guestKeventMatches · change) = true
        · have hstores : storesKevent change kevents := by
            simp [storesKevent, htrigger, hdelete, hany]
          have hmodified : ∀ registered,
              (modifiedKevent number change registered).event = change := fun registered => by
            unfold modifiedKevent
            split
            · rfl
            · split <;> rfl
          have hrecord : recordFirst (guestKeventMatches · change)
              (modifiedKevent number change) (addedKevent number change none) kevents
              = modifyFirst (guestKeventMatches · change)
                (modifiedKevent number change) kevents := by
            rw [recordFirst_eq, if_pos hany]
          rw [← hrecord, keventLabels_recordFirst h change hmodified rfl, settlesKevent,
            hstores, Bool.not_true, Bool.false_or]
        · have hnone : modifyFirst (guestKeventMatches · change)
              (modifiedKevent number change) kevents = kevents :=
            modifyFirst_of_none (by simpa using hany)
          have hstores : storesKevent change kevents = false := by
            simp [storesKevent, hadd, hany]
          simp [hnone, h, settlesKevent, hstores]

/-! ## Changes of the timers -/

namespace TimerQueue

variable {timer : Timer}

theorem labels_store_same {timer' : Timer} (hmem : timer ∈ q.timers.entries)
    (hident : timer.nativeIdent = timer'.nativeIdent) (hguest : timer'.guest = timer.guest) :
    (q.store timer').labels = q.labels := by
  have hlabel : timer'.guest.timerLabel = timer.guest.timerLabel := congrArg _ hguest
  exact q.timers.unique.map_store hmem hident hlabel

variable {change : KeventQos}

/-- Storing a registration in the place of the one that the change finds. -/
theorem labels_rearmed (h : Label.Unambiguous q.labels) (hothers : ∀ other ∈ q.timers.entries,
      other.nativeIdent = timer.nativeIdent ↔ timerMatches change other) :
    Label.Unambiguous (q.rearmed change timer).labels
      ↔ ∀ stored ∈ q.labels, stored.settles change.timerLabel := by
  let armed : Timer :=
    { timer with
      guest := change
      pending := false
      enabled := !hasAny change.flags evDisable
      oneShot := hasAny change.flags evOneShot || hasAny change.fflags noteAbsolute
      generation := timer.generation + 1
      arming := q.armed.length }
  have hperm := (q.timers.unique.perm_store armed).map (fun timer => timer.guest.timerLabel)
  have hfilter : (q.timers.entries.filter
        (fun other => other.nativeIdent != timer.nativeIdent)).map (fun t => t.guest.timerLabel)
      = q.labels.filter (fun stored => !stored.meets change.timerLabel) := by
    rw [labels, filter_map]
    congr 1
    refine filter_congr fun other hother => ?_
    have hiff := hothers other hother
    rw [timerMatches_eq_meets] at hiff
    rw [Bool.eq_iff_iff]
    simp [hiff]
  rw [map_cons, show (q.timers.entries.filter
    (fun other => other.nativeIdent != armed.nativeIdent)).map (fun t => t.guest.timerLabel) = _
    from hfilter] at hperm
  exact (Label.Unambiguous.perm hperm).trans (Label.unambiguous_store h change.timerLabel)

variable {q' : TimerQueue}

theorem labels_applies (h : Label.Unambiguous q.labels) (hidents : q.IdentsBelow)
    {error : Option Errno} (happlies : Applies q change error q') :
    Label.Unambiguous q'.labels
      ↔ (error = none → hasAny change.flags evAdd → hasAny change.flags evDelete = false →
        ∀ stored ∈ q.labels, stored.settles change.timerLabel) := by
  cases happlies with
  | failed =>
    exact ⟨by simp, fun _ => h⟩
  | deleted _ _ hdelete =>
    refine ⟨fun _ _ _ hkeep => absurd hdelete (by simp [hkeep]), fun _ => ?_⟩
    exact h.sublist (eraseP_sublist.map _)
  | switched timer hfind _ hadd =>
    refine ⟨by simp [hadd], fun _ => ?_⟩
    have hsame : ∀ {timer}, (switched change timer).nativeIdent = timer.nativeIdent
        ∧ (switched change timer).guest = timer.guest := by
      unfold switched
      split
      · exact ⟨rfl, rfl⟩
      · split <;> exact ⟨rfl, rfl⟩
    rw [labels_store_same (mem_of_find?_eq_some hfind) hsame.1.symm hsame.2]
    exact h
  | rearmed timer hfind hdelete hadd =>
    have hmem := mem_of_find?_eq_some hfind
    have hmatch := find?_some hfind
    rw [labels_rearmed h fun other hother => ?_]
    · exact ⟨fun hall _ _ _ => hall, fun hall => hall rfl hadd hdelete⟩
    · refine ⟨fun heq => ?_, fun hother' => ?_⟩
      · rw [q.timers.unique.eq_of_key_eq hother hmem heq]
        exact hmatch
      · -- the change finds no other timer
        refine Classical.byContradiction fun hne => ?_
        have hcount := h change.timerLabel
        rw [labels, countP_map] at hcount
        have hmatches : (fun timer : Timer => timer.guest.timerLabel.meets change.timerLabel)
            = timerMatches change := funext fun timer => (timerMatches_eq_meets change timer).symm
        rw [show ((fun stored : Label U64 U64 => stored.meets change.timerLabel)
          ∘ fun timer : Timer => timer.guest.timerLabel)
          = timerMatches change from hmatches] at hcount
        have htwo := q.timers.unique.countP_eraseP (timerMatches change) hmem
        rw [if_pos hmatch] at htwo
        have hpos : 0 < (q.timers.entries.eraseP
            (fun x => x.nativeIdent == timer.nativeIdent)).countP (timerMatches change) := by
          refine countP_pos_iff.2 ⟨other, ?_, hother'⟩
          exact (mem_eraseP_of_neg (by simpa using hne)).2 hother
        omega
  | inserted hfind hdelete hadd hident =>
    have hfresh := fresh_of_identsBelow hidents hident
    rw [labels_rearmed (q := { q with nextIdent := q.nextIdent + 1 }) h fun other hother => ?_]
    · exact ⟨fun hall _ _ _ => hall, fun hall => hall rfl hadd hdelete⟩
    · refine ⟨fun heq => absurd heq (hfresh other hother), fun hother' => ?_⟩
      exact absurd hother' (find?_eq_none.1 hfind other hother)

theorem labels_collects {event : Kevent64} (h : Collects q event q') : q'.labels = q.labels := by
  cases h with
  | ignored | dropped => rfl
  | collected _ hmem => exact labels_store_same (q := q.dequeue event) hmem rfl rfl

theorem labels_waiterRound (q : TimerQueue) (result : WaitResult) :
    (q.waiterRound result).labels = q.labels := by
  have hcollect : ∀ (q' : TimerQueue) (event : Kevent64), q'.labels = q.labels → True →
      (q'.collect event).labels = q.labels := fun q' event h _ =>
    (labels_collects (q'.collect_collects event)).trans h
  exact waiterRound_invariant hcollect (fun _ _ h => h) rfl (fun _ _ _ _ => trivial)

theorem labels_taken (hmem : timer ∈ q.timers.entries) :
    (q.taken timer).labels.Sublist q.labels := by
  unfold taken
  split
  · exact eraseP_sublist.map _
  · have hsame : (q.store { timer with pending := false }).labels = q.labels :=
      labels_store_same hmem rfl rfl
    exact hsame ▸ List.Sublist.refl _

/-- The queue takes an `EV_ADD`: it and its waiter work, the kernel accepts the timer, and the timer
    can be armed once more, or there is room for another one. -/
def takesAdd (q : TimerQueue) (host : TimerHost) (change : KeventQos) : Bool :=
  !q.stopping && q.error.isNone && host.kernel.error.isNone
    && match q.timers.entries.find? (timerMatches change) with
      | some timer => timer.generation != BitVec.allOnes 64
      | none => q.timers.entries.length < 4096 && q.nextIdent != 0 && host.emplaces

theorem applyTo_add (q : TimerQueue) (reply : KernelReply) (inserted : Bool) (timer : Timer)
    (hadd : hasAny change.flags evAdd) (hdelete : hasAny change.flags evDelete = false) :
    (q.applyTo reply change inserted timer).1 = none
      ↔ timer.generation ≠ BitVec.allOnes 64 ∧ reply.error = none := by
  simp only [applyTo, applyError, hadd, hdelete, Bool.true_and, beq_iff_eq, Bool.not_true,
    Bool.and_false, Bool.false_eq_true, if_false, if_true]
  split
  · next hroom => simp [hroom]
  · next hroom =>
    cases reply.error <;>
      simp only [ne_eq, hroom, not_false_eq_true, true_and, reduceCtorEq]

theorem apply_add (q : TimerQueue) (host : TimerHost) (hfilter : change.filter = evfiltTimer)
    (hadd : hasAny change.flags evAdd) (hdelete : hasAny change.flags evDelete = false) :
    (q.apply host change).1 = none ↔ q.takesAdd host change := by
  unfold apply takesAdd
  cases q.stopping with
  | true => simp [hfilter]
  | false =>
    cases q.error with
    | some error => simp [hfilter]
    | none =>
      cases q.timers.entries.find? (timerMatches change) with
      | some timer => simp [hfilter, applyTo_add q host.kernel false timer hadd hdelete, and_comm]
      | none =>
        simp only [hfilter, hadd, hdelete, bne_self_eq_false, Bool.not_true, Bool.or_self,
          Bool.false_eq_true, if_false]
        split
        · next hfull => simp [Nat.not_lt.2 hfull]
        · rename_i hfull
          split
          · next hnext => simp_all
          · next hnext =>
            rw [bne, Bool.not_eq_true _ |>.mp hnext]
            cases host.emplaces with
            | false => simp
            | true =>
              simp only [Bool.not_true, Bool.false_eq_true, if_false]
              rw [applyTo_add _ _ _ _ hadd hdelete]
              simp [Nat.not_le.1 hfull]

end TimerQueue

/-- The change is stored as a timer's registration. -/
def storesTimer (sources : EventSources) (host : TimerChangeHost) (change : KeventQos) : Bool :=
  !sources.stopping && (sources.timerQueue.isSome || host.createError.isNone)
    && hasAny change.flags evAdd && !hasAny change.flags evDelete
    && (sources.timerQueue.getD {}).takesAdd host.apply change

/-- Every timer differs from the change in its ident, or agrees with it in `udata`, or in whether it
    is `EV_UDATA_SPECIFIC`. -/
def settlesTimer (sources : EventSources) (host : TimerChangeHost) (change : KeventQos) : Bool :=
  !storesTimer sources host change
    || sources.timerLabels.all (fun stored => stored.settles change.timerLabel)

/-- The native idents of the queue's timers are in order. -/
def EventSources.IdentsBelow (sources : EventSources) : Prop :=
  ∀ queue, sources.timerQueue = some queue → queue.IdentsBelow

/-- An `Apply` to the queue, which may have just been created. -/
theorem timerLabels_apply {queue : TimerQueue} {change : KeventQos} (host : TimerHost)
    (hfilter : change.filter = evfiltTimer) (hlabels : sources.timerLabels = queue.labels)
    (h : Label.Unambiguous sources.timerLabels) (hidents : queue.IdentsBelow) :
    Label.Unambiguous (queue.apply host change).2.labels
      ↔ (!(hasAny change.flags evAdd && !hasAny change.flags evDelete
          && queue.takesAdd host change)
        || sources.timerLabels.all (fun stored => stored.settles change.timerLabel)) = true := by
  rw [hlabels] at h ⊢
  rw [labels_applies h hidents (apply_applies hidents host change)]
  cases hdelete : hasAny change.flags evDelete with
  | true => simp
  | false =>
    cases hadd : hasAny change.flags evAdd with
    | false => simp
    | true =>
      rw [apply_add queue host hfilter hadd hdelete]
      cases queue.takesAdd host change <;> simp

theorem timerLabels_change (h : Label.Unambiguous sources.timerLabels)
    (hidents : sources.IdentsBelow) (host : TimerChangeHost) {change : KeventQos}
    (hfilter : change.filter = evfiltTimer) :
    Label.Unambiguous (applyGuestWorkqueueTimerChange sources host change).2.timerLabels
      ↔ settlesTimer sources host change := by
  unfold settlesTimer applyGuestWorkqueueTimerChange
  split
  · next hstopping => simp [storesTimer, hstopping, h]
  · rename_i hstopping
    cases hqueue : sources.timerQueue with
    | some queue =>
      have hstores : storesTimer sources host change = (hasAny change.flags evAdd
          && !hasAny change.flags evDelete && queue.takesAdd host.apply change) := by
        simp [storesTimer, hstopping, hqueue]
      rw [hstores]
      exact timerLabels_apply host.apply hfilter (by simp [timerLabels, hqueue]) h
        (hidents queue hqueue)
    | none =>
      simp only
      split
      · have hnot : storesTimer sources host change = false := by
          cases hadd : hasAny change.flags evAdd <;> simp_all [storesTimer]
        simp [h, hnot]
      · split
        · next hcreate => simp [storesTimer, hqueue, hcreate, h]
        · rename_i hcreate
          have hstores : storesTimer sources host change = (hasAny change.flags evAdd
              && !hasAny change.flags evDelete
              && ({} : TimerQueue).takesAdd host.apply change) := by
            simp [storesTimer, hstopping, hqueue, hcreate]
          rw [hstores]
          exact timerLabels_apply host.apply hfilter (by simp [timerLabels, hqueue, labels]) h
            (fun _ timer htimer => absurd htimer (by simp))

/-! ## Deliveries -/

theorem Scans.keventLabels_sublist {allowEventManager allowOrdinary : Bool}
    {ports ports' : MachPorts} {kevents' : List GuestWorkqueueKevent}
    {found : Option GuestWorkqueueDelivery}
    (h : Scans allowEventManager allowOrdinary ports kevents found kevents' ports') :
    (keventLabels kevents').Sublist (keventLabels kevents) := by
  induction h with
  | nil | user | port => exact List.Sublist.refl _
  | skip _ _ ih | disable _ _ _ ih => exact ih.cons_cons _
  | oneShot => exact sublist_cons_self _ _

theorem labels_next (sources : EventSources) (allowEventManager allowOrdinary : Bool) :
    let sources' := (nextGuestWorkqueueEvent sources allowEventManager allowOrdinary).2
    (keventLabels sources'.kevents).Sublist (keventLabels sources.kevents)
      ∧ sources'.timerLabels.Sublist sources.timerLabels := by
  intro sources'
  rcases nextGuestWorkqueueEvent_cases sources allowEventManager allowOrdinary with
    ⟨queue, timer, htakes, heq⟩ | ⟨found, kevents, ports, -, hscan, heq⟩
  · simp only [sources', heq]
    refine ⟨List.Sublist.refl _, ?_⟩
    simp only [timerLabels, htakes.queue_eq, Option.elim_some]
    exact labels_taken (mem_of_find?_eq_some htakes.found)
  · simp only [sources', heq]
    exact ⟨hscan.keventLabels_sublist, List.Sublist.refl _⟩

/-! ## Native idents over time -/

theorem identsBelow_timerChange (h : sources.IdentsBelow) (host : TimerChangeHost)
    (change : KeventQos) : (applyGuestWorkqueueTimerChange sources host change).2.IdentsBelow := by
  have applied : ∀ {queue : TimerQueue}, queue.IdentsBelow →
      ({ sources with timerQueue := some (queue.apply host.apply change).2 } :
        EventSources).IdentsBelow := by
    intro queue hqueue queue' hqueue'
    cases hqueue'
    exact hqueue.applies (apply_applies hqueue host.apply change)
  unfold applyGuestWorkqueueTimerChange
  split
  · exact h
  · split
    · next queue hqueue => exact applied (h queue hqueue)
    · split
      · exact h
      · split
        · exact h
        · exact applied fun _ timer htimer => absurd htimer (by simp)

theorem identsBelow_next (h : sources.IdentsBelow) (allowEventManager allowOrdinary : Bool) :
    (nextGuestWorkqueueEvent sources allowEventManager allowOrdinary).2.IdentsBelow := by
  rcases nextGuestWorkqueueEvent_cases sources allowEventManager allowOrdinary with
    ⟨queue, timer, htakes, heq⟩ | ⟨found, kevents, ports, -, hscan, heq⟩
  · rw [heq]
    intro queue' hqueue'
    cases hqueue'
    exact (h queue htakes.queue_eq).taken (mem_of_find?_eq_some htakes.found)
  · rw [heq]
    exact h

theorem identsBelow_withTimerQueue (h : c.sources.IdentsBelow) {f : TimerQueue → TimerQueue}
    (hf : ∀ queue, queue.IdentsBelow → (f queue).IdentsBelow) :
    (c.withTimerQueue f).sources.IdentsBelow := by
  intro queue hqueue
  obtain ⟨old, hold, rfl⟩ := Option.map_eq_some_iff.1 hqueue
  exact hf old (h old hold)

theorem identsBelow_step (h : c.sources.IdentsBelow) (event : Registrations.Event) :
    (c.step event).sources.IdentsBelow := by
  cases event with
  | change change host =>
    simp only [Registrations.step, applyChange]
    split
    · exact identsBelow_timerChange h host change
    · exact h
  | next allowEventManager allowOrdinary =>
    exact identsBelow_next h allowEventManager allowOrdinary
  | waiter =>
    refine identsBelow_withTimerQueue h fun queue hqueue => ?_
    have hcollect : ∀ (q : TimerQueue) (event : Kevent64), q.IdentsBelow → True →
        (q.collect event).IdentsBelow := fun q event hq _ => hq.collects (q.collect_collects event)
    exact waiterRound_invariant hcollect (fun _ _ hq => hq) hqueue
      (fun _ _ _ _ => trivial)
  | rehash =>
    refine identsBelow_withTimerQueue h fun queue hqueue => ?_
    split
    · next hperm => exact fun hident timer htimer => hqueue hident timer (hperm.mem_iff.1 htimer)
    · exact hqueue
  | setPorts => exact h
  | stop => exact identsBelow_withTimerQueue h fun queue hqueue => hqueue.requestStop

/-! ## Runs -/

/-- A change that is stored settles with every registration of its table: one with the same ident
    (and filter) has the same `udata`, or the same `EV_UDATA_SPECIFIC`. -/
def Registrations.settlesKeys (c : Registrations) : Registrations.Event → Bool
  | .change change host =>
    if change.filter == evfiltTimer then settlesTimer c.sources host change
    else settlesKevent change c.sources.kevents
  | _ => true

theorem timerLabels_withTimerQueue (c : Registrations) (f : TimerQueue → TimerQueue) :
    (c.withTimerQueue f).sources.timerLabels
      = c.sources.timerQueue.elim [] fun queue => (f queue).labels := by
  cases hqueue : c.sources.timerQueue <;>
    simp [Registrations.withTimerQueue, timerLabels, hqueue]

/-- From a state without ambiguity exactly the steps that settle lead to another one. -/
theorem keysUnambiguous_step (hidents : c.sources.IdentsBelow) (h : c.sources.KeysUnambiguous)
    (event : Registrations.Event) :
    (c.step event).sources.KeysUnambiguous ↔ c.settlesKeys event := by
  rw [keysUnambiguous_iff_labels] at h ⊢
  obtain ⟨hkevents, htimers⟩ := h
  -- the timer queue is replaced by one with no other registrations
  have replaced : ∀ {f : TimerQueue → TimerQueue},
      (∀ queue, Label.Unambiguous queue.labels → Label.Unambiguous (f queue).labels) →
      Label.Unambiguous (c.withTimerQueue f).sources.timerLabels := by
    intro f hf
    rw [timerLabels_withTimerQueue]
    rw [timerLabels] at htimers
    cases hqueue : c.sources.timerQueue with
    | none => exact fun request => by simp
    | some queue =>
      rw [hqueue] at htimers
      exact hf queue htimers
  cases event with
  | change change host =>
    simp only [Registrations.step, applyChange, Registrations.settlesKeys]
    split
    · rename_i hfilter
      rw [← timerLabels_change htimers hidents host (beq_iff_eq.1 hfilter)]
      have hsame : (applyGuestWorkqueueTimerChange c.sources host change).2.kevents
          = c.sources.kevents := kevents_timerChange c.sources host change
      rw [hsame]
      exact and_iff_right hkevents
    · rw [← keventLabels_applyGuestKeventChange hkevents c.changes change]
      exact and_iff_left htimers
  | next allowEventManager allowOrdinary =>
    obtain ⟨hfewer, hfewer'⟩ := labels_next c.sources allowEventManager allowOrdinary
    exact iff_of_true ⟨hkevents.sublist hfewer, htimers.sublist hfewer'⟩ rfl
  | waiter =>
    refine iff_of_true ⟨hkevents, replaced fun queue hqueue => ?_⟩ rfl
    rw [queue.labels_waiterRound]
    exact hqueue
  | rehash =>
    refine iff_of_true ⟨hkevents, replaced fun queue hqueue => ?_⟩ rfl
    split
    · next hperm => exact (Label.Unambiguous.perm (hperm.map _)).2 hqueue
    · exact hqueue
  | setPorts => exact iff_of_true ⟨hkevents, htimers⟩ rfl
  | stop =>
    refine iff_of_true ⟨hkevents, replaced fun queue hqueue => ?_⟩ rfl
    unfold requestStop
    split
    · exact hqueue
    · exact fun request => by simp [labels]

/-- **When registration keys stay unambiguous.** In every state that a run reaches every possible
    further change finds at most one registration, in either table, exactly when every change that
    was stored settled with the registrations that it met. -/
theorem keysUnambiguous_iff (events : List Registrations.Event) :
    Execution.Always (fun c event => (Registrations.step c event).sources.KeysUnambiguous)
        Registrations.step {} events
      ↔ Execution.Always (fun c event => Registrations.settlesKeys c event = true)
        Registrations.step {} events := by
  refine Execution.always_iff_always (p := fun c : Registrations => c.sources.KeysUnambiguous)
    (fun c event h => identsBelow_step h event)
    (fun c event hidents h => keysUnambiguous_step hidents h event) ?_ ?_ events
  · exact fun queue hqueue => absurd hqueue (by simp)
  · exact fun change => ⟨by simp, fun queue hqueue => absurd hqueue (by simp)⟩

/-- A timer that the kernel accepts. -/
def acceptedTimer : TimerChangeHost := ⟨none, ⟨true, .receipt 1 evError none⟩⟩

/-- **One change that finds two registrations.** A user event, and likewise a timer, is registered
    with `EV_UDATA_SPECIFIC` and `udata` 1 and then without it and `udata` 3. A change without
    `EV_UDATA_SPECIFIC` and with `udata` 1 finds both; which timer it deletes depends on the order
    of the table. -/
theorem specific_andNot_ambiguous :
    let added (filter : ℤ) : List Registrations.Event :=
      [.change { ident := 7, filter, flags := evAdd ||| evUdataSpecific, udata := 1 } acceptedTimer,
        .change { ident := 7, filter, flags := evAdd, udata := 3 } acceptedTimer]
    let change (filter : ℤ) : KeventQos := { ident := 7, filter, flags := evDelete, udata := 1 }
    let c := Registrations.run {} (added evfiltUser)
    let c' := Registrations.run {} (added evfiltTimer)
    let timers := (c'.sources.timerQueue.map (·.timers.entries)).getD []
    c.sources.kevents.countP (guestKeventMatches · (change evfiltUser)) = 2
      ∧ timers.countP (TimerQueue.timerMatches (change evfiltTimer)) = 2
      ∧ timers.find? (TimerQueue.timerMatches (change evfiltTimer))
        ≠ timers.reverse.find? (TimerQueue.timerMatches (change evfiltTimer)) := by
  decide

end LiveExec32.Workqueue
