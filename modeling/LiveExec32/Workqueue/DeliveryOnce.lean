import LiveExec32.Workqueue.Registrations

/-! # How often a registration delivers

A registration added with `EV_ONESHOT` is meant to deliver once, one added with `EV_DISPATCH` once
until it is enabled again. Both are one argument: a registration holds a licence, namely the change
that added it or the change that enabled it last, and a delivery uses the licence up.

The code does not always do so. A user event with `EV_ONESHOT` is not erased when it is delivered.
And a change without `EV_ADD` replaces the stored flags as a whole, so `EV_ENABLE` alone makes the
registration forget `EV_ONESHOT` and `EV_DISPATCH` (`delivered_twice`). When the registrations that
deliver still have their flags, and those added with `EV_ONESHOT` are Mach ports', the deliveries
are as they should be (`delivered_atMostOnce`). -/

namespace LiveExec32.Workqueue

open List Errno

inductive Discipline where
  | oneShot
  | dispatch
deriving DecidableEq, Repr

variable {registered : GuestWorkqueueKevent} {kevents : List GuestWorkqueueKevent}

namespace Discipline

/-- The flag with which a registration is added under the discipline. -/
def flag : Discipline → U16
  | .oneShot => evOneShot
  | .dispatch => evDispatch

/-- The registration was added under the discipline. -/
def governs (discipline : Discipline) (registered : GuestWorkqueueKevent) : Bool :=
  hasAny registered.addFlags discipline.flag

/-- The change that licenses a delivery. -/
def licence : Discipline → GuestWorkqueueKevent → ℕ
  | .oneShot, registered => registered.addedBy
  | .dispatch, registered => registered.enabledBy

/-- The licence that the registration holds. -/
def holds : Discipline → GuestWorkqueueKevent → Option ℕ
  | .oneShot, registered => some registered.addedBy
  | .dispatch, registered => if registered.enabled then some registered.enabledBy else none

/-- A delivery of the registration uses its licence up: it is erased, or disabled. -/
def retires : Discipline → GuestWorkqueueKevent → Bool
  | .oneShot, registered =>
    registered.event.filter == evfiltMachport && hasAny registered.event.flags evOneShot
  | .dispatch, registered =>
    hasAny registered.event.flags evDispatch
      || (registered.event.filter == evfiltMachport && hasAny registered.event.flags evOneShot)

def licences (discipline : Discipline) (kevents : List GuestWorkqueueKevent) : List ℕ :=
  kevents.filterMap discipline.holds

variable (discipline : Discipline)

theorem licences_cons (registered : GuestWorkqueueKevent) (rest : List GuestWorkqueueKevent) :
    discipline.licences (registered :: rest)
      = (discipline.holds registered).toList ++ discipline.licences rest := by
  cases h : discipline.holds registered <;> simp [licences, h]

theorem holds_of_enabled (h : registered.enabled) :
    discipline.holds registered = some (discipline.licence registered) := by
  cases discipline <;> simp [holds, licence, h]

/-! ## Changes -/

theorem holds_added (number : ℕ) (change : KeventQos) (old : Option GuestWorkqueueKevent) :
    discipline.holds (addedKevent number change old) = none
      ∨ discipline.holds (addedKevent number change old) = some number := by
  cases discipline with
  | oneShot => exact .inr rfl
  | dispatch =>
    simp only [holds, addedKevent]
    split
    · exact .inr rfl
    · exact .inl rfl

theorem renews_modified (number : ℕ) (change : KeventQos) (registered : GuestWorkqueueKevent) :
    Records.Renews discipline.holds number registered
      (modifiedKevent number change registered) := by
  unfold modifiedKevent
  cases discipline with
  | oneShot =>
    refine .inr (.inl ?_)
    split
    · rfl
    · split <;> rfl
  | dispatch =>
    split
    · exact .inl rfl
    · split
      · exact .inr (.inr rfl)
      · exact .inr (.inl rfl)

/-- After a change the licences are distinct, and only the change itself is a new one. -/
theorem licences_applyGuestKeventChange {number : ℕ} (change : KeventQos)
    (hnodup : (discipline.licences kevents).Nodup) (hfresh : number ∉ discipline.licences kevents) :
    (discipline.licences (applyGuestKeventChange number change kevents)).Nodup
      ∧ ∀ n ∈ discipline.licences (applyGuestKeventChange number change kevents),
        n = number ∨ n ∈ discipline.licences kevents := by
  have modified : ∀ {isMatch : GuestWorkqueueKevent → Bool} {f},
      (∀ registered, Records.Renews discipline.holds number registered (f registered)) →
      (discipline.licences (Records.modifyFirst isMatch f kevents)).Nodup
        ∧ ∀ n ∈ discipline.licences (Records.modifyFirst isMatch f kevents),
          n = number ∨ n ∈ discipline.licences kevents :=
    fun h => ⟨Records.nodup_tokens_modifyFirst h hnodup hfresh,
      fun n hn => Records.mem_tokens_modifyFirst h hn⟩
  simp only [applyGuestKeventChange]
  split
  · refine modified fun registered => .inr (.inl ?_)
    cases discipline <;> rfl
  · split
    · have hsublist : (discipline.licences (kevents.eraseP
          fun registered => guestKeventMatches registered change)).Sublist
          (discipline.licences kevents) := eraseP_sublist.filterMap _
      exact ⟨hnodup.sublist hsublist, fun n hn => .inr (hsublist.subset hn)⟩
    · split
      · rw [Records.recordFirst_eq]
        split
        · refine modified fun registered => ?_
          rcases discipline.holds_added number change (some registered) with h | h
          · exact .inl h
          · exact .inr (.inr h)
        · have happend : discipline.licences (kevents ++ [addedKevent number change none])
              = discipline.licences kevents
                ++ (discipline.holds (addedKevent number change none)).toList := by
            cases h : discipline.holds (addedKevent number change none) <;> simp [licences, h]
          rw [happend]
          rcases discipline.holds_added number change none with h | h
          · rw [h]
            simpa using ⟨hnodup, fun n hn => .inr hn⟩
          · rw [h]
            refine ⟨nodup_append.2 ⟨hnodup, by simp, ?_⟩, fun n hn => ?_⟩
            · intro n hn m hm heq
              rw [Option.toList_some, mem_singleton] at hm
              exact hfresh (hm ▸ heq ▸ hn)
            · rcases mem_append.1 hn with hold | hnew
              · exact .inr hold
              · exact .inl (by simpa using hnew)
      · exact modified (discipline.renews_modified number change)

/-! ## Deliveries -/

/-- A registration that is disabled or has delivered holds no other licence. -/
theorem licences_cons_sublist {registered' : GuestWorkqueueKevent}
    {rest rest' : List GuestWorkqueueKevent} (h : discipline.holds registered' = none
      ∨ discipline.holds registered' = discipline.holds registered)
    (hrest : (discipline.licences rest').Sublist (discipline.licences rest)) :
    (discipline.licences (registered' :: rest')).Sublist
      (discipline.licences (registered :: rest)) := by
  rw [licences_cons, licences_cons]
  rcases h with hnone | hsame
  · rw [hnone]
    exact hrest.trans (sublist_append_right _ _)
  · rw [hsame]
    exact hrest.append_left _

theorem holds_disabled (registered : GuestWorkqueueKevent) :
    discipline.holds { registered with enabled := false } = none
      ∨ discipline.holds { registered with enabled := false } = discipline.holds registered := by
  cases discipline with
  | oneShot => exact .inr rfl
  | dispatch => exact .inl rfl

theorem holds_dispatched (registered : GuestWorkqueueKevent) (triggered : Bool) :
    discipline.holds { registered.dispatched with triggered } = none
      ∨ discipline.holds { registered.dispatched with triggered }
        = discipline.holds registered := by
  cases discipline with
  | oneShot => exact .inr rfl
  | dispatch =>
    simp only [holds, GuestWorkqueueKevent.dispatched]
    by_cases henabled : registered.enabled = true <;>
      by_cases hflag : hasAny registered.event.flags evDispatch = true <;>
      simp [henabled, hflag]

/-- A delivery that leaves the registration in place retires it only by disabling it. -/
theorem holds_dispatched_of_retires (triggered : Bool)
    (hplace : (registered.event.filter == evfiltMachport
      && hasAny registered.event.flags evOneShot) = false)
    (h : discipline.retires registered) :
    discipline.holds { registered.dispatched with triggered } = none := by
  cases discipline with
  | oneShot =>
    rw [retires, hplace] at h
    simp at h
  | dispatch =>
    rw [retires, hplace, Bool.or_false] at h
    simp [holds, GuestWorkqueueKevent.dispatched, h]

variable {allowEventManager allowOrdinary : Bool} {ports ports' : MachPorts}
  {kevents' : List GuestWorkqueueKevent} {found : Option GuestWorkqueueDelivery}

theorem licences_scan
    (h : Scans allowEventManager allowOrdinary ports kevents found kevents' ports') :
    (discipline.licences kevents').Sublist (discipline.licences kevents) := by
  induction h with
  | nil => exact List.Sublist.refl _
  | skip _ _ ih => exact discipline.licences_cons_sublist (.inr rfl) ih
  | disable _ _ _ ih => exact discipline.licences_cons_sublist (discipline.holds_disabled _) ih
  | user =>
    exact discipline.licences_cons_sublist (discipline.holds_dispatched _ false)
      (List.Sublist.refl _)
  | oneShot =>
    rw [licences_cons]
    exact sublist_append_right _ _
  | @port registered _ _ _ _ _ _ _ _ =>
    exact discipline.licences_cons_sublist
      (discipline.holds_dispatched registered registered.triggered) (List.Sublist.refl _)

/-- The registration that delivers held a licence, and holds none after a delivery that retires it.
    -/
theorem licence_of_scan
    (h : Scans allowEventManager allowOrdinary ports kevents found kevents' ports')
    (hfound : found.bind (·.registration) = some registered)
    (hnodup : (discipline.licences kevents).Nodup) :
    discipline.licence registered ∈ discipline.licences kevents ∧ (discipline.retires registered →
        discipline.licence registered ∉ discipline.licences kevents') := by
  -- the head delivers: its licence is not among the others
  have head : ∀ {head : GuestWorkqueueKevent} {rest : List GuestWorkqueueKevent},
      head.enabled → (discipline.licences (head :: rest)).Nodup →
      discipline.licence head ∈ discipline.licences (head :: rest)
        ∧ discipline.licence head ∉ discipline.licences rest := by
    intro head rest henabled hnodup
    rw [licences_cons, discipline.holds_of_enabled henabled] at hnodup ⊢
    exact ⟨mem_cons_self, (nodup_cons.1 hnodup).1⟩
  -- the head is passed: the licence is that of another registration
  have pass : ∀ {head head' : GuestWorkqueueKevent} {rest rest' : List GuestWorkqueueKevent}
      {n : ℕ},
      (discipline.holds head' = none ∨ discipline.holds head' = discipline.holds head) →
      (discipline.licences (head :: rest)).Nodup → n ∈ discipline.licences rest →
      n ∉ discipline.licences rest' → n ∉ discipline.licences (head' :: rest') := by
    intro head head' rest rest' n hhead hnodup hn hn'
    rw [licences_cons] at hnodup ⊢
    obtain ⟨-, -, hdisjoint⟩ := nodup_append.1 hnodup
    rw [mem_append, not_or]
    refine ⟨fun hmem => ?_, hn'⟩
    rcases hhead with hnone | hsame
    · rw [hnone] at hmem
      simp at hmem
    · rw [hsame] at hmem
      exact hdisjoint n hmem n hn rfl
  have tail : ∀ {head : GuestWorkqueueKevent} {rest : List GuestWorkqueueKevent},
      (discipline.licences (head :: rest)).Nodup → (discipline.licences rest).Nodup := by
    intro head rest hnodup
    rw [licences_cons] at hnodup
    exact (nodup_append.1 hnodup).2.1
  induction h with
  | nil => simp at hfound
  | skip _ _ ih =>
    obtain ⟨hmem, hretired⟩ := ih hfound (tail hnodup)
    refine ⟨?_, fun h => pass (.inr rfl) hnodup hmem (hretired h)⟩
    rw [licences_cons]
    exact mem_append_right _ hmem
  | disable _ _ _ ih =>
    obtain ⟨hmem, hretired⟩ := ih hfound (tail hnodup)
    refine ⟨?_, fun h => pass (discipline.holds_disabled _) hnodup hmem (hretired h)⟩
    rw [licences_cons]
    exact mem_append_right _ hmem
  | user henabled _ hfilter =>
    cases hfound
    obtain ⟨hmem, hothers⟩ := head henabled hnodup
    refine ⟨hmem, fun h => ?_⟩
    rw [licences_cons, discipline.holds_dispatched_of_retires false
      (by simp [hfilter, evfiltUser, evfiltMachport]) h]
    exact hothers
  | oneShot henabled =>
    cases hfound
    obtain ⟨hmem, hothers⟩ := head henabled hnodup
    exact ⟨hmem, fun _ => hothers⟩
  | @port registered _ _ _ henabled _ _ _ hflag =>
    cases hfound
    obtain ⟨hmem, hothers⟩ := head henabled hnodup
    refine ⟨hmem, fun h => ?_⟩
    have hnone := discipline.holds_dispatched_of_retires registered.triggered
      (by simp [hflag]) h
    rw [licences_cons, show discipline.holds registered.dispatched = none from hnone]
    exact hothers

end Discipline

/-! ## The invariant -/

/-- The licences are distinct, and those that were used up are no longer held. -/
structure Disciplined (discipline : Discipline) (c : Registrations) : Prop where
  nodup : (discipline.licences c.sources.kevents).Nodup
  below : ∀ n ∈ discipline.licences c.sources.kevents, n < c.changes
  past : ∀ registered ∈ c.delivered, discipline.licence registered < c.changes
  spent : ∀ registered ∈ c.delivered, discipline.governs registered = true →
    discipline.licence registered ∉ discipline.licences c.sources.kevents
  once : ∀ n, c.delivered.countP (fun registered =>
    discipline.governs registered && discipline.licence registered == n) ≤ 1

namespace Disciplined

variable {discipline : Discipline} {c c' : Registrations}

theorem initial : Disciplined discipline {} :=
  ⟨nodup_nil, by simp [Discipline.licences], by simp, by simp, by simp⟩

/-- A step that neither delivers nor changes a registration. -/
theorem of_eq (h : Disciplined discipline c) (hkevents : c'.sources.kevents = c.sources.kevents)
    (hchanges : c.changes ≤ c'.changes) (hdelivered : c'.delivered = c.delivered) :
    Disciplined discipline c' := by
  obtain ⟨hnodup, hbelow, hpast, hspent, honce⟩ := h
  rw [← hkevents] at hnodup hbelow hspent
  rw [← hdelivered] at hpast hspent honce
  exact ⟨hnodup, fun n hn => Nat.lt_of_lt_of_le (hbelow n hn) hchanges,
    fun registered hr => Nat.lt_of_lt_of_le (hpast registered hr) hchanges, hspent, honce⟩

theorem change (h : Disciplined discipline c) (change : KeventQos) (host : TimerChangeHost) :
    Disciplined discipline (c.step (.change change host)) := by
  by_cases htimer : change.filter == evfiltTimer
  · refine h.of_eq ?_ (Nat.le_succ _) rfl
    simp only [Registrations.step, applyChange, htimer, if_true]
    exact kevents_timerChange c.sources host change
  · have hkevents : (c.step (.change change host)).sources.kevents
        = applyGuestKeventChange c.changes change c.sources.kevents := by
      simp [Registrations.step, applyChange, htimer]
    obtain ⟨hnodup, hmem⟩ := discipline.licences_applyGuestKeventChange change h.nodup
      (fun hn => Nat.lt_irrefl _ (h.below c.changes hn))
    refine ⟨?_, fun n hn => ?_, fun registered hr => Nat.lt_succ_of_lt (h.past registered hr),
      fun registered hr hgoverns hn => ?_, h.once⟩
    · rw [hkevents]
      exact hnodup
    · rw [hkevents] at hn
      rcases hmem n hn with rfl | hold
      · exact Nat.lt_succ_self _
      · exact Nat.lt_succ_of_lt (h.below n hold)
    · rw [hkevents] at hn
      rcases hmem _ hn with heq | hold
      · exact absurd (h.past registered hr) (by omega)
      · exact h.spent registered hr hgoverns hold

/-- A search whose delivery retires the registration that delivers. -/
theorem deliver (h : Disciplined discipline c) {found : Option GuestWorkqueueKevent}
    (hkevents : c'.sources.kevents = kevents) (hchanges : c'.changes = c.changes)
    (hdelivered : c'.delivered = c.delivered ++ found.toList)
    (hsublist : (discipline.licences kevents).Sublist (discipline.licences c.sources.kevents))
    (hfound : ∀ registered, found = some registered →
      discipline.licence registered ∈ discipline.licences c.sources.kevents
        ∧ (discipline.governs registered →
          discipline.licence registered ∉ discipline.licences kevents)) :
    Disciplined discipline c' := by
  have hnew : ∀ {registered}, registered ∈ c'.delivered →
      registered ∈ c.delivered ∨ found = some registered := by
    intro registered hr
    rw [hdelivered, mem_append, Option.mem_toList] at hr
    exact hr
  refine ⟨?_, fun n hn => ?_, fun registered hr => ?_, fun registered hr hgoverns => ?_,
    fun n => ?_⟩
  · rw [hkevents]
    exact h.nodup.sublist hsublist
  · rw [hkevents] at hn
    rw [hchanges]
    exact h.below n (hsublist.subset hn)
  · rw [hchanges]
    rcases hnew hr with hold | hnow
    · exact h.past registered hold
    · exact h.below _ (hfound registered hnow).1
  · rw [hkevents]
    rcases hnew hr with hold | hnow
    · exact fun hn => h.spent registered hold hgoverns (hsublist.subset hn)
    · exact (hfound registered hnow).2 hgoverns
  · rw [hdelivered, countP_append]
    have honce := h.once n
    cases hcase : found with
    | none => simpa using honce
    | some registered =>
      rw [Option.toList_some, countP_singleton]
      split
      · rename_i hcounts
        -- its licence was held, so no earlier delivery has used it up
        simp only [Bool.and_eq_true, beq_iff_eq] at hcounts
        have hheld := (hfound registered hcase).1
        rw [hcounts.2] at hheld
        have hzero : c.delivered.countP (fun registered =>
            discipline.governs registered && discipline.licence registered == n) = 0 := by
          refine countP_eq_zero.2 fun earlier hearlier hboth => ?_
          simp only [Bool.and_eq_true, beq_iff_eq] at hboth
          exact h.spent earlier hearlier hboth.1 (hboth.2 ▸ hheld)
        omega
      · exact honce

end Disciplined

/-! ## Runs -/

/-- When no timer is due, the first stored registration at which an event of the allowed classes
    waits, if it was added with `EV_ONESHOT`, is a Mach port's and still has the flag; if it was
    added with `EV_DISPATCH`, it still has the flag, or is a Mach port's with `EV_ONESHOT`. -/
def Registrations.keepsDiscipline (c : Registrations) : Registrations.Event → Bool
  | .next allowEventManager allowOrdinary =>
    (c.sources.dueTimer allowEventManager allowOrdinary).isSome
      || (c.sources.kevents.find?
        (·.waits allowEventManager allowOrdinary c.sources.ports)).all fun registered =>
          [Discipline.oneShot, .dispatch].all fun discipline =>
            !discipline.governs registered || discipline.retires registered
  | _ => true

theorem Registrations.disciplined_step {discipline : Discipline} {c : Registrations}
    {event : Registrations.Event} (h : Disciplined discipline c)
    (hgood : c.keepsDiscipline event) : Disciplined discipline (c.step event) := by
  cases event with
  | change change host => exact h.change change host
  | next allowEventManager allowOrdinary =>
    rcases nextGuestWorkqueueEvent_cases c.sources allowEventManager allowOrdinary with
      ⟨queue, timer, -, heq⟩ | ⟨found, kevents, ports, hdue, hscan, heq⟩
    · -- a timer
      refine h.of_eq ?_ (Nat.le_refl _) ?_
      · simp only [step, heq]
      · simp [step, heq, GuestWorkqueueDelivery.of]
    · have hretires : ∀ registered, found.bind (·.registration) = some registered →
          discipline.governs registered → discipline.retires registered := by
        intro registered hfound hgoverns
        have hfirst := congrArg (Option.bind · (·.2.2)) hscan.found_eq
        simp only [Option.bind_map, Function.comp_def, hfound, Option.bind_fun_some] at hfirst
        simp only [keepsDiscipline, hdue, Option.isSome_none, Bool.false_or, ← hfirst,
          Option.all_some, all_eq_true] at hgood
        have hone := hgood discipline (by cases discipline <;> simp)
        simpa [hgoverns] using hone
      have hkevents :
          (c.step (.next allowEventManager allowOrdinary)).sources.kevents = kevents := by
        simp only [step, heq]
      have hdelivered : (c.step (.next allowEventManager allowOrdinary)).delivered
          = c.delivered ++ (found.bind (·.registration)).toList := by
        simp only [step, heq]
      refine h.deliver hkevents rfl hdelivered (discipline.licences_scan hscan)
        fun registered hfound => ?_
      obtain ⟨hheld, hretired⟩ := discipline.licence_of_scan hscan hfound h.nodup
      exact ⟨hheld, fun hgoverns => hretired (hretires registered hfound hgoverns)⟩
  | waiter | rehash | setPorts | stop => exact h.of_eq rfl (Nat.le_refl _) rfl

/-- **Delivery discipline of the registrations.** In a run in which every registration that delivers
    still has the flags it was added with, and those added with `EV_ONESHOT` are Mach ports': a
    registration added with `EV_ONESHOT` delivers at most once for each `EV_ADD`, and one added with
    `EV_DISPATCH` at most once for each change that enables it. -/
theorem delivered_atMostOnce {events : List Registrations.Event}
    (h : Execution.Always (fun c event => Registrations.keepsDiscipline c event = true)
      Registrations.step {} events) :
    let c := Registrations.run {} events
    (∀ number, c.delivered.countP (fun registered =>
      hasAny registered.addFlags evOneShot && registered.addedBy == number) ≤ 1)
    ∧ ∀ number, c.delivered.countP (fun registered =>
      hasAny registered.addFlags evDispatch && registered.enabledBy == number) ≤ 1 := by
  have hall : ∀ discipline, Disciplined discipline (Registrations.run {} events) :=
    fun discipline => Execution.run_invariant_of_always
      (fun _ _ hinv hgood => Registrations.disciplined_step hinv hgood) .initial h
  exact ⟨(hall .oneShot).once, (hall .dispatch).once⟩

/-- What the host does for changes that are not a timer's. -/
def noTimer : TimerChangeHost := ⟨none, ⟨true, .failed EIO⟩⟩

/-- The smallest message. -/
def headerMessage : MachMessage :=
  ⟨0x103, 24, 0, List.replicate 24 0, by decide⟩

/-- A one-shot port delivers one of the two messages that wait. -/
theorem delivered_atMostOnce_port :
    let events : List Registrations.Event :=
      [.change { ident := 0x103, filter := evfiltMachport, flags := evAdd ||| evOneShot } noTimer,
        .setPorts { queued := [(0x103, headerMessage), (0x103, headerMessage)] },
        .next true true, .next true true]
    let c := Registrations.run {} events
    c.delivered.length = 1
    ∧ (∀ number, c.delivered.countP (fun registered =>
      hasAny registered.addFlags evOneShot && registered.addedBy == number) ≤ 1)
    ∧ ∀ number, c.delivered.countP (fun registered =>
      hasAny registered.addFlags evDispatch && registered.enabledBy == number) ≤ 1 :=
  ⟨by decide, delivered_atMostOnce (by decide)⟩

/-- A user event added with `EV_ONESHOT` is triggered and delivered twice, and a port added with
    `EV_DISPATCH` delivers twice after it was enabled by a change that does not repeat the flag. -/
theorem delivered_twice :
    let user : KeventQos := { ident := 1, filter := evfiltUser }
    let port : KeventQos := { ident := 0x103, filter := evfiltMachport }
    let c := Registrations.run {}
      [.change { user with flags := evAdd ||| evOneShot } noTimer,
        .change { user with fflags := noteTrigger } noTimer, .next true true,
        .change { user with fflags := noteTrigger } noTimer, .next true true]
    let c' := Registrations.run {}
      [.change { port with flags := evAdd ||| evDispatch } noTimer,
        .change { port with flags := evEnable } noTimer,
        .setPorts { queued := [(0x103, headerMessage)] }, .next true true, .next true true]
    c.delivered.countP (fun registered =>
        hasAny registered.addFlags evOneShot && registered.addedBy == 0) = 2
      ∧ c'.delivered.countP (fun registered =>
        hasAny registered.addFlags evDispatch && registered.enabledBy == 1) = 2 := by
  decide

end LiveExec32.Workqueue
