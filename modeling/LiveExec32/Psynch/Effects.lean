import LiveExec32.Psynch.System

/-! # What a step can do to the tables

Every step of the wait system is a short sequence of *effects* on the tables and the trace:
registering a waiter, erasing one when its wait ends, and what the wakes do. `Effect` lists them
with what is known when each happens. The invariants of the following modules are proved for each
effect once, and `Psynch/Invariant.lean` shows that steps consist of effects. -/

namespace LiveExec32.Psynch

open List

/-! ## Waiters and the calls that made them -/

/-- The part of a waiter that is fixed when the call creates it and that scans look at. -/
def NativeGuestWaiter.origin (waiter : NativeGuestWaiter) : NativeGuestWaiter :=
  { waiter with threadPort := 0, wakeResult := 0, sequence := 0, signaled := false }

/-- The origin of the waiters of a call. -/
def Call.origin : Call → Option NativeGuestWaiter
  | .ulockWait operation address _ _ => some (ulockWaiter operation address 0)
  | call => call.waitArguments.map (fun args => (args.waiter 0).origin)

/-- The waiters are the same objects, with other flags and results. -/
def Remarked (before after : List NativeGuestWaiter) : Prop :=
  ∃ mark : NativeGuestWaiter → NativeGuestWaiter,
    (∀ w, (mark w).sequence = w.sequence ∧ (mark w).origin = w.origin) ∧ after = before.map mark

section Remarked

variable {waiters after : List NativeGuestWaiter}

theorem Remarked.refl (waiters : List NativeGuestWaiter) : Remarked waiters waiters :=
  ⟨id, fun _ => ⟨rfl, rfl⟩, (map_id waiters).symm⟩

theorem Remarked.trans {last : List NativeGuestWaiter} (h : Remarked waiters after)
    (h' : Remarked after last) : Remarked waiters last := by
  obtain ⟨f, hf, rfl⟩ := h
  obtain ⟨g, hg, rfl⟩ := h'
  refine ⟨g ∘ f, fun w => ?_, map_map⟩
  exact ⟨(hg (f w)).1.trans (hf w).1, (hg (f w)).2.trans (hf w).2⟩

variable {mark : NativeGuestWaiter → NativeGuestWaiter}

/-- Marking some of the waiters. -/
theorem Remarked.ite (p : NativeGuestWaiter → Prop) [DecidablePred p]
    (hmark : ∀ w, (mark w).sequence = w.sequence ∧ (mark w).origin = w.origin) :
    Remarked waiters (waiters.map (fun w => if p w then mark w else w)) := by
  refine ⟨_, fun w => ?_, rfl⟩
  split
  · exact hmark w
  · exact ⟨rfl, rfl⟩

theorem Remarked.wakeRounds {eligible : NativeGuestWaiter → Bool} (wakeAll : Bool) (rounds : ℕ)
    (hmark : ∀ w, (mark w).sequence = w.sequence ∧ (mark w).origin = w.origin) :
    Remarked waiters (wakeRounds eligible mark wakeAll rounds waiters).2 := by
  induction rounds generalizing waiters with
  | zero => exact Remarked.refl waiters
  | succ _ ih =>
    unfold Psynch.wakeRounds
    rcases wakeLowest_cases eligible mark waiters with ⟨heq, -⟩ | ⟨m, -, heq⟩
    · rw [heq]
      exact Remarked.refl waiters
    · rw [heq]
      have hround : Remarked waiters (updateWaiter m.sequence mark waiters) :=
        Remarked.ite (fun w => w.sequence = m.sequence) hmark
      cases wakeAll with
      | false => exact hround
      | true => exact hround.trans ih

theorem Remarked.mem (h : Remarked waiters after) {w : NativeGuestWaiter} (hw : w ∈ waiters) :
    ∃ w' ∈ after, w'.sequence = w.sequence ∧ w'.origin = w.origin := by
  obtain ⟨f, hf, rfl⟩ := h
  exact ⟨f w, mem_map_of_mem hw, (hf w).1, (hf w).2⟩

theorem Remarked.mem_of_mem (h : Remarked waiters after) {w' : NativeGuestWaiter}
    (hw : w' ∈ after) : ∃ w ∈ waiters, w'.sequence = w.sequence ∧ w'.origin = w.origin := by
  obtain ⟨f, hf, rfl⟩ := h
  obtain ⟨w, hmem, rfl⟩ := mem_map.1 hw
  exact ⟨w, hmem, (hf w).1, (hf w).2⟩

end Remarked

/-- **What a drop does:** it signals the eligible waiter that registered first, or leaves a prepost
    if nobody is eligible. -/
theorem guestPsynchMutexDrop_cases (mutex mgen ugen flags : U32) (tables : WaitTables) :
    (∃ m, FirstEligible (mutexEligible mutex (dropTarget mgen ugen flags)
          (guestPsynchMutexIsFirstFit flags)) tables.waiters m
        ∧ guestPsynchMutexDrop mutex mgen ugen flags tables
          = { tables with waiters := updateWaiter m.sequence .signal tables.waiters })
      ∨ ((∀ w ∈ tables.waiters, mutexEligible mutex (dropTarget mgen ugen flags)
          (guestPsynchMutexIsFirstFit flags) w = false)
        ∧ guestPsynchMutexDrop mutex mgen ugen flags tables = { tables with
              mutexPreposts := recordGuestMutexPrepost mutex (dropTarget mgen ugen flags)
                tables.mutexPreposts }) := by
  simp only [guestPsynchMutexDrop, wakeNativeGuestMutexThreadLocked]
  rcases wakeLowest_cases (mutexEligible mutex (dropTarget mgen ugen flags)
      (guestPsynchMutexIsFirstFit flags)) .signal tables.waiters with ⟨heq, hnone⟩ | ⟨m, hm, heq⟩
  · exact .inr ⟨hnone, by simp only [heq, if_true]⟩
  · exact .inl ⟨m, hm, by simp only [heq, Nat.one_ne_zero, if_false]⟩

theorem guestPsynchMutexDrop_remarked (mutex mgen ugen flags : U32) (tables : WaitTables) :
    Remarked tables.waiters (guestPsynchMutexDrop mutex mgen ugen flags tables).waiters := by
  rcases guestPsynchMutexDrop_cases mutex mgen ugen flags tables with ⟨m, -, heq⟩ | ⟨-, heq⟩
  · rw [heq]
    exact Remarked.ite (fun w => w.sequence = m.sequence) (fun _ => ⟨rfl, rfl⟩)
  · rw [heq]
    exact Remarked.refl _

theorem guestPsynchConditionSignal_remarked (condition conditionSequence conditionSSequence
    targetThread : U32) (broadcast : Bool) (tables : WaitTables) :
    Remarked tables.waiters (guestPsynchConditionSignal condition conditionSequence
      conditionSSequence targetThread broadcast tables).2.waiters := by
  simp only [guestPsynchConditionSignal]
  split
  all_goals exact Remarked.wakeRounds _ _ (fun _ => ⟨rfl, rfl⟩)

theorem guestUlockWake_remarked (operation address : U32) (wakeValue : BitVec 64)
    (waiters : List NativeGuestWaiter) :
    Remarked waiters (guestUlockWake operation address wakeValue waiters).2 := by
  simp only [guestUlockWake]
  split
  · exact Remarked.refl waiters
  · split
    all_goals exact Remarked.wakeRounds _ _ (fun _ => ⟨rfl, rfl⟩)

theorem applyGrant_remarked (address : U32) (grant : RwlockGrant) (tables : WaitTables) :
    Remarked tables.waiters (applyGrant address grant tables).waiters :=
  Remarked.ite (fun w => grant.releases w = true) (fun _ => ⟨rfl, rfl⟩)

/-! ### Whom the wakes touch -/

section Touched

variable {tables : WaitTables} {w : NativeGuestWaiter}

/-- A drop touches mutex waiters only. -/
theorem mem_guestPsynchMutexDrop (h : InOrder tables.waiters) {mutex mgen ugen flags : U32}
    (hw : w ∈ (guestPsynchMutexDrop mutex mgen ugen flags tables).waiters) :
    w ∈ tables.waiters ∨ w.kind = .mutex := by
  rcases guestPsynchMutexDrop_cases mutex mgen ugen flags tables with ⟨m, hm, heq⟩ | ⟨-, heq⟩
  · rw [heq] at hw
    refine (mem_updateWaiter h hm.mem hw).imp_right ?_
    rintro rfl
    have hcan := hm.can
    simp only [mutexEligible, Bool.and_eq_true, decide_eq_true_eq] at hcan
    exact hcan.1.1.2
  · rw [heq] at hw
    exact .inl hw

theorem mem_guestPsynchConditionSignal (h : InOrder tables.waiters)
    {condition conditionSequence conditionSSequence targetThread : U32} {broadcast : Bool}
    (hw : w ∈ (guestPsynchConditionSignal condition conditionSequence conditionSSequence
      targetThread broadcast tables).2.waiters) :
    w ∈ tables.waiters ∨ ∃ old ∈ tables.waiters,
      conditionEligible condition (conditionSequence &&& guestPsynchCountMask) targetThread old
        ∧ w = wakeCondition old := by
  simp only [guestPsynchConditionSignal] at hw
  split at hw
  all_goals
    refine mem_wakeRounds h ?_ ?_ _ _ hw
    · exact fun _ => rfl
    · exact fun x => by simp [conditionEligible, wakeCondition]

variable {address : U32}

theorem mem_guestUlockWake (h : InOrder tables.waiters) {operation : U32} {wakeValue : BitVec 64}
    (hw : w ∈ (guestUlockWake operation address wakeValue tables.waiters).2) :
    w ∈ tables.waiters ∨ ∃ old ∈ tables.waiters, ulockEligible operation address wakeValue old
      ∧ w = old.signal := by
  simp only [guestUlockWake] at hw
  split at hw
  · exact .inl hw
  · split at hw
    all_goals
      refine mem_wakeRounds h ?_ ?_ _ _ hw
      · exact fun _ => rfl
      · exact fun x => by simp [ulockEligible, NativeGuestWaiter.signal]

/-- A grant touches the waiters it releases, which are reader/writer waiters. -/
theorem mem_applyGrant (h : InOrder tables.waiters) {grant : RwlockGrant}
    (hdue : DueGrant address tables grant) (hw : w ∈ (applyGrant address grant tables).waiters) :
    w ∈ tables.waiters ∨ ∃ old ∈ grant.granted,
      w = { old with wakeResult := grant.update, signaled := true } := by
  obtain ⟨x, hx, rfl⟩ := mem_map.1 hw
  split
  · rename_i hreleases
    obtain ⟨old, hold, hsequence⟩ := any_eq_true.1 hreleases
    obtain rfl := h.eq_of_sequence_eq (hdue.mem_pending hold).1 hx (by simpa using hsequence)
    exact .inr ⟨old, hold, rfl⟩
  · exact .inl hx

end Touched

/-! ## Well-formed tables -/

structure TablesWf (tables : WaitTables) : Prop where
  order : InOrder tables.waiters
  fresh : ∀ w ∈ tables.waiters, w.sequence < tables.nextWaitSequence
  /-- The ulock waiters of one address wait with the same opcode. -/
  opcodes : ∀ v ∈ tables.waiters, ∀ w ∈ tables.waiters, v.kind = .ulock → w.kind = .ulock →
    v.address = w.address → v.ulockOpcode = w.ulockOpcode
  prepost_pos : ∀ e ∈ tables.mutexPreposts, 0 < e.count

section TablesWf

variable {tables after : WaitTables} {v w : NativeGuestWaiter}

theorem kind_eq_of_origin_eq (h : v.origin = w.origin) : v.kind = w.kind := by
  show v.origin.kind = w.origin.kind
  rw [h]

theorem address_eq_of_origin_eq (h : v.origin = w.origin) : v.address = w.address := by
  show v.origin.address = w.origin.address
  rw [h]

theorem ulockOpcode_eq_of_origin_eq (h : v.origin = w.origin) : v.ulockOpcode = w.ulockOpcode := by
  show v.origin.ulockOpcode = w.origin.ulockOpcode
  rw [h]

theorem TablesWf.empty : TablesWf {} := ⟨List.Pairwise.nil, by simp, by simp, by simp⟩

theorem TablesWf.remarked (h : TablesWf tables) (hmarked : Remarked tables.waiters after.waiters)
    (hnext : after.nextWaitSequence = tables.nextWaitSequence)
    (hpos : ∀ e ∈ after.mutexPreposts, 0 < e.count) : TablesWf after := by
  refine ⟨?_, ?_, ?_, hpos⟩
  · obtain ⟨mark, hmark, heq⟩ := hmarked
    rw [heq]
    exact h.order.map (fun w => (hmark w).1)
  · intro w hw
    obtain ⟨old, hold, hsequence, -⟩ := hmarked.mem_of_mem hw
    rw [hsequence, hnext]
    exact h.fresh old hold
  · intro v hv w hw hvkind hwkind haddress
    obtain ⟨x, hx, -, hxv⟩ := hmarked.mem_of_mem hv
    obtain ⟨y, hy, -, hyw⟩ := hmarked.mem_of_mem hw
    rw [ulockOpcode_eq_of_origin_eq hxv, ulockOpcode_eq_of_origin_eq hyw]
    rw [kind_eq_of_origin_eq hxv] at hvkind
    rw [kind_eq_of_origin_eq hyw] at hwkind
    rw [address_eq_of_origin_eq hxv, address_eq_of_origin_eq hyw] at haddress
    exact h.opcodes x hx y hy hvkind hwkind haddress

theorem TablesWf.erase (h : TablesWf tables) (self : ℕ) : TablesWf (eraseWaiter self tables) := by
  have hsub : ∀ w ∈ (eraseWaiter self tables).waiters, w ∈ tables.waiters :=
    fun w hw => (mem_filter.1 hw).1
  exact ⟨h.order.filter _, fun w hw => h.fresh w (hsub w hw),
    fun v hv w hw => h.opcodes v (hsub v hv) w (hsub w hw), h.prepost_pos⟩

theorem TablesWf.register (h : TablesWf tables) (hopcode : w.kind = .ulock →
      nativeUlockAddressHasOtherOpcodeLocked w.address w.ulockOpcode tables.waiters = false) :
    TablesWf (registerWaiter w tables) := by
  have hother : ∀ v ∈ tables.waiters, v.kind = .ulock → w.kind = .ulock →
      v.address = w.address → v.ulockOpcode = w.ulockOpcode := by
    intro v hv hvkind hwkind haddress
    have hnone := hopcode hwkind
    rw [nativeUlockAddressHasOtherOpcodeLocked, any_eq_false] at hnone
    simpa [isUlockWaiter, hvkind, haddress] using hnone v hv
  refine ⟨?_, ?_, ?_, h.prepost_pos⟩
  · refine pairwise_append.2 ⟨h.order, pairwise_singleton _ _, ?_⟩
    intro x hx y hy
    rw [mem_singleton.1 hy]
    exact h.fresh x hx
  · intro x hx
    rcases mem_append.1 hx with hx | hx
    · exact (h.fresh x hx).trans (Nat.lt_succ_self _)
    · rw [mem_singleton.1 hx]
      exact Nat.lt_succ_self _
  · intro x hx y hy hxkind hykind haddress
    rcases mem_append.1 hx with hx | hx <;> rcases mem_append.1 hy with hy | hy
    · exact h.opcodes x hx y hy hxkind hykind haddress
    · obtain rfl := mem_singleton.1 hy
      exact hother x hx hxkind hykind haddress
    · obtain rfl := mem_singleton.1 hx
      exact (hother y hy hykind hxkind haddress.symm).symm
    · rw [mem_singleton.1 hx, mem_singleton.1 hy]

end TablesWf

/-! ## Effects -/

/-- The tables and the trace. -/
structure View where
  tables : WaitTables
  trace : List Observation

def Config.view (c : Config) : View := ⟨c.tables, c.trace⟩

/-- How a registered wait ends, and what it returns. `cut` tells which wait a pause may end. -/
inductive Leaves (cut : NativeGuestWaiter → Prop) (call : Call) (waiter : NativeGuestWaiter)
    (after : WaitTables) : Ending → SyscallReturn → Prop where
  | woken (h : waiter.signaled = true) :
      Leaves cut call waiter after .woken (call.wokenReturn waiter after)
  | interrupted (h : cut waiter) :
      Leaves cut call waiter after .interrupted call.interruptedReturn
  | timedOut (h : waiter.signaled = false) (htimeout : call.hasTimeout = true) :
      Leaves cut call waiter after .timedOut call.timedOutReturn

/-- What a mutex wait for the generation `lockSequence` returns when it has the mutex. -/
def mutexWakeResult (lockSequence : U32) : U32 :=
  lockSequence ||| guestPsynchRwKernelBit ||| guestPsynchRwExclusiveBit

/-- The mutex that a call drops: its address and the arguments of the drop. -/
def Call.drops : Call → Option (U32 × U32 × U32 × U32)
  | .mutexDrop mutex mgen ugen flags => some (mutex, mgen, ugen, flags)
  | .conditionWait _ _ _ mutex mutexMgen mutexUgen flags _ _ =>
    if mutex ≠ 0 then some (mutex, mutexMgen, mutexUgen, flags) else none
  | _ => none

/-- One effect of a step of `call`. The waiter of its thread, if it has or gets one, is `self`. -/
inductive Effect (cut : NativeGuestWaiter → Prop) (call : Call) (self : ℕ) (v : View) :
    View → Prop where
  | register (w : NativeGuestWaiter) (hself : v.tables.nextWaitSequence = self)
      (horigin : call.origin = some w.origin) (hsignaled : w.signaled = false)
      (hopcode : w.kind = .ulock →
        nativeUlockAddressHasOtherOpcodeLocked w.address w.ulockOpcode v.tables.waiters = false)
      (hresult : w.kind = .mutex → w.wakeResult = mutexWakeResult w.mutexSequence) :
      Effect cut call self v ⟨registerWaiter w v.tables, v.trace⟩
  | leave (thread : ℕ) (w : NativeGuestWaiter) (hw : w ∈ v.tables.waiters)
      (hself : w.sequence = self) (horigin : call.origin = some w.origin) {ending : Ending}
      {value : SyscallReturn} (h : Leaves cut call w (eraseWaiter self v.tables) ending value) :
      Effect cut call self v
        ⟨eraseWaiter self v.tables, .returned thread call (some w) ending value :: v.trace⟩
  | shortcut (thread : ℕ) (args : WaitArguments) {ending : Ending} {value : U32}
      {after : WaitTables} (hargs : call.waitArguments = some args)
      (h : waitShortcut args v.tables = some (ending, value, after)) :
      Effect cut call self v
        ⟨after, .returned thread call none ending (.success value) :: v.trace⟩
  | grant (address : U32) (grant : RwlockGrant) (h : dueGrant address v.tables = some grant) :
      Effect cut call self v ⟨applyGrant address grant v.tables, .rwlockGranted grant :: v.trace⟩
  | post (unlock : NativeGuestRwlockUnlock) (ugen : U32)
      (hcall : call = .rwUnlock unlock.address unlock.lgen ugen unlock.rwSequence)
      (hpost : unlock.post = v.tables.rwlockPosts) (hexpected : 0 < unlock.expectedWaiters) :
      Effect cut call self v ⟨recordRwlockUnlock unlock v.tables, .rwlockPosted unlock :: v.trace⟩
  | drop (mutex mgen ugen flags : U32) (hdrops : call.drops = some (mutex, mgen, ugen, flags)) :
      Effect cut call self v ⟨guestPsynchMutexDrop mutex mgen ugen flags v.tables,
        .mutexDropped mutex mgen ugen flags :: v.trace⟩
  | signal (condition conditionSequence conditionSSequence difference targetThread : U32)
      (broadcast : Bool)
      (hcall : call = .conditionSignal condition conditionSequence conditionSSequence difference
        targetThread broadcast) :
      Effect cut call self v
        ⟨(guestPsynchConditionSignal condition conditionSequence conditionSSequence targetThread
            broadcast v.tables).2,
          .conditionSignaled condition conditionSequence :: v.trace⟩
  | ulockWake (operation address : U32) (wakeValue : BitVec 64)
      (hcall : call = .ulockWake operation address wakeValue) :
      Effect cut call self v
        ⟨{ v.tables with
            waiters := (guestUlockWake operation address wakeValue v.tables.waiters).2 }, v.trace⟩
  | answer (thread : ℕ) (value : SyscallReturn)
      (hfails : call.waitArguments = none ∨ value.carry = true) :
      Effect cut call self v ⟨v.tables, .returned thread call none .answered value :: v.trace⟩

/-- The effects of one step. -/
abbrev Effects (cut : NativeGuestWaiter → Prop) (call : Call) (self : ℕ) : View → View → Prop :=
  Relation.ReflTransGen (Effect cut call self)

/-- Waiters other than `self` stay registered. -/
def Persist (self : ℕ) (before after : List NativeGuestWaiter) : Prop :=
  ∀ w ∈ before, w.sequence ≠ self →
    ∃ w' ∈ after, w'.sequence = w.sequence ∧ w'.origin = w.origin

theorem Remarked.persist {before after : List NativeGuestWaiter} (h : Remarked before after)
    (self : ℕ) : Persist self before after := fun _ hw _ => h.mem hw

section Effect

variable {cut : NativeGuestWaiter → Prop} {call : Call} {self : ℕ} {v v' : View}

/-- What a wait that returns without registering took. -/
theorem waitShortcut_cases {args : WaitArguments} {tables after : WaitTables} {ending : Ending}
    {value : U32} (h : waitShortcut args tables = some (ending, value, after)) :
    (args.kind = .rwlock ∧ args.rwlockWaitType = .read ∧ ending = .overlap ∧ ∃ overlaps,
        tryHandleNativeGuestRwlockOverlapLocked args.address args.rwlockSequence
          args.rwlockStateSequence tables.rwlockOverlaps = some (value, overlaps)
        ∧ after = { tables with rwlockOverlaps := overlaps })
    ∨ (args.kind = .condition ∧ value = guestPsynchCountIncrement ∧ ∃ taken preposts,
        consumeGuestConditionPrepost args.address args.conditionSequence tables.conditionPreposts
          = some (taken, preposts)
        ∧ ending = .prepost taken ∧ after = { tables with conditionPreposts := preposts })
    ∨ (args.kind = .mutex ∧ value = args.wakeResult ∧ ∃ taken preposts,
        consumeGuestMutexPrepost args.address args.mutexSequence args.mutexFirstFit
          tables.mutexPreposts = some (taken, preposts)
        ∧ ending = .prepost taken ∧ after = { tables with mutexPreposts := preposts }) := by
  unfold waitShortcut at h
  split at h
  · rename_i hkind
    split at h
    · rename_i hread
      obtain ⟨⟨_, overlaps⟩, hhandled, heq⟩ := Option.map_eq_some_iff.1 h
      obtain ⟨rfl, rfl, rfl⟩ := heq
      exact .inl ⟨hkind, hread, rfl, overlaps, hhandled, rfl⟩
    · simp at h
  · rename_i hkind
    obtain ⟨⟨taken, preposts⟩, htaken, heq⟩ := Option.map_eq_some_iff.1 h
    obtain ⟨rfl, rfl, rfl⟩ := heq
    exact .inr (.inl ⟨hkind, rfl, taken, preposts, htaken, rfl, rfl⟩)
  · rename_i hkind
    obtain ⟨⟨taken, preposts⟩, htaken, heq⟩ := Option.map_eq_some_iff.1 h
    obtain ⟨rfl, rfl, rfl⟩ := heq
    exact .inr (.inr ⟨hkind, rfl, taken, preposts, htaken, rfl, rfl⟩)
  · simp at h

/-- What a signal leaves in the tables. -/
theorem guestPsynchConditionSignal_tables (condition conditionSequence conditionSSequence
    targetThread : U32) (broadcast : Bool) (tables : WaitTables) :
    (guestPsynchConditionSignal condition conditionSequence conditionSSequence targetThread
        broadcast tables).2
      = let woken := wakeNativeGuestConditionThreadsLocked condition
          (conditionSequence &&& guestPsynchCountMask) broadcast targetThread tables.waiters
        { tables with
          waiters := woken.2
          conditionPreposts := recordConditionPreposts condition
            (conditionSequence &&& guestPsynchCountMask) targetThread broadcast
            (guestPsynchSequenceDistance conditionSequence conditionSSequence) woken.1
            tables.conditionPreposts } := by
  simp only [guestPsynchConditionSignal]
  split <;> rfl

/-- **Effects keep the tables well formed.** -/
theorem Effect.wf (h : TablesWf v.tables) (he : Effect cut call self v v') :
    TablesWf v'.tables := by
  cases he with
  | register _ _ _ _ hopcode _ => exact h.register hopcode
  | leave => exact h.erase self
  | shortcut _ _ _ hshortcut =>
    rcases waitShortcut_cases hshortcut with ⟨-, -, -, overlaps, -, rfl⟩ |
      ⟨-, -, taken, preposts, -, -, rfl⟩ | ⟨-, -, taken, preposts, htaken, -, rfl⟩
    · exact ⟨h.order, h.fresh, h.opcodes, h.prepost_pos⟩
    · exact ⟨h.order, h.fresh, h.opcodes, h.prepost_pos⟩
    · exact ⟨h.order, h.fresh, h.opcodes, (consumeGuestMutexPrepost_some h.prepost_pos htaken).2.2⟩
  | grant => exact h.remarked (applyGrant_remarked ..) rfl h.prepost_pos
  | post => exact ⟨h.order, h.fresh, h.opcodes, h.prepost_pos⟩
  | drop mutex mgen ugen flags =>
    have hmarked := guestPsynchMutexDrop_remarked mutex mgen ugen flags v.tables
    rcases guestPsynchMutexDrop_cases mutex mgen ugen flags v.tables with ⟨m, -, heq⟩ | ⟨-, heq⟩
    · rw [heq] at hmarked ⊢
      exact h.remarked hmarked rfl h.prepost_pos
    · rw [heq] at hmarked ⊢
      exact h.remarked hmarked rfl (recordGuestMutexPrepost_pos h.prepost_pos)
  | signal =>
    refine h.remarked (guestPsynchConditionSignal_remarked ..) ?_ ?_
    · rw [guestPsynchConditionSignal_tables]
    · rw [guestPsynchConditionSignal_tables]
      exact h.prepost_pos
  | ulockWake =>
    exact h.remarked (guestUlockWake_remarked ..) rfl h.prepost_pos
  | answer => exact h

theorem Effect.persist (he : Effect cut call self v v') :
    Persist self v.tables.waiters v'.tables.waiters := by
  cases he with
  | register w =>
    exact fun w hw _ => ⟨w, mem_append_left _ hw, rfl, rfl⟩
  | leave _ w hw =>
    intro w hw hne
    exact ⟨w, mem_filter.2 ⟨hw, by simpa using hne⟩, rfl, rfl⟩
  | shortcut _ _ _ hshortcut =>
    rcases waitShortcut_cases hshortcut with ⟨-, -, -, overlaps, -, rfl⟩ |
      ⟨-, -, taken, preposts, -, -, rfl⟩ | ⟨-, -, taken, preposts, -, -, rfl⟩
    all_goals exact (Remarked.refl _).persist self
  | grant => exact (applyGrant_remarked ..).persist self
  | post | answer => exact (Remarked.refl _).persist self
  | drop => exact (guestPsynchMutexDrop_remarked ..).persist self
  | signal =>
    exact (guestPsynchConditionSignal_remarked ..).persist self
  | ulockWake => exact (guestUlockWake_remarked ..).persist self

theorem Effects.wf (h : TablesWf v.tables) (he : Effects cut call self v v') :
    TablesWf v'.tables := by
  induction he with
  | refl => exact h
  | tail _ he ih => exact he.wf ih

theorem Effects.persist (he : Effects cut call self v v') :
    Persist self v.tables.waiters v'.tables.waiters := by
  induction he with
  | refl => exact (Remarked.refl _).persist self
  | tail _ he ih =>
    intro w hw hne
    obtain ⟨x, hx, hsequence, horigin⟩ := ih w hw hne
    obtain ⟨y, hy, hsequence', horigin'⟩ := he.persist x hx (hsequence ▸ hne)
    exact ⟨y, hy, hsequence'.trans hsequence, horigin'.trans horigin⟩

/-- The trace only grows. -/
theorem Effect.trace_suffix (he : Effect cut call self v v') : v.trace <:+ v'.trace := by
  cases he <;> first | exact suffix_refl _ | exact suffix_cons _ _

theorem Effects.trace_suffix (he : Effects cut call self v v') : v.trace <:+ v'.trace := by
  induction he with
  | refl => exact suffix_refl _
  | tail _ he ih => exact ih.trans he.trace_suffix

end Effect

end LiveExec32.Psynch
