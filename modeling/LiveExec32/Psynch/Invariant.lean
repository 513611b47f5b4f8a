import LiveExec32.Psynch.Effects

/-! # Threads and their waiters

`Wf` ties the threads to the tables: a blocked thread has its own waiter in the list, and a thread
that holds the wait mutex between two steps is a ulock wait that has found no other opcode. It is an
invariant of the system, and with it every step is a sequence of `Effect`s (`step_spec`), so that a
property of the tables and the trace only has to be shown for the effects (`run_view`). -/

namespace LiveExec32.Psynch

open Config Function Option

/-- The waiter a blocked thread has registered. -/
def Stage.self : Stage → Option ℕ
  | .waiting self | .pausing self _ | .relocking self _ => some self
  | _ => none

/-- The thread holds the wait mutex between its steps. -/
def Stage.holdsMutex : Stage → Bool
  | .comparing | .enqueueing => true
  | _ => false

structure ThreadWf (tables : WaitTables) (mutexOwner : Option ℕ) (thread : ℕ) (call : Call)
    (stage : Stage) : Prop where
  registered : ∀ self, stage.self = some self →
    ∃ w ∈ tables.waiters, w.sequence = self ∧ call.origin = some w.origin
  holds : stage.holdsMutex = true → mutexOwner = some thread
    ∧ ∃ operation address value timeout, call = .ulockWait operation address value timeout
      ∧ nativeUlockAddressHasOtherOpcodeLocked address (ulockOpcode operation) tables.waiters
        = false

structure Wf (c : Config) : Prop where
  tables : TablesWf c.tables
  thread : ∀ t call stage, c.threads t = some (call, stage) →
    ThreadWf c.tables c.mutexOwner t call stage
  /-- No two threads share a waiter. -/
  distinct : ∀ t u callT stageT callU stageU self, c.threads t = some (callT, stageT) →
    c.threads u = some (callU, stageU) → stageT.self = some self → stageU.self = some self → t = u

theorem Wf.initial (memory : U32 → Option U32) (environment : Environment) :
    Wf (.initial memory environment) :=
  ⟨TablesWf.empty, by simp [Config.initial], by simp [Config.initial]⟩

/-- A pause ends the wait of `waiter` in this step. -/
def Config.cuts (host : ℕ → HostThread) (c : Config) (event : Event)
    (waiter : NativeGuestWaiter) : Prop :=
  ∃ thread call self paused, event = .advance thread
    ∧ c.threads thread = some (call, .relocking self paused) ∧ c.mutexOwner = none
    ∧ c.environment.endsWait (host thread) (c.hostWaitStep thread) paused = true
    ∧ findWaiter self c.tables = some waiter

/-- A step of `thread`, which is in `call`: the invariant holds afterwards, the tables and the trace
    went through effects of the call, and no other thread moved. -/
structure Moved (cut : NativeGuestWaiter → Prop) (thread : ℕ) (call : Call) (c c' : Config) :
    Prop where
  wf : Wf c'
  effects : ∃ self, Effects cut call self c.view c'.view
  threads : ∃ activity : Option Stage,
    c'.threads = Function.update c.threads thread (activity.map (Prod.mk call))

variable {value : BitVec 64} {event : Event} {events : List Event} {w : NativeGuestWaiter}
  {inv : View → Prop} {args : WaitArguments}

section Moves

variable {cut : NativeGuestWaiter → Prop} {c c' : Config} {thread self : ℕ} {call : Call}
  {stage : Stage} {host : ℕ → HostThread} {operation address timeout : U32}

/-- The activities of the threads after one of them moved. -/
theorem update_eq_some {α : Type} {threads : ℕ → Option α} {activity : Option α} {t : ℕ} {a : α}
    (h : update threads thread activity t = some a) :
    (t = thread ∧ activity = some a) ∨ (t ≠ thread ∧ threads t = some a) := by
  by_cases ht : t = thread
  · rw [ht, update_self] at h
    exact .inl ⟨ht, h⟩
  · rw [update_of_ne ht] at h
    exact .inr ⟨ht, h⟩

theorem Config.storeHostWaitStep_view (c : Config) (thread : ℕ) (stored : Option Bool) :
    (c.storeHostWaitStep thread stored).view = c.view
      ∧ (c.storeHostWaitStep thread stored).threads = c.threads := by
  cases stored <;> exact ⟨rfl, rfl⟩

variable {tables : WaitTables}

theorem findWaiter_some (h : findWaiter self tables = some w) :
    w ∈ tables.waiters ∧ w.sequence = self :=
  ⟨List.mem_of_find?_eq_some h, by simpa using List.find?_some h⟩

variable {ending : Ending}

theorem Config.leave_effect (hw : w ∈ c.tables.waiters) (hself : w.sequence = self)
    (horigin : call.origin = some w.origin) {value : SyscallReturn}
    (h : Leaves cut call w (eraseWaiter self c.tables) ending value) :
    Effect cut call self c.view (c.leave thread call w ending value).view := by
  subst hself
  exact .leave thread w hw rfl horigin h

theorem findWaiter_of_mem (h : TablesWf tables) (hw : w ∈ tables.waiters) :
    findWaiter w.sequence tables = some w := by
  cases hfind : findWaiter w.sequence tables with
  | none =>
    have hne := List.find?_eq_none.1 hfind w hw
    simp at hne
  | some =>
    obtain ⟨hw', hsequence⟩ := findWaiter_some hfind
    rw [h.order.eq_of_sequence_eq hw' hw hsequence]

/-- The waiter of a call that goes through `WaitNativeGuestThread`. -/
theorem Call.origin_of_waitArguments (h : call.waitArguments = some args) (threadPort : U32) :
    call.origin = some (args.waiter threadPort).origin ∧ args.kind ≠ .ulock
      ∧ (args.kind = .mutex → args.wakeResult = mutexWakeResult args.mutexSequence) := by
  cases call <;> simp only [Call.waitArguments, reduceCtorEq, some.injEq] at h <;>
    subst h <;> exact ⟨rfl, by simp, by simp [mutexWakeResult]⟩

theorem tryGrant_effects (c : Config) (address : U32) (tables : WaitTables) :
    Effects cut call self ⟨tables, c.trace⟩
      ((c.withTables (tryGrantNativeGuestRwlockLocked address tables).2).noteGrant
        (tryGrantNativeGuestRwlockLocked address tables).1).view := by
  unfold tryGrantNativeGuestRwlockLocked
  split
  · exact .refl
  · next grant hdue => exact .single (.grant address grant hdue)

@[simp] theorem Config.noteGrant_tables (c : Config) (grant : Option RwlockGrant) :
    (c.noteGrant grant).tables = c.tables := by
  cases grant <;> rfl

@[simp] theorem Config.noteGrant_threads (c : Config) (grant : Option RwlockGrant) :
    (c.noteGrant grant).threads = c.threads := by
  cases grant <;> rfl

@[simp] theorem Config.notePost_threads (c : Config) (unlock : NativeGuestRwlockUnlock) :
    (c.notePost unlock).threads = c.threads := by
  unfold notePost
  split <;> rfl

theorem tryGrant_remarked (address : U32) (tables : WaitTables) :
    Remarked tables.waiters (tryGrantNativeGuestRwlockLocked address tables).2.waiters := by
  unfold tryGrantNativeGuestRwlockLocked
  split
  · exact Remarked.refl _
  · exact applyGrant_remarked ..

theorem Wf.storeHostWaitStep (h : Wf c) (thread : ℕ) (stored : Option Bool) :
    Wf (c.storeHostWaitStep thread stored) := by
  cases stored with
  | none => exact h
  | some => exact ⟨h.tables, h.thread, h.distinct⟩

section Calls

variable (h : Wf c) (hcall : c.threads thread = some (call, stage))

include h hcall

/-- **The invariant after a step of one thread.** The other threads keep their waiters, and none of
    them holds the mutex unless the step left the waiters alone. -/
theorem Wf.moved (hself : stage.self = some self ∨ self = c.tables.nextWaitSequence)
    (activity : Option Stage)
    (hthreads : c'.threads = update c.threads thread (activity.map (Prod.mk call)))
    (heffects : Effects cut call self c.view c'.view)
    (hmutex : (c'.mutexOwner = c.mutexOwner ∧ c'.tables.waiters = c.tables.waiters)
      ∨ c.mutexOwner = none ∨ c.mutexOwner = some thread)
    (hnew : ∀ next, activity = some next → ThreadWf c'.tables c'.mutexOwner thread call next
      ∧ ∀ s, next.self = some s → s = self) : Moved cut thread call c c' := by
  -- nobody else has the waiter `self`
  have hother : ∀ u callU stageU s, u ≠ thread → c.threads u = some (callU, stageU) →
      stageU.self = some s → s ≠ self := by
    rintro u callU stageU s hu hcallU hs rfl
    rcases hself with hs' | rfl
    · exact hu (h.distinct u thread _ _ _ _ _ hcallU hcall hs hs')
    · obtain ⟨w, hw, hsequence, -⟩ := (h.thread u callU stageU hcallU).registered _ hs
      exact absurd (h.tables.fresh w hw) (by omega)
  -- the activity of the thread itself
  have hown : ∀ callT stageT, activity.map (Prod.mk call) = some (callT, stageT) →
      ThreadWf c'.tables c'.mutexOwner thread callT stageT
        ∧ ∀ s, stageT.self = some s → s = self := by
    intro callT stageT heq
    obtain ⟨next, hnext, heq⟩ := map_eq_some_iff.1 heq
    obtain ⟨rfl, rfl⟩ := Prod.mk.inj heq
    exact hnew next hnext
  refine ⟨⟨heffects.wf h.tables, ?_, ?_⟩, ⟨self, heffects⟩, activity, hthreads⟩
  · intro u callU stageU hcallU
    rcases update_eq_some (hthreads ▸ hcallU) with ⟨rfl, hcallU⟩ | ⟨hu, hcallU⟩
    · exact (hown _ _ hcallU).1
    · have hold := h.thread u callU stageU hcallU
      refine ⟨fun s hs => ?_, fun hholds => ?_⟩
      · obtain ⟨w, hw, hsequence, horigin⟩ := hold.registered s hs
        have hne : w.sequence ≠ self := hsequence ▸ hother u callU stageU s hu hcallU hs
        obtain ⟨w', hw', hsequence', horigin'⟩ := heffects.persist w hw hne
        exact ⟨w', hw', hsequence'.trans hsequence, by rw [horigin, horigin']⟩
      · obtain ⟨howner, operation, address, value, timeout, rfl, hopcode⟩ := hold.holds hholds
        rcases hmutex with ⟨hsame, hwaiters⟩ | hnone | hmine
        · exact ⟨hsame.trans howner, operation, address, value, timeout, rfl,
            by rw [hwaiters]; exact hopcode⟩
        · cases hnone.symm.trans howner
        · exact absurd (some.inj (hmine.symm.trans howner)) (Ne.symm hu)
  · intro t u callT stageT callU stageU s ht hu hsT hsU
    rcases update_eq_some (hthreads ▸ ht) with ⟨htt, ht⟩ | ⟨htt, ht⟩ <;>
      rcases update_eq_some (hthreads ▸ hu) with ⟨hut, hu⟩ | ⟨hut, hu⟩
    · rw [htt, hut]
    · exact absurd ((hown _ _ ht).2 s hsT) (hother u callU stageU s hut hu hsU)
    · exact absurd ((hown _ _ hu).2 s hsU) (hother t callT stageT s htt ht hsT)
    · exact h.distinct t u _ _ _ _ s ht hu hsT hsU

theorem Wf.stay : Moved cut thread call c c :=
  ⟨h, ⟨0, .refl⟩, some stage, by rw [map_some, ← hcall, update_eq_self]⟩

/-- A critical section runs with the mutex free, or not at all. -/
theorem Wf.locked (hafter : c.mutexOwner = none → Moved cut thread call c c') :
    Moved cut thread call c (c.locked c') := by
  unfold Config.locked
  split
  · exact hafter ‹_›
  · exact h.stay hcall

/-! ## Moves that leave the tables alone -/

variable {next : Stage}

/-- A thread that keeps its waiter, if it has one, moves on without the mutex. -/
theorem Wf.goto (hself : ∀ s, next.self = some s → stage.self = some s)
    (hholds : next.holdsMutex = false) :
    Moved cut thread call c (c.goto thread call next) := by
  have hold := h.thread thread call stage hcall
  have hnew : ThreadWf c.tables c.mutexOwner thread call next :=
    ⟨fun s hs => hold.registered s (hself s hs), by simp [hholds]⟩
  cases hnext : next.self with
  | none =>
    refine h.moved hcall (.inr rfl) (some next) rfl .refl (.inl ⟨rfl, rfl⟩) ?_
    rintro _ ⟨⟩
    exact ⟨hnew, fun s hs => absurd hs (by simp [hnext])⟩
  | some self =>
    refine h.moved hcall (.inl (hself self hnext)) (some next) rfl .refl
      (.inl ⟨rfl, rfl⟩) ?_
    rintro _ ⟨⟩
    exact ⟨hnew, fun s hs => some.inj (hs.symm.trans hnext)⟩

/-- A call that returns without having touched the tables. -/
theorem Wf.answer (value : SyscallReturn)
    (hfails : call.waitArguments = none ∨ value.carry = true) :
    Moved cut thread call c (c.finish thread call none .answered value) :=
  h.moved hcall (.inr rfl) none rfl (.single (.answer thread value hfails)) (.inl ⟨rfl, rfl⟩)
    (by simp)

/-- The end of a pause function. -/
theorem Wf.pauseFinished (stored : Option Bool)
    (hself : ∀ s, next.self = some s → stage.self = some s) (hholds : next.holdsMutex = false) :
    Moved cut thread call c ((c.storeHostWaitStep thread stored).goto thread call next) := by
  obtain ⟨hview, hthreads⟩ := c.storeHostWaitStep_view thread stored
  have hmoved : Moved cut thread call _
      ((c.storeHostWaitStep thread stored).goto thread call next) :=
    (h.storeHostWaitStep thread stored).goto (hthreads ▸ hcall) hself hholds
  exact ⟨hmoved.wf, hview ▸ hmoved.effects, hthreads ▸ hmoved.threads⟩

/-! ## The wait loop -/

/-- The waiter a blocked thread finds is its own. -/
theorem Wf.findWaiter (hself : stage.self = some self) (hw : findWaiter self c.tables = some w) :
    w ∈ c.tables.waiters ∧ w.sequence = self ∧ call.origin = some w.origin := by
  obtain ⟨hmem, hsequence⟩ := findWaiter_some hw
  obtain ⟨w', hmem', hsequence', horigin⟩ := (h.thread _ _ _ hcall).registered self hself
  obtain rfl := h.tables.order.eq_of_sequence_eq hmem hmem' (hsequence.trans hsequence'.symm)
  exact ⟨hmem, hsequence, horigin⟩

/-- A registered wait ends. -/
theorem Wf.leave (hfree : c.mutexOwner = none) (hself : stage.self = some self)
    (hw : Psynch.findWaiter self c.tables = some w) {value : SyscallReturn}
    (hleaves : Leaves cut call w (eraseWaiter self c.tables) ending value) :
    Moved cut thread call c (c.leave thread call w ending value) := by
  obtain ⟨hmem, hsequence, horigin⟩ := h.findWaiter hcall hself hw
  exact h.moved hcall (.inl hself) none rfl
    (.single (leave_effect hmem hsequence horigin hleaves)) (.inr (.inl hfree)) (by simp)

theorem Wf.waitLoop (hfree : c.mutexOwner = none) (hself : stage.self = some self)
    {expired : Bool} (hexpired : expired → call.hasTimeout) :
    Moved cut thread call c (c.waitLoop thread call self expired) := by
  have hkeep : ∀ s, some self = some s → stage.self = some s := fun s hs => hself.trans hs
  unfold Config.waitLoop
  split
  · exact h.stay hcall
  · rename_i w hw
    split
    · next hsignaled => exact h.leave hcall hfree hself hw (.woken hsignaled)
    · rename_i hsignaled
      split
      · exact h.goto hcall hkeep rfl
      · split
        · rename_i hexp
          exact h.leave hcall hfree hself hw
            (.timedOut (by simpa using hsignaled) (hexpired hexp))
        · exact h.goto hcall hkeep rfl

/-! ## Entering a wait -/

/-- A thread that has just registered its waiter waits. -/
theorem Wf.waits (hmutex : c.mutexOwner = none ∨ c.mutexOwner = some thread)
    (hthreads : c'.threads = update c.threads thread
      (some (call, .waiting c.tables.nextWaitSequence)))
    (heffects : Effects cut call c.tables.nextWaitSequence c.view c'.view)
    (hw : w ∈ c'.tables.waiters) (hsequence : w.sequence = c.tables.nextWaitSequence)
    (horigin : call.origin = some w.origin) : Moved cut thread call c c' := by
  refine h.moved hcall (.inr rfl) (some _) hthreads heffects (.inr hmutex) ?_
  rintro _ ⟨⟩
  refine ⟨⟨fun s hs => ?_, by simp [Stage.holdsMutex]⟩, fun s hs => (some.inj hs).symm⟩
  cases hs
  exact ⟨w, hw, hsequence, horigin⟩

theorem Wf.register (hfree : c.mutexOwner = none) (hargs : call.waitArguments = some args) :
    Moved cut thread call c (c.register host thread call args) := by
  obtain ⟨horigin, hkind, hresult⟩ := Call.origin_of_waitArguments hargs (host thread).threadPort
  set waiter := args.waiter (host thread).threadPort with hwaiter
  have hregister : Effect cut call c.tables.nextWaitSequence c.view
      ⟨registerWaiter waiter c.tables, c.trace⟩ :=
    .register waiter rfl horigin rfl (fun hulock => absurd hulock hkind) hresult
  have hmem : { waiter with sequence := c.tables.nextWaitSequence }
      ∈ (registerWaiter waiter c.tables).waiters :=
    List.mem_append_right _ (List.mem_singleton.2 rfl)
  simp only [Config.register, ← hwaiter]
  split
  · -- the waiter is found again after the grant, perhaps signaled
    obtain ⟨w, hw, hsequence, hworigin⟩ := (tryGrant_remarked args.address _).mem hmem
    have heffects : Effects cut call c.tables.nextWaitSequence c.view
        ((c.withTables (tryGrantNativeGuestRwlockLocked args.address
            (registerWaiter waiter c.tables)).2).noteGrant
          (tryGrantNativeGuestRwlockLocked args.address (registerWaiter waiter c.tables)).1).view :=
      (Relation.ReflTransGen.single hregister).trans (tryGrant_effects c args.address _)
    have hwf := Effects.wf h.tables heffects
    simp only [view, noteGrant_tables, withTables] at hwf
    have hfind := findWaiter_of_mem hwf hw
    rw [hsequence] at hfind
    have hcallw : call.origin = some w.origin := by rw [horigin, hworigin]; rfl
    simp only [hfind]
    split
    · rename_i hsignaled
      refine h.moved hcall (.inr rfl) none
        (by simp [Config.leave, Config.finish, Config.withTables])
        (heffects.tail (leave_effect ?_ hsequence hcallw ?_)) (.inr (.inl hfree))
        (by simp)
      · simpa [withTables] using hw
      · rw [noteGrant_tables]
        exact .woken hsignaled
    · exact h.waits hcall (.inl hfree) (by simp [Config.goto, Config.withTables]) heffects
        (by simpa [Config.goto, Config.withTables] using hw) hsequence hcallw
  · exact h.waits hcall (.inl hfree) rfl (.single hregister) hmem rfl horigin

/-! ## The other critical sections -/

/-- A critical section after which the thread has no waiter. -/
theorem Wf.critical (hfree : c.mutexOwner = none) (activity : Option Stage)
    (hthreads : c'.threads = update c.threads thread (activity.map (Prod.mk call)))
    (heffects : Effects cut call c.tables.nextWaitSequence c.view c'.view)
    (hstage : ∀ next, activity = some next → next.self = none ∧ next.holdsMutex = false) :
    Moved cut thread call c c' := by
  refine h.moved hcall (.inr rfl) activity hthreads heffects (.inr (.inl hfree)) ?_
  intro next hactivity
  obtain ⟨hself, hholds⟩ := hstage next hactivity
  exact ⟨⟨fun s hs => absurd hs (by simp [hself]), by simp [hholds]⟩,
    fun s hs => absurd hs (by simp [hself])⟩

theorem Wf.enterWait (hargs : call.waitArguments = some args) :
    Moved cut thread call c (c.enterWait host thread call args) := by
  unfold Config.enterWait
  split
  · exact h.answer hcall _ (.inr rfl)
  · refine h.locked hcall (fun hfree => ?_)
    split
    · rename_i hshortcut
      exact h.critical hcall hfree none rfl (.single (.shortcut thread args hargs hshortcut))
        (by simp)
    · exact h.register hcall hfree hargs

theorem Wf.proceed : Moved cut thread call c (c.proceed host thread call) := by
  unfold Config.proceed
  split
  · refine h.locked hcall (fun hfree => h.critical hcall hfree none rfl ?_ (by simp))
    exact (Relation.ReflTransGen.single (.ulockWake _ _ _ rfl)).tail (.answer thread _ (.inl rfl))
  · split
    · next hargs => exact h.enterWait hcall hargs
    · exact h.stay hcall

end Calls

/-! ## Single calls -/

theorem Wf.pauseStep (h : Wf c) (pause : PauseStage)
    (hcall : c.threads thread = some (call, .pausing self pause)) :
    Moved cut thread call c (c.pauseStep host thread call self pause) := by
  cases pause with
  | threadState =>
    simp only [Config.pauseStep]
    split <;> exact h.goto hcall (fun _ hs => hs) rfl
  | nested | debugger =>
    simp only [Config.pauseStep]
    split
    · exact h.goto hcall (fun _ hs => hs) rfl
    · exact h.pauseFinished hcall _ (fun _ hs => hs) rfl
    · exact h.stay hcall

theorem Wf.relock (h : Wf c) (hfree : c.mutexOwner = none) (paused : Bool)
    (hcall : c.threads thread = some (call, .relocking self paused))
    (hcut : ∀ w, c.cuts host (.advance thread) w → cut w) :
    Moved cut thread call c (c.relock host thread call self paused) := by
  unfold Config.relock
  split
  · rename_i hends
    split
    · exact h.stay hcall
    · rename_i w hw
      exact h.leave hcall hfree rfl hw
        (.interrupted (hcut w ⟨thread, call, self, paused, rfl, hcall, hfree, hends, hw⟩))
  · exact h.waitLoop hcall hfree rfl (by simp)

theorem Wf.unlockRwlock (h : Wf c) (hfree : c.mutexOwner = none) {rwlock lgen ugen rwSequence : U32}
    (hcall : c.threads thread = some (.rwUnlock rwlock lgen ugen rwSequence, stage)) :
    Moved cut thread (.rwUnlock rwlock lgen ugen rwSequence) c
      (c.unlockRwlock thread (.rwUnlock rwlock lgen ugen rwSequence) rwlock lgen ugen
        rwSequence) := by
  refine h.critical hcall hfree none (by simp [Config.unlockRwlock, Config.finish,
    Config.withTables]) ?_ (by simp)
  set unlock := newRwlockUnlock rwlock lgen ugen rwSequence c.tables with hunlock
  have hgrant : Effects cut (.rwUnlock rwlock lgen ugen rwSequence) c.tables.nextWaitSequence
      c.view
      (((c.withTables (postNativeGuestRwlockUnlockLocked rwlock lgen ugen rwSequence
          c.tables).2.2).notePost unlock).noteGrant
        (postNativeGuestRwlockUnlockLocked rwlock lgen ugen rwSequence c.tables).2.1).view := by
    by_cases hexpected : guestPsynchSequenceDistance lgen ugen = 0
    · have hnote : unlock.expectedWaiters = 0 := hexpected
      simp only [postNativeGuestRwlockUnlockLocked, hexpected, if_true, notePost, hnote]
      exact .refl
    · -- the record is posted, and then perhaps settled at once
      have hnote : unlock.expectedWaiters ≠ 0 := hexpected
      have hpost : Effect cut (.rwUnlock rwlock lgen ugen rwSequence) c.tables.nextWaitSequence
          c.view ⟨recordRwlockUnlock unlock c.tables, .rwlockPosted unlock :: c.trace⟩ :=
        .post unlock ugen rfl rfl (Nat.pos_of_ne_zero hnote)
      have hposted := (Relation.ReflTransGen.single hpost).trans
        (tryGrant_effects (c.observe (.rwlockPosted unlock)) rwlock _)
      simp only [postNativeGuestRwlockUnlockLocked, hexpected, if_false, notePost, hnote, ← hunlock]
      split
      all_goals
        next heq =>
          rw [heq] at hposted
          exact hposted
  exact hgrant.tail (.answer thread _ (.inl rfl))

theorem Wf.ulockLock (h : Wf c)
    (hcall : c.threads thread = some (.ulockWait operation address value timeout, stage)) :
    Moved cut thread (.ulockWait operation address value timeout) c
      (c.ulockLock thread (.ulockWait operation address value timeout) operation address) := by
  unfold Config.ulockLock
  split
  · exact h.answer hcall _ (.inl rfl)
  · refine h.locked hcall (fun hfree => ?_)
    split
    · exact h.answer hcall _ (.inl rfl)
    · rename_i hopcode
      refine h.moved hcall (.inr rfl) (some .comparing) rfl .refl (.inr (.inl hfree)) ?_
      rintro _ ⟨⟩
      exact ⟨⟨fun s hs => absurd hs (by simp [Stage.self]), fun _ => ⟨rfl, operation, address,
        value, timeout, rfl, Bool.eq_false_iff.2 hopcode⟩⟩,
        fun s hs => absurd hs (by simp [Stage.self])⟩

theorem Wf.ulockCompare (h : Wf c)
    (hcall : c.threads thread = some (.ulockWait operation address value timeout, .comparing)) :
    Moved cut thread (.ulockWait operation address value timeout) c
      (c.ulockCompare thread (.ulockWait operation address value timeout) operation address
        value) := by
  have hholds := (h.thread _ _ _ hcall).holds rfl
  -- giving up: the thread releases the mutex and returns
  have hgiveUp : ∀ result, Moved cut thread (.ulockWait operation address value timeout) c
      ({ c with mutexOwner := none }.finish thread (.ulockWait operation address value timeout)
        none .answered result) := fun result =>
    h.moved hcall (.inr rfl) none rfl (.single (.answer thread result (.inl rfl)))
      (.inr (.inr hholds.1)) (by simp)
  simp only [Config.ulockCompare]
  split
  · exact hgiveUp _
  · split
    · exact hgiveUp _
    · refine h.moved hcall (.inr rfl) (some .enqueueing) rfl .refl (.inl ⟨rfl, rfl⟩) ?_
      rintro _ ⟨⟩
      exact ⟨⟨fun s hs => absurd hs (by simp [Stage.self]), fun _ => hholds⟩,
        fun s hs => absurd hs (by simp [Stage.self])⟩

theorem Wf.ulockEnqueue (h : Wf c)
    (hcall : c.threads thread = some (.ulockWait operation address value timeout, .enqueueing)) :
    Moved cut thread (.ulockWait operation address value timeout) c
      (c.ulockEnqueue host thread (.ulockWait operation address value timeout) operation
        address) := by
  obtain ⟨howner, op, addr, val, time, heq, hopcode⟩ := (h.thread _ _ _ hcall).holds rfl
  obtain ⟨rfl, rfl, rfl, rfl⟩ := Call.ulockWait.inj heq
  exact h.waits hcall (.inr howner) rfl
    (.single (.register (ulockWaiter operation address (host thread).threadPort) rfl rfl rfl
      (fun _ => hopcode) (by simp [ulockWaiter])))
        (List.mem_append_right _ (List.mem_singleton.2 rfl)) rfl rfl

/-! ## Steps -/

theorem Wf.start (h : Wf c) (hcall : c.threads thread = some (call, .called)) :
    Moved cut thread call c (c.start thread call) := by
  have hprepared : Moved cut thread call c (c.goto thread call .prepared) :=
    h.goto hcall (fun s hs => absurd hs (by simp [Stage.self])) rfl
  cases call with
  | mutexWait | rwWait => exact hprepared
  | mutexDrop mutex mgen ugen flags =>
    refine h.locked hcall (fun hfree => h.critical hcall hfree none rfl ?_ (by simp))
    exact (Relation.ReflTransGen.single (.drop mutex mgen ugen flags rfl)).tail
      (.answer thread _ (.inl rfl))
  | conditionWait _ _ _ mutex mgen ugen flags =>
    simp only [start]
    split
    · rename_i hmutex
      refine h.locked hcall (fun hfree => h.critical hcall hfree (some .prepared) rfl
        (.single (.drop mutex mgen ugen flags (if_pos hmutex))) ?_)
      rintro _ ⟨⟩
      exact ⟨rfl, rfl⟩
    · exact hprepared
  | conditionSignal condition cs ss difference target broadcast =>
    refine h.locked hcall (fun hfree => h.critical hcall hfree none rfl ?_ (by simp))
    exact (Relation.ReflTransGen.single
      (.signal condition cs ss difference target broadcast rfl)).tail (.answer thread _ (.inl rfl))
  | rwUnlock =>
    exact h.locked hcall (fun hfree => h.unlockRwlock hfree hcall)
  | ulockWait => exact h.ulockLock hcall
  | ulockWake =>
    simp only [start, ulockCheckTarget]
    split
    · exact h.answer hcall _ (.inl rfl)
    · split
      · exact h.answer hcall _ (.inl rfl)
      · exact hprepared

theorem Wf.advance (h : Wf c) (hcall : c.threads thread = some (call, stage))
    (hcut : ∀ w, c.cuts host (.advance thread) w → cut w) :
    Moved cut thread call c (c.advance host thread call stage) := by
  cases stage with
  | called => exact h.start hcall
  | prepared => exact h.proceed hcall
  | comparing =>
    simp only [advance]
    split
    · exact h.ulockCompare hcall
    · exact h.stay hcall
  | enqueueing =>
    simp only [advance]
    split
    · exact h.ulockEnqueue hcall
    · exact h.stay hcall
  | waiting => exact h.locked hcall (fun hfree => h.waitLoop hcall hfree rfl (by simp))
  | pausing _ pause => exact h.pauseStep pause hcall
  | relocking _ paused =>
    exact h.locked hcall (fun hfree => h.relock hfree paused hcall hcut)

/-- What a step does: it keeps the invariant, what happens to the tables and the trace are effects
    of a call some thread is in, threads only enter calls through `begin`, and only the acting
    thread moves. -/
structure Stepped (host : ℕ → HostThread) (c : Config) (event : Event) : Prop where
  wf : Wf (step host c event)
  effects : (step host c event).view = c.view ∨ ∃ thread call stage self,
    c.threads thread = some (call, stage)
      ∧ Effects (c.cuts host event) call self c.view (step host c event).view
  calls : ∀ t call stage, (step host c event).threads t = some (call, stage) →
    (∃ before, c.threads t = some (call, before)) ∨ event = .begin t call
  others : ∀ t, event.actor ≠ some t → (step host c event).threads t = c.threads t

theorem Stepped.trace_suffix (h : Stepped host c event) :
    c.trace <:+ (step host c event).trace := by
  rcases h.effects with hview | ⟨_, _, _, _, -, heffects⟩
  · have htrace : (step host c event).trace = c.trace := congrArg View.trace hview
    exact htrace ▸ List.suffix_refl _
  · exact Effects.trace_suffix heffects

theorem Moved.stepped (hactor : event.actor = some thread)
    (hcall : c.threads thread = some (call, stage))
    (h : Moved (c.cuts host event) thread call c (step host c event)) : Stepped host c event := by
  obtain ⟨self, heffects⟩ := h.effects
  obtain ⟨activity, hthreads⟩ := h.threads
  refine ⟨h.wf, .inr ⟨thread, call, stage, self, hcall, heffects⟩, ?_, fun t hne => ?_⟩
  · intro t callT stageT ht
    rcases update_eq_some (hthreads ▸ ht) with ⟨rfl, ht⟩ | ⟨-, ht⟩
    · obtain ⟨next, -, heq⟩ := map_eq_some_iff.1 ht
      cases heq
      exact .inl ⟨stage, hcall⟩
    · exact .inl ⟨stageT, ht⟩
  · rw [hthreads]
    exact update_of_ne (fun htt => hne (by rw [htt, hactor])) _ _

/-- An event that only changes what other parties own. -/
theorem Stepped.of_eq (hwf : Wf (step host c event)) (hview : (step host c event).view = c.view)
    (hthreads : (step host c event).threads = c.threads) : Stepped host c event :=
  ⟨hwf, .inl hview, fun _ _ stage ht => .inl ⟨stage, hthreads ▸ ht⟩, fun _ _ => by rw [hthreads]⟩

/-- An event that is not enabled. -/
theorem Wf.disabled (h : Wf c) (hsame : step host c event = c) : Stepped host c event :=
  .of_eq (hsame.symm ▸ h) (by rw [hsame]) (by rw [hsame])

theorem Wf.begin (h : Wf c) (thread : ℕ) (call : Call) : Stepped host c (.begin thread call) := by
  cases hidle : c.threads thread with
  | some => exact h.disabled (by simp only [step, hidle])
  | none =>
    have hgoto : step host c (.begin thread call) = c.goto thread call .called := by
      simp only [step, hidle]
    have hcases : ∀ t callT stageT, (c.goto thread call .called).threads t = some (callT, stageT) →
        (t = thread ∧ callT = call ∧ stageT = .called) ∨ c.threads t = some (callT, stageT) := by
      intro t callT stageT ht
      rcases update_eq_some ht with ⟨htt, ht⟩ | ⟨-, ht⟩
      · cases ht
        exact .inl ⟨htt, rfl, rfl⟩
      · exact .inr ht
    refine ⟨hgoto ▸ ⟨h.tables, ?_, ?_⟩, .inl (by rw [hgoto]; rfl), ?_, fun t hne => ?_⟩
    · intro t callT stageT ht
      rcases hcases t callT stageT ht with ⟨-, -, rfl⟩ | ht
      · exact ⟨fun s hs => absurd hs (by simp [Stage.self]), by simp [Stage.holdsMutex]⟩
      · exact h.thread t callT stageT ht
    · intro t u callT stageT callU stageU s ht hu hsT hsU
      rcases hcases t callT stageT ht with ⟨-, -, rfl⟩ | ht
      · simp [Stage.self] at hsT
      · rcases hcases u callU stageU hu with ⟨-, -, rfl⟩ | hu
        · simp [Stage.self] at hsU
        · exact h.distinct t u _ _ _ _ s ht hu hsT hsU
    · intro t callT stageT ht
      rcases hcases t callT stageT (hgoto ▸ ht) with ⟨rfl, rfl, -⟩ | ht
      · exact .inr rfl
      · exact .inl ⟨stageT, ht⟩
    · rw [hgoto]
      exact update_of_ne (fun htt => hne (by rw [htt]; rfl)) _ _

/-- **Every step keeps the invariant and consists of effects.** -/
theorem step_spec (h : Wf c) (host : ℕ → HostThread) (event : Event) : Stepped host c event := by
  cases event with
  | begin thread call => exact h.begin thread call
  | advance thread =>
    cases hcall : c.threads thread with
    | none => exact h.disabled (by simp only [step, hcall])
    | some =>
      refine Moved.stepped rfl hcall ?_
      simp only [step, hcall]
      exact h.advance hcall (fun _ hw => hw)
  | deadline thread =>
    cases hcall : c.threads thread with
    | none => exact h.disabled (by simp only [step, hcall])
    | some =>
      refine Moved.stepped rfl hcall ?_
      simp only [step, hcall]
      split
      · rename_i heq
        cases heq
        split
        · rename_i htimeout
          exact h.locked hcall
            (fun hfree => h.waitLoop hcall hfree rfl (fun _ => htimeout))
        · exact h.stay hcall
      · exact h.stay hcall
  | store | request => exact .of_eq ⟨h.tables, h.thread, h.distinct⟩ rfl rfl

end Moves

/-! ## Runs -/

section Runs

variable {host : ℕ → HostThread}

theorem Wf.run {c : Config} (h : Wf c) (events : List Event) : Wf (run host c events) :=
  @Execution.run_invariant _ _ (step host) Wf
    (fun _ event h => (step_spec h host event).wf) c h events

theorem run_wf (memory : U32 → Option U32) (environment : Environment) (events : List Event) :
    Wf (run host (.initial memory environment) events) :=
  (Wf.initial memory environment).run events

variable {call : Call}

theorem Effects.invariant {cut : NativeGuestWaiter → Prop} {self : ℕ} {v v' : View}
    (heffect : ∀ v v', TablesWf v.tables → Effect cut call self v v' → inv v → inv v')
    (hv : TablesWf v.tables) (h : Effects cut call self v v') (hinv : inv v) : inv v' := by
  induction h with
  | refl => exact hinv
  | tail hprev he ih => exact heffect _ _ (Effects.wf hv hprev) he ih

section Effects

variable {allowed : Call → Prop}
  (heffect : ∀ cut call self v v', allowed call → TablesWf v.tables →
    Effect cut call self v v' → inv v → inv v') (hinv : inv ⟨{}, []⟩)
  (memory : U32 → Option U32) (environment : Environment)
  (hcalls : ∀ thread call, Event.begin thread call ∈ events → allowed call)

include heffect hinv hcalls

/-- **A property that every effect of the calls made keeps holds after every run**, and the calls
    the threads are in are among those that were made. -/
theorem run_calls_view :
    (∀ t call stage,
      (run host (.initial memory environment) events).threads t = some (call, stage) →
        allowed call)
      ∧ inv (run host (.initial memory environment) events).view := by
  refine (@Execution.run_invariant_of_mem _ _ (step host) (fun c => Wf c
    ∧ (∀ t call stage, c.threads t = some (call, stage) → allowed call) ∧ inv c.view) events ?_ _
    ⟨Wf.initial memory environment, by simp [initial], hinv⟩).2
  rintro c event hevent ⟨hwf, hallowed, hinv⟩
  have hstepped := step_spec hwf host event
  refine ⟨hstepped.wf, ?_, ?_⟩
  · intro t call stage ht
    rcases hstepped.calls t call stage ht with ⟨before, hbefore⟩ | rfl
    · exact hallowed t call before hbefore
    · exact hcalls t call hevent
  · rcases hstepped.effects with hview | ⟨thread, call, stage, self, hcall, heffects⟩
    · rwa [hview]
    · exact Effects.invariant
        (fun v v' => heffect _ call self v v' (hallowed thread call stage hcall)) hwf.tables
        heffects hinv

theorem run_view : inv (run host (.initial memory environment) events).view :=
  (run_calls_view heffect hinv memory environment hcalls).2

end Effects

theorem run_calls {allowed : Call → Prop} (memory : U32 → Option U32) (environment : Environment)
    (hcalls : ∀ thread call, Event.begin thread call ∈ events → allowed call) {thread : ℕ}
    {stage : Stage}
    (h : (run host (.initial memory environment) events).threads thread = some (call, stage)) :
    allowed call :=
  (@run_calls_view events (fun _ => True) host _ (fun _ _ _ _ _ _ _ _ _ => trivial) trivial memory
    environment hcalls).1 thread call stage h

end Runs

end LiveExec32.Psynch
