import LiveExec32.Psynch.Invariant

/-! # Conservation of mutex grants

Every drop hands out one grant. The grant is at any time in one of three places: a prepost, a waiter
that was signaled and has not returned yet, or a wait that returned its wake result. The counts
below are taken over the addresses and generations that satisfy a predicate `p`: with all the
generations of one address they give the conservation law of a mutex, and with a single generation
they show that a fair-share grant only ever goes to the generation it was made for. -/

namespace LiveExec32.Psynch

open List Observation NativeGuestWaiter Call Option

/-! ## Where the grants are -/

/-- A drop of a mutex and for a generation in `p`. -/
def Observation.isMutexDrop (p : U32 → U32 → Bool) : Observation → Bool
  | .mutexDropped mutex mgen ugen flags => p mutex (dropTarget mgen ugen flags)
  | _ => false

/-- A mutex wait, with its address and lock generation in `p`, that returned its wake result. -/
def Observation.isMutexGrant (p : U32 → U32 → Bool) : Observation → Bool
  | .returned _ (.mutexWait mutex mgen _ _) _ _ value =>
    let lockSequence := mgen &&& guestPsynchCountMask
    p mutex lockSequence && decide (value = ⟨mutexWakeResult lockSequence, false⟩)
  | _ => false

/-- A mutex waiter, with its address and lock generation in `p`, that was signaled. -/
def isSignaledMutex (p : U32 → U32 → Bool) (waiter : NativeGuestWaiter) : Bool :=
  decide (waiter.kind = .mutex) && waiter.signaled && p waiter.address waiter.mutexSequence

def dropped (p : U32 → U32 → Bool) (trace : List Observation) : ℕ :=
  trace.countP (Observation.isMutexDrop p)

def returnedGrants (p : U32 → U32 → Bool) (trace : List Observation) : ℕ :=
  trace.countP (Observation.isMutexGrant p)

def signaledGrants (p : U32 → U32 → Bool) (waiters : List NativeGuestWaiter) : ℕ :=
  waiters.countP (isSignaledMutex p)

/-- Every grant handed out is in one of the three places. -/
def GrantsConserved (p : U32 → U32 → Bool) (v : View) : Prop :=
  dropped p v.trace
    = returnedGrants p v.trace + mutexUnits p v.tables.mutexPreposts
      + signaledGrants p v.tables.waiters

/-- A wait for the mutex at `address` that returned `EINTR`. -/
def Observation.interruptsMutexWait (address : U32) : Observation → Bool
  | .returned _ (.mutexWait mutex _ _ _) _ ending _ =>
    decide (mutex = address) && decide (ending = .interrupted)
  | _ => false

/-- The mutex waiters hold the wake result of their call. -/
def HoldResults (waiters : List NativeGuestWaiter) : Prop :=
  ∀ w ∈ waiters, w.kind = .mutex → w.wakeResult = mutexWakeResult w.mutexSequence

/-! ## Policies -/

/-- The call, as far as it is about the mutex at `address`, carries the given policy. -/
structure Call.UsesPolicy (address : U32) (firstFit : Bool) (call : Call) : Prop where
  waits : ∀ mgen ugen flags, call = .mutexWait address mgen ugen flags →
    guestPsynchMutexIsFirstFit flags = firstFit
  drops : ∀ mgen ugen flags, call.drops = some (address, mgen, ugen, flags) →
    guestPsynchMutexIsFirstFit flags = firstFit

variable {address mutex mgen ugen flags : U32} {firstFit : Bool}

theorem Call.UsesPolicy.of_mutexWait (h : guestPsynchMutexIsFirstFit flags = firstFit) :
    (mutexWait mutex mgen ugen flags).UsesPolicy address firstFit :=
  ⟨fun _ _ _ heq => (Call.mutexWait.inj heq).2.2.2 ▸ h, by simp [Call.drops]⟩

theorem Call.UsesPolicy.of_mutexDrop (h : guestPsynchMutexIsFirstFit flags = firstFit) :
    (mutexDrop mutex mgen ugen flags).UsesPolicy address firstFit := by
  refine ⟨by simp, fun mgen' ugen' flags' hdrops => ?_⟩
  simp only [Call.drops, some.injEq, Prod.mk.injEq] at hdrops
  exact hdrops.2.2.2 ▸ h

/-- `p` is about the mutex at `address`, and under first-fit it does not tell generations apart. -/
structure Tracks (p : U32 → U32 → Bool) (address : U32) (firstFit : Bool) : Prop where
  elsewhere : ∀ mutex generation, mutex ≠ address → p mutex generation = false
  firstFit : firstFit = true → ∀ g g', p address g = p address g'

/-! ## Waking somebody else -/

section Counts

variable {waiters : List NativeGuestWaiter} {p : NativeGuestWaiter → Bool}

/-- A wake that touches no counted waiter keeps the count. -/
theorem countP_wakeRounds {eligible : NativeGuestWaiter → Bool}
    {mark : NativeGuestWaiter → NativeGuestWaiter} (h : InOrder waiters) (wakeAll : Bool)
    (rounds : ℕ) (hsequence : ∀ w, (mark w).sequence = w.sequence)
    (hp : ∀ w, eligible w → p w = false ∧ p (mark w) = false) :
    (wakeRounds eligible mark wakeAll rounds waiters).2.countP p = waiters.countP p := by
  induction rounds generalizing waiters with
  | zero => rfl
  | succ _ ih =>
    unfold wakeRounds
    rcases wakeLowest_cases eligible mark waiters with ⟨heq, -⟩ | ⟨m, hm, heq⟩
    · rw [heq]
    · obtain ⟨hpm, hpmark⟩ := hp m hm.can
      have hround : (updateWaiter m.sequence mark waiters).countP p = waiters.countP p := by
        simpa [hpm, hpmark] using h.countP_update hm.mem mark p
      rw [heq]
      cases wakeAll with
      | false => exact hround
      | true => exact (ih (h.update m.sequence hsequence)).trans hround

/-- Erasing a waiter takes it out of the count. -/
theorem InOrder.countP_erase (h : InOrder waiters) {m : NativeGuestWaiter} (hm : m ∈ waiters) :
    (waiters.filter (fun w => w.sequence != m.sequence)).countP p + (if p m then 1 else 0)
      = waiters.countP p := by
  induction waiters with
  | nil => simp at hm
  | cons x rest ih =>
    obtain ⟨hx, hrest⟩ := pairwise_cons.1 h
    rcases mem_cons.1 hm with rfl | hm
    · have hkept : rest.filter (fun w => w.sequence != m.sequence) = rest :=
        filter_eq_self.2 (fun w hw => by simpa using (hx w hw).ne')
      simp [hkept, countP_cons]
    · have hne : x.sequence ≠ m.sequence := (hx m hm).ne
      have := ih hrest hm
      simp only [filter_cons, bne_iff_ne, ne_eq, hne, not_false_eq_true, if_true, countP_cons]
      omega

end Counts

/-! ## Effects keep the grants -/

variable {v v' : View} {cut : NativeGuestWaiter → Prop} {self : ℕ}

section Effects

variable {p : U32 → U32 → Bool} {address : U32} {firstFit : Bool} {call : Call}
  {w : NativeGuestWaiter}

/-- The waiters of mutex waits, and of nobody else, are mutex waiters. -/
theorem Call.origin_mutex (h : call.origin = some w.origin) :
    (∃ mutex mgen ugen flags, call = .mutexWait mutex mgen ugen flags ∧ w.kind = .mutex
        ∧ w.address = mutex ∧ w.mutexSequence = mgen &&& guestPsynchCountMask)
      ∨ (w.kind ≠ .mutex ∧ ∀ thread waiter ending value,
        (returned thread call waiter ending value).isMutexGrant p = false) := by
  cases call with
  | mutexWait mutex mgen ugen flags =>
    have horigin := some.inj h
    exact .inl ⟨mutex, mgen, ugen, flags, rfl, (congrArg kind horigin).symm,
      (congrArg address horigin).symm,
      (congrArg mutexSequence horigin).symm⟩
  | conditionWait condition =>
    have hkind : w.kind = .condition := (congrArg kind (some.inj h)).symm
    exact .inr ⟨by simp [hkind], fun _ _ _ _ => rfl⟩
  | rwWait rwlock =>
    have hkind : w.kind = .rwlock := (congrArg kind (some.inj h)).symm
    exact .inr ⟨by simp [hkind], fun _ _ _ _ => rfl⟩
  | ulockWait =>
    have hkind : w.kind = .ulock := (congrArg kind (some.inj h)).symm
    exact .inr ⟨by simp [hkind], fun _ _ _ _ => rfl⟩
  | _ => simp [origin, waitArguments] at h

/-- A drop creates one grant. -/
theorem GrantsConserved.drop (h : GrantsConserved p v) (hv : TablesWf v.tables)
    (hp : Tracks p address firstFit)
    (hpolicy : mutex = address → guestPsynchMutexIsFirstFit flags = firstFit) :
    GrantsConserved p ⟨guestPsynchMutexDrop mutex mgen ugen flags v.tables,
      .mutexDropped mutex mgen ugen flags :: v.trace⟩ := by
  unfold GrantsConserved at h ⊢
  have hdropped : dropped p (.mutexDropped mutex mgen ugen flags :: v.trace)
      = dropped p v.trace + (if p mutex (dropTarget mgen ugen flags) then 1 else 0) :=
    countP_cons
  have hreturned : returnedGrants p (.mutexDropped mutex mgen ugen flags :: v.trace)
      = returnedGrants p v.trace := by
    simp [returnedGrants, isMutexGrant]
  rw [hdropped, hreturned, h]
  rcases guestPsynchMutexDrop_cases mutex mgen ugen flags v.tables with ⟨m, hm, heq⟩ | ⟨-, heq⟩
  · -- the grant goes to the waiter `m`, whose generation counts like the target
    obtain ⟨⟨⟨hunsignaled, hkind⟩, haddress⟩, hsequence⟩ :
        ((m.signaled = false ∧ m.kind = .mutex) ∧ m.address = mutex)
          ∧ (guestPsynchMutexIsFirstFit flags = true
            ∨ m.mutexSequence = dropTarget mgen ugen flags) := by
      simpa [mutexEligible] using hm.can
    have hsame : p m.address m.mutexSequence = p mutex (dropTarget mgen ugen flags) := by
      rw [haddress]
      by_cases hmutex : mutex = address
      · rcases hsequence with hfirst | hsequence
        · rw [hmutex]
          exact hp.firstFit ((hpolicy hmutex).symm.trans hfirst) _ _
        · rw [hsequence]
      · rw [hp.elsewhere _ _ hmutex, hp.elsewhere _ _ hmutex]
    have hcount := hv.order.countP_update hm.mem .signal (isSignaledMutex p)
    simp only [isSignaledMutex, signal, hunsignaled, hkind, hsame, decide_true,
      Bool.true_and, Bool.false_and, Bool.and_false, Bool.false_eq_true, if_false,
      add_zero] at hcount
    rw [heq]
    simp only [signaledGrants]
    omega
  · rw [heq]
    simp only [mutexUnits_record, signaledGrants]
    rw [dropTarget_and_countMask]
    omega

variable {after : WaitTables} {ending : Ending}

/-- A wait that returns its waiter's grant takes that grant with it. -/
theorem Leaves.isMutexGrant_eq {value : SyscallReturn} (h : Leaves cut call w after ending value)
    (horigin : call.origin = some w.origin) (hp : Tracks p address firstFit)
    (hresult : w.kind = .mutex → w.wakeResult = mutexWakeResult w.mutexSequence) (thread : ℕ)
    (waiter : Option NativeGuestWaiter)
    (hclean : (returned thread call waiter ending value).interruptsMutexWait address = false) :
    (returned thread call waiter ending value).isMutexGrant p = isSignaledMutex p w := by
  rcases origin_mutex horigin with ⟨mutex, mgen, ugen, flags, rfl, hkind, haddress, hsequence⟩ |
    ⟨hkind, hother⟩
  · cases h with
    | woken hsignaled =>
      simp [isMutexGrant, wokenReturn, SyscallReturn.success, isSignaledMutex, hkind, haddress,
        hresult hkind, hsequence, hsignaled]
    | interrupted =>
      have hmutex : mutex ≠ address := by simpa [interruptsMutexWait] using hclean
      simp [isMutexGrant, isSignaledMutex, haddress, hp.elsewhere _ _ hmutex]
    | timedOut _ htimeout =>
      simp [hasTimeout, waitArguments, WaitArguments.hasConditionTimeout] at htimeout
  · rw [hother, isSignaledMutex, decide_eq_false hkind, Bool.false_and, Bool.false_and]

variable {args : WaitArguments}

/-- Only mutex waits go through the mutex preposts. -/
theorem Call.waitArguments_mutex (hargs : call.waitArguments = some args) :
    (∃ mutex mgen ugen flags, call = .mutexWait mutex mgen ugen flags ∧ args.kind = .mutex
        ∧ args.address = mutex ∧ args.mutexSequence = mgen &&& guestPsynchCountMask
        ∧ args.mutexFirstFit = guestPsynchMutexIsFirstFit flags
        ∧ args.wakeResult = mutexWakeResult (mgen &&& guestPsynchCountMask))
      ∨ (args.kind ≠ .mutex ∧ ∀ thread waiter ending value,
        (returned thread call waiter ending value).isMutexGrant p = false) := by
  cases call <;> simp only [waitArguments, reduceCtorEq, some.injEq] at hargs <;>
    subst hargs
  case mutexWait mutex mgen ugen flags =>
    exact .inl ⟨mutex, mgen, ugen, flags, rfl, rfl, rfl, rfl, rfl, rfl⟩
  all_goals exact .inr ⟨by simp, fun _ _ _ _ => rfl⟩

/-- An effect that keeps the three counts keeps their sum. -/
theorem GrantsConserved.of_eq (h : GrantsConserved p v)
    (hdropped : dropped p v'.trace = dropped p v.trace)
    (hreturned : returnedGrants p v'.trace = returnedGrants p v.trace)
    (hpreposts : v'.tables.mutexPreposts = v.tables.mutexPreposts)
    (hsignaled : signaledGrants p v'.tables.waiters = signaledGrants p v.tables.waiters) :
    GrantsConserved p v' := by
  unfold GrantsConserved at *
  rw [hdropped, hreturned, hpreposts, hsignaled, h]

theorem dropped_returned (p : U32 → U32 → Bool) (trace : List Observation)
    (thread : ℕ) (call : Call)
    (waiter : Option NativeGuestWaiter) (ending : Ending) (value : SyscallReturn) :
    dropped p (.returned thread call waiter ending value :: trace) = dropped p trace :=
  countP_cons_of_neg (by simp [isMutexDrop])

/-- A wait that takes a prepost turns it into a return. -/
theorem GrantsConserved.shortcut (h : GrantsConserved p v) (hv : TablesWf v.tables)
    (hp : Tracks p address firstFit) (hpolicy : call.UsesPolicy address firstFit)
    (hargs : call.waitArguments = some args) {value : U32}
    (hshortcut : waitShortcut args v.tables = some (ending, value, after)) (thread : ℕ) :
    GrantsConserved p ⟨after, .returned thread call none ending (.success value) :: v.trace⟩ := by
  have hdropped := dropped_returned p v.trace thread call none ending (.success value)
  rcases waitArguments_mutex (p := p) hargs with
    ⟨mutex, mgen, ugen, flags, rfl, hkind, haddress, hsequence, hfirst, hwake⟩ | ⟨hkind, hother⟩
  · rcases waitShortcut_cases hshortcut with ⟨hrw, -⟩ | ⟨hcond, -⟩ |
      ⟨-, hvalue, taken, preposts, htaken, rfl, rfl⟩
    · cases hrw.symm.trans hkind
    · cases hcond.symm.trans hkind
    · obtain ⟨hfair, hunits, -⟩ := consumeGuestMutexPrepost_some hv.prepost_pos htaken
      rw [haddress] at hunits
      -- the unit taken counts like the generation of the wait
      have hsame : p mutex taken = p mutex (mgen &&& guestPsynchCountMask) := by
        by_cases hmutex : mutex = address
        · have hpol : args.mutexFirstFit = firstFit :=
            hfirst.trans (hpolicy.waits mgen ugen flags (by rw [hmutex]))
          cases firstFit with
          | true => rw [hmutex]; exact hp.firstFit rfl _ _
          | false => rw [hfair hpol, hsequence, BitVec.and_assoc, BitVec.and_self]
        · rw [hp.elsewhere _ _ hmutex, hp.elsewhere _ _ hmutex]
      have hreturned : returnedGrants p
          (.returned thread (.mutexWait mutex mgen ugen flags) none (.prepost taken)
            (.success value) :: v.trace)
          = returnedGrants p v.trace + (if p mutex taken then 1 else 0) := by
        rw [hsame]
        refine countP_cons.trans ?_
        simp [returnedGrants, isMutexGrant, hvalue, hwake, SyscallReturn.success]
      unfold GrantsConserved at *
      simp only [hdropped, hreturned, h, hunits p]
      omega
  · refine h.of_eq hdropped ?_ ?_ ?_
    · exact countP_cons_of_neg (by simp [hother])
    all_goals rcases waitShortcut_cases hshortcut with ⟨-, -, -, _, -, rfl⟩ |
      ⟨-, -, _, _, -, -, rfl⟩ | ⟨hmutex, -⟩
    all_goals first | rfl | exact absurd hmutex hkind

/-- A grant of a reader/writer lock signals no mutex waiter. -/
theorem signaledGrants_applyGrant {tables : WaitTables} (hv : TablesWf tables) {rwlock : U32}
    {grant : RwlockGrant} (hdue : DueGrant rwlock tables grant) :
    signaledGrants p (applyGrant rwlock grant tables).waiters
      = signaledGrants p tables.waiters := by
  simp only [signaledGrants, applyGrant, countP_map]
  refine countP_congr (fun w hw => ?_)
  by_cases hreleases : grant.releases w = true
  · -- the released waiter is a reader/writer waiter
    obtain ⟨x, hx, hsequence⟩ := any_eq_true.1 hreleases
    obtain ⟨hmem, hpending⟩ := hdue.mem_pending hx
    obtain rfl := hv.order.eq_of_sequence_eq hmem hw (by simpa using hsequence)
    have hkind : x.kind = .rwlock := kind_of_rwlockPending hpending
    simp [isSignaledMutex, hreleases, hkind]
  · simp [hreleases]

/-- **Every effect keeps the wake results of the mutex waiters.** -/
theorem HoldResults.effect (h : HoldResults v.tables.waiters) (hv : TablesWf v.tables)
    (he : Effect cut call self v v') : HoldResults v'.tables.waiters := by
  cases he with
  | register _ _ _ _ _ hresult =>
    refine forall_mem_append.2 ⟨h, forall_mem_singleton.2 hresult⟩
  | leave => exact fun w hw => h w (mem_filter.1 hw).1
  | shortcut _ _ _ hshortcut =>
    rcases waitShortcut_cases hshortcut with ⟨-, -, -, _, -, rfl⟩ | ⟨-, -, _, _, -, -, rfl⟩ |
      ⟨-, -, _, _, -, -, rfl⟩
    all_goals exact h
  | grant _ _ hdue =>
    intro w hw hkind
    rcases mem_applyGrant hv.order (dueGrant_spec hdue) hw with hold | ⟨old, hold, rfl⟩
    · exact h w hold hkind
    · have hrwlock := kind_of_rwlockPending ((dueGrant_spec hdue).mem_pending hold).2
      cases hrwlock.symm.trans hkind
  | post | answer => exact h
  | drop mutex mgen ugen flags =>
    intro w hw hkind
    rcases guestPsynchMutexDrop_cases mutex mgen ugen flags v.tables with ⟨m, hm, heq⟩ | ⟨-, heq⟩
    all_goals rw [heq] at hw
    · rcases mem_updateWaiter hv.order hm.mem hw with hold | rfl
      · exact h w hold hkind
      · exact h m hm.mem hkind
    · exact h w hw hkind
  | signal =>
    intro w hw hkind
    rcases mem_guestPsynchConditionSignal hv.order hw with hold | ⟨old, -, hcan, rfl⟩
    · exact h w hold hkind
    · simp only [conditionEligible, Bool.and_eq_true, decide_eq_true_eq] at hcan
      cases hcan.1.1.1.2.symm.trans hkind
  | ulockWake =>
    intro w hw hkind
    rcases mem_guestUlockWake hv.order hw with hold | ⟨old, hold, -, rfl⟩
    · exact h w hold hkind
    · exact h old hold hkind

/-- **Every effect keeps the grants**, as long as it does not interrupt a wait for the mutex. -/
theorem GrantsConserved.effect (h : GrantsConserved p v) (hv : TablesWf v.tables)
    (hresults : HoldResults v.tables.waiters)
    (hp : Tracks p address firstFit) (hpolicy : call.UsesPolicy address firstFit)
    (he : Effect cut call self v v')
    (hclean : ∀ o ∈ v'.trace, o.interruptsMutexWait address = false) : GrantsConserved p v' := by
  cases he with
  | register _ _ _ hsignaled =>
    refine h.of_eq rfl rfl rfl ?_
    simp [signaledGrants, registerWaiter, isSignaledMutex, hsignaled]
  | @leave thread w hw hself horigin ending value hleaves =>
    have hgrant := hleaves.isMutexGrant_eq horigin hp (hresults w hw) thread (some w)
      (hclean _ mem_cons_self)
    have herase := hv.order.countP_erase (p := isSignaledMutex p) hw
    have hreturned : returnedGrants p (.returned thread call (some w) ending value :: v.trace)
        = returnedGrants p v.trace + (if isSignaledMutex p w then 1 else 0) :=
      hgrant ▸ countP_cons
    unfold GrantsConserved at *
    rw [dropped_returned, hreturned, h]
    simp only [eraseWaiter, signaledGrants, ← hself]
    omega
  | shortcut thread _ hargs hshortcut => exact h.shortcut hv hp hpolicy hargs hshortcut thread
  | grant _ _ hdue =>
    exact h.of_eq (countP_cons_of_neg (by simp [isMutexDrop]))
      (countP_cons_of_neg (by simp [isMutexGrant])) rfl
      (signaledGrants_applyGrant hv (dueGrant_spec hdue))
  | post =>
    exact h.of_eq (countP_cons_of_neg (by simp [isMutexDrop]))
      (countP_cons_of_neg (by simp [isMutexGrant])) rfl rfl
  | drop _ mgen ugen flags hdrops =>
    exact h.drop hv hp (fun hmutex => hpolicy.drops mgen ugen flags (hmutex ▸ hdrops))
  | signal condition =>
    refine h.of_eq (countP_cons_of_neg (by simp [isMutexDrop]))
      (countP_cons_of_neg (by simp [isMutexGrant])) ?_ ?_
    · rw [guestPsynchConditionSignal_tables]
    · rw [guestPsynchConditionSignal_tables]
      refine countP_wakeRounds hv.order _ _ (fun _ => rfl) (fun w hw => ?_)
      have hkind : w.kind = .condition := by
        simp only [conditionEligible, Bool.and_eq_true, decide_eq_true_eq] at hw
        exact hw.1.1.1.2
      simp [isSignaledMutex, wakeCondition, hkind]
  | ulockWake operation word wakeValue =>
    refine h.of_eq rfl rfl rfl ?_
    simp only [guestUlockWake]
    split
    · rfl
    · have hothers : signaledGrants p (wakeWaiters (ulockEligible operation word wakeValue) .signal
          (ulockWakeAll operation && !ulockTargetWake operation) v.tables.waiters).2
            = signaledGrants p v.tables.waiters := by
        refine countP_wakeRounds hv.order _ _ (fun _ => rfl) (fun w hw => ?_)
        have hkind : w.kind = .ulock := by
          simp only [ulockEligible, isUlockWaiter, Bool.and_eq_true, decide_eq_true_eq] at hw
          exact hw.1.1.1.1
        simp [isSignaledMutex, signal, hkind]
      split <;> exact hothers
  | answer _ value hfails =>
    refine h.of_eq (dropped_returned ..) ?_ rfl rfl
    refine countP_cons_of_neg ?_
    cases call with
    | mutexWait =>
      have hcarry : value.carry = true := hfails.resolve_left (by simp [waitArguments])
      simp only [isMutexGrant, Bool.and_eq_true, decide_eq_true_eq]
      rintro ⟨-, rfl⟩
      cases hcarry
    | _ => simp [isMutexGrant]

end Effects

/-! ## Runs -/

section Runs

variable {host : ℕ → HostThread} {p : U32 → U32 → Bool} {address : U32} {firstFit : Bool}

theorem run_grantsConserved (hp : Tracks p address firstFit) (memory : U32 → Option U32)
    (environment : Environment) {events : List Event}
    (hpolicy : ∀ thread call, Event.begin thread call ∈ events → call.UsesPolicy address firstFit)
    (hclean : ∀ o ∈ (run host (.initial memory environment) events).trace,
      o.interruptsMutexWait address = false) :
    GrantsConserved p (run host (.initial memory environment) events).view := by
  -- the trace only grows, so a run without interrupted waits never had one
  refine (@run_view events (fun v => HoldResults v.tables.waiters ∧
    ((∀ o ∈ v.trace, o.interruptsMutexWait address = false) → GrantsConserved p v)) host _ ?_
    ⟨by simp [HoldResults], fun _ => rfl⟩ memory environment hpolicy).2 hclean
  rintro cut call self v v' hcall hv he ⟨hresults, h⟩
  refine ⟨hresults.effect hv he, fun hclean => ?_⟩
  exact (h fun o ho => hclean o (he.trace_suffix.subset ho)).effect hv hresults hp hcall he hclean

/-- A fair-share wait takes preposts of its own generation only. -/
def Observation.takesOwnPrepost (address : U32) : Observation → Prop
  | .returned _ (.mutexWait mutex mgen _ _) _ (.prepost taken) _ =>
    mutex = address → taken = mgen &&& guestPsynchCountMask
  | _ => True

variable {call : Call}

theorem Effect.takesOwnPrepost (hpolicy : call.UsesPolicy address false) (hv : TablesWf v.tables)
    (he : Effect cut call self v v') (h : ∀ o ∈ v.trace, o.takesOwnPrepost address) :
    ∀ o ∈ v'.trace, o.takesOwnPrepost address := by
  cases he with
  | register => exact h
  | leave _ _ _ _ _ hleaves =>
    refine forall_mem_cons.2 ⟨?_, h⟩
    cases hleaves <;> cases call <;> trivial
  | @shortcut thread args ending value after hargs hshortcut =>
    refine forall_mem_cons.2 ⟨?_, h⟩
    rcases waitArguments_mutex (p := fun _ _ => true) hargs with
      ⟨mutex, mgen, ugen, flags, rfl, hkind, haddress, hsequence, hfirst, -⟩ | ⟨-, hother⟩
    · rcases waitShortcut_cases hshortcut with ⟨hrw, -⟩ | ⟨hcond, -⟩ |
        ⟨-, -, taken, preposts, htaken, rfl, rfl⟩
      · cases hrw.symm.trans hkind
      · cases hcond.symm.trans hkind
      · intro hmutex
        have hfair := hfirst.trans (hpolicy.waits mgen ugen flags (by rw [hmutex]))
        rw [(consumeGuestMutexPrepost_some hv.prepost_pos htaken).1 hfair, hsequence,
          BitVec.and_assoc, BitVec.and_self]
    · cases call with
      | mutexWait _ mgen =>
        exact absurd (hother 0 none .woken ⟨mutexWakeResult (mgen &&& guestPsynchCountMask), false⟩)
          (by simp [isMutexGrant])
      | _ => trivial
  | grant | post | drop | signal => exact forall_mem_cons.2 ⟨trivial, h⟩
  | ulockWake => exact h
  | answer =>
    refine forall_mem_cons.2 ⟨?_, h⟩
    cases call <;> trivial

/-- The step in which a call drops its mutex. -/
theorem step_drop {c : Config} {thread : ℕ} (hcall : c.threads thread = some (call, .called))
    (hfree : c.mutexOwner = none) (hdrops : call.drops = some (mutex, mgen, ugen, flags)) :
    (step host c (.advance thread)).tables
      = guestPsynchMutexDrop mutex mgen ugen flags c.tables := by
  simp only [step, hcall, Config.advance]
  cases call <;> simp only [drops, reduceCtorEq, some.injEq, Prod.mk.injEq] at hdrops
  case mutexDrop =>
    obtain ⟨rfl, rfl, rfl, rfl⟩ := hdrops
    simp only [Config.start, Config.locked, hfree, if_true]
    rfl
  case conditionWait =>
    split at hdrops
    · rename_i hmutex
      obtain ⟨rfl, rfl, rfl, rfl⟩ := hdrops
      simp only [Config.start, if_pos hmutex, Config.locked, hfree, if_true]
      rfl
    · simp at hdrops

/-- A mutex waiter at `address` that was not signaled yet. -/
def pendingMutexWaiter (address : U32) (waiter : NativeGuestWaiter) : Bool :=
  !waiter.signaled && decide (waiter.kind = .mutex) && decide (waiter.address = address)

theorem mutexEligible_firstFit (target : U32) :
    mutexEligible address target true = pendingMutexWaiter address := by
  funext waiter
  simp [mutexEligible, pendingMutexWaiter]

theorem mutexEligible_fairShare (target : U32) : mutexEligible address target false
      = fun waiter => pendingMutexWaiter address waiter && decide (waiter.mutexSequence = target) :=
  rfl

end Runs

/-- **Mutex grants are conserved.** Take any run in which the calls on the mutex at `address` carry
    one policy and none of its waits returned `EINTR`. Then every drop so far is matched by a wait
    that returned its wake result, a unit of a prepost, or a waiter that was signaled and has not
    returned. Under fair-share this holds for each generation by itself: a drop is consumed by a
    wait of the generation after the dropped one, whether it is signaled or takes a prepost. Under
    first-fit a drop that finds waiters signals the one that registered first. -/
theorem mutexGrants_conserved (host : ℕ → HostThread) (memory : U32 → Option U32)
    (environment : Environment) (events : List Event) (address : U32) (firstFit : Bool)
    (hpolicy : ∀ thread call, Event.begin thread call ∈ events → call.UsesPolicy address firstFit)
    (hclean : ∀ o ∈ (run host (.initial memory environment) events).trace,
      o.interruptsMutexWait address = false) :
    let c := run host (.initial memory environment) events
    GrantsConserved (fun mutex _ => mutex == address) c.view
    ∧ (firstFit = false →
      (∀ target, GrantsConserved (fun mutex generation => mutex == address && generation == target)
          c.view)
        ∧ ∀ thread mgen ugen flags waiter taken value,
          Observation.returned thread (.mutexWait address mgen ugen flags) waiter (.prepost taken)
            value ∈ c.trace → taken = mgen &&& guestPsynchCountMask)
    ∧ ∀ thread call mgen ugen flags, c.threads thread = some (call, .called) →
      c.mutexOwner = none → call.drops = some (address, mgen, ugen, flags) →
      let after := (step host c (.advance thread)).tables
      let target := (ugen + guestPsynchCountIncrement) &&& guestPsynchCountMask
      (firstFit = false →
        (∃ m, FirstEligible
            (fun w => pendingMutexWaiter address w && decide (w.mutexSequence = target))
            c.tables.waiters m
          ∧ after = { c.tables with waiters := updateWaiter m.sequence .signal c.tables.waiters })
        ∨ ((∀ w ∈ c.tables.waiters, pendingMutexWaiter address w = true → w.mutexSequence ≠ target)
          ∧ after = { c.tables with
              mutexPreposts := recordGuestMutexPrepost address target c.tables.mutexPreposts }))
      ∧ (firstFit = true → (∃ w ∈ c.tables.waiters, pendingMutexWaiter address w = true) →
        ∃ m, FirstEligible (pendingMutexWaiter address) c.tables.waiters m
          ∧ after = { c.tables with
              waiters := updateWaiter m.sequence .signal c.tables.waiters }) := by
  intro c
  have htotal : Tracks (fun mutex _ => mutex == address) address firstFit :=
    ⟨fun mutex _ hne => by simpa using hne, fun _ _ _ => rfl⟩
  refine ⟨run_grantsConserved htotal memory environment hpolicy hclean, ?_, ?_⟩
  · rintro rfl
    refine ⟨fun target => ?_, ?_⟩
    · have htarget : Tracks (fun mutex generation => mutex == address && generation == target)
          address false :=
        ⟨fun mutex _ hne => by simp [hne], nofun⟩
      exact run_grantsConserved htarget memory environment hpolicy hclean
    · intro thread mgen ugen flags waiter taken value hreturned
      have hown : ∀ o ∈ c.view.trace, o.takesOwnPrepost address :=
        run_view (fun _ _ _ _ _ hcall hv he => he.takesOwnPrepost hcall hv) (by simp) memory
          environment hpolicy
      exact hown _ hreturned rfl
  · intro thread call mgen ugen flags hcall hfree hdrops after target
    have hpol := (run_calls memory environment hpolicy hcall).drops mgen ugen flags hdrops
    have hafter : after = guestPsynchMutexDrop address mgen ugen flags c.tables :=
      step_drop hcall hfree hdrops
    have hcases := guestPsynchMutexDrop_cases address mgen ugen flags c.tables
    rw [← hafter, hpol] at hcases
    refine ⟨?_, ?_⟩
    · rintro rfl
      have htarget : dropTarget mgen ugen flags = target := by simp [dropTarget, hpol, target]
      rw [htarget, mutexEligible_fairShare] at hcases
      simpa using hcases
    · rintro rfl ⟨w, hw, hpending⟩
      rw [mutexEligible_firstFit] at hcases
      rcases hcases with hsignaled | ⟨hnone, -⟩
      · exact hsignaled
      · simp [hnone w hw] at hpending

/-- Thread `2` drops the mutex twice, before the wait of the next generation and while thread `3`
    waits for the one after it. -/
def dropBeforeAndAfterWait : List Event :=
  [.begin 2 (.mutexDrop 0x4000 0x200 0x100 0), .advance 2,
    .begin 1 (.mutexWait 0x4000 0x200 0x100 0), .advance 1, .advance 1,
    .begin 3 (.mutexWait 0x4000 0x300 0x100 0), .advance 3, .advance 3,
    .begin 2 (.mutexDrop 0x4000 0x300 0x200 0), .advance 2]

/-- One of the two grants was returned, and the other is with a signaled waiter. -/
theorem mutexGrants_conserved_twoDrops :
    let c := run mainAndWorkers (.initial (fun _ => none) {}) dropBeforeAndAfterWait
    GrantsConserved (fun mutex _ => mutex == 0x4000) c.view
      ∧ dropped (fun mutex _ => mutex == 0x4000) c.trace = 2
      ∧ returnedGrants (fun mutex _ => mutex == 0x4000) c.trace = 1
      ∧ signaledGrants (fun mutex _ => mutex == 0x4000) c.tables.waiters = 1 := by
  refine ⟨(mutexGrants_conserved mainAndWorkers (fun _ => none) {}
    dropBeforeAndAfterWait 0x4000 false
    ?_ (by decide)).1, by decide, by decide, by decide⟩
  intro thread call hcall
  simp only [dropBeforeAndAfterWait, mem_cons, Event.begin.injEq, reduceCtorEq, false_or,
    not_mem_nil, or_false] at hcall
  rcases hcall with ⟨-, rfl⟩ | ⟨-, rfl⟩ | ⟨-, rfl⟩ | ⟨-, rfl⟩
  · exact .of_mutexDrop (by decide)
  · exact .of_mutexWait (by decide)
  · exact .of_mutexWait (by decide)
  · exact .of_mutexDrop (by decide)

end LiveExec32.Psynch
