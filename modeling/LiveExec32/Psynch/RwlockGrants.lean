import LiveExec32.Psynch.Invariant

/-! # Reader/writer exclusion

Who holds a reader/writer lock next is decided by the grants. This file shows that a grant releases
one writer alone or readers only, that each unlock record is settled by at most one grant, and that
late readers join without waiting only after a grant that left no writer behind.

The unlock record that is pending and the grant that was made last are read off the trace
(`pendingUnlock`, `lastGrant`). `RwlockHistory` ties the tables to them. -/

namespace LiveExec32.Psynch

open List Observation Config Selection Records

/-! ## The history of a lock -/

/-- The unlock that is still owed a grant at `address`. -/
def pendingUnlock (address : U32) : List Observation → Option NativeGuestRwlockUnlock
  | [] => none
  | .rwlockPosted unlock :: earlier =>
    if unlock.address == address then some unlock else pendingUnlock address earlier
  | .rwlockGranted grant :: earlier =>
    if grant.unlock.address == address then none else pendingUnlock address earlier
  | _ :: earlier => pendingUnlock address earlier

/-- The grant made last at `address`. -/
def lastGrant (address : U32) : List Observation → Option RwlockGrant
  | [] => none
  | .rwlockGranted grant :: earlier =>
    if grant.unlock.address == address then some grant else lastGrant address earlier
  | _ :: earlier => lastGrant address earlier

/-- The observation is about the unlocks and grants of reader/writer locks. -/
def Observation.isRwlock : Observation → Bool
  | .rwlockPosted _ | .rwlockGranted _ => true
  | _ => false

variable {o : Observation}

theorem pendingUnlock_cons (h : o.isRwlock = false) (address : U32) (earlier : List Observation) :
    pendingUnlock address (o :: earlier) = pendingUnlock address earlier := by
  cases o <;> first | rfl | simp [isRwlock] at h

theorem lastGrant_cons (h : o.isRwlock = false) (address : U32) (earlier : List Observation) :
    lastGrant address (o :: earlier) = lastGrant address earlier := by
  cases o <;> first | rfl | simp [isRwlock] at h

/-! ## What a grant releases -/

/-- The waiters have distinct generations, in the window that starts at `base`. -/
structure DistinctGenerations (base : ℕ) (waiters : List NativeGuestWaiter) : Prop where
  window : ∀ w ∈ waiters, InWindow base w.rwlockSequence
  distinct : ∀ v ∈ waiters, ∀ w ∈ waiters,
    generation v.rwlockSequence = generation w.rwlockSequence → v = w

/-- **A grant releases a writer alone or readers only.** -/
inductive GrantShape (base : ℕ) (pending granted : List NativeGuestWaiter) : Prop where
  /-- The writer is older than everybody else who waits. -/
  | writer (w : NativeGuestWaiter) (hw : w ∈ pending) (hwrite : w.rwlockWaitType = .write)
      (holdest : ∀ v ∈ pending, v ≠ w →
        position base w.rwlockSequence < position base v.rwlockSequence)
      (hgranted : granted = [w])
  /-- The readers are all those older than every writer who waits. -/
  | readers (hnonempty : granted ≠ [])
      (hgranted : ∀ w, w ∈ granted ↔ w ∈ pending ∧ w.rwlockWaitType = .read
        ∧ ∀ writer ∈ pending, writer.rwlockWaitType = .write →
          position base w.rwlockSequence < position base writer.rwlockSequence)

variable {w : NativeGuestWaiter}

section Shape

variable {base : ℕ} {pending : List NativeGuestWaiter}

theorem rwlockLower_iff (h : DistinctGenerations base pending) :
    ∀ v ∈ pending, ∀ w ∈ pending, (rwlockLower v w = true
      ↔ position base v.rwlockSequence < position base w.rwlockSequence) :=
  fun v hv w hw => guestPsynchSequenceLower_iff_position (h.window v hv) (h.window w hw)

variable {lowest : NativeGuestWaiter}

/-- The scan finds the oldest waiter. -/
theorem select_oldest (h : DistinctGenerations base pending)
    (hlowest : select rwlockLower pending = some lowest) :
    ∀ v ∈ pending, v ≠ lowest →
      position base lowest.rwlockSequence < position base v.rwlockSequence := by
  intro v hv hne
  rcases select_spec pending (rwlockLower_iff h) with ⟨-, hnone⟩ | ⟨m, hm, hmem, hle⟩
  · exact absurd (hnone.symm.trans hlowest) (by simp)
  · obtain rfl := Option.some.inj (hm.symm.trans hlowest)
    refine lt_of_le_of_ne (hle v hv) (fun heq => hne ?_)
    exact (h.distinct m hmem v hv
      (Circular.offset_inj (h.window m hmem) (h.window v hv) heq)).symm

/-- Being older than the writer the scan finds is being older than every writer. -/
theorem lower_lowestWriter_iff (h : DistinctGenerations base pending) (hw : w ∈ pending) :
    (match select rwlockLower
        (pending.filter (fun waiter => decide (waiter.rwlockWaitType = .write))) with
      | none => true
      | some writer => rwlockLower w writer) = true
      ↔ ∀ writer ∈ pending, writer.rwlockWaitType = .write →
        position base w.rwlockSequence < position base writer.rwlockSequence := by
  have hwriters : ∀ {x},
      x ∈ pending.filter (fun waiter => decide (waiter.rwlockWaitType = .write)) ↔
      x ∈ pending ∧ x.rwlockWaitType = .write := by simp
  rcases select_spec _ (fun x hx y hy => rwlockLower_iff h x (hwriters.1 hx).1 y
      (hwriters.1 hy).1) with ⟨hnil, hnone⟩ | ⟨m, hm, hmem, hle⟩
  · rw [hnone]
    refine ⟨fun _ x hx hwrite => ?_, fun _ => rfl⟩
    exact absurd (hwriters.2 ⟨hx, hwrite⟩) (by simp [hnil])
  · obtain ⟨hmem, hwrite⟩ := hwriters.1 hmem
    simp only [hm]
    rw [rwlockLower_iff h w hw m hmem]
    exact ⟨fun hlt x hx hxwrite => hlt.trans_le (hle x (hwriters.2 ⟨hx, hxwrite⟩)),
      fun hall => hall m hmem hwrite⟩

theorem grantedWaiters_shape (h : DistinctGenerations base pending)
    (htypes : ∀ w ∈ pending, w.rwlockWaitType ≠ .none)
    (hlowest : select rwlockLower pending = some lowest) :
    GrantShape base pending (grantedWaiters pending lowest) := by
  have hmem : lowest ∈ pending := select_mem hlowest
  by_cases hwrite : lowest.rwlockWaitType = .write
  · refine .writer lowest hmem hwrite (select_oldest h hlowest) ?_
    simp only [grantedWaiters, hwrite, if_true]
  · have hread : lowest.rwlockWaitType = .read := by
      have hsome := htypes lowest hmem
      cases htype : lowest.rwlockWaitType with
      | none => exact absurd htype hsome
      | read => rfl
      | write => exact absurd htype hwrite
    have hgranted : ∀ w, w ∈ grantedWaiters pending lowest ↔ w ∈ pending
        ∧ w.rwlockWaitType = .read ∧ ∀ writer ∈ pending, writer.rwlockWaitType = .write →
          position base w.rwlockSequence < position base writer.rwlockSequence := by
      intro w
      simp only [grantedWaiters, hwrite, if_false, mem_filter, Bool.and_eq_true, decide_eq_true_eq]
      refine and_congr_right (fun hw => and_congr_right (fun _ => lower_lowestWriter_iff h hw))
    refine .readers (ne_nil_of_mem ((hgranted lowest).2 ⟨hmem, hread, ?_⟩)) hgranted
    intro writer hwriter htype
    refine select_oldest h hlowest writer hwriter (fun heq => hwrite ?_)
    rwa [heq] at htype

end Shape

/-! ## The tables and the history -/

/-- What is known of a grant, given what was observed before it. -/
structure GrantMade (grant : RwlockGrant) (earlier : List Observation) : Prop where
  due : ∃ tables, InOrder tables.waiters ∧ DueGrant grant.unlock.address tables grant
  /-- Its unlock was pending, -/
  pending : pendingUnlock grant.unlock.address earlier = some grant.unlock
  /-- and no grant had settled it. -/
  first : ∀ older, .rwlockGranted older ∈ earlier → older.unlock.post ≠ grant.unlock.post

/-- The tables of the reader/writer locks agree with the history. -/
structure RwlockHistory (v : View) : Prop where
  records : ∀ address, v.tables.rwlockUnlocks.find? (fun unlock => unlock.address == address)
    = pendingUnlock address v.trace
  addresses : Records.UniqueKeys NativeGuestRwlockUnlock.address v.tables.rwlockUnlocks
  posts : Records.UniqueKeys NativeGuestRwlockUnlock.post v.tables.rwlockUnlocks
  unsettled : ∀ unlock ∈ v.tables.rwlockUnlocks, unlock.post < v.tables.rwlockPosts
    ∧ ∀ grant, .rwlockGranted grant ∈ v.trace → grant.unlock.post ≠ unlock.post
  settled : ∀ grant, .rwlockGranted grant ∈ v.trace → grant.unlock.post < v.tables.rwlockPosts
    ∧ ∀ w ∈ grant.granted, w.sequence < v.tables.nextWaitSequence
  grants : ∀ grant earlier, .rwlockGranted grant :: earlier <:+ v.trace → GrantMade grant earlier
  overlaps : ∀ overlap ∈ v.tables.rwlockOverlaps, ∃ grant,
    lastGrant overlap.address v.trace = some grant ∧ grant.opensOverlap = true
  signaled : ∀ w ∈ v.tables.waiters, w.kind = .rwlock →
    (w.signaled = true ↔ ∃ grant, .rwlockGranted grant ∈ v.trace ∧ grant.releases w = true)

variable {address : U32}

section History

variable {cut : NativeGuestWaiter → Prop} {call : Call} {self : ℕ} {v v' : View}

/-- Changes that leave the unlock records alone and signal no reader/writer waiter. -/
theorem RwlockHistory.tables (h : RwlockHistory v) {tables : WaitTables}
    (hunlocks : tables.rwlockUnlocks = v.tables.rwlockUnlocks)
    (hposts : tables.rwlockPosts = v.tables.rwlockPosts)
    (hnext : v.tables.nextWaitSequence ≤ tables.nextWaitSequence)
    (hoverlaps : ∀ overlap ∈ tables.rwlockOverlaps,
      ∃ old ∈ v.tables.rwlockOverlaps, old.address = overlap.address)
    (hwaiters : ∀ w ∈ tables.waiters, w.kind = .rwlock →
      w ∈ v.tables.waiters ∨ (w.signaled = false ∧ w.sequence = v.tables.nextWaitSequence)) :
    RwlockHistory ⟨tables, v.trace⟩ where
  records := by rw [hunlocks]; exact h.records
  addresses := by rw [hunlocks]; exact h.addresses
  posts := by rw [hunlocks]; exact h.posts
  unsettled := by rw [hunlocks, hposts]; exact h.unsettled
  settled grant hgrant := by
    obtain ⟨hpost, hgranted⟩ := h.settled grant hgrant
    exact ⟨hposts ▸ hpost, fun w hw => (hgranted w hw).trans_le hnext⟩
  grants := h.grants
  overlaps overlap hoverlap := by
    obtain ⟨old, hold, haddress⟩ := hoverlaps overlap hoverlap
    exact haddress ▸ h.overlaps old hold
  signaled w hw hkind := by
    rcases hwaiters w hw hkind with hold | ⟨hsignaled, hsequence⟩
    · exact h.signaled w hold hkind
    · -- nobody was granted who registers only now
      refine ⟨by simp [hsignaled], ?_⟩
      rintro ⟨grant, hgrant, hreleases⟩
      obtain ⟨x, hx, hxw⟩ := any_eq_true.1 hreleases
      have hfresh := (h.settled grant hgrant).2 x hx
      rw [beq_iff_eq.1 hxw, hsequence] at hfresh
      exact absurd hfresh (lt_irrefl _)

/-- Observations about something else. -/
theorem RwlockHistory.observe (h : RwlockHistory v) (ho : o.isRwlock = false) :
    RwlockHistory ⟨v.tables, o :: v.trace⟩ := by
  have hgranted : ∀ grant, .rwlockGranted grant ∈ o :: v.trace →
      .rwlockGranted grant ∈ v.trace := by
    intro grant hgrant
    refine (mem_cons.1 hgrant).resolve_left ?_
    rintro rfl
    simp [isRwlock] at ho
  refine ⟨fun address => ?_, h.addresses, h.posts, fun unlock hunlock => ?_, ?_, ?_, ?_, ?_⟩
  · rw [pendingUnlock_cons ho]
    exact h.records address
  · exact ⟨(h.unsettled unlock hunlock).1,
      fun grant hgrant => (h.unsettled unlock hunlock).2 grant (hgranted grant hgrant)⟩
  · exact fun grant hgrant => h.settled grant (hgranted grant hgrant)
  · intro grant earlier hsuffix
    rcases suffix_cons_iff.1 hsuffix with heq | hsuffix
    · obtain ⟨rfl, -⟩ := cons.inj heq
      simp [isRwlock] at ho
    · exact h.grants grant earlier hsuffix
  · intro overlap hoverlap
    rw [lastGrant_cons ho]
    exact h.overlaps overlap hoverlap
  · intro w hw hkind
    refine (h.signaled w hw hkind).trans (exists_congr fun grant => and_congr_left fun _ => ?_)
    exact ⟨mem_cons_of_mem _, hgranted grant⟩

/-- Both together, when the records and overlaps stay. -/
theorem RwlockHistory.other (h : RwlockHistory v) {tables : WaitTables}
    (hunlocks : tables.rwlockUnlocks = v.tables.rwlockUnlocks)
    (hposts : tables.rwlockPosts = v.tables.rwlockPosts)
    (hnext : tables.nextWaitSequence = v.tables.nextWaitSequence)
    (hoverlaps : tables.rwlockOverlaps = v.tables.rwlockOverlaps)
    (hwaiters : ∀ w ∈ tables.waiters, w.kind = .rwlock → w ∈ v.tables.waiters)
    (ho : o.isRwlock = false) : RwlockHistory ⟨tables, o :: v.trace⟩ :=
  (h.tables hunlocks hposts hnext.ge (hoverlaps ▸ fun overlap hoverlap => ⟨overlap, hoverlap, rfl⟩)
    (fun w hw hkind => .inl (hwaiters w hw hkind))).observe ho

/-- An unlock posts its record, in the place of an older one. -/
theorem RwlockHistory.post (h : RwlockHistory v) {unlock : NativeGuestRwlockUnlock}
    (hpost : unlock.post = v.tables.rwlockPosts) :
    RwlockHistory ⟨recordRwlockUnlock unlock v.tables, .rwlockPosted unlock :: v.trace⟩ := by
  have hgranted : ∀ grant, .rwlockGranted grant ∈ .rwlockPosted unlock :: v.trace →
      .rwlockGranted grant ∈ v.trace := fun grant hgrant =>
    (mem_cons.1 hgrant).resolve_left (by simp)
  refine ⟨fun address => ?_, h.addresses.store unlock, ?_, fun x hx => ?_, fun grant hgrant => ?_,
    ?_, h.overlaps, ?_⟩
  · simp only [recordRwlockUnlock, find?_store, pendingUnlock]
    rw [h.records address]
  · refine pairwise_store h.addresses h.posts (fun x hx _ => ?_)
    have hlt := (h.unsettled x hx).1
    exact ⟨by omega, by omega⟩
  · rcases mem_store h.addresses hx with rfl | ⟨hx, -⟩
    · refine ⟨hpost ▸ Nat.lt_succ_self _, fun grant hgrant => ?_⟩
      have hlt := (h.settled grant (hgranted grant hgrant)).1
      omega
    · obtain ⟨hlt, hne⟩ := h.unsettled x hx
      exact ⟨hlt.trans (Nat.lt_succ_self _), fun grant hgrant => hne grant (hgranted grant hgrant)⟩
  · obtain ⟨hlt, hfresh⟩ := h.settled grant (hgranted grant hgrant)
    exact ⟨hlt.trans (Nat.lt_succ_self _), hfresh⟩
  · intro grant earlier hsuffix
    refine h.grants grant earlier ((suffix_cons_iff.1 hsuffix).resolve_left ?_)
    exact fun heq => absurd (cons.inj heq).1 (by simp)
  · intro w hw hkind
    refine (h.signaled w hw hkind).trans (exists_congr fun grant => and_congr_left fun _ => ?_)
    exact ⟨mem_cons_of_mem _, hgranted grant⟩

/-- A grant settles the record. -/
theorem RwlockHistory.grant (h : RwlockHistory v) (hv : TablesWf v.tables) {grant : RwlockGrant}
    (hdue : DueGrant address v.tables grant) :
    RwlockHistory ⟨applyGrant address grant v.tables, .rwlockGranted grant :: v.trace⟩ := by
  have hmem : grant.unlock ∈ v.tables.rwlockUnlocks := mem_of_find?_eq_some hdue.pending_unlock
  have haddress : grant.unlock.address = address := by
    simpa using find?_some hdue.pending_unlock
  -- the records that stay belong to other addresses
  have hothers : ∀ unlock ∈ (applyGrant address grant v.tables).rwlockUnlocks,
      unlock ∈ v.tables.rwlockUnlocks ∧ unlock.address ≠ address := by
    intro unlock hunlock
    refine ⟨mem_of_mem_eraseP hunlock, fun heq => ?_⟩
    have hnone := find?_eraseP h.addresses address address
    rw [if_pos (beq_self_eq_true address), find?_eq_none] at hnone
    exact hnone unlock hunlock (by simp [heq])
  refine ⟨fun a => ?_, h.addresses.eraseP _, h.posts.eraseP _, fun unlock hunlock => ?_,
    ?_, ?_, ?_, ?_⟩
  · simp only [applyGrant, find?_eraseP h.addresses, pendingUnlock, haddress]
    rw [h.records a]
  · obtain ⟨hold, hne⟩ := hothers unlock hunlock
    refine ⟨(h.unsettled unlock hold).1, fun g hg => ?_⟩
    rcases mem_cons.1 hg with heq | hg
    · obtain rfl := rwlockGranted.inj heq
      intro hpost
      exact hne (h.posts.eq_of_key_eq hmem hold hpost ▸ haddress)
    · exact (h.unsettled unlock hold).2 g hg
  · intro g hg
    rcases mem_cons.1 hg with heq | hg
    · obtain rfl := rwlockGranted.inj heq
      exact ⟨(h.unsettled _ hmem).1, fun w hw => hv.fresh w (hdue.mem_pending hw).1⟩
    · exact h.settled g hg
  · intro g earlier hsuffix
    rcases suffix_cons_iff.1 hsuffix with heq | hsuffix
    · obtain ⟨hg, rfl⟩ := cons.inj heq
      obtain rfl := rwlockGranted.inj hg
      subst haddress
      exact ⟨⟨_, hv.order, hdue⟩, (h.records _).symm.trans hdue.pending_unlock,
        (h.unsettled _ hmem).2⟩
    · exact h.grants g earlier hsuffix
  · intro overlap hoverlap
    rcases mem_append.1 hoverlap with hkept | hopened
    · obtain ⟨hold, hne⟩ := mem_filter.1 hkept
      have hother : overlap.address ≠ address := by simpa using hne
      obtain ⟨g, hlast, hopens⟩ := h.overlaps overlap hold
      refine ⟨g, ?_, hopens⟩
      rw [lastGrant, haddress, if_neg (by simpa using hother.symm), hlast]
    · split at hopened
      · rename_i hopens
        rw [mem_singleton.1 hopened]
        exact ⟨grant, by rw [lastGrant, haddress, if_pos (beq_self_eq_true _)], hopens⟩
      · simp at hopened
  · intro w hw hkind
    obtain ⟨x, hx, rfl⟩ := mem_map.1 hw
    by_cases hreleases : grant.releases x = true
    · rw [if_pos hreleases]
      exact ⟨fun _ => ⟨grant, mem_cons_self, hreleases⟩, fun _ => rfl⟩
    · simp only [hreleases] at hkind ⊢
      refine (h.signaled x hx hkind).trans (exists_congr fun g => and_congr_left fun hg => ?_)
      refine ⟨mem_cons_of_mem _, fun hmem => (mem_cons.1 hmem).resolve_left (fun heq => ?_)⟩
      obtain rfl := rwlockGranted.inj heq
      exact hreleases hg

theorem mem_updateFirst {α : Type} {p : α → Bool} {change : α → α} {xs : List α} {x : α}
    (h : x ∈ updateFirst p change xs) : x ∈ xs ∨ ∃ y ∈ xs, x = change y := by
  induction xs with
  | nil => simp [updateFirst] at h
  | cons y _ ih =>
    unfold updateFirst at h
    split at h
    · rcases mem_cons.1 h with rfl | h
      · exact .inr ⟨y, mem_cons_self, rfl⟩
      · exact .inl (mem_cons_of_mem _ h)
    · rcases mem_cons.1 h with rfl | h
      · exact .inl mem_cons_self
      · rcases ih h with hold | ⟨z, hz, heq⟩
        · exact .inl (mem_cons_of_mem _ hold)
        · exact .inr ⟨z, mem_cons_of_mem _ hz, heq⟩

/-- A late reader moves the overlap record of its lock on. -/
theorem overlap_address_of_handled {lgen rwSequence value : U32}
    {overlaps after : List NativeGuestRwlockOverlap}
    (h : tryHandleNativeGuestRwlockOverlapLocked address lgen rwSequence overlaps
      = some (value, after)) :
    ∀ overlap ∈ after, ∃ old ∈ overlaps, old.address = overlap.address := by
  unfold tryHandleNativeGuestRwlockOverlapLocked at h
  split at h
  · simp at h
  · split at h
    · simp at h
    · cases h
      intro overlap hoverlap
      rcases mem_updateFirst hoverlap with hold | ⟨old, hold, rfl⟩
      · exact ⟨overlap, hold, rfl⟩
      · exact ⟨old, hold, rfl⟩

/-- **Every effect keeps the history.** -/
theorem RwlockHistory.effect (h : RwlockHistory v) (hv : TablesWf v.tables)
    (he : Effect cut call self v v') : RwlockHistory v' := by
  cases he with
  | register _ _ _ hsignaled =>
    refine h.tables rfl rfl (Nat.le_succ _) (fun overlap hoverlap => ⟨overlap, hoverlap, rfl⟩)
      (fun x hx _ => ?_)
    refine (mem_append.1 hx).imp_right (fun hx => ?_)
    rw [mem_singleton.1 hx]
    exact ⟨hsignaled, rfl⟩
  | leave =>
    exact h.other rfl rfl rfl rfl (fun x hx _ => (mem_filter.1 hx).1) rfl
  | shortcut _ _ _ hshortcut =>
    rcases waitShortcut_cases hshortcut with ⟨-, -, -, overlaps, hhandled, rfl⟩ |
      ⟨-, -, taken, preposts, -, -, rfl⟩ | ⟨-, -, taken, preposts, -, -, rfl⟩
    · have htables : RwlockHistory ⟨{ v.tables with rwlockOverlaps := overlaps }, v.trace⟩ :=
        h.tables rfl rfl le_rfl (overlap_address_of_handled hhandled) (fun x hx _ => .inl hx)
      exact htables.observe rfl
    · exact h.other rfl rfl rfl rfl (fun x hx _ => hx) rfl
    · exact h.other rfl rfl rfl rfl (fun x hx _ => hx) rfl
  | grant _ grant hdue => exact h.grant hv (dueGrant_spec hdue)
  | post _ _ _ hpost => exact h.post hpost
  | drop mutex mgen ugen flags =>
    have hwaiters : ∀ x ∈ (guestPsynchMutexDrop mutex mgen ugen flags v.tables).waiters,
        x.kind = .rwlock → x ∈ v.tables.waiters := fun x hx hkind =>
      (mem_guestPsynchMutexDrop hv.order hx).resolve_right
        (fun hmutex => absurd (hkind.symm.trans hmutex) (by decide))
    rcases guestPsynchMutexDrop_cases mutex mgen ugen flags v.tables with ⟨m, -, heq⟩ | ⟨-, heq⟩
    all_goals
      rw [heq] at hwaiters ⊢
      exact h.other rfl rfl rfl rfl hwaiters rfl
  | signal =>
    refine h.other ?_ ?_ ?_ ?_ (fun x hx hkind => ?_) rfl
    iterate 4 rw [guestPsynchConditionSignal_tables]
    refine (mem_guestPsynchConditionSignal hv.order hx).resolve_right ?_
    rintro ⟨old, -, hcan, rfl⟩
    simp only [conditionEligible, Bool.and_eq_true, decide_eq_true_eq] at hcan
    cases hkind.symm.trans hcan.1.1.1.2
  | ulockWake =>
    refine h.tables rfl rfl le_rfl (fun overlap hoverlap => ⟨overlap, hoverlap, rfl⟩)
      (fun x hx hkind => .inl ?_)
    refine (mem_guestUlockWake hv.order hx).resolve_right ?_
    rintro ⟨old, -, hcan, rfl⟩
    simp only [ulockEligible, isUlockWaiter, Bool.and_eq_true, decide_eq_true_eq] at hcan
    cases hkind.symm.trans hcan.1.1.1.1
  | answer => exact h.observe rfl

end History

/-! ## Runs -/

section Grant

variable {address : U32} {tables : WaitTables} {grant : RwlockGrant}

theorem DueGrant.pending_spec (h : DueGrant address tables grant) (hw : w ∈ grant.pending) :
    w.signaled = false ∧ w.kind = .rwlock ∧ w.address = address ∧ w.rwlockWaitType ≠ .none := by
  rw [h.pending] at hw
  simpa [rwlockPending, and_assoc] using (mem_filter.1 hw).2

/-- A grant that opens an overlap released readers only, and no writer waits. -/
theorem DueGrant.readersOnly (h : DueGrant address tables grant) (horder : InOrder tables.waiters)
    (hopens : grant.opensOverlap = true) :
    (∀ w ∈ grant.granted, w.rwlockWaitType = .read)
      ∧ ∀ w ∈ grant.pending, w.rwlockWaitType ≠ .write := by
  obtain ⟨hwriterGrant, hremains⟩ : grant.writerGrant = false ∧ grant.writerRemains = false := by
    simpa [RwlockGrant.opensOverlap] using hopens
  obtain ⟨lowest, -, hgranted⟩ := h.granted
  have hread : ∀ w ∈ grant.granted, w.rwlockWaitType = .read := by
    intro w hw
    by_cases hwrite : lowest.rwlockWaitType = .write
    · rw [grantedWaiters, if_pos hwrite] at hgranted
      simp [RwlockGrant.writerGrant, hgranted, hwrite] at hwriterGrant
    · rw [hgranted, grantedWaiters, if_neg hwrite, mem_filter, Bool.and_eq_true,
        decide_eq_true_eq] at hw
      exact hw.2.1
  refine ⟨hread, fun w hw hwrite => ?_⟩
  -- a writer who waits and is not released would be one that remains
  rw [h.writerRemains, any_eq_false] at hremains
  obtain ⟨hsignaled, hkind, haddress, -⟩ := h.pending_spec hw
  have hmem : w ∈ tables.waiters := (mem_filter.1 (h.pending ▸ hw)).1
  have hreleases : grant.releases w = true := by
    simpa [hsignaled, hkind, haddress, hwrite] using hremains w hmem
  obtain ⟨x, hx, hsequence⟩ := any_eq_true.1 hreleases
  obtain rfl := horder.eq_of_sequence_eq (h.mem_pending hx).1 hmem (by simpa using hsequence)
  cases hwrite.symm.trans (hread x hx)

theorem DueGrant.shape (h : DueGrant address tables grant) {base : ℕ}
    (hdistinct : DistinctGenerations base grant.pending) :
    GrantShape base grant.pending grant.granted := by
  obtain ⟨lowest, hlowest, hgranted⟩ := h.granted
  rw [hgranted]
  exact grantedWaiters_shape hdistinct (fun w hw => (h.pending_spec hw).2.2.2) hlowest

/-- The waiter with which the next step of a reader/writer wait registers. -/
def Config.arriving (host : ℕ → HostThread) (c : Config) : Event → List NativeGuestWaiter
  | .advance thread =>
    match c.threads thread with
    | some (.rwWait rwlock lgen _ write, .prepared) =>
      [{ kind := .rwlock
         address := rwlock
         threadPort := (host thread).threadPort
         rwlockWaitType := if write then .write else .read
         rwlockSequence := lgen
         sequence := c.tables.nextWaitSequence }]
    | _ => []
  | _ => []

variable {host : ℕ → HostThread} {c c' : Config} {thread : ℕ} {call : Call}

theorem Config.granted_finish {waiter : Option NativeGuestWaiter} {ending : Ending}
    {value : SyscallReturn}
    (h : rwlockGranted grant ∈ (c.finish thread call waiter ending value).trace) :
    rwlockGranted grant ∈ c.trace :=
  (mem_cons.1 h).resolve_left (by simp)

theorem Config.granted_waitLoop {self : ℕ} {expired : Bool}
    (h : rwlockGranted grant ∈ (c.waitLoop thread call self expired).trace) :
    rwlockGranted grant ∈ c.trace := by
  unfold waitLoop at h
  repeat' split at h
  all_goals first | exact h | exact granted_finish h

theorem Config.granted_pauseStep {self : ℕ} {pause : PauseStage}
    (h : rwlockGranted grant ∈ (c.pauseStep host thread call self pause).trace) :
    rwlockGranted grant ∈ c.trace := by
  cases pause <;> simp only [pauseStep] at h
  all_goals split at h
  all_goals first
    | exact h
    | (rw [storeHostWaitStep.eq_def] at h; split at h <;> exact h)

theorem Config.granted_noteGrant {made : Option RwlockGrant}
    (h : rwlockGranted grant ∈ (c.noteGrant made).trace) :
    rwlockGranted grant ∈ c.trace ∨ made = some grant := by
  cases made with
  | none => exact .inl h
  | some due => exact (mem_cons.1 h).symm.imp_right (fun heq => by rw [rwlockGranted.inj heq])

/-- A grant chooses among the waiters of the tables it is made on. -/
theorem tryGrant_pending
    (h : (tryGrantNativeGuestRwlockLocked address tables).1 = some grant) :
    grant.pending = tables.waiters.filter (rwlockPending grant.unlock.address) := by
  unfold tryGrantNativeGuestRwlockLocked at h
  split at h
  · cases h
  · rename_i due hdue
    obtain rfl := Option.some.inj h
    have hspec := dueGrant_spec hdue
    have haddress : due.unlock.address = address := by simpa using find?_some hspec.pending_unlock
    exact haddress ▸ hspec.pending

theorem postRwlockUnlock_pending {lgen ugen rwSequence : U32}
    (h : (postNativeGuestRwlockUnlockLocked address lgen ugen rwSequence tables).2.1
      = some grant) :
    grant.pending = tables.waiters.filter (rwlockPending grant.unlock.address) := by
  simp only [postNativeGuestRwlockUnlockLocked] at h
  split at h
  · cases h
  · split at h
    · rename_i hmade
      -- the record of the unlock leaves the waiters as they are
      have hpending := tryGrant_pending ((congrArg Prod.fst hmade).trans h)
      exact hpending
    · cases h

theorem Config.granted_unlockRwlock {rwlock lgen ugen rwSequence : U32}
    (h : rwlockGranted grant
      ∈ (c.unlockRwlock thread call rwlock lgen ugen rwSequence).trace) :
    rwlockGranted grant ∈ c.trace
      ∨ grant.pending = c.tables.waiters.filter (rwlockPending grant.unlock.address) := by
  refine (granted_noteGrant (granted_finish h)).imp (fun hold => ?_)
    postRwlockUnlock_pending
  unfold notePost at hold
  split at hold
  · exact hold
  · exact (mem_cons.1 hold).resolve_left (by simp)

theorem Config.granted_enterWait {args : WaitArguments}
    (h : rwlockGranted grant ∈ (c.enterWait host thread call args).trace) :
    rwlockGranted grant ∈ c.trace ∨ args.kind = .rwlock ∧ grant.pending
      = (registerWaiter (args.waiter (host thread).threadPort) c.tables).waiters.filter
          (rwlockPending grant.unlock.address) := by
  simp only [enterWait, locked] at h
  split at h
  · exact .inl (granted_finish h)
  split at h
  swap
  · exact .inl h
  split at h
  · exact .inl (granted_finish h)
  unfold register at h
  extract_lets self registered granted after at h
  split at h
  · rename_i hkind
    have hafter : rwlockGranted grant ∈ after.trace := by
      repeat' split at h
      all_goals first | exact h | exact granted_finish h
    exact (granted_noteGrant hafter).imp_right
      (fun hmade => ⟨hkind, tryGrant_pending hmade⟩)
  · exact .inl h

/-- A grant of a step chooses among the waiters there were, with the one that arrives. -/
theorem step_granted {event : Event} (hgrant : rwlockGranted grant ∈ (step host c event).trace) :
    rwlockGranted grant ∈ c.trace ∨ grant.pending
      = (c.tables.waiters ++ c.arriving host event).filter
        (rwlockPending grant.unlock.address) := by
  cases event with
  | begin thread call =>
    simp only [step] at hgrant
    split at hgrant <;> exact .inl hgrant
  | deadline thread =>
    simp only [step, locked] at hgrant
    repeat' split at hgrant
    all_goals first | exact .inl hgrant | exact .inl (granted_waitLoop hgrant)
  | store | request => exact .inl hgrant
  | advance thread =>
    simp only [step] at hgrant
    split at hgrant
    · exact .inl hgrant
    rename_i call stage hcall
    cases stage with
    | called =>
      cases call <;> simp only [advance, start, locked, ulockLock,
        ulockCheckTarget] at hgrant
      case rwUnlock =>
        split at hgrant
        · simpa [arriving, hcall] using granted_unlockRwlock hgrant
        · exact .inl hgrant
      all_goals left
      all_goals repeat' split at hgrant
      all_goals simpa [finish, goto, dropMutex, signalCondition,
        withTables, observe] using hgrant
    | prepared =>
      simp only [advance, proceed] at hgrant
      split at hgrant
      · simp only [locked] at hgrant
        split at hgrant
        · exact .inl (granted_finish hgrant)
        · exact .inl hgrant
      split at hgrant
      · rename_i args hargs
        refine (granted_enterWait hgrant).imp_right (fun hmade => hmade.2.trans ?_)
        cases call <;> cases hargs
        · cases hmade.1
        · cases hmade.1
        · simp only [arriving, hcall, registerWaiter, WaitArguments.waiter]
      · exact .inl hgrant
    | comparing =>
      cases call <;> simp only [advance, ulockCompare] at hgrant <;> left
      all_goals repeat' split at hgrant
      all_goals first | exact hgrant | exact granted_finish hgrant
    | enqueueing => cases call <;> exact .inl hgrant
    | waiting =>
      simp only [advance, locked] at hgrant
      split at hgrant
      · exact .inl (granted_waitLoop hgrant)
      · exact .inl hgrant
    | pausing => exact .inl (granted_pauseStep hgrant)
    | relocking =>
      simp only [advance, locked, relock] at hgrant
      left
      repeat' split at hgrant
      all_goals first
        | exact hgrant
        | exact granted_finish hgrant
        | exact granted_waitLoop hgrant

end Grant

theorem lastGrant_some {trace : List Observation} {grant : RwlockGrant}
    (h : lastGrant address trace = some grant) :
    ∃ earlier, .rwlockGranted grant :: earlier <:+ trace := by
  induction trace with
  | nil => simp [lastGrant] at h
  | cons o earlier ih =>
    by_cases hlast : o = .rwlockGranted grant
    · exact ⟨earlier, hlast ▸ suffix_refl _⟩
    · have hearlier : lastGrant address earlier = some grant := by
        cases o with
        | rwlockGranted =>
          rw [lastGrant] at h
          split at h
          · exact absurd (congrArg rwlockGranted (Option.some.inj h)) hlast
          · exact h
        | _ => exact h
      obtain ⟨rest, hrest⟩ := ih hearlier
      exact ⟨rest, hrest.trans (suffix_cons o earlier)⟩

/-- **Reader/writer exclusion of grants.** Take any run.

    Every grant settled the unlock that was pending at its address, which no grant had settled
    before, and chose among waiters that were not signaled. If their generations are distinct and in
    one window, it released the oldest waiter alone, a writer, or exactly the readers older than
    every waiting writer; and as many waiters had arrived as the unlock counted.

    A step that grants chooses among all of them: every reader/writer waiter of the address that is
    not signaled is there, with the one the step registers.

    An overlap record is there only if the last grant of its address released readers and no writer
    was waiting. A reader/writer waiter is signaled exactly if a grant released it. -/
theorem rwlockGrants_exclude (host : ℕ → HostThread) (memory : U32 → Option U32)
    (environment : Environment) (events : List Event) :
    let c := run host (.initial memory environment) events
    (∀ grant earlier, Observation.rwlockGranted grant :: earlier <:+ c.trace →
      pendingUnlock grant.unlock.address earlier = some grant.unlock
      ∧ (∀ older, Observation.rwlockGranted older ∈ earlier →
        older.unlock.post ≠ grant.unlock.post)
      ∧ (∀ w ∈ grant.pending, w.signaled = false ∧ w.kind = .rwlock
        ∧ w.address = grant.unlock.address ∧ w.rwlockWaitType ≠ .none)
      ∧ ∀ base, DistinctGenerations base grant.pending →
        GrantShape base grant.pending grant.granted
        ∧ (InWindow base grant.unlock.lgen →
          grant.unlock.expectedWaiters ≤ grant.pending.countP (fun w =>
            decide (position base w.rwlockSequence ≤ position base grant.unlock.lgen))))
    ∧ (∀ event grant, Observation.rwlockGranted grant ∈ (step host c event).trace →
      Observation.rwlockGranted grant ∉ c.trace →
      ∀ w, w ∈ grant.pending ↔ w ∈ c.tables.waiters ++ c.arriving host event
        ∧ w.signaled = false ∧ w.kind = .rwlock ∧ w.address = grant.unlock.address
        ∧ w.rwlockWaitType ≠ .none)
    ∧ (∀ overlap ∈ c.tables.rwlockOverlaps, ∃ grant,
      lastGrant overlap.address c.trace = some grant
      ∧ (∀ w ∈ grant.granted, w.rwlockWaitType = .read)
      ∧ ∀ w ∈ grant.pending, w.rwlockWaitType ≠ .write)
    ∧ ∀ w ∈ c.tables.waiters, w.kind = .rwlock → (w.signaled = true ↔
      ∃ grant, Observation.rwlockGranted grant ∈ c.trace ∧ grant.releases w = true) := by
  intro c
  have hhistory : RwlockHistory c.view :=
    run_view (fun _ _ _ _ _ _ hv he h => h.effect hv he)
      ⟨fun _ => rfl, .nil, .nil, by simp, by simp, by simp,
        by simp, by simp⟩ memory environment (fun _ _ _ => trivial)
  refine ⟨fun grant earlier hgrant => ?_, fun event grant hgrant hnew w => ?_,
    fun overlap hoverlap => ?_, hhistory.signaled⟩
  · obtain ⟨⟨tables, -, hdue⟩, hpending, hfirst⟩ := hhistory.grants grant earlier hgrant
    refine ⟨hpending, hfirst, fun w hw => hdue.pending_spec hw,
      fun base hdistinct => ⟨hdue.shape hdistinct, fun hlgen => ?_⟩⟩
    refine hdue.expected.trans_eq (countP_congr (fun w hw => ?_))
    rw [rwlockOwed, guestPsynchSequenceLowerOrEqual_eq_position (hdistinct.window w hw) hlgen]
  · rw [(step_granted hgrant).resolve_left hnew, mem_filter]
    simp only [rwlockPending]
    grind
  · obtain ⟨grant, hlast, hopens⟩ := hhistory.overlaps overlap hoverlap
    obtain ⟨earlier, hgrant⟩ := lastGrant_some hlast
    obtain ⟨⟨tables, horder, hdue⟩, -, -⟩ := hhistory.grants grant earlier hgrant
    exact ⟨grant, hlast, hdue.readersOnly horder hopens⟩

/-- A writer and a younger reader wait; then the lock is unlocked for both. -/
def writerBeforeReader : List Event :=
  [.begin 2 (.rwWait 0x6000 0x100 0 true), .advance 2, .advance 2,
    .begin 3 (.rwWait 0x6000 0x200 0 false), .advance 3, .advance 3,
    .begin 1 (.rwUnlock 0x6000 0x200 0 0), .advance 1]

def waitingWriter : NativeGuestWaiter where
  kind := .rwlock
  address := 0x6000
  rwlockWaitType := .write
  rwlockSequence := 0x100
  threadPort := 0x102
  sequence := 1

def waitingReader : NativeGuestWaiter where
  kind := .rwlock
  address := 0x6000
  rwlockWaitType := .read
  rwlockSequence := 0x200
  threadPort := 0x103
  sequence := 2

/-- The grant of that run. -/
def writerFirst : RwlockGrant where
  unlock := ⟨0x6000, 0x200, 0, 2, 0⟩
  pending := [waitingWriter, waitingReader]
  granted := [waitingWriter]
  writerRemains := false

/-- It goes to the writer alone, and the reader waits on. -/
theorem rwlockGrants_exclude_writerFirst :
    let c := run mainAndWorkers (.initial (fun _ => none) {}) writerBeforeReader
    Observation.rwlockGranted writerFirst ∈ c.trace
      ∧ GrantShape 0 writerFirst.pending writerFirst.granted
      ∧ c.tables.waiters.map (fun w => (w.sequence, w.signaled)) = [(1, true), (2, false)] := by
  have hgrant : rwlockGranted writerFirst :: [.rwlockPosted writerFirst.unlock]
      <:+ (run mainAndWorkers (.initial (fun _ => none) {}) writerBeforeReader).trace :=
    ⟨[.returned 1 (.rwUnlock 0x6000 0x200 0 0) none .answered (.success 0x103)], by decide⟩
  obtain ⟨-, -, -, hshape⟩ := (rwlockGrants_exclude mainAndWorkers (fun _ => none) {}
    writerBeforeReader).1 writerFirst _ hgrant
  exact ⟨by decide, (hshape 0 ⟨by decide, by decide⟩).1, by decide⟩

end LiveExec32.Psynch
