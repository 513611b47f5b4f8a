import LiveExec32.Psynch.Wake

/-! # Reader/writer locks

An unlock does not wake anybody by itself: it posts a record that owes one grant, and the grant
happens as soon as as many waiters have arrived as the unlock counted, either at once or when a
later waiter registers. A grant releases the oldest writer alone, or all the readers older than the
oldest writer. After a grant of readers with no writer left an overlap record lets late readers
through without waiting. -/

namespace LiveExec32.Psynch

/-- Change the first element that satisfies `p`. -/
def updateFirst {α : Type} (p : α → Bool) (change : α → α) : List α → List α
  | [] => []
  | x :: rest => if p x then change x :: rest else x :: updateFirst p change rest

/-! ## The overlap shortcut -/

/-- The word a late reader returns with, and the advanced record; `none` when it has to wait. -/
def tryHandleNativeGuestRwlockOverlapLocked (address lgen rwSequence : U32)
    (overlaps : List NativeGuestRwlockOverlap) : Option (U32 × List NativeGuestRwlockOverlap) :=
  match overlaps.find? (fun overlap => overlap.address == address) with
  | none => none
  | some overlap =>
    if rwSequence &&& guestPsynchRwSequenceSavedWriterBit ≠ 0
        ∨ lgen &&& guestPsynchRwWriterBit ≠ 0
        ∨ (guestPsynchSequenceLowerOrEqual rwSequence overlap.nextSequence = false
          ∧ guestPsynchSequenceLowerOrEqual rwSequence overlap.lastSequence = false) then
      none
    else
      let nextSequence := overlap.nextSequence + guestPsynchCountIncrement
      some (guestPsynchCountIncrement ||| (nextSequence &&& guestPsynchBitMask)
          ||| guestPsynchRwOverlapBit,
        updateFirst (fun overlap => overlap.address == address)
          (fun overlap => { overlap with nextSequence := nextSequence }) overlaps)

/-! ## The grant -/

/-- An unsignaled waiter of the lock at `address`. -/
def rwlockPending (address : U32) (waiter : NativeGuestWaiter) : Bool :=
  !waiter.signaled && decide (waiter.kind = .rwlock) && decide (waiter.address = address)
    && decide (waiter.rwlockWaitType ≠ .none)

/-- The unlock counted this waiter: its generation is at or before the unlocker's. -/
def rwlockOwed (unlock : NativeGuestRwlockUnlock) (waiter : NativeGuestWaiter) : Bool :=
  guestPsynchSequenceLowerOrEqual waiter.rwlockSequence unlock.lgen

def rwlockLower (waiter selected : NativeGuestWaiter) : Bool :=
  guestPsynchSequenceLower waiter.rwlockSequence selected.rwlockSequence

/-- The waiters a grant releases, out of all the pending ones, with `lowest` the oldest of them. -/
def grantedWaiters (pending : List NativeGuestWaiter) (lowest : NativeGuestWaiter) :
    List NativeGuestWaiter :=
  let lowestWriter := Selection.select rwlockLower
    (pending.filter (fun waiter => decide (waiter.rwlockWaitType = .write)))
  if lowest.rwlockWaitType = .write then [lowest]
  else pending.filter (fun waiter =>
    decide (waiter.rwlockWaitType = .read)
      && match lowestWriter with
        | none => true
        | some writer => rwlockLower waiter writer)

/-- A grant: the unlock record it settles and the waiters it releases. `pending` is a ghost: all the
    waiters of the lock that were not signaled when the grant was made. -/
structure RwlockGrant where
  unlock : NativeGuestRwlockUnlock
  pending : List NativeGuestWaiter
  granted : List NativeGuestWaiter
  writerRemains : Bool
deriving DecidableEq, Repr

def RwlockGrant.writerGrant (grant : RwlockGrant) : Bool :=
  match grant.granted with
  | [waiter] => decide (waiter.rwlockWaitType = .write)
  | _ => false

def RwlockGrant.update (grant : RwlockGrant) : U32 :=
  let update :=
    if grant.writerGrant then
      guestPsynchCountIncrement ||| guestPsynchRwKernelBit ||| guestPsynchRwExclusiveBit
    else BitVec.ofNat 32 grant.granted.length * guestPsynchCountIncrement
  if grant.writerRemains then update ||| (guestPsynchRwKernelBit ||| guestPsynchRwWriterBit)
  else update

/-- Whether the grant leaves the lock to readers alone, so that late readers may join them. -/
def RwlockGrant.opensOverlap (grant : RwlockGrant) : Bool :=
  !grant.writerGrant && !grant.writerRemains

/-- The waiter is one of those the grant releases. -/
def RwlockGrant.releases (grant : RwlockGrant) (waiter : NativeGuestWaiter) : Bool :=
  grant.granted.any (fun granted => granted.sequence == waiter.sequence)

/-- The grant that is due at `address`, if any. -/
def dueGrant (address : U32) (tables : WaitTables) : Option RwlockGrant :=
  match tables.rwlockUnlocks.find? (fun unlock => unlock.address == address) with
  | none => none
  | some unlock =>
    let pending := tables.waiters.filter (rwlockPending address)
    if pending.countP (rwlockOwed unlock) < unlock.expectedWaiters then none
    else
      (Selection.select rwlockLower pending).map (fun lowest =>
        let granted := grantedWaiters pending lowest
        { unlock := unlock
          pending := pending
          granted := granted
          writerRemains := tables.waiters.any (fun waiter =>
            !waiter.signaled && decide (waiter.kind = .rwlock)
              && decide (waiter.address = address)
              && decide (waiter.rwlockWaitType = .write)
              && !(granted.any (fun other => other.sequence == waiter.sequence))) })

/-- Carry out a grant. -/
def applyGrant (address : U32) (grant : RwlockGrant) (tables : WaitTables) : WaitTables :=
  { tables with
    rwlockOverlaps :=
      tables.rwlockOverlaps.filter (fun overlap => overlap.address != address)
        ++ (if grant.opensOverlap then
          [{ address := address
             lastSequence := grant.unlock.rwSequence
             nextSequence := (grant.unlock.rwSequence &&& guestPsynchCountMask) + grant.update }]
          else [])
    waiters := tables.waiters.map (fun waiter =>
      if grant.releases waiter then { waiter with wakeResult := grant.update, signaled := true }
      else waiter)
    rwlockUnlocks := tables.rwlockUnlocks.eraseP (fun unlock => unlock.address == address) }

/-- The grant it made, if any, and the tables afterwards. -/
def tryGrantNativeGuestRwlockLocked (address : U32) (tables : WaitTables) :
    Option RwlockGrant × WaitTables :=
  match dueGrant address tables with
  | none => (none, tables)
  | some grant => (some grant, applyGrant address grant tables)

/-- What is known of a grant that is due. -/
structure DueGrant (address : U32) (tables : WaitTables) (grant : RwlockGrant) : Prop where
  pending_unlock :
    tables.rwlockUnlocks.find? (fun unlock => unlock.address == address) = some grant.unlock
  pending : grant.pending = tables.waiters.filter (rwlockPending address)
  expected : grant.unlock.expectedWaiters ≤ grant.pending.countP (rwlockOwed grant.unlock)
  granted : ∃ lowest, Selection.select rwlockLower grant.pending = some lowest
    ∧ grant.granted = grantedWaiters grant.pending lowest
  writerRemains : grant.writerRemains = tables.waiters.any (fun waiter =>
    !waiter.signaled && decide (waiter.kind = .rwlock) && decide (waiter.address = address)
      && decide (waiter.rwlockWaitType = .write) && !grant.releases waiter)

variable {address : U32} {tables : WaitTables} {grant : RwlockGrant}

theorem dueGrant_spec (h : dueGrant address tables = some grant) :
    DueGrant address tables grant := by
  unfold dueGrant at h
  split at h
  · simp at h
  · rename_i unlock hunlock
    simp only at h
    split at h
    · simp at h
    · rename_i hexpected
      obtain ⟨lowest, hlowest, rfl⟩ := Option.map_eq_some_iff.1 h
      exact ⟨hunlock, rfl, Nat.le_of_not_lt hexpected, ⟨lowest, hlowest, rfl⟩, rfl⟩

variable {waiter : NativeGuestWaiter}

/-- A grant releases some of the waiters it chose from. -/
theorem DueGrant.mem_granted (h : DueGrant address tables grant) (hw : waiter ∈ grant.granted) :
    waiter ∈ grant.pending := by
  obtain ⟨lowest, hlowest, hgranted⟩ := h.granted
  rw [hgranted, grantedWaiters] at hw
  split at hw
  · rw [List.mem_singleton.1 hw]
    exact Selection.select_mem hlowest
  · exact (List.mem_filter.1 hw).1

/-- They are waiters of its address that were not signaled yet. -/
theorem DueGrant.mem_pending (h : DueGrant address tables grant) (hw : waiter ∈ grant.granted) :
    waiter ∈ tables.waiters ∧ rwlockPending address waiter :=
  List.mem_filter.1 (h.pending ▸ h.mem_granted hw)

theorem kind_of_rwlockPending (h : rwlockPending address waiter) : waiter.kind = .rwlock := by
  simp only [rwlockPending, Bool.and_eq_true, decide_eq_true_eq] at h
  exact h.1.1.2

/-! ## Posting an unlock -/

/-- Store the record of an unlock, in the place of the address's older one if there is one. -/
def recordRwlockUnlock (unlock : NativeGuestRwlockUnlock) (tables : WaitTables) : WaitTables :=
  { tables with
    rwlockPosts := tables.rwlockPosts + 1
    rwlockUnlocks := Records.store NativeGuestRwlockUnlock.address unlock tables.rwlockUnlocks }

/-- The record of an unlock. -/
def newRwlockUnlock (address lgen ugen rwSequence : U32) (tables : WaitTables) :
    NativeGuestRwlockUnlock where
  address := address
  lgen := lgen
  rwSequence := rwSequence
  expectedWaiters := guestPsynchSequenceDistance lgen ugen
  post := tables.rwlockPosts

/-- The word the unlocker returns with, the grant made, and the tables. -/
def postNativeGuestRwlockUnlockLocked (address lgen ugen rwSequence : U32) (tables : WaitTables) :
    U32 × Option RwlockGrant × WaitTables :=
  let expected := guestPsynchSequenceDistance lgen ugen
  if expected = 0 then (0, none, tables)
  else
    let unlock := newRwlockUnlock address lgen ugen rwSequence tables
    match tryGrantNativeGuestRwlockLocked address (recordRwlockUnlock unlock tables) with
    | (some grant, after) => (grant.update, some grant, after)
    | (none, after) => (lgen, none, after)

end LiveExec32.Psynch
