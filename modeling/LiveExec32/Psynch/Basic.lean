import LiveExec32.Lib.CircularOrder
import LiveExec32.Lib.Selection

/-! # Guest psynch and ulock waits: data model

Guest mutexes, condition variables, reader/writer locks and ulock words block in the emulator: a
blocked host thread registers a `NativeGuestWaiter` in `nativeGuestWaiters` and sleeps on it until a
waker sets its `signaled` flag. A wake that finds nobody to signal leaves a *prepost* for a waiter
that has not arrived yet. Everything here is guarded by `nativeGuestWaitMutex`: in native mode the
prepost tables are only touched while that mutex is held, so their own mutex is not modelled.

Generations count in steps of `0x100`; the low byte of a word carries flags. -/

namespace LiveExec32.Psynch

/-- The source's `u32`. -/
abbrev U32 := BitVec 32

/-! ## Generations -/

def guestPsynchCountIncrement : U32 := 0x100
def guestPsynchCountMask : U32 := 0xffffff00
def guestPsynchBitMask : U32 := 0xff
def guestPsynchRwKernelBit : U32 := 0x01
def guestPsynchRwExclusiveBit : U32 := 0x02
def guestPsynchRwWriterBit : U32 := 0x04
def guestPsynchRwSequenceSavedWriterBit : U32 := 0x04
def guestPsynchRwOverlapBit : U32 := 0x40
def guestPthreadPolicyFlagsMask : U32 := 0x1c0
def guestPthreadMutexPolicyFirstFit : U32 := 0x080

def guestPsynchMutexIsFirstFit (flags : U32) : Bool :=
  flags &&& guestPthreadPolicyFlagsMask == guestPthreadMutexPolicyFirstFit

def guestPsynchSequenceLower (lhs rhs : U32) : Bool :=
  let lhs := lhs &&& guestPsynchCountMask
  let rhs := rhs &&& guestPsynchCountMask
  if lhs < rhs then decide (rhs - lhs < guestPsynchCountMask / 2)
  else decide (lhs - rhs > guestPsynchCountMask / 2)

def guestPsynchSequenceLowerOrEqual (lhs rhs : U32) : Bool :=
  (lhs &&& guestPsynchCountMask == rhs &&& guestPsynchCountMask)
    || guestPsynchSequenceLower lhs rhs

@[simp] theorem guestPsynchSequenceLowerOrEqual_and_countMask (lhs rhs : U32) :
    guestPsynchSequenceLowerOrEqual (lhs &&& guestPsynchCountMask) rhs
      = guestPsynchSequenceLowerOrEqual lhs rhs := by
  simp only [guestPsynchSequenceLowerOrEqual, guestPsynchSequenceLower, BitVec.and_assoc,
    BitVec.and_self]

@[simp] theorem guestPsynchSequenceLowerOrEqual_and_countMask_right (lhs rhs : U32) :
    guestPsynchSequenceLowerOrEqual lhs (rhs &&& guestPsynchCountMask)
      = guestPsynchSequenceLowerOrEqual lhs rhs := by
  simp only [guestPsynchSequenceLowerOrEqual, guestPsynchSequenceLower, BitVec.and_assoc,
    BitVec.and_self]

def guestPsynchSequenceDistance (newer older : U32) : ℕ :=
  ((((newer &&& guestPsynchCountMask) - (older &&& guestPsynchCountMask)) &&& guestPsynchCountMask)
    / guestPsynchCountIncrement).toNat

/-! ### Generations as circular sequence numbers -/

/-- Half the number of generations. -/
abbrev halfRange : ℕ := 2 ^ 23

/-- The generation in a word, without its flag byte. -/
def generation (word : U32) : ℕ := word.toNat / 0x100

/-- The generation of `word` is one of the `halfRange` generations that start at `base`. -/
abbrev InWindow (base : ℕ) (word : U32) : Prop := Circular.InWindow halfRange base (generation word)

/-- The place of a generation in the window that starts at `base`. -/
abbrev position (base : ℕ) (word : U32) : ℕ := Circular.offset halfRange base (generation word)

theorem generation_lt (word : U32) : generation word < 2 * halfRange := by
  unfold generation halfRange
  omega

/-- Masking keeps the generation and clears the flags. -/
theorem toNat_and_countMask (word : U32) :
    (word &&& guestPsynchCountMask).toNat = generation word * 0x100 := by
  have hbits : ∀ i : Fin 32, guestPsynchCountMask.getLsbD i = decide (8 ≤ i.val) := by decide
  have hmask : word &&& guestPsynchCountMask = (word >>> 8) <<< 8 := by
    apply BitVec.eq_of_getLsbD_eq
    intro i hi
    rw [BitVec.getLsbD_and, hbits ⟨i, hi⟩]
    by_cases h8 : 8 ≤ i
    · simp [h8, hi]
    · simp [h8]
  have hlt := generation_lt word
  rw [hmask, BitVec.toNat_shiftLeft, BitVec.toNat_ushiftRight, Nat.shiftRight_eq_div_pow,
    Nat.shiftLeft_eq]
  unfold generation halfRange at *
  omega

/-- Two words carry the same generation exactly when they agree after masking. -/
theorem and_countMask_eq_iff (lhs rhs : U32) :
    lhs &&& guestPsynchCountMask = rhs &&& guestPsynchCountMask
      ↔ generation lhs = generation rhs := by
  rw [← BitVec.toNat_inj, toNat_and_countMask, toNat_and_countMask]
  omega

theorem guestPsynchSequenceLower_iff (lhs rhs : U32) : guestPsynchSequenceLower lhs rhs
      ↔ Circular.before halfRange (generation lhs) (generation rhs) := by
  have hl := toNat_and_countMask lhs
  have hr := toNat_and_countMask rhs
  have hhalf : (guestPsynchCountMask / 2).toNat = 0x7fffff80 := by decide
  unfold guestPsynchSequenceLower Circular.before
  simp only [BitVec.lt_def, gt_iff_lt]
  simp only [halfRange] at *
  split_ifs <;> simp only [decide_eq_true_eq, BitVec.toNat_sub] <;> omega

/-! ### Comparing generations inside a window -/

section Window

variable {base : ℕ} {lhs rhs : U32}

theorem guestPsynchSequenceLower_iff_position (hl : InWindow base lhs) (hr : InWindow base rhs) :
    guestPsynchSequenceLower lhs rhs ↔ position base lhs < position base rhs := by
  rw [guestPsynchSequenceLower_iff, Circular.before_iff_offset_lt hl hr]

theorem guestPsynchSequenceLowerOrEqual_eq_position (hl : InWindow base lhs)
    (hr : InWindow base rhs) :
    guestPsynchSequenceLowerOrEqual lhs rhs = decide (position base lhs ≤ position base rhs) := by
  rw [Bool.eq_iff_iff, decide_eq_true_iff]
  unfold guestPsynchSequenceLowerOrEqual
  rw [Bool.or_eq_true, beq_iff_eq, and_countMask_eq_iff,
    guestPsynchSequenceLower_iff_position hl hr, le_iff_eq_or_lt]
  exact or_congr_left ⟨fun h => by rw [position, position, h], Circular.offset_inj hl hr⟩

end Window

/-! ## Waiters and the tables -/

inductive GuestThreadWaitKind where
  | none
  | mutex
  | condition
  | rwlock
  | ulock
deriving DecidableEq, Repr

inductive GuestRwlockWaitType where
  | none
  | read
  | write
deriving DecidableEq, Repr

/-- `struct NativeGuestWaiter`. The source tells waiters apart by their pointer; here `sequence`,
    which is drawn from a counter when the waiter is registered, is the identity of the object. -/
structure NativeGuestWaiter where
  kind : GuestThreadWaitKind := .none
  address : U32 := 0
  ulockOpcode : BitVec 8 := 0
  rwlockWaitType : GuestRwlockWaitType := .none
  rwlockSequence : U32 := 0
  mutexSequence : U32 := 0
  conditionSequence : U32 := 0
  threadPort : U32 := 0
  wakeResult : U32 := 0
  sequence : ℕ := 0
  signaled : Bool := false
deriving DecidableEq, Repr

structure GuestMutexPrepost where
  address : U32
  sequence : U32
  count : ℕ
deriving DecidableEq, Repr

structure GuestConditionPrepost where
  address : U32
  throughSequence : U32
  count : ℕ
deriving DecidableEq, Repr

/-- A reader/writer unlock that still owes its grant. `post` is a ghost: the number of the unlock
    that wrote the record, which is the record's identity. -/
structure NativeGuestRwlockUnlock where
  address : U32
  lgen : U32
  rwSequence : U32
  expectedWaiters : ℕ
  post : ℕ
deriving DecidableEq, Repr

/-- Late readers may still join the readers that were granted last. -/
structure NativeGuestRwlockOverlap where
  address : U32
  lastSequence : U32
  nextSequence : U32
deriving DecidableEq, Repr

/-- What `nativeGuestWaitMutex` guards. `rwlockPosts` is a ghost that numbers the unlock records. -/
structure WaitTables where
  waiters : List NativeGuestWaiter := []
  rwlockUnlocks : List NativeGuestRwlockUnlock := []
  rwlockPosts : ℕ := 0
  rwlockOverlaps : List NativeGuestRwlockOverlap := []
  mutexPreposts : List GuestMutexPrepost := []
  conditionPreposts : List GuestConditionPrepost := []
  nextWaitSequence : ℕ := 1
deriving DecidableEq, Repr

end LiveExec32.Psynch
