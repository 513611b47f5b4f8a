import LiveExec32.Lib.Bytes
import LiveExec32.Lib.Footprint
import Mathlib.Data.Nat.Bitwise

/-! # The staging message of a Mach trap

`guest_mach_msg_trap` copies the guest's message into a host buffer of
`max(send_size, rcv_size, sizeof(mach_msg_header_t))` bytes, answers it in place and copies the
buffer back. Each message id has its own handler, and each handler lays its own request and reply
structures over the one buffer.

A handler is a `Staging` program: its actions are the reads and writes it makes on the buffer, and
everything else it does is a host call, whose answer the `Host` gives. The buffer is `Bytes`, so a
handler that leaves it still has a run; whether it leaves it is a question about the actions. -/

namespace LiveExec32.MachMsg

open Bytes

/-! ## Reads and writes -/

inductive Access where
  | load (offset length : ℕ)
  /-- A read whose place or length is taken from the message. -/
  | record (offset length : ℕ)
  /-- A read up to the first zero byte, of a string whose place or end is taken from the message. -/
  | string (offset : ℕ)
  | store (offset : ℕ) (data : List UInt8)

def Access.Reply : Access → Type
  | .store _ _ => Unit
  | _ => Bytes

/-- A read answers with the memory from its offset on. -/
def Access.sem : (a : Access) → Bytes → a.Reply × Bytes
  | .load offset _, m => (m.shift offset, m)
  | .record offset _, m => (m.shift offset, m)
  | .string offset, m => (m.shift offset, m)
  | .store offset data, m => ((), m.write offset data)

abbrev Staging := Prog Access Access.Reply

def load (offset length : ℕ) : Staging Bytes := Prog.perform (Access.load offset length)

def record (offset length : ℕ) : Staging Bytes := Prog.perform (Access.record offset length)

def string (offset : ℕ) : Staging Bytes := Prog.perform (Access.string offset)

def store (offset : ℕ) (data : List UInt8) : Staging Unit := Prog.perform (Access.store offset data)

def load32 (offset : ℕ) : Staging ℕ := do
  let m ← load offset 4
  pure (m.word 0)

def store32 (offset value : ℕ) : Staging Unit := store offset (encodeWord value)

/-- Read several words, for the arguments of a host call. -/
def loadWords : List ℕ → Staging (List ℕ)
  | [] => pure []
  | offset :: rest => do
    let value ← load32 offset
    let values ← loadWords rest
    pure (value :: values)

/-! ## Layouts and codes -/

/-- `sizeof(mach_msg_header_t)`. -/
@[simp] abbrev headerSize : ℕ := 24

/-- The offsets of the header's fields. -/
@[simp] abbrev msghBits : ℕ := 0
@[simp] abbrev msghSize : ℕ := 4
@[simp] abbrev msghRequestPort : ℕ := 8
@[simp] abbrev msghReplyPort : ℕ := 12
@[simp] abbrev msghReserved : ℕ := 16
@[simp] abbrev msghId : ℕ := 20

/-- Behind the header of a simple message: `NDR_record_t NDR; kern_return_t RetCode; ...`. -/
@[simp] abbrev ndrOffset : ℕ := 24
@[simp] abbrev retCode : ℕ := 32

/-- `sizeof(mig_reply_error_t)`. -/
@[simp] abbrev errorSize : ℕ := 36

/-- Behind the header of a message with one port descriptor: the descriptor count and the
    descriptor's fields, of `sizeof(mach_msg_port_descriptor_t) = 12` bytes. -/
@[simp] abbrev descriptorCount : ℕ := 24
@[simp] abbrev portName : ℕ := 28
@[simp] abbrev portDisposition : ℕ := 38
@[simp] abbrev portType : ℕ := 39

/-- The size of a reply that holds one port descriptor and nothing else. -/
@[simp] abbrev portReplySize : ℕ := 40

def ndrRecord : List UInt8 := [0, 0, 0, 0, 1, 0, 0, 0]

@[simp] abbrev MACH_MSG_SUCCESS : ℕ := 0
@[simp] abbrev MACH_SEND_INVALID_DEST : ℕ := 0x10000003
@[simp] abbrev MACH_SEND_INTERRUPTED : ℕ := 0x10000007
@[simp] abbrev MACH_SEND_INVALID_HEADER : ℕ := 0x10000010
@[simp] abbrev MACH_RCV_TIMED_OUT : ℕ := 0x10004003
@[simp] abbrev MACH_RCV_TOO_LARGE : ℕ := 0x10004004
@[simp] abbrev MACH_RCV_INTERRUPTED : ℕ := 0x10004005

@[simp] abbrev KERN_SUCCESS : ℕ := 0
@[simp] abbrev KERN_INVALID_ARGUMENT : ℕ := 4
@[simp] abbrev KERN_FAILURE : ℕ := 5
@[simp] abbrev KERN_NOT_SUPPORTED : ℕ := 46
/-- The codes of `mig_errors.h` are negative. -/
def MIG_TYPE_ERROR : ℕ := 2 ^ 32 - 300
def MIG_BAD_ARGUMENTS : ℕ := 2 ^ 32 - 304
def MIG_ARRAY_TOO_LARGE : ℕ := 2 ^ 32 - 307

def MACH_MSG_PORT_DESCRIPTOR : UInt8 := 0
def MACH_MSG_OOL_PORTS_DESCRIPTOR : UInt8 := 2
def MACH_MSG_PHYSICAL_COPY : UInt8 := 0
def MACH_MSG_TYPE_MOVE_SEND : UInt8 := 17
def MACH_MSG_TYPE_MOVE_SEND_ONCE : UInt8 := 18
def MACH_MSG_TYPE_COPY_SEND : UInt8 := 19
def MACH_MSGH_BITS_COMPLEX : ℕ := 0x80000000

/-- `bits & MACH_MSGH_BITS_COMPLEX`. -/
def isComplex (bits : ℕ) : Bool := bits.testBit 31

/-- `MACH_PORT_VALID`. -/
def portValid (port : ℕ) : Bool := port ≠ 0 && port ≠ 2 ^ 32 - 1

/-! ## The host -/

/-- The host and emulator services the handlers call. -/
inductive HostCall where
  | hostInfo
  | hostGetIoMain
  | hostGetIoMaster
  | hostGetClockService
  | hostStatistics
  | hostRequestNotification
  | hostGetSpecialPort
  | hostKernelVersion
  | hostPageSize
  | clockGetTime
  | clockGetAttributes
  | machPortType
  | machPortRequestNotification
  | machPortGetAttributes
  | machPortSetAttributes
  | machPortRename
  | machPortAllocateName
  | machPortAllocate
  | machPortDestroy
  | machPortDeallocate
  | machPortGetRefs
  | machPortModRefs
  | machPortSetMscount
  | machPortMoveMember
  | machPortSetSeqno
  | machPortInsertMember
  | machPortExtractMember
  | machPortGetContext
  | machPortSetContext
  | taskInfo
  | taskGetSpecialPort
  | taskSetSpecialPort
  | semaphoreCreate
  | semaphoreDestroy
  | ioServerVersion
  | ioServiceGetMatchingServices
  | copyGuestVmMemory
  | dynarmicVmRemap
  | copyGuestTaskThreadPorts
  | changeGuestThreadSuspendCount
  | copyGuestThreadState
  | copyGuestThreadInfo
  | setGuestThreadPolicy
  | copyGuestThreadPolicy
deriving DecidableEq, Repr

/-- What a call answers whose output has room for `capacity` words. The count it reports is the
    number of words it wrote, which is at most the count passed to it. -/
structure Answer (capacity : ℕ) where
  code : ℕ
  words : List ℕ
  fits : words.length ≤ capacity

/-- The output variable after the call, if it was zero before. -/
def Answer.filled {capacity : ℕ} (answer : Answer capacity) : List ℕ :=
  answer.words ++ List.replicate (capacity - answer.words.length) 0

@[simp] theorem Answer.length_filled {capacity : ℕ} (answer : Answer capacity) :
    answer.filled.length = capacity := by
  have := answer.fits
  simp only [Answer.filled, List.length_append, List.length_replicate]
  omega

/-- What `mach_msg` answers: it writes at most `rcv_size` bytes, and a message that it reports as
    received has a size that fits. -/
structure Delivery (option rcvSize : ℕ) where
  result : ℕ
  received : List UInt8
  fits : received.length ≤ rcvSize
  sized : option.testBit 1 = true → result = MACH_MSG_SUCCESS →
    ∀ m : Bytes, (m.write 0 received).word msghSize ≤ rcvSize

structure Host where
  call : HostCall → List ℕ → (capacity : ℕ) → Answer capacity
  machMsg : (option sendSize rcvSize rcvName timeout notify : ℕ) → Bytes → Delivery option rcvSize
  /-- Which weakly linked and dynamically resolved symbols exist. -/
  hasHostGetIoMain : Bool
  hasHostGetIoMaster : Bool
  hasIoServerVersion : Bool
  hasIoServiceGetMatchingServices : Bool

/-! ## The trap -/

/-- The arguments of the trap, and what the copy from guest memory brought in: all of the message,
    or the part of it before the first unmapped page. -/
structure Trap where
  option : ℕ
  sendSize : ℕ
  rcvSize : ℕ
  rcvName : ℕ
  timeout : ℕ
  notify : ℕ
  content : List UInt8
  sendSize_lt : sendSize < 2 ^ 32
  rcvSize_lt : rcvSize < 2 ^ 32
  content_le : content.length ≤ sendSize

/-- The size of the staging buffer. -/
def Trap.capacity (t : Trap) : ℕ := max (max t.sendSize t.rcvSize) headerSize

/-- A loaded image known to the debugger. -/
structure GuestMapping where
  start : ℕ
  debuggerPathResolved : Bool
deriving DecidableEq, Repr

/-- The state of the emulator and of the host process around the trap. -/
structure World where
  /-- `mach_task_self()`. -/
  taskSelf : ℕ
  /-- What the heap holds, counted from the start of the buffer. Only what is past the buffer
      matters. -/
  heap : Bytes
  /-- `PumpGuestWorkqueue()` answers `CooperativeTransition`. -/
  cooperativeTransition : Bool
  /-- `GuestThreadCanYieldBeforeBlocking()`. -/
  canYieldBeforeBlocking : Bool
  /-- `GuestThreadYieldBeforeBlocking()`. -/
  yieldsBeforeBlocking : Bool
  /-- `guestMappings`. -/
  mappings : List GuestMapping
  /-- The host memory from `get_memory(address)` on. -/
  image : ℕ → Bytes
  /-- `ResolveDebuggerImagePath`, on a path that starts with a slash. -/
  resolvesImagePath : Bytes → Bool
  /-- Whether `ExceptionRaised` returns, as it does under a debugger. -/
  exceptionReturns : Bool

/-- How a handler ends. -/
inductive Ending where
  /-- It leaves the `switch`; the trap completes the header and copies the buffer out. -/
  | reply (result : ℕ)
  /-- It returns from the trap; `copiedOut` tells whether it copied the buffer out. -/
  | returned (result : ℕ) (copiedOut : Bool)
  /-- The emulator stops. -/
  | crashed
  /-- A loop has not ended within the fuel. -/
  | stuck
deriving DecidableEq, Repr

/-! ## Bounds -/

/-- The access stays inside the buffer. -/
def Trap.InBuffer (t : Trap) : Access → Bytes → Prop
  | .load offset length, _ => length = 0 ∨ offset + length ≤ t.capacity
  | .record offset length, _ => length = 0 ∨ offset + length ≤ t.capacity
  | .string offset, m => m.Terminated offset t.capacity
  | .store offset data, _ => data = [] ∨ offset + data.length ≤ t.capacity

/-- What the access takes from the message stays inside what the guest has sent. -/
def Trap.Validated (t : Trap) : Access → Bytes → Prop
  | .record offset length, _ => length = 0 ∨ offset + length ≤ t.sendSize
  | .string offset, m => m.Terminated offset t.sendSize
  | _, _ => True

/-- A reply reported as a success fits into the guest's buffer. -/
def Trap.ReplyFits (t : Trap) : Ending → Bytes → Prop
  | .reply result, m => result = MACH_MSG_SUCCESS → m.word msghSize ≤ t.rcvSize
  | .returned result true, m => result = MACH_MSG_SUCCESS → m.word msghSize ≤ t.rcvSize
  | .returned _ false, _ | .crashed, _ | .stuck, _ => True

def Trap.Allows (t : Trap) (a : Access) (m : Bytes) : Prop := t.InBuffer a m ∧ t.Validated a m

/-- The handler terminates and its reply fits. -/
def Trap.Answered (t : Trap) (ending : Ending) (m : Bytes) : Prop :=
  ending ≠ .stuck ∧ t.ReplyFits ending m

/-- From `m`, `p` makes only allowed accesses and ends in `post`. -/
def Trap.Meets {α : Type} (t : Trap) (p : Staging α) (m : Bytes) (post : α → Bytes → Prop) : Prop :=
  Prog.Guarded Access.sem t.Allows p m post

/-- `p` is memory safe when it handles the message `m`. -/
def Trap.Safe (t : Trap) (p : Staging Ending) (m : Bytes) : Prop := t.Meets p m t.Answered

section Rules

variable {α β : Type} {t : Trap} {m : Bytes}

theorem Trap.headerSize_le_capacity (t : Trap) : headerSize ≤ t.capacity := Nat.le_max_right _ _

theorem Trap.sendSize_le_capacity (t : Trap) : t.sendSize ≤ t.capacity :=
  le_trans (Nat.le_max_left _ _) (Nat.le_max_left _ _)

theorem Trap.rcvSize_le_capacity (t : Trap) : t.rcvSize ≤ t.capacity :=
  le_trans (Nat.le_max_right _ _) (Nat.le_max_left _ _)

@[simp] theorem meets_ret (v : α) (post : α → Bytes → Prop) :
    t.Meets (.ret v) m post ↔ post v m := Iff.rfl

@[simp] theorem meets_bind (p : Staging α) (f : α → Staging β) (post : β → Bytes → Prop) :
    t.Meets (p >>= f) m post ↔ t.Meets p m fun v m' => t.Meets (f v) m' post :=
  Prog.guarded_bind p f m post

@[simp] theorem meets_ite (c : Prop) [Decidable c] (p q : Staging α) (post : α → Bytes → Prop) :
    t.Meets (if c then p else q) m post ↔ (c → t.Meets p m post) ∧ (¬c → t.Meets q m post) :=
  Prog.guarded_ite c p q m post

@[simp] theorem meets_load (offset length : ℕ) (post : Bytes → Bytes → Prop) :
    t.Meets (load offset length) m post
      ↔ (length = 0 ∨ offset + length ≤ t.capacity) ∧ post (m.shift offset) m := by
  show ((length = 0 ∨ offset + length ≤ t.capacity) ∧ True) ∧ post (m.shift offset) m ↔ _
  rw [and_true]

@[simp] theorem meets_load32 (offset : ℕ) (post : ℕ → Bytes → Prop) :
    t.Meets (load32 offset) m post ↔ offset + 4 ≤ t.capacity ∧ post (m.word offset) m := by
  simp [load32]

@[simp] theorem meets_record (offset length : ℕ) (post : Bytes → Bytes → Prop) :
    t.Meets (record offset length) m post
      ↔ (length = 0 ∨ offset + length ≤ t.sendSize) ∧ post (m.shift offset) m := by
  have := t.sendSize_le_capacity
  show ((length = 0 ∨ offset + length ≤ t.capacity) ∧ (length = 0 ∨ offset + length ≤ t.sendSize))
    ∧ post (m.shift offset) m ↔ _
  refine and_congr_left fun _ => ⟨And.right, fun h => ⟨?_, h⟩⟩
  omega

@[simp] theorem meets_string (offset : ℕ) (post : Bytes → Bytes → Prop) :
    t.Meets (string offset) m post ↔ m.Terminated offset t.sendSize ∧ post (m.shift offset) m := by
  show (m.Terminated offset t.capacity ∧ m.Terminated offset t.sendSize)
    ∧ post (m.shift offset) m ↔ _
  exact and_congr_left fun _ => ⟨And.right, fun h => ⟨h.mono t.sendSize_le_capacity, h⟩⟩

@[simp] theorem meets_store (offset : ℕ) (data : List UInt8) (post : Unit → Bytes → Prop) :
    t.Meets (store offset data) m post
      ↔ (data = [] ∨ offset + data.length ≤ t.capacity) ∧ post () (m.write offset data) := by
  show ((data = [] ∨ offset + data.length ≤ t.capacity) ∧ True) ∧ post () (m.write offset data) ↔ _
  rw [and_true]

@[simp] theorem meets_store32 (offset value : ℕ) (post : Unit → Bytes → Prop) :
    t.Meets (store32 offset value) m post
      ↔ offset + 4 ≤ t.capacity ∧ post () (m.write offset (encodeWord value)) := by
  simp [store32, encodeWord]

@[simp] theorem meets_loadWords (offsets : List ℕ) (post : List ℕ → Bytes → Prop) :
    t.Meets (loadWords offsets) m post
      ↔ (∀ offset ∈ offsets, offset + 4 ≤ t.capacity) ∧ post (offsets.map m.word) m := by
  induction offsets generalizing post with
  | nil => simp [loadWords]
  | cons _ _ ih => simp [loadWords, ih, and_assoc]

end Rules

end LiveExec32.MachMsg
