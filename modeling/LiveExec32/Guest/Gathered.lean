import LiveExec32.Guest.Isolation

/-! # Gathered writes

`guest_writev` makes one `guest_write` for each buffer. It adds up what they return, goes on after a
write that failed or took only a part, and leaves the carry flag as the last of them set it. So its
answer is right only if no write fails and none follows a short one, or if nothing was written at
all. -/

namespace LiveExec32.Guest

open List

/-- How a host `write` ends. -/
inductive HostWrite where
  | wrote (count : ℕ)
  | failed (errno : ℕ)
deriving DecidableEq, Repr

namespace HostWrite

/-- What `syscallRetCarry` returns. -/
def value : HostWrite → ℕ
  | .wrote count => count
  | .failed errno => errno

def carry : HostWrite → Bool
  | .wrote _ => false
  | .failed _ => true

/-- The number of bytes that reach the descriptor. -/
def count : HostWrite → ℕ
  | .wrote count => count
  | .failed _ => 0

/-- What a host may do with a buffer: it takes a prefix of it, which an `int` can count, or reports
    an error. -/
def Possible (nbyte : ℕ) : HostWrite → Prop
  | .wrote count => count ≤ nbyte ∧ count < 2 ^ 31
  | .failed errno => 0 < errno

theorem value_eq_count_iff {nbyte : ℕ} {write : HostWrite} (h : write.Possible nbyte) :
    write.count ≤ nbyte ∧ write.count ≤ write.value
      ∧ (write.value = write.count ↔ write.carry = false) := by
  cases write with
  | wrote => exact ⟨h.1, Nat.le_refl _, iff_of_true rfl rfl⟩
  | failed => exact ⟨Nat.zero_le _, Nat.zero_le _, iff_of_false (Nat.ne_of_gt h) nofun⟩

end HostWrite

/-- What `guest_writev` returns: the value and the carry flag, which is `carry` before the loop. -/
def writevReturn (carry : Bool) (writes : List HostWrite) : ℕ × Bool :=
  writes.foldl (fun answer write => (answer.1 + write.value, write.carry)) (0, carry)

/-- The law of the call: what is sent is a prefix of the buffers, a return without carry counts it,
    and a return with carry means that nothing was sent. -/
def Reported (buffers sent : List UInt8) (answer : ℕ × Bool) : Prop :=
  sent <+: buffers ∧ (answer.2 = false → answer.1 = sent.length) ∧ (answer.2 = true → sent = [])

instance (buffers sent : List UInt8) (answer : ℕ × Bool) :
    Decidable (Reported buffers sent answer) :=
  inferInstanceAs (Decidable (_ ∧ _ ∧ _))

/-- The buffers of a vector and how their writes end. -/
abbrev Gathered := List (List UInt8 × HostWrite)

namespace Gathered

def whole (writes : Gathered) : List UInt8 := writes.flatMap Prod.fst

/-- What reaches the descriptor. -/
def sent (writes : Gathered) : List UInt8 := writes.flatMap fun w => w.1.take w.2.count

/-- What is sent after the first write that is short continues where that one stopped. -/
def Gapless : Gathered → Prop
  | [] => True
  | (buffer, write) :: rest =>
    if write.count = buffer.length then Gapless rest
    else sent rest <+: buffer.drop write.count ++ whole rest

def Possible (writes : Gathered) : Prop := ∀ w ∈ writes, w.2.Possible w.1.length

variable {writes : Gathered} {carry : Bool}

theorem sent_prefix_iff : sent writes <+: whole writes ↔ Gapless writes := by
  induction writes with
  | nil => simp [sent, whole, Gapless]
  | cons w rest ih =>
    obtain ⟨buffer, write⟩ := w
    have hwhole : buffer ++ whole rest
        = buffer.take write.count ++ (buffer.drop write.count ++ whole rest) := by
      rw [← append_assoc, take_append_drop]
    simp only [sent, whole, flatMap_cons] at ih hwhole ⊢
    rw [Gapless, hwhole, prefix_append_right_inj]
    split
    · rename_i hall
      rw [hall, drop_length, nil_append]
      exact ih
    · rfl

theorem foldl_writes (answer : ℕ × Bool) (writes : List HostWrite) :
    writes.foldl (fun answer write => (answer.1 + write.value, write.carry)) answer
      = (answer.1 + (writes.map HostWrite.value).sum,
        (writes.getLast?.map HostWrite.carry).getD answer.2) := by
  induction writes generalizing answer with
  | nil => rfl
  | cons _ rest ih =>
    rw [foldl_cons, ih, map_cons, sum_cons, Nat.add_assoc, getLast?_cons]
    cases rest.getLast? with
    | none => rfl
    | some => rfl

/-- The sum of what the writes return counts what was sent just if none of them failed. -/
theorem sum_eq_length_iff (hpossible : Possible writes) :
    (sent writes).length ≤ ((writes.map Prod.snd).map HostWrite.value).sum
      ∧ (((writes.map Prod.snd).map HostWrite.value).sum = (sent writes).length
        ↔ ∀ w ∈ writes, w.2.carry = false) := by
  induction writes with
  | nil => simp [sent]
  | cons w _ ih =>
    obtain ⟨hle, hiff⟩ := ih fun x hx => hpossible x (mem_cons_of_mem _ hx)
    obtain ⟨hcount, hvalue, hcarry⟩ := HostWrite.value_eq_count_iff (hpossible w mem_cons_self)
    simp only [sent, flatMap_cons, length_append, length_take, map_cons,
      sum_cons, forall_mem_cons] at hle hiff ⊢
    rw [Nat.min_eq_left hcount, ← hiff, ← hcarry]
    omega

theorem reported_iff (hpossible : Possible writes) :
    Reported writes.whole writes.sent (writevReturn carry (writes.map Prod.snd))
      ↔ ((∀ w ∈ writes, w.2.carry = false) ∧ Gapless writes)
        ∨ ((writes.getLast?.map fun w => w.2.carry).getD carry ∧ sent writes = []) := by
  have hanswer := foldl_writes (0, carry) (writes.map Prod.snd)
  obtain ⟨-, hsum⟩ := sum_eq_length_iff hpossible
  rw [getLast?_map, Option.map_map, Nat.zero_add] at hanswer
  unfold Reported writevReturn
  rw [hanswer, hsum]
  simp only [Function.comp_def]
  cases hlast : (writes.getLast?.map fun w => w.2.carry).getD carry with
  | true =>
    simp only [reduceCtorEq, false_implies, true_implies, true_and]
    refine ⟨fun h => .inr h.2, fun h => ?_⟩
    have hnone : sent writes = [] := by
      refine h.elim (fun ⟨hall, _⟩ => ?_) id
      cases hwrites : writes.getLast? with
      | none => rw [getLast?_eq_none_iff.1 hwrites, sent, flatMap_nil]
      | some w =>
        rw [hwrites, Option.map_some, Option.getD_some] at hlast
        simp [hall w (mem_of_getLast? hwrites)] at hlast
    exact ⟨hnone ▸ nil_prefix, hnone⟩
  | false => simp [sent_prefix_iff, and_comm]

end Gathered

/-! ## `guest_writev` -/

/-- The buffers of a vector in guest memory. -/
def vectorWrites (g : Memory) (guestIov count : ℕ) (ends : ℕ → HostWrite) : Gathered :=
  (List.range count).map fun i =>
    (bytesFrom g (iovBase g guestIov i) (iovLen g guestIov i), ends i)

variable {g : Memory} {guestIov : ℕ} {iovcnt : Int32} {ends : ℕ → HostWrite}

theorem descriptor_guestWritev (before : WritevBefore)
    (hvector : 8 * iovcnt.toInt.toNat ≤ g.reach guestIov (8 * iovcnt.toInt.toNat))
    (hbuffers : ∀ i < iovcnt.toInt.toNat,
      iovLen g guestIov i ≤ g.reach (iovBase g guestIov i) (iovLen g guestIov i)) :
    (guestWritev g guestIov iovcnt true (fun i => ⟨true, (ends i).count⟩) before).descriptor
      = (vectorWrites g guestIov iovcnt.toInt.toNat ends).sent := by
  simp only [guestWritev, vectorWrites, Gathered.sent, flatMap_def, map_map]
  refine congrArg flatten (map_congr_left fun i hi => ?_)
  rw [mem_range] at hi
  have hsize : 8 * sizeOfInt iovcnt % 2 ^ 64 = 8 * iovcnt.toInt.toNat := iovsize_eq (by omega)
  have hmalloc : malloc true (8 * iovcnt.toInt.toNat) = some (8 * iovcnt.toInt.toNat) := by
    have hlt := iovcnt.toInt_lt
    simp only [malloc, Bool.true_and, decide_eq_true_eq]
    exact if_pos (by omega)
  rw [hsize, hmalloc, word_copyIn_of_reach g _ (by omega), word_copyIn_of_reach g _ (by omega)]
  have hreach := hbuffers i hi
  rw [iovBase, iovLen] at hreach
  simp only [guestWrite, malloc_word, Option.isSome_some, if_true, Bytes.slice, Function.comp,
    bytesFrom, iovBase, iovLen, ← map_take, take_range]
  refine map_congr_left fun k hk => ?_
  rw [mem_range] at hk
  rw [Nat.zero_add, copyIn_some, if_pos (by omega)]

/-- **Gathered writes report what they wrote** exactly if no write fails and what follows a short
    one happens to continue it, or if the last one fails and nothing was written. -/
theorem guestWritev_reports_iff (g : Memory) (guestIov : ℕ) (iovcnt : Int32) (carry : Bool)
    (ends : ℕ → HostWrite) (before : WritevBefore)
    (hvector : 8 * iovcnt.toInt.toNat ≤ g.reach guestIov (8 * iovcnt.toInt.toNat))
    (hbuffers : ∀ i < iovcnt.toInt.toNat,
      iovLen g guestIov i ≤ g.reach (iovBase g guestIov i) (iovLen g guestIov i))
    (hends : ∀ i < iovcnt.toInt.toNat, (ends i).Possible (iovLen g guestIov i)) :
    let writes := vectorWrites g guestIov iovcnt.toInt.toNat ends
    Reported writes.whole
        (guestWritev g guestIov iovcnt true (fun i => ⟨true, (ends i).count⟩) before).descriptor
        (writevReturn carry ((List.range iovcnt.toInt.toNat).map ends))
      ↔ ((∀ w ∈ writes, w.2.carry = false) ∧ writes.Gapless)
        ∨ ((writes.getLast?.map fun w => w.2.carry).getD carry = true ∧ writes.sent = []) := by
  intro writes
  have hpossible : Gathered.Possible writes := by
    intro w hw
    obtain ⟨i, hi, rfl⟩ := mem_map.1 hw
    simpa using hends i (mem_range.1 hi)
  have hanswer : (range iovcnt.toInt.toNat).map ends = writes.map Prod.snd := by
    simp [writes, vectorWrites]
  rw [descriptor_guestWritev before hvector hbuffers, hanswer]
  exact Gathered.reported_iff hpossible

/-- A vector of the two buffers `ab` and `cd`, in page `1`. -/
def twoBuffers : Memory where
  page index := if index = 1 then some 0 else none
  host _ := Bytes.write (fun _ => 0) 0
    (Bytes.encodeWords [0x1010, 2, 0x1012, 2] ++ [97, 98, 99, 100])

/-- The first write fails, the second one writes both of its bytes: the descriptor gets `cd`, and
    the call returns `37` without carry. -/
theorem guestWritev_adds_errno :
    ¬ Reported (vectorWrites twoBuffers 0x1000 2 fun _ => .wrote 2).whole
      (guestWritev twoBuffers 0x1000 2 true
        (fun i => ⟨true, (if i = 0 then HostWrite.failed 35 else .wrote 2).count⟩)
        ⟨fun _ => 0, fun _ _ => 0⟩).descriptor
      (writevReturn false [.failed 35, .wrote 2]) := by
  decide +kernel

theorem guestWritev_reports_iff_complete :
    Reported (vectorWrites twoBuffers 0x1000 2 fun _ => .wrote 2).whole
      (guestWritev twoBuffers 0x1000 2 true (fun _ => ⟨true, 2⟩)
        ⟨fun _ => 0, fun _ _ => 0⟩).descriptor
      (writevReturn false [.wrote 2, .wrote 2]) := by
  have hends : ∀ i < 2, 2 ≤ iovLen twoBuffers 0x1000 i ∧ 2 < 2 ^ 31 := by decide +kernel
  refine (guestWritev_reports_iff twoBuffers 0x1000 2 false (fun _ => .wrote 2)
    ⟨fun _ => 0, fun _ _ => 0⟩ (by decide +kernel) (by decide +kernel) hends).2 (.inl ⟨?_, ?_⟩)
  · decide +kernel
  · show if _ then (if _ then True else _) else _
    decide +kernel

end LiveExec32.Guest
