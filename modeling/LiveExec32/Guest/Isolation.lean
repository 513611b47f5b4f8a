import LiveExec32.Guest.Staging

/-! # When a system call keeps its staging memory to itself

For each call, the exact condition under which it is `Isolated`. None of them holds in general: the
calls that copy out show a byte of the heap or the stack wherever the kernel stored less than is
copied, those that copy in send it to a descriptor wherever guest memory is not mapped, and two of
them index their staging object by a number the guest chose. -/

namespace LiveExec32.Guest

open List Bytes Option

variable (g : Memory)

/-! ## Writing to a descriptor -/

/-- `guest_write` touches nothing but its block. -/
theorem inside_guestWrite (guestBuf nbyte : ℕ) (outcome : WriteOutcome) (before : Bytes) :
    ∀ touch ∈ (guestWrite g guestBuf nbyte outcome before).touches, touch.Inside := by
  intro touch htouch
  simp only [guestWrite, mem_cons, not_mem_nil, or_false] at htouch
  rcases htouch with rfl | rfl
  · exact inside_copyInTouch g guestBuf nbyte outcome.available
  · exact inside_kernelTouch outcome.available nbyte

/-- A copy into a block is like a kernel that stores what the guest has mapped. -/
theorem copyIn_eq_kernelFill (address size granted : ℕ) :
    copyIn g address size (some granted) = kernelFill size fun i =>
      if i < g.reach address size then some (g.byte (address + i)) else none := by
  have hreach := g.reach_le address size
  funext before i
  rw [copyIn_some, kernelFill]
  split
  · rw [if_pos (by omega), getD_some]
  · simp

/-- The bytes a `guest_write` sends are its own just if the copy brought them all in. -/
theorem isolated_guestWrite_iff (guestBuf nbyte : ℕ) (outcome : WriteOutcome) :
    Isolated (guestWrite g guestBuf nbyte outcome) ↔ malloc outcome.available nbyte = none ∨
        min outcome.accepted nbyte ≤ g.reach guestBuf nbyte := by
  rw [Isolated, and_iff_right (inside_guestWrite g guestBuf nbyte outcome)]
  cases hobject : malloc outcome.available nbyte with
  | none => simp [guestWrite, hobject]
  | some granted =>
    simp only [guestWrite, hobject, isSome_some, if_true, slice, Nat.zero_add, map_inj_left,
      mem_range, and_true, copyIn_eq_kernelFill, reduceCtorEq, false_or]
    rw [kernelFill_determined_iff (Nat.min_le_right _ _)]
    constructor
    · intro hsent
      refine Nat.le_of_not_lt fun hless => ?_
      simpa using hsent _ hless
    · intro hreach i hi
      rw [if_pos (Nat.lt_of_lt_of_le hi hreach), isSome_some]

/-! ## Writing a vector -/

/-- A loop in which only one round produces anything produces what that round does. -/
theorem flatMap_range_eq_of_single {α : Type} {f : ℕ → List α} {i count : ℕ} (hi : i < count)
    (hothers : ∀ j, j ≠ i → f j = []) : (range count).flatMap f = f i := by
  induction count with
  | zero => exact absurd hi (Nat.not_lt_zero i)
  | succ count ih =>
    rw [range_succ, flatMap_append, flatMap_singleton]
    rcases Nat.lt_succ_iff_lt_or_eq.mp hi with hless | rfl
    · rw [ih hless, hothers count (by omega), append_nil]
    · have hearlier : (range i).flatMap f = [] := by
        rw [flatMap_eq_nil_iff]
        intro j hj
        exact hothers j (by rw [mem_range] at hj; omega)
      rw [hearlier, nil_append]

/-- The vector entry that guest memory holds. -/
def iovBase (guestIov i : ℕ) : ℕ := Bytes.word (fun k => g.byte (guestIov + k)) (8 * i)

def iovLen (guestIov i : ℕ) : ℕ := Bytes.word (fun k => g.byte (guestIov + k)) (8 * i + 4)

variable {guestIov iovsize granted offset : ℕ}

/-- A word that a copy brought in whole. -/
theorem word_copyIn_of_reach (before : Bytes) (hreach : offset + 4 ≤ g.reach guestIov iovsize) :
    (copyIn g guestIov iovsize (some granted) before).word offset
      = word (fun k => g.byte (guestIov + k)) offset := by
  simp only [word, copyIn_some]
  rw [if_pos (by omega), if_pos (by omega), if_pos (by omega), if_pos (by omega)]

/-- A word whose last byte the copy did not reach is larger over ones than over zeros. -/
theorem word_copyIn_lt (hreach : g.reach guestIov iovsize ≤ offset + 3) :
    (copyIn g guestIov iovsize (some granted) fun _ => 0).word offset
      < (copyIn g guestIov iovsize (some granted) fun _ => 1).word offset := by
  have hle : ∀ i, (copyIn g guestIov iovsize (some granted) (fun _ => 0) i).toNat
      ≤ (copyIn g guestIov iovsize (some granted) (fun _ => 1) i).toNat := by
    intro i
    simp only [copyIn_some]
    split <;> simp
  have hlast : (copyIn g guestIov iovsize (some granted) (fun _ => 0) (offset + 3)).toNat
      < (copyIn g guestIov iovsize (some granted) (fun _ => 1) (offset + 3)).toNat := by
    simp only [copyIn_some]
    rw [if_neg (by omega), if_neg (by omega)]
    decide
  have h0 := hle offset
  have h1 := hle (offset + 1)
  have h2 := hle (offset + 2)
  unfold word
  omega

/-- A block for a vector entry is small enough to be granted. -/
theorem malloc_word (m : Bytes) (offset : ℕ) :
    malloc true (m.word offset) = some (m.word offset) := by
  have hword := m.word_lt offset
  rw [malloc, Bool.true_and, decide_eq_true (by omega), if_pos rfl]

variable {iovcnt : Int32}

/-- The number of bytes of the vector of a positive count. -/
theorem iovsize_eq (hpositive : 0 < iovcnt.toInt) :
    8 * sizeOfInt iovcnt % 2 ^ 64 = 8 * iovcnt.toInt.toNat := by
  have hlt := iovcnt.toInt_lt
  unfold sizeOfInt
  omega

/-- An outcome in which only entry `i` gets anything to its descriptor. -/
def onlyEntry (i : ℕ) (accepted : ℕ) : ℕ → WriteOutcome :=
  fun j => ⟨true, if j = i then accepted else 0⟩

/-- What the descriptor gets when only entry `i` is taken. -/
theorem descriptor_guestWritev_onlyEntry {i : ℕ} {available : Bool}
    (hobject : malloc available (8 * sizeOfInt iovcnt % 2 ^ 64) = some granted)
    (hi : i < iovcnt.toInt.toNat) (accepted : ℕ) (before : WritevBefore) :
    let vector := copyIn g guestIov (8 * sizeOfInt iovcnt % 2 ^ 64) (some granted) before.vector
    (guestWritev g guestIov iovcnt available (onlyEntry i accepted) before).descriptor
      = (guestWrite g (vector.word (8 * i)) (vector.word (8 * i + 4)) ⟨true, accepted⟩
          (before.buffer i)).descriptor := by
  simp only [guestWritev, hobject]
  rw [flatMap_range_eq_of_single hi]
  · simp [onlyEntry]
  · intro j hj
    simp [guestWrite, onlyEntry, hj, slice]

/-- The number of bytes a granted `guest_write` sends. -/
theorem length_descriptor_guestWrite (guestBuf accepted : ℕ) (m : Bytes) (offset : ℕ)
    (before : Bytes) :
    (guestWrite g guestBuf (m.word offset) ⟨true, accepted⟩ before).descriptor.length
      = min accepted (m.word offset) := by
  simp [guestWrite, malloc_word]

/-- `guest_writev` is isolated, whatever its writes do, just if it makes none, or has its block,
    reads the whole vector and finds every buffer of it mapped. -/
theorem isolated_guestWritev_iff (guestIov : ℕ) (iovcnt : Int32) (available : Bool) :
    (∀ outcome, Isolated (guestWritev g guestIov iovcnt available outcome)) ↔ iovcnt.toInt ≤ 0 ∨
        (malloc available (8 * iovcnt.toInt.toNat)).isSome ∧
          8 * iovcnt.toInt.toNat ≤ g.reach guestIov (8 * iovcnt.toInt.toNat) ∧
          ∀ i < iovcnt.toInt.toNat,
            iovLen g guestIov i ≤ g.reach (iovBase g guestIov i) (iovLen g guestIov i) := by
  by_cases hpositive : 0 < iovcnt.toInt
  swap
  · have hnone : iovcnt.toInt.toNat = 0 := by omega
    refine iff_of_true (fun outcome => ⟨?_, ?_⟩) (.inl (by omega))
    · intro before touch htouch
      simp only [guestWritev, hnone, range_zero, flatMap_nil, mem_singleton] at htouch
      rw [htouch]
      exact inside_copyInTouch g _ _ available
    · simp [guestWritev, hnone]
  have hsize := iovsize_eq hpositive
  rw [or_iff_right (by omega)]
  constructor
  · intro hall
    obtain ⟨granted, hgranted⟩ : ∃ granted,
        malloc available (8 * iovcnt.toInt.toNat) = some granted := by
      -- entry 0 is read from the block
      have htouch := (hall fun _ => ⟨true, 0⟩).1 ⟨fun _ => 0, fun _ _ => 0⟩
        ⟨malloc available (8 * iovcnt.toInt.toNat), 8 * ((0 : ℕ) : ℤ), 8⟩ (by
          simp only [guestWritev, hsize]
          refine mem_cons_of_mem _ (mem_flatMap.mpr ⟨0, ?_, mem_cons_self⟩)
          rw [mem_range]
          omega)
      rcases htouch with hzero | ⟨granted, hgranted, -⟩
      · exact absurd hzero (Nat.succ_ne_zero 7)
      · exact ⟨granted, hgranted⟩
    have hvector : 8 * iovcnt.toInt.toNat ≤ g.reach guestIov (8 * iovcnt.toInt.toNat) := by
      refine Nat.le_of_not_lt fun hless => ?_
      -- the last byte of the length in this entry was in the block before
      have hi : g.reach guestIov (8 * iovcnt.toInt.toNat) / 8 < iovcnt.toInt.toNat := by omega
      have hsame := ((hall (onlyEntry (g.reach guestIov (8 * iovcnt.toInt.toNat) / 8) (2 ^ 32))).2
        ⟨fun _ => 0, fun _ _ => 0⟩ ⟨fun _ => 1, fun _ _ => 0⟩).1
      have hlength := congrArg length hsame
      rw [← hsize] at hgranted
      rw [descriptor_guestWritev_onlyEntry g hgranted hi,
        descriptor_guestWritev_onlyEntry g hgranted hi, length_descriptor_guestWrite,
        length_descriptor_guestWrite, hsize] at hlength
      rw [Nat.min_eq_right (Nat.le_of_lt (word_lt _ _)),
        Nat.min_eq_right (Nat.le_of_lt (word_lt _ _))] at hlength
      exact absurd hlength (Nat.ne_of_lt (word_copyIn_lt g (by omega)))
    refine ⟨by rw [hgranted]; rfl, hvector, fun i hi => ?_⟩
    -- with the vector read whole, entry `i` is a `guest_write` of its own
    have hwrite : Isolated (guestWrite g (iovBase g guestIov i) (iovLen g guestIov i)
        ⟨true, iovLen g guestIov i⟩) := by
      refine ⟨inside_guestWrite g _ _ _, fun before before' => ⟨?_, rfl, rfl⟩⟩
      have hsame := ((hall (onlyEntry i (iovLen g guestIov i))).2
        ⟨fun _ => 0, fun _ => before⟩ ⟨fun _ => 0, fun _ => before'⟩).1
      rw [← hsize] at hgranted
      rwa [descriptor_guestWritev_onlyEntry g hgranted hi,
        descriptor_guestWritev_onlyEntry g hgranted hi,
        word_copyIn_of_reach g _ (by rw [hsize]; omega),
        word_copyIn_of_reach g _ (by rw [hsize]; omega)] at hsame
    rcases (isolated_guestWrite_iff g _ _ _).mp hwrite with hnone | hreach
    · have hsome : malloc true (iovLen g guestIov i) = some (iovLen g guestIov i) :=
        malloc_word _ _
      rw [hsome] at hnone
      simp at hnone
    · rwa [Nat.min_self] at hreach
  · rintro ⟨hsome, hvector, hbuffers⟩ outcome
    obtain ⟨granted, hgranted⟩ := isSome_iff_exists.mp hsome
    have hblock := malloc_eq_some hgranted
    have hentry : ∀ i < iovcnt.toInt.toNat, Isolated
        (guestWrite g (iovBase g guestIov i) (iovLen g guestIov i) (outcome i)) := by
      intro i hi
      refine (isolated_guestWrite_iff g _ _ _).mpr (.inr ?_)
      exact Nat.le_trans (Nat.min_le_right _ _) (hbuffers i hi)
    have hbase : ∀ before : Bytes, ∀ i < iovcnt.toInt.toNat,
        (copyIn g guestIov (8 * iovcnt.toInt.toNat) (some granted) before).word (8 * i)
          = iovBase g guestIov i :=
      fun before i hi => word_copyIn_of_reach g before (by omega)
    have hlen : ∀ before : Bytes, ∀ i < iovcnt.toInt.toNat,
        (copyIn g guestIov (8 * iovcnt.toInt.toNat) (some granted) before).word (8 * i + 4)
          = iovLen g guestIov i :=
      fun before i hi => word_copyIn_of_reach g before (by omega)
    refine ⟨fun before touch htouch => ?_, fun before before' => ⟨?_, rfl, rfl⟩⟩
    · simp only [guestWritev, hsize, hgranted, mem_cons, mem_flatMap, mem_range] at htouch
      rcases htouch with rfl | ⟨i, hi, rfl | htouch⟩
      · rw [← hgranted]
        exact inside_copyInTouch g _ _ available
      · refine .inr ⟨granted, rfl, ?_, ?_⟩
        · simp only
          omega
        · simp only
          omega
      · rw [hbase _ i hi, hlen _ i hi] at htouch
        exact (hentry i hi).1 _ touch htouch
    · simp only [guestWritev, hsize, hgranted]
      refine congrArg flatten (map_congr_left fun i hi => ?_)
      rw [mem_range] at hi
      rw [hbase _ i hi, hlen _ i hi, hbase _ i hi, hlen _ i hi]
      exact ((hentry i hi).2 _ _).1

/-! ## Copying out what the kernel stored -/

/-- A call that copies out what the kernel stored shows the previous contents of its buffer wherever
    the kernel stored nothing. -/
theorem isolated_copyOut_kernelFill_iff {address size : ℕ} {object : Option ℕ}
    (hobject : ∀ granted, object = some granted → granted = size) {touches : List Touch}
    (htouches : ∀ touch ∈ touches, touch.Inside) (written : ℕ → Option UInt8) :
    Isolated (fun before =>
        copyOut g address size object touches (kernelFill size written before)) ↔
      object = none ∨ ∀ i < g.reach address size, (written i).isSome := by
  rw [isolated_copyOut_iff hobject, kernelFill_determined_iff (g.reach_le address size)]
  exact and_iff_right htouches

/-- `guest_getentropy` copies out the whole buffer, also when the kernel refused to fill it. -/
theorem isolated_guestGetentropy_iff (guestBuffer length : ℕ) (available : Bool)
    (written : ℕ → Option UInt8) :
    Isolated (guestGetentropy g guestBuffer length available written) ↔
      malloc available length = none ∨ ∀ i < g.reach guestBuffer length, (written i).isSome := by
  refine isolated_copyOut_kernelFill_iff g (fun granted => malloc_eq_some) ?_ written
  rw [forall_mem_singleton]
  exact inside_kernelTouch available length

/-- So does `guest_getattrlist`, once it has its path. What the kernel stores must also be the same
    for every attribute list it may be handed, as the part that guest memory has not mapped is what
    the stack held. -/
theorem isolated_guestGetattrlist_iff (path : Option HostPath) (guestAttrList guestAttrBuf : ℕ)
    (attrBufSize : ℕ) (available : Bool) (written : List UInt8 → ℕ → Option UInt8) :
    Isolated (guestGetattrlist g path guestAttrList guestAttrBuf attrBufSize available written) ↔
      path = none ∨ malloc available attrBufSize = none ∨
        ∀ i < g.reach guestAttrBuf attrBufSize, ∃ value, ∀ handed,
          Handed g guestAttrList attrListSize handed → written handed i = some value := by
  cases path with
  | none => simp [Isolated, guestGetattrlist]
  | some hostPath =>
    have htouches : ∀ touch ∈ ([⟨some pathMax, 0, hostPath.length⟩,
        copyInTouch g guestAttrList attrListSize (some attrListSize),
        kernelTouch (some attrListSize) attrListSize,
        kernelTouch (malloc available attrBufSize) attrBufSize] : List Touch), touch.Inside := by
      have hfits := hostPath.fits
      have hattrList := g.reach_le guestAttrList attrListSize
      simp only [forall_mem_cons, not_mem_nil, false_imp_iff, implies_true, and_true]
      refine ⟨.inr ⟨pathMax, rfl, Int.le_refl 0, ?_⟩, .inr ⟨attrListSize, rfl, Int.le_refl 0, ?_⟩,
        .inr ⟨attrListSize, rfl, Int.le_refl 0, Int.le_refl 24⟩,
        inside_kernelTouch available attrBufSize⟩
      · simp only
        omega
      · simp only [copyInTouch, isSome_some, if_true]
        omega
    have : Nonempty GetattrlistBefore := ⟨⟨fun _ => 0, fun _ => 0⟩⟩
    have hreach := g.reach_le guestAttrBuf attrBufSize
    rw [or_iff_right (by simp)]
    refine (isolated_copyOut_iff (fun granted => malloc_eq_some) _ _).trans ?_
    refine (and_iff_right htouches).trans (or_congr_right ?_)
    constructor
    · intro hsame i hi
      have hstored : ∀ attrList : Bytes, ∃ value, written ((copyIn g guestAttrList attrListSize
          (some attrListSize) attrList).slice 0 attrListSize) i = some value := by
        intro attrList
        exact isSome_iff_exists.1 ((kernelFill_determined_iff hreach _).1
          (fun attrBuf attrBuf' => hsame ⟨attrList, attrBuf⟩ ⟨attrList, attrBuf'⟩) i hi)
      obtain ⟨value, hvalue⟩ := hstored fun _ => 0
      refine ⟨value, fun handed hhanded => ?_⟩
      obtain ⟨attrList, rfl⟩ := (handed_iff g _ _ handed).1 hhanded
      obtain ⟨value', hvalue'⟩ := hstored attrList
      have hbyte := hsame ⟨fun _ => 0, fun _ => 0⟩ ⟨attrList, fun _ => 0⟩ i hi
      simp only [kernelFill, if_pos (Nat.lt_of_lt_of_le hi hreach), hvalue, hvalue',
        getD_some] at hbyte
      rw [hvalue', hbyte]
    · intro hwritten before before' i hi
      obtain ⟨value, hvalue⟩ := hwritten i hi
      have hstored : ∀ attrList : Bytes, written ((copyIn g guestAttrList attrListSize
          (some attrListSize) attrList).slice 0 attrListSize) i = some value :=
        fun attrList => hvalue _ ((handed_iff g _ _ _).2 ⟨attrList, rfl⟩)
      simp only [kernelFill, if_pos (Nat.lt_of_lt_of_le hi hreach), hstored, getD_some]

/-- `guest_getrlimit` copies out its local variable, also when the kernel refused to fill it. -/
theorem isolated_guestGetrlimit_iff (guestRlp : ℕ) (written : ℕ → Option UInt8) :
    Isolated (guestGetrlimit g guestRlp written) ↔
      ∀ i < g.reach guestRlp 16, (written i).isSome := by
  have htouches : ∀ touch ∈ [kernelTouch (some 16) 16], touch.Inside := by
    rw [forall_mem_singleton]
    exact .inr ⟨16, rfl, Int.le_refl 0, Int.le_refl 16⟩
  refine (isolated_copyOut_kernelFill_iff g (fun granted h => (some.inj h).symm) htouches
    written).trans ?_
  rw [or_iff_right (by simp)]

/-! ## Patching the flags of a process -/

/-- The new flags differ from the old in the lowest byte only. -/
theorem patched_high_byte (w : ℕ) {k mask : ℕ} (hk : 2 / 2 ^ k = 0)
    (hmask : mask / 2 ^ k % 2 ^ 8 = 2 ^ 8 - 1) :
    (UInt8.ofNat (((w ||| 2) &&& mask) / 2 ^ k)).toNat = w / 2 ^ k % 2 ^ 8 := by
  rw [UInt8.toNat_ofNat', Nat.and_div_two_pow, Nat.or_div_two_pow, hk, Nat.or_zero,
    Nat.and_mod_two_pow, hmask, Nat.and_two_pow_sub_one_eq_mod, Nat.mod_mod]

/-- Only the low byte of the flags changes. -/
theorem patchFlags_apply (content : Bytes) (i : ℕ) : patchFlags content i
      = if i = flagsOffset then (content i ||| 2) &&& 0xEF else content i := by
  have h0 := (content 32).toNat_lt
  have h1 := (content 33).toNat_lt
  have h2 := (content 34).toNat_lt
  have h3 := (content 35).toNat_lt
  by_cases hinside : flagsOffset ≤ i ∧ i < flagsOffset + 4
  swap
  · rw [if_neg (by simp only [flagsOffset] at *; omega), patchFlags, write_of_outside]
    simp only [length_encodeWord, flagsOffset] at *
    omega
  have hword : content.word flagsOffset = (content 32).toNat + 2 ^ 8 * (content 33).toNat
      + 2 ^ 16 * (content 34).toNat + 2 ^ 24 * (content 35).toNat := rfl
  have hcases : i = 32 ∨ i = 33 ∨ i = 34 ∨ i = 35 := by
    simp only [flagsOffset] at hinside
    omega
  rw [patchFlags, write, length_encodeWord, if_pos hinside]
  generalize content.word flagsOffset = w at hword
  rw [← UInt8.toNat_inj]
  rcases hcases with rfl | rfl | rfl | rfl
  · show (UInt8.ofNat ((w ||| 2) &&& _)).toNat = ((content 32 ||| 2) &&& 0xEF).toNat
    rw [UInt8.toNat_ofNat', Nat.and_mod_two_pow, Nat.or_mod_two_pow, UInt8.toNat_and,
      UInt8.toNat_or, show w % 2 ^ 8 = (content 32).toNat by omega]
    rfl
  · refine (patched_high_byte w (k := 8) (by decide) (by decide)).trans ?_
    rw [if_neg (by decide)]
    omega
  · refine (patched_high_byte w (k := 16) (by decide) (by decide)).trans ?_
    rw [if_neg (by decide)]
    omega
  · refine (patched_high_byte w (k := 24) (by decide) (by decide)).trans ?_
    rw [if_neg (by decide)]
    omega

/-- The patched byte shows its previous contents as any other does. -/
theorem patchFlags_determined_iff {size reach : ℕ} (hreach : reach ≤ size)
    (written : ℕ → Option UInt8) :
    (∀ before before', ∀ i < reach, patchFlags (kernelFill size written before) i
        = patchFlags (kernelFill size written before') i) ↔
      ∀ i < reach, (written i).isSome := by
  constructor
  · intro hsame i hi
    have hbyte := hsame (fun _ => 0) (fun _ => 1) i hi
    simp only [patchFlags_apply, kernelFill, if_pos (Nat.lt_of_lt_of_le hi hreach)] at hbyte
    cases hwritten : written i with
    | some => rfl
    | none =>
      rw [hwritten] at hbyte
      split at hbyte
      · cases hbyte
      · cases hbyte
  · intro hwritten before before' i hi
    have hbyte := (kernelFill_determined_iff hreach written).mpr hwritten before before' i hi
    rw [patchFlags_apply, patchFlags_apply, hbyte]

/-- `guest_proc_info` needs a buffer that holds the flags it patches, and a kernel that fills what
    is copied out. -/
theorem isolated_guestProcInfo_iff (callnum flavor : Int32) (guestBuffer : ℕ) (buffersize : Int32)
    (available : Bool) (written : ℕ → Option UInt8) :
    Isolated (guestProcInfo g callnum flavor guestBuffer buffersize available written) ↔
      (patchesFlags callnum flavor → (malloc available (sizeOfInt buffersize)).isSome ∧
          flagsOffset + 4 ≤ sizeOfInt buffersize) ∧
      (malloc available (sizeOfInt buffersize) = none ∨
        ∀ i < g.reach guestBuffer (sizeOfInt buffersize), (written i).isSome) := by
  have hkernel := inside_kernelTouch available (sizeOfInt buffersize)
  unfold guestProcInfo
  cases hpatches : patchesFlags callnum flavor with
  | false =>
    simp only [Bool.false_eq_true, false_imp_iff, if_false, true_and]
    refine isolated_copyOut_kernelFill_iff g (fun granted => malloc_eq_some) ?_ written
    rwa [forall_mem_singleton]
  | true =>
    have hflags : (⟨malloc available (sizeOfInt buffersize), flagsOffset, 4⟩ : Touch).Inside ↔
        (malloc available (sizeOfInt buffersize)).isSome ∧
          flagsOffset + 4 ≤ sizeOfInt buffersize := by
      cases hobject : malloc available (sizeOfInt buffersize) with
      | none => simp [Touch.Inside]
      | some =>
        have hgranted := malloc_eq_some hobject
        simp only [Touch.Inside, some.injEq, exists_eq_left', isSome_some, hgranted,
          flagsOffset, true_and]
        omega
    simp only [if_true, forall_const]
    rw [isolated_copyOut_iff (fun granted => malloc_eq_some) _ fun before =>
        patchFlags (kernelFill (sizeOfInt buffersize) written before),
      patchFlags_determined_iff (g.reach_le _ _)]
    simp only [forall_mem_cons, not_mem_nil, false_imp_iff, implies_true, and_true,
      hkernel, true_and, hflags]

/-! ## The table of actions -/

/-- An access to the record of a signal stays in the table just if the signal has a record there. -/
theorem inside_actionTouch_iff (sig : Int32) (length : ℕ) (hlength : length ≤ actionSize) :
    (⟨some actionsSize, actionSize * sig.toInt, length⟩ : Touch).Inside ↔
      (0 ≤ sig.toInt ∧ sig.toInt < 32) ∨ length = 0 := by
  simp only [Touch.Inside, some.injEq, exists_eq_left', actionsSize, actionSize] at *
  omega

/-- The record of a signal that has one is in the table. -/
theorem actionByte_of_mem (table : Bytes) (surroundings surroundings' : ℤ → UInt8) {sig : Int32}
    (hsig : 0 ≤ sig.toInt ∧ sig.toInt < 32) {k : ℕ} (hk : k < actionSize) :
    actionByte table surroundings (actionSize * sig.toInt + (k : ℤ))
      = actionByte table surroundings' (actionSize * sig.toInt + (k : ℤ)) := by
  have hinside : 0 ≤ (actionSize : ℤ) * sig.toInt + (k : ℤ) ∧
      (actionSize : ℤ) * sig.toInt + (k : ℤ) < actionsSize := by
    simp only [actionsSize, actionSize] at *
    omega
  rw [actionByte, actionByte, if_pos hinside, if_pos hinside]

/-- `guest_sigaction` indexes its table by the guest's number. -/
theorem isolated_guestSigaction_iff (table : Bytes) (sig : Int32) (guestAct guestOact : ℕ) :
    Isolated (guestSigaction g table sig guestAct guestOact) ↔ (0 ≤ sig.toInt ∧ sig.toInt < 32) ∨
        (guestOact = 0 ∨ g.reach guestOact actionSize = 0) ∧
          (guestAct = 0 ∨ g.reach guestAct actionSize = 0) := by
  have htouches : ∀ surroundings,
      (∀ touch ∈ (guestSigaction g table sig guestAct guestOact surroundings).touches,
        touch.Inside) ↔
      (0 ≤ sig.toInt ∧ sig.toInt < 32) ∨ (guestOact = 0 ∨ g.reach guestOact actionSize = 0) ∧
          (guestAct = 0 ∨ g.reach guestAct actionSize = 0) := by
    intro surroundings
    have hone : ∀ address, (∀ touch ∈ (if address ≠ 0 then
          [(⟨some actionsSize, actionSize * sig.toInt, g.reach address actionSize⟩ : Touch)]
          else []), touch.Inside) ↔
        (0 ≤ sig.toInt ∧ sig.toInt < 32) ∨ address = 0 ∨ g.reach address actionSize = 0 := by
      intro address
      split
      next hzero =>
        rw [forall_mem_singleton, inside_actionTouch_iff sig _ (g.reach_le _ _), or_iff_right hzero]
      next hzero => simp [not_not.mp hzero]
    simp only [guestSigaction, forall_mem_append, hone]
    rw [← or_and_left]
  constructor
  · intro hisolated
    exact (htouches fun _ => 0).mp (hisolated.1 fun _ => 0)
  · intro hcondition
    refine ⟨fun surroundings => (htouches surroundings).mpr hcondition, ?_⟩
    intro surroundings surroundings'
    rcases hcondition with hsig | ⟨hoact, -⟩
    · have hrecord : ((range actionSize).map fun k : ℕ =>
            actionByte table surroundings (actionSize * sig.toInt + (k : ℤ)))
          = (range actionSize).map fun k : ℕ =>
            actionByte table surroundings' (actionSize * sig.toInt + (k : ℤ)) :=
        map_congr_left fun k hk =>
          actionByte_of_mem table surroundings surroundings' hsig (mem_range.mp hk)
      simp only [guestSigaction, hrecord, and_self]
    · rcases hoact with hzero | hreach
      · simp [guestSigaction, hzero]
      · simp [guestSigaction, memWrite_eq, hreach, Memory.store]

/-! ## All of them -/

/-- **Nothing of the staging memory gets out, and nothing else is touched**, just under these
    conditions on the arguments, on what guest memory has mapped, and on what the kernel stored or
    took. -/
theorem staging_isolated_iff (g : Memory) :
    (∀ guestBuf nbyte outcome, Isolated (guestWrite g guestBuf nbyte outcome) ↔
      malloc outcome.available nbyte = none ∨
        min outcome.accepted nbyte ≤ g.reach guestBuf nbyte) ∧
    (∀ guestIov iovcnt available,
      (∀ outcome, Isolated (guestWritev g guestIov iovcnt available outcome)) ↔
        iovcnt.toInt ≤ 0 ∨
          (malloc available (8 * iovcnt.toInt.toNat)).isSome = true ∧
            8 * iovcnt.toInt.toNat ≤ g.reach guestIov (8 * iovcnt.toInt.toNat) ∧
            ∀ i < iovcnt.toInt.toNat,
              iovLen g guestIov i ≤ g.reach (iovBase g guestIov i) (iovLen g guestIov i)) ∧
    (∀ guestBuffer length available written,
      Isolated (guestGetentropy g guestBuffer length available written) ↔
        malloc available length = none ∨
          ∀ i < g.reach guestBuffer length, (written i).isSome = true) ∧
    (∀ path guestAttrList guestAttrBuf attrBufSize available written,
      Isolated (guestGetattrlist g path guestAttrList guestAttrBuf attrBufSize available written) ↔
        path = none ∨ malloc available attrBufSize = none ∨
          ∀ i < g.reach guestAttrBuf attrBufSize, ∃ value, ∀ handed,
            Handed g guestAttrList attrListSize handed → written handed i = some value) ∧
    (∀ guestRlp written, Isolated (guestGetrlimit g guestRlp written) ↔
      ∀ i < g.reach guestRlp 16, (written i).isSome = true) ∧
    (∀ callnum flavor guestBuffer buffersize available written,
      Isolated (guestProcInfo g callnum flavor guestBuffer buffersize available written) ↔
        (patchesFlags callnum flavor = true →
          (malloc available (sizeOfInt buffersize)).isSome = true ∧
            flagsOffset + 4 ≤ sizeOfInt buffersize) ∧
        (malloc available (sizeOfInt buffersize) = none ∨
          ∀ i < g.reach guestBuffer (sizeOfInt buffersize), (written i).isSome = true)) ∧
    (∀ table sig guestAct guestOact, Isolated (guestSigaction g table sig guestAct guestOact) ↔
      (0 ≤ sig.toInt ∧ sig.toInt < 32) ∨
        (guestOact = 0 ∨ g.reach guestOact actionSize = 0) ∧
          (guestAct = 0 ∨ g.reach guestAct actionSize = 0)) :=
  ⟨isolated_guestWrite_iff g, isolated_guestWritev_iff g, isolated_guestGetentropy_iff g,
    isolated_guestGetattrlist_iff g, isolated_guestGetrlimit_iff g, isolated_guestProcInfo_iff g,
    isolated_guestSigaction_iff g⟩

/-- With nothing mapped, a `guest_write` of four bytes sends four bytes of the heap. -/
theorem guestWrite_sends_heap :
    ¬ Isolated (guestWrite ⟨fun _ => none, fun _ _ => 0⟩ 4096 4 ⟨true, 4⟩) := by
  intro hisolated
  have hsame := (hisolated.2 (fun _ => 0) (fun _ => 1)).1
  cases hsame

end LiveExec32.Guest
