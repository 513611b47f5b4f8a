import LiveExec32.Lib.Bytes

/-! # The bytes of guest memory

`Dynarmic_mem_1read` and `Dynarmic_mem_1write` copy between a host buffer and guest memory one guest
page at a time, and stop at the first page that is not mapped; what was copied before stays copied.
A guest page lies in a host page, and a shared mapping puts two guest pages into the same one.

`reach` is the number of bytes such a copy gets through. The specifications of the two loops are
`memRead_eq` and `memWrite_eq`: a read brings in the first `reach` bytes, a write puts out the first
`reach` bytes one after the other. -/

namespace LiveExec32.Guest

open List Function

/-- `DYN_PAGE_SIZE`. -/
abbrev pageSize : ℕ := 4096

/-- The host page behind each guest page, as `get_memory_page` finds it, and the host pages' bytes.
    -/
structure Memory where
  page : ℕ → Option ℕ
  host : ℕ → Bytes

open Memory

namespace Memory

/-- Whether the page of an address is mapped. -/
def mapped (g : Memory) (address : ℕ) : Bool := (g.page (address / pageSize)).isSome

/-- The byte at an address; an unmapped address reads as zero. -/
def byte (g : Memory) (address : ℕ) : UInt8 :=
  match g.page (address / pageSize) with
  | some hostPage => g.host hostPage (address % pageSize)
  | none => 0

/-- `memcpy` into a host page. -/
def copyTo (g : Memory) (hostPage start : ℕ) (data : List UInt8) : Memory :=
  { g with host := update g.host hostPage ((g.host hostPage).write start data) }

end Memory

/-- `GuestAddressRangeIsValid32`. -/
def validRange (address size : ℕ) : Bool := address < 2 ^ 32 && size ≤ 2 ^ 32 - address

variable {offset : ℕ}

/-- The page of an address and the offset in it. -/
theorem index_of_offset (page : ℕ) (hoffset : offset < pageSize) :
    (page * pageSize + offset) / pageSize = page
      ∧ (page * pageSize + offset) % pageSize = offset := by
  simp only [pageSize] at hoffset ⊢
  omega

/-! ## The loops -/

/-- Where the copy starts in a page. -/
def chunkStart (address page : ℕ) : ℕ :=
  if page * pageSize < address then address - page * pageSize else 0

/-- Where the copy ends in a page. -/
def chunkStop (finish page : ℕ) : ℕ :=
  if page * pageSize + pageSize ≤ finish then pageSize else finish - page * pageSize

/-- The number of pages from that of `address` to that of the byte before `finish`. -/
def pageCount (address finish : ℕ) : ℕ := (finish + (pageSize - 1)) / pageSize - address / pageSize

/-- The loop of `Dynarmic_mem_1read`: the bytes it has copied, and whether it got to its end. -/
def readPages (g : Memory) (address finish : ℕ) : (rounds page : ℕ) → List UInt8 × Bool
  | 0, _ => ([], true)
  | rounds + 1, page =>
    match g.page page with
    | none => ([], false)
    | some hostPage =>
      let rest := readPages g address finish rounds (page + 1)
      ((g.host hostPage).slice (chunkStart address page)
        (chunkStop finish page - chunkStart address page) ++ rest.1, rest.2)

/-- `Dynarmic_mem_1read` into a buffer that is there. -/
def memRead (g : Memory) (address size : ℕ) : List UInt8 × Bool :=
  if size = 0 then ([], true)
  else if !validRange address size then ([], false)
  else
    readPages g address (address + size) (pageCount address (address + size)) (address / pageSize)

/-- The loop of `Dynarmic_mem_1write`. -/
def writePages (address finish : ℕ) :
    (rounds page : ℕ) → List UInt8 → Memory → Memory × Bool
  | 0, _, _, g => (g, true)
  | rounds + 1, page, source, g =>
    match g.page page with
    | none => (g, false)
    | some hostPage =>
      let length := chunkStop finish page - chunkStart address page
      writePages address finish rounds (page + 1) (source.drop length)
        (g.copyTo hostPage (chunkStart address page) (source.take length))

/-- `Dynarmic_mem_1write` of all of `source`. -/
def memWrite (g : Memory) (address : ℕ) (source : List UInt8) : Memory × Bool :=
  if source.length = 0 then (g, true)
  else if !validRange address source.length then (g, false)
  else
    writePages address (address + source.length) (pageCount address (address + source.length))
      (address / pageSize) source g

/-! ## Bytes one after the other -/

variable {page hostPage length address : ℕ}

namespace Memory

/-- Change one byte, if it is mapped. -/
def poke (g : Memory) (address : ℕ) (value : UInt8) : Memory :=
  match g.page (address / pageSize) with
  | none => g
  | some hostPage =>
    { g with
      host := update g.host hostPage
        (update (g.host hostPage) (address % pageSize) value) }

/-- Change the bytes from `address` on, in order. -/
def store (g : Memory) : ℕ → List UInt8 → Memory
  | _, [] => g
  | address, value :: rest => (g.poke address value).store (address + 1) rest

/-- The number of mapped bytes from `address` on, up to `size`. -/
def mappedPrefix (g : Memory) : (size address : ℕ) → ℕ
  | 0, _ => 0
  | size + 1, address => if g.mapped address then g.mappedPrefix size (address + 1) + 1 else 0

/-- The number of bytes that a copy of `size` bytes at `address` gets through. -/
def reach (g : Memory) (address size : ℕ) : ℕ :=
  if validRange address size then g.mappedPrefix size address else 0

@[simp] theorem page_poke (g : Memory) (address : ℕ) (value : UInt8) :
    (g.poke address value).page = g.page := by
  unfold poke
  split <;> rfl

@[simp] theorem page_store (g : Memory) (address : ℕ) (data : List UInt8) :
    (g.store address data).page = g.page := by
  induction data generalizing g address with
  | nil => rfl
  | cons _ _ ih => rw [store, ih, page_poke]

theorem store_append (g : Memory) (address : ℕ) (first second : List UInt8) :
    g.store address (first ++ second)
      = (g.store address first).store (address + first.length) second := by
  induction first generalizing g address with
  | nil => rfl
  | cons _ _ ih =>
    rw [cons_append, store, ih, store, length_cons, Nat.add_right_comm, Nat.add_assoc]

variable {g : Memory}

/-- Copying into one page is storing, byte by byte. -/
theorem copyTo_eq_store {start : ℕ} {data : List UInt8} (hpage : g.page page = some hostPage)
    (hfits : start + data.length ≤ pageSize) :
    g.copyTo hostPage start data = g.store (page * pageSize + start) data := by
  induction data generalizing g start with
  | nil => simp [copyTo, store]
  | cons value rest ih =>
    have hstart : start < pageSize := by simp only [length_cons] at hfits; omega
    obtain ⟨hindex, hoffset⟩ := index_of_offset page hstart
    have hpoke : g.poke (page * pageSize + start) value = { g with
            host := update g.host hostPage
              (update (g.host hostPage) start value) } := by
      simp only [poke, hindex, hpage, hoffset]
    have hwrite : (g.host hostPage).write start (value :: rest)
        = Bytes.write (update (g.host hostPage) start value) (start + 1) rest := by
      have happend := Bytes.write_append (g.host hostPage) start [value] rest
      rw [singleton_append, Bytes.write_singleton] at happend
      exact happend
    rw [store, Nat.add_assoc, ← ih (by rw [page_poke]; exact hpage)
      (by simp only [length_cons] at hfits; omega), hpoke]
    simp only [copyTo, hwrite, update_self, update_idem]

/-- Bytes of a mapped stretch count in full. -/
theorem mappedPrefix_add (hmapped : ∀ i < length, g.mapped (address + i)) (size : ℕ) :
    g.mappedPrefix (length + size) address = length + g.mappedPrefix size (address + length) := by
  induction length generalizing address with
  | zero => simp
  | succ length ih =>
    have hfirst : g.mapped address := hmapped 0 (Nat.succ_pos _)
    have hrest : ∀ i < length, g.mapped (address + 1 + i) := by
      intro i hi
      have := hmapped (i + 1) (by omega)
      rwa [Nat.add_comm i 1, ← Nat.add_assoc] at this
    rw [Nat.add_right_comm, mappedPrefix, if_pos hfirst, ih hrest, Nat.add_right_comm address 1,
      Nat.add_assoc address]
    omega

@[simp] theorem mappedPrefix_store (g : Memory) (at_ : ℕ) (data : List UInt8)
    (size address : ℕ) : (g.store at_ data).mappedPrefix size address
      = g.mappedPrefix size address := by
  induction size generalizing address with
  | zero => rfl
  | succ _ ih =>
    have hmapped : (g.store at_ data).mapped address = g.mapped address := by
      rw [mapped, page_store, mapped]
    rw [mappedPrefix, mappedPrefix, hmapped, ih]

theorem mappedPrefix_le (g : Memory) (size address : ℕ) : g.mappedPrefix size address ≤ size := by
  induction size generalizing address with
  | zero => exact Nat.le_refl 0
  | succ _ ih =>
    rw [mappedPrefix]
    split
    · have := ih (address + 1)
      omega
    · omega

theorem reach_le (g : Memory) (address size : ℕ) : g.reach address size ≤ size := by
  unfold reach
  split
  · exact g.mappedPrefix_le size address
  · exact Nat.zero_le _

/-- A copy gets through all of a range just if all of it is mapped. -/
theorem mappedPrefix_eq_iff (g : Memory) (size address : ℕ) :
    g.mappedPrefix size address = size ↔ ∀ i < size, g.mapped (address + i) := by
  induction size generalizing address with
  | zero => simp [mappedPrefix]
  | succ _ ih =>
    rw [Nat.forall_lt_succ_left, mappedPrefix, Nat.add_zero]
    split
    next hfirst =>
      rw [Nat.add_right_cancel_iff, ih]
      simp only [Nat.add_zero, hfirst, true_and, Nat.add_right_comm address 1,
        Nat.add_assoc address]
    next hfirst => simp [hfirst]

end Memory

/-! ## What the loops do -/

variable {finish : ℕ}

section

variable {g : Memory}

/-- The byte of an address in a mapped page. -/
theorem byte_of_page (hpage : g.page page = some hostPage) (hoffset : offset < pageSize) :
    g.byte (page * pageSize + offset) = g.host hostPage offset := by
  obtain ⟨hindex, hrest⟩ := index_of_offset page hoffset
  simp only [byte, hindex, hpage, hrest]

theorem mapped_of_page (hpage : g.page page = some hostPage) (hoffset : offset < pageSize) :
    g.mapped (page * pageSize + offset) := by
  rw [mapped, (index_of_offset page hoffset).1, hpage]
  rfl

/-- The `length` bytes from `position` on. -/
def bytesFrom (g : Memory) (position length : ℕ) : List UInt8 :=
  (List.range length).map fun i => g.byte (position + i)

theorem bytesFrom_add (position first second : ℕ) : bytesFrom g position (first + second)
      = bytesFrom g position first ++ bytesFrom g (position + first) second := by
  simp only [bytesFrom, range_add, map_append, map_map]
  congr 1
  exact map_congr_left fun i _ => by simp [Nat.add_assoc]

@[simp] theorem length_bytesFrom (position length : ℕ) :
    (bytesFrom g position length).length = length := by simp [bytesFrom]

theorem getElem?_bytesFrom {position i : ℕ} (hi : i < length) :
    (bytesFrom g position length)[i]? = some (g.byte (position + i)) := by
  simp [bytesFrom, hi]

/-- Where a round copies to or from. -/
def chunkPosition (address page : ℕ) : ℕ := page * pageSize + chunkStart address page

/-- A round copies at least one byte, inside its page and the range, and the next one goes on behind
    it unless the range is done. -/
theorem chunk_spec (haddress : address < page * pageSize + pageSize) (hrange : address < finish)
    (hpage : page * pageSize < finish) :
    chunkStart address page < chunkStop finish page ∧ chunkStop finish page ≤ pageSize ∧
      chunkPosition address page + (chunkStop finish page - chunkStart address page)
        + (finish - chunkPosition address (page + 1)) = finish ∧
      (chunkPosition address (page + 1)
          = chunkPosition address page + (chunkStop finish page - chunkStart address page) ∨
        finish - chunkPosition address (page + 1) = 0) := by
  have hnext : chunkStart address (page + 1) = 0 := by
    rw [chunkStart, if_neg]
    simp only [pageSize] at haddress ⊢
    omega
  simp only [chunkPosition, hnext]
  unfold chunkStart chunkStop
  simp only [pageSize] at *
  split <;> split <;> omega

/-- The first round starts with the range, and the rounds are as many as its pages. -/
theorem rounds_of_range (address size : ℕ) : chunkPosition address (address / pageSize) = address
      ∧ address < address / pageSize * pageSize + pageSize
      ∧ (address + size + (pageSize - 1)) / pageSize
        = address / pageSize + pageCount address (address + size) := by
  unfold chunkPosition chunkStart pageCount
  simp only [pageSize]
  split <;> omega

/-- The loop is at its end when the next page starts behind the range. -/
theorem chunkPosition_of_done (hdone : finish ≤ page * pageSize) :
    finish - chunkPosition address page = 0 := by
  unfold chunkPosition
  omega

/-- Mapped bytes counted over one round and the rest. -/
theorem mappedPrefix_chunk (hmapped : g.page page = some hostPage)
    (haddress : address < page * pageSize + pageSize) (hrange : address < finish)
    (hpage : page * pageSize < finish) :
    g.mappedPrefix (finish - chunkPosition address page) (chunkPosition address page)
      = chunkStop finish page - chunkStart address page
        + g.mappedPrefix (finish - chunkPosition address (page + 1))
            (chunkPosition address (page + 1)) := by
  obtain ⟨hsome, hstop, hsplit, hnext⟩ := chunk_spec haddress hrange hpage
  have hinside : ∀ i < chunkStop finish page - chunkStart address page,
      g.mapped (chunkPosition address page + i) := by
    intro i hi
    rw [chunkPosition, Nat.add_assoc]
    exact mapped_of_page hmapped (by omega)
  have hlength : finish - chunkPosition address page
      = chunkStop finish page - chunkStart address page
        + (finish - chunkPosition address (page + 1)) := by omega
  rw [hlength, mappedPrefix_add hinside]
  rcases hnext with hnext | hdone
  · rw [hnext]
  · simp only [hdone, mappedPrefix]

/-- The first unmapped page ends the count. -/
theorem mappedPrefix_unmapped (hmapped : g.page page = none)
    (haddress : address < page * pageSize + pageSize) :
    g.mappedPrefix (finish - chunkPosition address page) (chunkPosition address page) = 0 := by
  have hindex : chunkPosition address page / pageSize = page := by
    unfold chunkPosition chunkStart
    simp only [pageSize] at haddress ⊢
    split <;> omega
  cases finish - chunkPosition address page with
  | zero => rfl
  | succ => simp [mappedPrefix, mapped, hindex, hmapped]

theorem readPages_eq (hrange : address < finish) (rounds page : ℕ)
    (haddress : address < page * pageSize + pageSize)
    (hrounds : (finish + (pageSize - 1)) / pageSize = page + rounds) :
    readPages g address finish rounds page = (bytesFrom g (chunkPosition address page)
          (g.mappedPrefix (finish - chunkPosition address page) (chunkPosition address page)),
        decide (g.mappedPrefix (finish - chunkPosition address page) (chunkPosition address page)
          = finish - chunkPosition address page)) := by
  induction rounds generalizing page with
  | zero =>
    have hdone : finish ≤ page * pageSize := by
      simp only [pageSize] at hrounds ⊢
      omega
    rw [chunkPosition_of_done hdone]
    rfl
  | succ _ ih =>
    have hpage : page * pageSize < finish := by
      simp only [pageSize] at hrounds ⊢
      omega
    obtain ⟨hsome, hstop, hsplit, hnext⟩ := chunk_spec haddress hrange hpage
    cases hmapped : g.page page with
    | none =>
      have hleft : 0 ≠ finish - chunkPosition address page := by omega
      rw [mappedPrefix_unmapped hmapped haddress, decide_eq_false hleft]
      simp [readPages, hmapped, bytesFrom]
    | some hostPage =>
      have hrest := ih (page + 1) (by rw [Nat.succ_mul]; exact Nat.lt_add_right _ haddress)
        (hrounds.trans (by omega))
      rw [mappedPrefix_chunk hmapped haddress hrange hpage, bytesFrom_add]
      simp only [readPages, hmapped, hrest]
      generalize hlength : chunkStop finish page - chunkStart address page = length at *
      have hslice : (g.host hostPage).slice (chunkStart address page) length
          = bytesFrom g (chunkPosition address page) length := by
        refine map_congr_left fun i hi => ?_
        rw [mem_range] at hi
        rw [chunkPosition, Nat.add_assoc, byte_of_page hmapped (by omega)]
      rw [hslice, Prod.mk.injEq]
      constructor
      · rcases hnext with hnext | hdone
        · rw [hnext]
        · simp only [hdone, mappedPrefix, bytesFrom, range_zero, map_nil]
      · refine decide_eq_decide.mpr ?_
        omega

/-- **A read brings in the first `reach` bytes**, and reports success just if that is all of them.
    -/
theorem memRead_eq (g : Memory) (address size : ℕ) : memRead g address size
      = (bytesFrom g address (g.reach address size), decide (g.reach address size = size)) := by
  unfold memRead reach
  by_cases hzero : size = 0
  · subst hzero
    simp [mappedPrefix, bytesFrom]
  rw [if_neg hzero]
  cases hvalid : validRange address size with
  | false =>
    have hsize : ¬ 0 = size := fun h => hzero h.symm
    simp [bytesFrom, hsize]
  | true =>
    obtain ⟨hposition, hpage, hrounds⟩ := rounds_of_range address size
    have hloop := readPages_eq (g := g) (show address < address + size by omega)
      (pageCount address (address + size)) (address / pageSize) hpage hrounds
    rw [hposition, Nat.add_sub_cancel_left] at hloop
    simpa using hloop

end

theorem writePages_eq (hrange : address < finish) (rounds page : ℕ) (source : List UInt8)
    (g : Memory) (haddress : address < page * pageSize + pageSize)
    (hrounds : (finish + (pageSize - 1)) / pageSize = page + rounds)
    (hsource : source.length = finish - chunkPosition address page) :
    writePages address finish rounds page source g = (g.store (chunkPosition address page)
          (source.take (g.mappedPrefix source.length (chunkPosition address page))),
        decide (g.mappedPrefix source.length (chunkPosition address page) = source.length)) := by
  induction rounds generalizing page source g with
  | zero =>
    have hdone : finish ≤ page * pageSize := by
      simp only [pageSize] at hrounds ⊢
      omega
    rw [hsource, chunkPosition_of_done hdone]
    rfl
  | succ _ ih =>
    have hpage : page * pageSize < finish := by
      simp only [pageSize] at hrounds ⊢
      omega
    obtain ⟨hsome, hstop, hsplit, hnext⟩ := chunk_spec haddress hrange hpage
    cases hmapped : g.page page with
    | none =>
      have hleft : 0 ≠ finish - chunkPosition address page := by omega
      rw [hsource, mappedPrefix_unmapped hmapped haddress, decide_eq_false hleft]
      simp [writePages, hmapped, store]
    | some hostPage =>
      have hcount := mappedPrefix_chunk hmapped haddress hrange hpage
      simp only [writePages, hmapped]
      generalize hlength : chunkStop finish page - chunkStart address page = length at *
      have htake : (source.take length).length = length := by
        rw [length_take]
        omega
      have hdrop : (source.drop length).length = finish - chunkPosition address (page + 1) := by
        rw [length_drop]
        omega
      rw [copyTo_eq_store hmapped (by rw [htake]; omega), ← chunkPosition,
        ih (page + 1) _ _ (by rw [Nat.succ_mul]; exact Nat.lt_add_right _ haddress)
          (hrounds.trans (by omega)) hdrop]
      rw [mappedPrefix_store, hdrop, hsource, hcount, take_add, store_append, htake, Prod.mk.injEq]
      constructor
      · rcases hnext with hnext | hdone
        · rw [hnext]
        · simp only [hdone, mappedPrefix, take_zero, store]
      · refine decide_eq_decide.mpr ?_
        omega

/-- **A write puts out the first `reach` bytes**, and reports success just if that is all of them.
    -/
theorem memWrite_eq (g : Memory) (address : ℕ) (source : List UInt8) : memWrite g address source
      = (g.store address (source.take (g.reach address source.length)),
        decide (g.reach address source.length = source.length)) := by
  unfold memWrite reach
  by_cases hzero : source.length = 0
  · rw [if_pos hzero, hzero]
    simp [mappedPrefix, store]
  rw [if_neg hzero]
  cases hvalid : validRange address source.length with
  | false =>
    have hsize : ¬ 0 = source.length := fun h => hzero h.symm
    simp [store, hsize]
  | true =>
    obtain ⟨hposition, hpage, hrounds⟩ := rounds_of_range address source.length
    have hloop := writePages_eq (show address < address + source.length by omega)
      (pageCount address (address + source.length)) (address / pageSize) source g hpage hrounds
      (by rw [hposition]; omega)
    rw [hposition] at hloop
    simpa using hloop

end LiveExec32.Guest
