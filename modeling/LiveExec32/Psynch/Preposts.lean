import LiveExec32.Lib.Records
import LiveExec32.Psynch.Basic
import Mathlib.Algebra.BigOperators.Group.List.Basic

/-! # Preposts: wakes that arrived before their waiter

A prepost table is a list of entries with a count. Recording adds one unit to the first entry of a
key or appends a new entry; consuming takes one unit away and drops the entry with its last unit.
`units` counts the units whose key satisfies a predicate, and one lemma for each operation says how
it changes that count. -/

namespace LiveExec32.Psynch

open List GuestConditionPrepost

open Records (recordFirst mem_recordFirst)

/-- The number of units in the entries that satisfy `p`. -/
def units {α : Type} (count : α → ℕ) (p : α → Bool) (entries : List α) : ℕ :=
  (entries.map (fun e => if p e then count e else 0)).sum

section Units

variable {α : Type} {count : α → ℕ} {p : α → Bool}

@[simp] theorem units_nil : units count p [] = 0 := rfl

@[simp] theorem units_cons (e : α) (rest : List α) :
    units count p (e :: rest) = (if p e then count e else 0) + units count p rest := by
  simp [units]

variable (count p)

/-- Recording adds one unit under the key of the new entry. -/
theorem units_recordFirst {isMatch : α → Bool} {change : α → α} {fresh : α}
    (hfresh : count fresh = 1)
    (hchange : ∀ e, isMatch e →
      count (change e) = count e + 1 ∧ p (change e) = p fresh ∧ p e = p fresh) (entries : List α) :
    units count p (recordFirst isMatch change fresh entries)
      = units count p entries + (if p fresh then 1 else 0) := by
  induction entries with
  | nil => simp [recordFirst, hfresh]
  | cons e _ ih =>
    unfold recordFirst
    split
    · rename_i hmatch
      obtain ⟨hcount, hkey, hold⟩ := hchange e hmatch
      simp only [units_cons, hcount, hkey, hold]
      split <;> omega
    · rw [units_cons, units_cons, ih]
      omega

variable {entries : List α} {place : ℕ} {e : α}

theorem units_eraseIdx (h : entries[place]? = some e) :
    units count p (entries.eraseIdx place) + (if p e then count e else 0)
      = units count p entries := by
  obtain ⟨hplace, rfl⟩ := List.getElem?_eq_some_iff.1 h
  have hsum := CommMonoid.add_sum_eraseIdx
    (l := entries.map fun e => if p e then count e else 0) (by simpa using hplace)
  rwa [getElem_map, eraseIdx_map, add_comm] at hsum

theorem units_set (h : entries[place]? = some e) (e' : α) :
    units count p (entries.set place e') + (if p e then count e else 0)
      = units count p entries + (if p e' then count e' else 0) := by
  have hplace := (List.getElem?_eq_some_iff.1 h).1
  have hnew := units_eraseIdx count p (getElem?_set_self (a := e') hplace)
  rw [eraseIdx_set_eq] at hnew
  rw [← hnew, ← units_eraseIdx count p h, Nat.add_right_comm]

end Units

/-! ## Mutex preposts -/

def recordGuestMutexPrepost (address sequence : U32) (preposts : List GuestMutexPrepost) :
    List GuestMutexPrepost :=
  recordFirst
    (fun prepost => decide (prepost.address = address)
      && decide (prepost.sequence = sequence &&& guestPsynchCountMask))
    (fun prepost => { prepost with count := prepost.count + 1 })
    ⟨address, sequence &&& guestPsynchCountMask, 1⟩ preposts

/-- The table after consuming one prepost, with the sequence of the entry it came from; `none` when
    no entry matches. -/
def consumeGuestMutexPrepost (address sequence : U32) (firstFit : Bool) :
    List GuestMutexPrepost → Option (U32 × List GuestMutexPrepost)
  | [] => none
  | prepost :: rest =>
    if prepost.address ≠ address
        ∨ (!firstFit && prepost.sequence != sequence &&& guestPsynchCountMask) then
      (consumeGuestMutexPrepost address sequence firstFit rest).map
        (fun taken => (taken.1, prepost :: taken.2))
    else if prepost.count - 1 = 0 then some (prepost.sequence, rest)
    else some (prepost.sequence, { prepost with count := prepost.count - 1 } :: rest)

/-- The mutex preposts whose address and sequence satisfy `p`. -/
def mutexUnits (p : U32 → U32 → Bool) (preposts : List GuestMutexPrepost) : ℕ :=
  units GuestMutexPrepost.count (fun e => p e.address e.sequence) preposts

@[simp] theorem mutexUnits_cons (p : U32 → U32 → Bool) (e : GuestMutexPrepost)
    (rest : List GuestMutexPrepost) :
    mutexUnits p (e :: rest) = (if p e.address e.sequence then e.count else 0)
      + mutexUnits p rest :=
  units_cons e rest

variable {taken : U32}

section Mutex

variable {address sequence : U32} {preposts : List GuestMutexPrepost}

/-- Recording adds one unit under the recorded key. -/
theorem mutexUnits_record (p : U32 → U32 → Bool) :
    mutexUnits p (recordGuestMutexPrepost address sequence preposts) = mutexUnits p preposts
        + (if p address (sequence &&& guestPsynchCountMask) then 1 else 0) := by
  refine units_recordFirst GuestMutexPrepost.count _ rfl (fun e hmatch => ?_) preposts
  obtain ⟨rfl, hsequence⟩ :
      e.address = address ∧ e.sequence = sequence &&& guestPsynchCountMask := by
    simpa using hmatch
  exact ⟨rfl, by rw [hsequence], by rw [hsequence]⟩

theorem recordGuestMutexPrepost_pos (h : ∀ e ∈ preposts, 0 < e.count) :
    ∀ e ∈ recordGuestMutexPrepost address sequence preposts, 0 < e.count := by
  intro e he
  rcases mem_recordFirst he with rfl | hold | ⟨old, -, -, rfl⟩
  · exact Nat.one_pos
  · exact h e hold
  · exact Nat.succ_pos _

/-- **Consuming takes one unit** of an entry at the address, under a fair-share policy of the entry
    with exactly the wanted sequence. -/
theorem consumeGuestMutexPrepost_some {firstFit : Bool} {after : List GuestMutexPrepost}
    (hpos : ∀ e ∈ preposts, 0 < e.count)
    (h : consumeGuestMutexPrepost address sequence firstFit preposts = some (taken, after)) :
    (firstFit = false → taken = sequence &&& guestPsynchCountMask)
      ∧ (∀ p, mutexUnits p preposts = mutexUnits p after + (if p address taken then 1 else 0))
      ∧ ∀ e ∈ after, 0 < e.count := by
  induction preposts generalizing after with
  | nil => simp [consumeGuestMutexPrepost] at h
  | cons e rest ih =>
    have he := hpos e mem_cons_self
    have hrest : ∀ x ∈ rest, 0 < x.count := fun x hx => hpos x (mem_cons_of_mem _ hx)
    unfold consumeGuestMutexPrepost at h
    split at h
    · -- the entry does not match: the unit comes from the rest
      obtain ⟨⟨t, l⟩, htaken, heq⟩ := Option.map_eq_some_iff.1 h
      cases heq
      obtain ⟨hfair, hunits, hafter⟩ := ih hrest htaken
      refine ⟨hfair, fun p => ?_, ?_⟩
      · rw [mutexUnits_cons, mutexUnits_cons, hunits p, add_assoc]
      · rintro x (_ | ⟨_, hx⟩)
        · exact he
        · exact hafter x hx
    · rename_i hmatch
      obtain ⟨rfl, hsequence⟩ : e.address = address ∧
          (firstFit = false → e.sequence = sequence &&& guestPsynchCountMask) := by
        simpa [not_or] using hmatch
      split at h
      · -- its last unit
        cases h
        refine ⟨hsequence, fun p => ?_, hrest⟩
        rw [mutexUnits_cons, show e.count = 1 by omega, add_comm]
      · cases h
        refine ⟨hsequence, fun p => ?_, ?_⟩
        · simp only [mutexUnits_cons]
          split <;> omega
        · rintro x (_ | ⟨_, hx⟩)
          · exact Nat.pos_of_ne_zero ‹_›
          · exact hrest x hx

end Mutex

/-! ## Condition preposts -/

def recordGuestConditionSignalPrepost (address throughSequence : U32)
    (preposts : List GuestConditionPrepost) : List GuestConditionPrepost :=
  recordFirst
    (fun prepost => decide (prepost.address = address)
      && decide (prepost.throughSequence = throughSequence &&& guestPsynchCountMask))
    (fun prepost => { prepost with count := prepost.count + 1 })
    ⟨address, throughSequence &&& guestPsynchCountMask, 1⟩ preposts

/-- A broadcast marker subsumes the older preposts of its address. -/
def recordGuestConditionBroadcastPrepost (address throughSequence : U32) (count : ℕ)
    (preposts : List GuestConditionPrepost) : List GuestConditionPrepost :=
  let throughSequence := throughSequence &&& guestPsynchCountMask
  let kept := preposts.filter (fun prepost =>
    !(decide (prepost.address = address)
      && guestPsynchSequenceLowerOrEqual prepost.throughSequence throughSequence))
  if count ≠ 0 then kept ++ [⟨address, throughSequence, count⟩] else kept

/-- The entries a waiter of generation `conditionSequence` may consume, with their places. -/
def eligibleConditionPreposts (address conditionSequence : U32)
    (preposts : List GuestConditionPrepost) : List (GuestConditionPrepost × ℕ) :=
  preposts.zipIdx.filter (fun entry =>
    decide (entry.1.address = address)
      && guestPsynchSequenceLowerOrEqual (conditionSequence &&& guestPsynchCountMask)
        entry.1.throughSequence)

/-- The table after consuming one prepost of the oldest eligible entry, with that entry's sequence;
    `none` when no entry is eligible. -/
def consumeGuestConditionPrepost (address conditionSequence : U32)
    (preposts : List GuestConditionPrepost) : Option (U32 × List GuestConditionPrepost) :=
  match Selection.select
      (fun x y => guestPsynchSequenceLower x.1.throughSequence y.1.throughSequence)
      (eligibleConditionPreposts address conditionSequence preposts) with
  | none => none
  | some (selected, place) =>
    if selected.count - 1 = 0 then some (selected.throughSequence, preposts.eraseIdx place)
    else some (selected.throughSequence,
      preposts.set place { selected with count := selected.count - 1 })

/-- The condition preposts whose address and sequence satisfy `p`. -/
def conditionUnits (p : U32 → U32 → Bool) (preposts : List GuestConditionPrepost) : ℕ :=
  units count (fun e => p e.address e.throughSequence) preposts

section Condition

variable {address sequence : U32} {preposts : List GuestConditionPrepost}

theorem conditionUnits_recordSignal (p : U32 → U32 → Bool) :
    conditionUnits p (recordGuestConditionSignalPrepost address sequence preposts)
      = conditionUnits p preposts
        + (if p address (sequence &&& guestPsynchCountMask) then 1 else 0) := by
  refine units_recordFirst count _ rfl (fun e hmatch => ?_) preposts
  obtain ⟨rfl, hsequence⟩ : e.address = address
      ∧ e.throughSequence = sequence &&& guestPsynchCountMask := by
    simpa using hmatch
  exact ⟨rfl, by rw [hsequence], by rw [hsequence]⟩

/-- Recording a signal only brings in entries with its key. -/
theorem mem_recordGuestConditionSignalPrepost {e : GuestConditionPrepost}
    (he : e ∈ recordGuestConditionSignalPrepost address sequence preposts) :
    e ∈ preposts ∨ (e.address = address ∧ e.throughSequence = sequence &&& guestPsynchCountMask
      ∧ 0 < e.count) := by
  rcases mem_recordFirst he with rfl | hold | ⟨old, -, hmatch, rfl⟩
  · exact .inr ⟨rfl, rfl, Nat.one_pos⟩
  · exact .inl hold
  · obtain ⟨haddress, hsequence⟩ : old.address = address
        ∧ old.throughSequence = sequence &&& guestPsynchCountMask := by
      simpa using hmatch
    exact .inr ⟨haddress, hsequence, Nat.succ_pos _⟩

/-- Recording a broadcast only brings in an entry with its key. -/
theorem mem_recordGuestConditionBroadcastPrepost {count : ℕ} {e : GuestConditionPrepost}
    (he : e ∈ recordGuestConditionBroadcastPrepost address sequence count preposts) :
    e ∈ preposts ∨ (e.address = address ∧ e.throughSequence = sequence &&& guestPsynchCountMask
      ∧ 0 < e.count) := by
  simp only [recordGuestConditionBroadcastPrepost] at he
  split at he
  · rename_i hcount
    rcases mem_append.1 he with hkept | hnew
    · exact .inl (mem_filter.1 hkept).1
    · rw [mem_singleton.1 hnew]
      exact .inr ⟨rfl, rfl, Nat.pos_of_ne_zero hcount⟩
  · exact .inl (mem_filter.1 he).1

/-- **Consuming takes one unit** of an entry at the address that reaches the waiter's generation. -/
theorem consumeGuestConditionPrepost_some {after : List GuestConditionPrepost}
    (hpos : ∀ e ∈ preposts, 0 < e.count)
    (h : consumeGuestConditionPrepost address sequence preposts = some (taken, after)) :
    (∃ e ∈ preposts, e.address = address ∧ e.throughSequence = taken)
      ∧ guestPsynchSequenceLowerOrEqual sequence taken
      ∧ (∀ p, conditionUnits p preposts
        = conditionUnits p after + (if p address taken then 1 else 0))
      ∧ ∀ e ∈ after, 0 < e.count
        ∧ ∃ old ∈ preposts, old.address = e.address ∧ old.throughSequence = e.throughSequence := by
  unfold consumeGuestConditionPrepost at h
  split at h
  · simp at h
  · rename_i selected place hselect
    obtain ⟨hmem, heligible⟩ := mem_filter.1 (Selection.select_mem hselect)
    have hplace : preposts[place]? = some selected := mem_zipIdx_iff_getElem?.1 hmem
    have hselected : selected ∈ preposts := mem_of_getElem? hplace
    obtain ⟨rfl, hreach⟩ : selected.address = address
        ∧ guestPsynchSequenceLowerOrEqual sequence selected.throughSequence = true := by
      simpa using heligible
    have hcount := hpos selected hselected
    split at h
    · -- its last unit
      cases h
      refine ⟨⟨selected, hselected, rfl, rfl⟩, hreach, fun p => ?_, fun e he => ?_⟩
      · have herase := units_eraseIdx count
          (fun e => p e.address e.throughSequence) hplace
        rw [show selected.count = 1 by omega] at herase
        exact herase.symm
      · have hold := mem_of_mem_eraseIdx he
        exact ⟨hpos e hold, e, hold, rfl, rfl⟩
    · cases h
      refine ⟨⟨selected, hselected, rfl, rfl⟩, hreach, fun p => ?_, fun e he => ?_⟩
      · have hset := units_set count
          (fun e => p e.address e.throughSequence) hplace
          { selected with count := selected.count - 1 }
        unfold conditionUnits
        split at hset
        · simp_all only [if_true]
          omega
        · simp_all
      · rcases mem_or_eq_of_mem_set he with hold | rfl
        · exact ⟨hpos e hold, e, hold, rfl, rfl⟩
        · exact ⟨Nat.pos_of_ne_zero ‹_›, selected, hselected, rfl, rfl⟩

end Condition

end LiveExec32.Psynch
