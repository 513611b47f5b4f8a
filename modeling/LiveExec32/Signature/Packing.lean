import LiveExec32.Signature.Reading

/-! # A packed signature reads back

The packing loop writes an entry of the index and a blob in each turn. No two of its stores meet
(`packSignature_apart`), so the reader finds what was packed (`blobs_of_packSignature`). -/

namespace LiveExec32.Signature

open MachO List Bytes

/-- How long blobs are together. -/
def totalLength (blobs : List MutableBlob) : ℕ := (blobs.map fun b => b.data.length).sum

@[simp] theorem totalLength_nil : totalLength [] = 0 := rfl

@[simp] theorem totalLength_cons (blob : MutableBlob) (rest : List MutableBlob) :
    totalLength (blob :: rest) = blob.data.length + totalLength rest := sum_cons

theorem totalLength_append (first second : List MutableBlob) :
    totalLength (first ++ second) = totalLength first + totalLength second := by
  simp [totalLength]

theorem packedLength_eq_some {length packed : ℕ} {blobs : List MutableBlob}
    (h : packedLength length blobs = some packed) : packed = length + totalLength blobs := by
  induction blobs generalizing length with
  | nil => exact (Option.some.inj h).symm
  | cons _ _ ih =>
    obtain ⟨sum, hsum, h⟩ := Option.bind_eq_some_iff.mp h
    unfold addUInt64 at hsum
    split at hsum
    · simp at hsum
    · cases hsum
      rw [ih h, totalLength_cons, Nat.add_assoc]

/-! ## Places -/

/-- Where blob `i` starts. -/
def startOf (blobOffset : ℕ) (blobs : List MutableBlob) (i : ℕ) : ℕ :=
  blobOffset + totalLength (blobs.take i)

@[simp] theorem startOf_zero (blobOffset : ℕ) (blobs : List MutableBlob) :
    startOf blobOffset blobs 0 = blobOffset := rfl

theorem startOf_succ (blobOffset i : ℕ) (blob : MutableBlob) (rest : List MutableBlob) :
    startOf blobOffset (blob :: rest) (i + 1) = startOf (blobOffset + blob.data.length) rest i := by
  rw [startOf, startOf, take_succ_cons, totalLength_cons, Nat.add_assoc]

variable {index blobOffset i : ℕ}

/-- The stores for blob `i`. -/
theorem mem_packBlobs {blobs : List MutableBlob} (hi : i < blobs.length)
    (hfits : blobOffset + totalLength blobs < 2 ^ 32) :
    (12 + (index + i) * 8, encodeBig blobs[i].type) ∈ packBlobs index blobOffset blobs ∧
      (12 + (index + i) * 8 + 4, encodeBig (startOf blobOffset blobs i))
        ∈ packBlobs index blobOffset blobs ∧
      (startOf blobOffset blobs i, blobs[i].data) ∈ packBlobs index blobOffset blobs := by
  induction blobs generalizing index blobOffset i with
  | nil => exact absurd hi (Nat.not_lt_zero i)
  | cons blob _ ih =>
    rw [totalLength_cons] at hfits
    rw [packBlobs, Nat.mod_eq_of_lt (by omega)]
    cases i with
    | zero => simp
    | succ i =>
      obtain ⟨htype, hoffset, hdata⟩ := @ih (index + 1) (blobOffset + blob.data.length) i
        (Nat.lt_of_succ_lt_succ hi) (by omega)
      rw [show index + 1 + i = index + (i + 1) by omega] at htype hoffset
      rw [startOf_succ]
      exact ⟨by simp [htype], by simp [hoffset], by simp [hdata]⟩

/-- Each store goes to the index or behind it. -/
theorem bounds_packBlobs {blobs : List MutableBlob}
    (hfits : blobOffset + totalLength blobs < 2 ^ 32) :
    ∀ w ∈ packBlobs index blobOffset blobs,
      (12 + index * 8 ≤ w.1 ∧ w.1 + w.2.length ≤ 12 + (index + blobs.length) * 8) ∨
        (blobOffset ≤ w.1 ∧ w.1 + w.2.length ≤ blobOffset + totalLength blobs) := by
  induction blobs generalizing index blobOffset with
  | nil => exact fun w hw => absurd hw not_mem_nil
  | cons _ _ ih =>
    rw [totalLength_cons] at hfits ⊢
    rw [packBlobs, Nat.mod_eq_of_lt (by omega), length_cons]
    simp only [forall_mem_cons, length_encodeBig]
    refine ⟨.inl ?_, .inl ?_, .inr ?_, ?_⟩
    · omega
    · omega
    · omega
    · intro w hw
      rcases ih (by omega) w hw with hindex | hblob
      · exact .inl (by omega)
      · exact .inr (by omega)

theorem packBlobs_apart {blobs : List MutableBlob} (hfits : blobOffset + totalLength blobs < 2 ^ 32)
    (hindex : 12 + (index + blobs.length) * 8 ≤ blobOffset) :
    (packBlobs index blobOffset blobs).Pairwise Bytes.Write.Apart := by
  induction blobs generalizing index blobOffset with
  | nil => exact .nil
  | cons blob rest ih =>
    rw [totalLength_cons] at hfits
    rw [length_cons] at hindex
    rw [packBlobs, Nat.mod_eq_of_lt (by omega)]
    have hrest := @bounds_packBlobs (index + 1) (blobOffset + blob.data.length) rest (by omega)
    simp only [pairwise_cons, forall_mem_cons, Bytes.Write.Apart, length_encodeBig]
    refine ⟨⟨.inl (by omega), .inl (by omega), fun w hw => ?_⟩, ⟨.inl (by omega), fun w hw => ?_⟩,
      fun w hw => ?_, ih (by omega) (by omega)⟩
    · rcases hrest w hw with h | h
      · exact .inl (by omega)
      · exact .inl (by omega)
    · rcases hrest w hw with h | h
      · exact .inl (by omega)
      · exact .inl (by omega)
    · rcases hrest w hw with h | h
      · exact .inr (by omega)
      · exact .inl (by omega)

/-- The stores of the whole packing. -/
def packWrites (blobs : List MutableBlob) (length : ℕ) : List Bytes.Write :=
  (0, Bytes.encodeBig magicEmbeddedSignature) :: (4, Bytes.encodeBig length) ::
    (8, Bytes.encodeBig blobs.length) ::
      packBlobs 0 (packedHeaderSize blobs.length % 2 ^ 32) blobs

section

variable {blobs : List MutableBlob} {length : ℕ}

theorem packWrites_apart (hfits : packedHeaderSize blobs.length + totalLength blobs < 2 ^ 32) :
    (packWrites blobs length).Pairwise Bytes.Write.Apart := by
  rw [packWrites, Nat.mod_eq_of_lt (by omega)]
  have hrest := @bounds_packBlobs 0 _ _ hfits
  have hheader : 12 ≤ packedHeaderSize blobs.length := Nat.le_add_right _ _
  have hbehind : ∀ w ∈ packBlobs 0 (packedHeaderSize blobs.length) blobs, 12 ≤ w.1 := by
    intro w hw
    rcases hrest w hw with h | h
    · omega
    · omega
  simp only [pairwise_cons, forall_mem_cons, Bytes.Write.Apart, length_encodeBig]
  refine ⟨⟨.inl (by omega), .inl (by omega), fun w hw => .inl ?_⟩,
    ⟨.inl (by omega), fun w hw => .inl ?_⟩, fun w hw => .inl ?_, ?_⟩
  · have := hbehind w hw
    omega
  · have := hbehind w hw
    omega
  · have := hbehind w hw
    omega
  · refine packBlobs_apart hfits ?_
    rw [Nat.zero_add, packedHeaderSize]

/-- A number that was stored reads back. -/
theorem readBigUInt32_writeAll {writes : List Bytes.Write}
    (hapart : writes.Pairwise Bytes.Write.Apart) {offset value : ℕ}
    (hmem : (offset, encodeBig value) ∈ writes) (hvalue : value < 2 ^ 32) (m : Bytes) :
    readBigUInt32 (m.writeAll writes) offset = value := by
  have hbytes : ∀ k < 4, m.writeAll writes (offset + k) = (encodeBig value).getD (0 + k) 0 := by
    intro k hk
    rw [Nat.zero_add]
    exact writeAll_of_mem hapart hmem hk m
  rw [readBigUInt32, word_eq_of_bytes hbytes, swapInt32_word_encodeBig hvalue]

/-- A packed blob as the reader sees it. -/
def MutableBlob.view (b : MutableBlob) : BlobView :=
  ⟨b.type, readBigUInt32 (fun i => b.data.getD i 0) 0, b.data⟩

/-- **The reader finds the blobs that were packed.** -/
theorem blobs_of_packSignature (hfits : packedHeaderSize blobs.length + totalLength blobs < 2 ^ 32)
    (hlength : length < 2 ^ 32) (hwell : ∀ b ∈ blobs, b.view.WellFormed) {description : String}
    {capacity : ℕ} {view : SignatureView}
    (h : parseCodeSignature (packSignature blobs length) description capacity = .ok view) :
    view.length = length ∧ view.blobs = blobs.map MutableBlob.view := by
  have hparsed := parsed_of_parseCodeSignature h
  have hapart := @packWrites_apart blobs length hfits
  have hsmall : blobs.length < 2 ^ 32 := by
    unfold packedHeaderSize at hfits
    omega
  have hcount : readBigUInt32 (packSignature blobs length) 8 = blobs.length :=
    readBigUInt32_writeAll hapart (by simp [packWrites]) hsmall _
  have hlengthWord : readBigUInt32 (packSignature blobs length) 4 = length :=
    readBigUInt32_writeAll hapart (by simp [packWrites]) hlength _
  refine ⟨by rw [hparsed.length_eq, hlengthWord], ?_⟩
  rw [hparsed.blobs_eq, hcount]
  refine ext_getElem (by simp) fun i hi _ => ?_
  rw [length_map, length_range] at hi
  rw [getElem_map, getElem_map, getElem_range]
  -- the three stores of this turn
  obtain ⟨htype, hoffset, hdata⟩ := @mem_packBlobs 0 _ _ _ hi hfits
  have hin : ∀ w ∈ packBlobs 0 (packedHeaderSize blobs.length) blobs,
      w ∈ packWrites blobs length := by
    intro w hw
    rw [packWrites, Nat.mod_eq_of_lt (Nat.lt_of_le_of_lt (Nat.le_add_right _ _) hfits)]
    exact mem_cons_of_mem _ (mem_cons_of_mem _ (mem_cons_of_mem _ hw))
  rw [Nat.zero_add] at htype hoffset
  have hblob := hwell blobs[i] (getElem_mem hi)
  have hstart : startOf (packedHeaderSize blobs.length) blobs i < 2 ^ 32 := by
    have hsplit := totalLength_append (blobs.take i) (blobs.drop i)
    rw [take_append_drop] at hsplit
    unfold startOf
    omega
  have hoffsetAt : offsetAt (packSignature blobs length) i
      = startOf (packedHeaderSize blobs.length) blobs i :=
    readBigUInt32_writeAll hapart (hin _ hoffset) hstart _
  have hbytes : ∀ k < blobs[i].data.length,
      packSignature blobs length (startOf (packedHeaderSize blobs.length) blobs i + k)
        = blobs[i].data.getD k 0 :=
    fun k hk => writeAll_of_mem hapart (hin _ hdata) hk _
  have height : 8 ≤ blobs[i].data.length := hblob.eight_le
  have hlengthAt : lengthAt (packSignature blobs length) i = blobs[i].data.length := by
    rw [lengthAt, hoffsetAt]
    refine Eq.trans (readBigUInt32_congr fun k hk => ?_) hblob.length_eq
    rw [Nat.add_assoc, hbytes (4 + k) (by omega)]
    rfl
  rw [blobAt, MutableBlob.view, hlengthAt, hoffsetAt]
  rw [BlobView.mk.injEq]
  refine ⟨?_, ?_, ?_⟩
  · exact readBigUInt32_writeAll hapart (hin _ htype) hblob.type_lt _
  · refine readBigUInt32_congr fun k hk => ?_
    rw [hbytes k (by omega), Nat.zero_add]
  · refine ext_getElem (length_slice _ _ _) fun k hk hk' => ?_
    rw [← getD_eq_getElem _ 0 hk, ← getD_eq_getElem _ 0 hk', getD_slice hk', hbytes k hk']

/-- Nothing is stored behind the packed signature. -/
theorem packSignature_tail (hfits : packedHeaderSize blobs.length + totalLength blobs < 2 ^ 32)
    (hi : packedHeaderSize blobs.length + totalLength blobs ≤ i) :
    packSignature blobs length i = 0 := by
  have hheader : packedHeaderSize blobs.length = 12 + blobs.length * 8 := rfl
  have hbounds := @bounds_packBlobs 0 _ _ hfits
  refine writeAll_of_misses ?_ _
  rw [Nat.mod_eq_of_lt (by omega)]
  simp only [forall_mem_cons, Bytes.Write.Misses, length_encodeBig]
  refine ⟨.inr (by omega), .inr (by omega), .inr (by omega), fun w hw => .inr ?_⟩
  rcases hbounds w hw with h | h
  · omega
  · omega

end

end LiveExec32.Signature
