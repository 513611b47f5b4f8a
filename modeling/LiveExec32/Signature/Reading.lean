import LiveExec32.Signature.Transform
import LiveExec32.MachO.Slices

/-! # What the signature reader returns

The blobs of a signature that was accepted are those its index names
(`parsed_of_parseCodeSignature`), each with the length it gives itself and no two of one type. -/

namespace LiveExec32.Signature

open MachO List

theorem readBigUInt32_lt (m : Bytes) (offset : ℕ) : readBigUInt32 m offset < 2 ^ 32 :=
  swapInt32_lt _

variable {m m' : Bytes} {offset offset' : ℕ}

/-- A number whose bytes are known. -/
theorem readBigUInt32_congr (h : ∀ k < 4, m (offset + k) = m' (offset' + k)) :
    readBigUInt32 m offset = readBigUInt32 m' offset' := by
  have h0 := h 0 (by omega)
  rw [Nat.add_zero, Nat.add_zero] at h0
  rw [readBigUInt32, readBigUInt32, Bytes.word, Bytes.word, h0, h 1 (by omega), h 2 (by omega),
    h 3 (by omega)]

theorem readBigUInt64_congr (h : ∀ k < 8, m (offset + k) = m' (offset' + k)) :
    readBigUInt64 m offset = readBigUInt64 m' offset' := by
  have h0 := h 0 (by omega)
  rw [Nat.add_zero, Nat.add_zero] at h0
  have h4 := h 4 (by omega)
  simp only [readBigUInt64, Bytes.doubleword, Bytes.word, Nat.add_assoc, Nat.reduceAdd, h0, h4,
    h 1 (by omega), h 2 (by omega), h 3 (by omega), h 5 (by omega), h 6 (by omega), h 7 (by omega)]

/-- The bytes of a blob that was cut out of a signature. -/
theorem getD_slice {size k : ℕ} (hk : k < size) :
    (m.slice offset size).getD k 0 = m (offset + k) := by
  simp [Bytes.slice, hk]

/-! ## The index -/

section

variable (signature : Bytes)

def offsetAt (i : ℕ) : ℕ := readBigUInt32 signature (12 + i * 8 + 4)

def lengthAt (i : ℕ) : ℕ := readBigUInt32 signature (offsetAt signature i + 4)

/-- The blob that entry `i` of the index names. -/
def blobAt (i : ℕ) : BlobView where
  type := readBigUInt32 signature (12 + i * 8)
  magic := readBigUInt32 signature (offsetAt signature i)
  data := signature.slice (offsetAt signature i) (lengthAt signature i)

end

/-- What has been read of the index. -/
structure IndexInv (signature : Bytes) (length : ℕ) (blobs : List (ℕ × BlobView)) : Prop where
  blobs_eq : blobs.map Prod.snd = (List.range blobs.length).map (blobAt signature)
  distinct : blobs.Pairwise fun b c => b.2.type ≠ c.2.type
  eight_le : ∀ i < blobs.length, 8 ≤ lengthAt signature i
  end_le : ∀ i < blobs.length, offsetAt signature i + lengthAt signature i ≤ length

section

variable {signature : Bytes} {description : String} {length indexEnd : ℕ}
  {previous : List (ℕ × BlobView)}

theorem checkBlobs_eq_ok {type blobLength : ℕ} {u : Unit}
    (h : checkBlobs description type offset blobLength previous = .ok u) :
    ∀ b ∈ previous, b.2.type ≠ type := by
  induction previous with
  | nil => exact fun b hb => absurd hb not_mem_nil
  | cons b _ ih =>
    obtain ⟨htype, h⟩ := ensure_bind_eq_ok.mp h
    obtain ⟨-, h⟩ := ensure_bind_eq_ok.mp h
    rw [bne_iff_ne] at htype
    exact forall_mem_cons.mpr ⟨htype.symm, ih h⟩

/-- One turn of the loop. -/
theorem indexInv_parseBlob {blob : ℕ × BlobView} (hinv : IndexInv signature length previous)
    (h : parseBlob signature description length indexEnd previous.length previous = .ok blob) :
    IndexInv signature length (previous ++ [blob]) := by
  obtain ⟨-, h⟩ := ensure_bind_eq_ok.mp h
  obtain ⟨hlength, h⟩ := ensure_bind_eq_ok.mp h
  obtain ⟨u, hprevious, h⟩ := Except.bind_eq_ok.mp h
  cases h
  simp only [Bool.not_eq_true', Bool.or_eq_false_iff, decide_eq_false_iff_not, Nat.not_lt,
    Bool.not_eq_false', rangeFits_iff] at hlength
  refine ⟨?_, ?_, ?_, ?_⟩
  · rw [map_append, hinv.blobs_eq, length_append, length_singleton, range_succ, map_append]
    rfl
  · exact pairwise_append.mpr ⟨hinv.distinct, pairwise_singleton _ _, fun b hb c hc => by
        rw [mem_singleton.mp hc]
        exact checkBlobs_eq_ok hprevious b hb⟩
  · intro i hi
    rw [length_append, length_singleton] at hi
    by_cases hlast : i = previous.length
    · rw [hlast]
      exact hlength.1
    · exact hinv.eight_le i (by omega)
  · intro i hi
    rw [length_append, length_singleton] at hi
    by_cases hlast : i = previous.length
    · rw [hlast]
      exact hlength.2
    · exact hinv.end_le i (by omega)

/-- The whole loop. -/
theorem indexInv_parseBlobs {remaining : ℕ} {blobs : List (ℕ × BlobView)}
    (hinv : IndexInv signature length previous)
    (h : parseBlobs signature description length indexEnd remaining previous = .ok blobs) :
    IndexInv signature length blobs ∧ blobs.length = previous.length + remaining := by
  induction remaining generalizing previous with
  | zero =>
    cases h
    exact ⟨hinv, rfl⟩
  | succ _ ih =>
    obtain ⟨blob, hblob, h⟩ := Except.bind_eq_ok.mp h
    obtain ⟨hblobs, hlength⟩ := ih (indexInv_parseBlob hinv hblob) h
    refine ⟨hblobs, ?_⟩
    rw [hlength, length_append, length_singleton]
    omega

end

/-! ## Result -/

/-- What holds of a signature that was accepted. -/
structure ParsedSignature (signature : Bytes) (capacity : ℕ) (view : SignatureView) : Prop where
  length_eq : view.length = readBigUInt32 signature 4
  length_le : view.length ≤ capacity
  blobs_eq : view.blobs = (List.range (readBigUInt32 signature 8)).map (blobAt signature)
  distinct : view.blobs.Pairwise fun b c => b.type ≠ c.type
  eight_le : ∀ i < readBigUInt32 signature 8, 8 ≤ lengthAt signature i
  end_le : ∀ i < readBigUInt32 signature 8,
    offsetAt signature i + lengthAt signature i ≤ view.length

variable {signature : Bytes} {capacity : ℕ} {view : SignatureView}

theorem parsed_of_parseCodeSignature {description : String}
    (h : parseCodeSignature signature description capacity = .ok view) :
    ParsedSignature signature capacity view := by
  obtain ⟨-, h⟩ := ensure_bind_eq_ok.mp h
  obtain ⟨hheader, h⟩ := ensure_bind_eq_ok.mp h
  obtain ⟨blobs, hblobs, h⟩ := Except.bind_eq_ok.mp h
  cases h
  simp only [Bool.and_eq_true, decide_eq_true_eq] at hheader
  obtain ⟨hinv, hlength⟩ := indexInv_parseBlobs
    ⟨rfl, .nil, fun i hi => absurd hi (Nat.not_lt_zero i),
      fun i hi => absurd hi (Nat.not_lt_zero i)⟩
    hblobs
  rw [length_nil, Nat.zero_add] at hlength
  refine ⟨rfl, hheader.1.1.1.2, ?_, pairwise_map.mpr hinv.distinct, ?_, ?_⟩
  · rw [← hlength]
    exact hinv.blobs_eq
  · rw [← hlength]
    exact hinv.eight_le
  · rw [← hlength]
    exact hinv.end_le

/-! ## Blobs -/

/-- A blob that carries its own description. -/
structure BlobView.WellFormed (b : BlobView) : Prop where
  type_lt : b.type < 2 ^ 32
  magic_eq : b.magic = readBigUInt32 b.bytes 0
  eight_le : 8 ≤ b.length
  length_eq : readBigUInt32 b.bytes 4 = b.length

/-- The blobs of an accepted signature do. -/
theorem ParsedSignature.wellFormed (h : ParsedSignature signature capacity view) :
    ∀ b ∈ view.blobs, b.WellFormed := by
  intro b hb
  rw [h.blobs_eq] at hb
  obtain ⟨i, hi, rfl⟩ := mem_map.mp hb
  rw [mem_range] at hi
  have height := h.eight_le i hi
  have hbytes : ∀ k < lengthAt signature i,
      (blobAt signature i).bytes k = signature (offsetAt signature i + k) :=
    fun k hk => getD_slice hk
  have hlength : (blobAt signature i).length = lengthAt signature i := Bytes.length_slice _ _ _
  refine ⟨readBigUInt32_lt _ _, readBigUInt32_congr fun k hk => ?_,
    by rw [hlength]; exact height, ?_⟩
  · rw [Nat.zero_add, hbytes k (by omega)]
  · rw [hlength]
    exact readBigUInt32_congr fun k hk => by rw [hbytes (4 + k) (by omega), Nat.add_assoc]

end LiveExec32.Signature
