import LiveExec32.MachO.RoundTrip

/-! # The injected file reads back

The slices of the target and the signed shim are carried into the output (`carries_target`,
`carries_shim`), the writes of the replacement file are apart, and so the file is written for them
(`built_of_placeSlices`). The reader then returns the shim and the target's slices in their order,
and the injector's own verification passes. -/

namespace LiveExec32.MachO

open List Bytes

/-! ## Carried slices -/

/-- A replacement that stays in the code-signature allocation of its slice. -/
structure Replacement.Confined (r : Replacement) (slice : Slice) : Prop where
  hasCodeSignature : slice.hasCodeSignature = true
  start_le : slice.codeSignatureOffset ≤ r.offset
  end_le : r.offset + r.size ≤ slice.codeSignatureOffset + slice.codeSignatureSize

variable {placed : List OutputSlice} {targetSliceCount : ℕ} {heap : ℕ → Bool}
  {file : File} {slice : Slice}

/-- Content that has the header and the load commands of a parsed slice is parsed alike. -/
theorem checked_of_agrees (h : SliceParsed heap file slice) {content : Bytes}
    (hsame : ∀ i < slice.headerSize + slice.loadCommandBytes,
      content i = file.bytes (slice.offset + i)) :
    ∃ form state, SliceChecked heap content 0 slice.size form {} slice.toRecorded state ∧
      slice = sliceOf content 0 form slice.toRecorded slice := by
  obtain ⟨form, state, hchecked, hslice⟩ := h.checked
  have hheader : slice.headerSize = form.headerSize := by rw [hslice]; rfl
  have hbytes : slice.loadCommandBytes = headerField file.bytes slice.offset form 20 := by
    rw [hslice]; rfl
  rw [hheader, hbytes] at hsame
  have hshift : ∀ i < form.headerSize + headerField file.bytes slice.offset form 20,
      content (0 + i) = file.bytes (slice.offset + i) := by
    intro i hi
    rw [Nat.zero_add]
    exact hsame i hi
  obtain ⟨hthere, hsliceOf⟩ := hchecked.transfer hshift
  exact ⟨form, state, hthere, by rw [hsliceOf]; exact hslice⟩

/-- The output slice of a target slice carries it, whatever its new signature is. -/
theorem carries_target {target : File} (h : SliceParsed heap target slice)
    {replacement : Option Replacement} (hconfined : ∀ r ∈ replacement, r.Confined slice) :
    Carries heap slice (targetOutput target slice replacement) := by
  have hinside := h.inSlice
  have hcopyable : (targetOutput target slice replacement).Copyable := by
    refine ⟨h.in_file, ?_⟩
    cases replacement with
    | none => rfl
    | some r =>
      have hr := hconfined r rfl
      have hfits := hinside.codeSignature_fits
      have hend := hr.end_le
      exact rangeFits_iff.mpr (Nat.le_trans hend hfits)
  refine ⟨hcopyable, rfl, h.size_ne_zero, rfl, rfl, rfl, rfl, rfl, checked_of_agrees h ?_⟩
  intro i hi
  cases replacement with
  | none => rfl
  | some r =>
    have hr := hconfined r rfl
    have hbehind := hinside.behind_commands hr.hasCodeSignature
    have hstart := hr.start_le
    have hbefore : ¬ (r.offset ≤ i ∧ i < r.offset + r.size) := by
      simp only at hbehind
      omega
    exact if_neg hbefore

/-- The signed shim as it goes into the output: the file that was signed, with changes to its
    signature only. -/
structure SignedShim (shim : File) (shimSlice signed : Slice) (signedBytes : Bytes)
    (requestedSDK : ℕ) : Prop where
  wide : shimSlice.is32Bit = false
  valid : signedShimIsValid shimSlice signed shim.length requestedSDK = true
  same : ∀ i < shim.length, i < signed.codeSignatureOffset ∨
    signed.codeSignatureOffset + signed.codeSignatureSize ≤ i → signedBytes i = shim.bytes i

theorem carries_shim {shim : File} {shimSlice signed : Slice} {signedBytes : Bytes}
    {requestedSDK : ℕ} (h : SliceParsed heap shim signed)
    (hshim : SignedShim shim shimSlice signed signedBytes requestedSDK) :
    Carries heap signed (shimOutput shimSlice signedBytes shim.length) := by
  have hinside := h.inSlice
  have hvalid := hshim.valid
  simp only [signedShimIsValid, Bool.not_eq_true', Bool.or_eq_false_iff, bne_eq_false_iff_eq,
    Bool.not_eq_false'] at hvalid
  obtain ⟨⟨⟨⟨⟨⟨⟨⟨⟨⟨⟨⟨hoffset, hsize⟩, htype⟩, hsubtype⟩, hfile⟩, hwide⟩, -⟩, hencrypted⟩,
    hsignature⟩, -⟩, -⟩, -⟩, -⟩ := hvalid
  refine ⟨⟨trivial, rfl⟩, hsize.symm, h.size_ne_zero, htype.symm, hsubtype.symm, hfile.symm, ?_,
    hencrypted.symm, checked_of_agrees h ?_⟩
  · show (!shimSlice.is32Bit) = !signed.is32Bit
    rw [hshim.wide, hwide]
  · intro i hi
    have hbehind := hinside.behind_commands hsignature
    have hfits := hinside.codeSignature_fits
    simp only at hbehind hfits
    rw [hoffset, Nat.zero_add]
    exact hshim.same i (by omega) (.inl (by omega))

/-! ## The writes -/

/-- The header describes the shim first. -/
theorem encodeHeader_eq (targets : List OutputSlice) (shim : OutputSlice) :
    encodeHeader (targets ++ [shim]) targets.length
      = (tableWords (shim :: targets)).flatMap encodeBig := by
  rw [encodeHeader, descriptorOrder_eq]
  rfl

theorem length_encodeHeader (targets : List OutputSlice) (shim : OutputSlice) :
    (encodeHeader (targets ++ [shim]) targets.length).length
      = outputHeaderSize (targets.length + 1) := by
  rw [encodeHeader_eq, length_flatMap_encodeBig, length_tableWords, length_cons, outputHeaderSize]
  omega

variable {α β : Type} {R : α → β → Prop} {xs : List α}

/-- A relation along a list that ends in one element. -/
theorem forall₂_concat_left {x : α} {zs : List β} (h : List.Forall₂ R (xs ++ [x]) zs) :
    ∃ ys y, zs = ys ++ [y] ∧ List.Forall₂ R xs ys ∧ R x y := by
  induction xs generalizing zs with
  | nil =>
    obtain ⟨y, ys, hx, hrest, rfl⟩ := forall₂_cons_left_iff.mp h
    obtain rfl := forall₂_nil_left_iff.mp hrest
    exact ⟨[], y, rfl, .nil, hx⟩
  | cons _ _ ih =>
    obtain ⟨b, bs, hab, hrest, rfl⟩ := forall₂_cons_left_iff.mp h
    obtain ⟨ys, y, rfl, hys, hy⟩ := ih hrest
    exact ⟨b :: ys, y, rfl, .cons hab hys, hy⟩

/-- The partner of an element, together with the element. -/
theorem forall₂_zip_right {ys : List β} (h : List.Forall₂ R xs ys) :
    List.Forall₂ (fun x (p : α × β) => p.1 = x ∧ R x p.2) xs (xs.zip ys) := by
  induction h with
  | nil => exact .nil
  | cons hxy _ ih => exact .cons ⟨rfl, hxy⟩ ih

/-- The header and the slices are written to places that have nothing to do with each other. -/
theorem replacementWrites_apart (horder : placed.Pairwise InOrder)
    (hbehind : ∀ s ∈ placed, (encodeHeader placed targetSliceCount).length ≤ s.outputOffset) :
    (replacementWrites placed targetSliceCount).Pairwise Bytes.Write.Apart := by
  refine pairwise_cons.mpr ⟨?_, ?_⟩
  · intro w hw
    obtain ⟨s, hs, rfl⟩ := mem_map.mp hw
    refine .inl ?_
    rw [Nat.zero_add]
    exact hbehind s hs
  · refine pairwise_map.mpr (horder.imp fun hlt => .inl ?_)
    simp only [OutputSlice.write, length_slice]
    exact hlt

/-- A slice of the replacement file has the content it is meant to have. -/
theorem content_of_mem
    (hapart : (replacementWrites placed targetSliceCount).Pairwise Bytes.Write.Apart)
    {s : OutputSlice} (hs : s ∈ placed) {i : ℕ} (hi : i < s.size) :
    writeAll (fun _ => 0) (replacementWrites placed targetSliceCount) (s.outputOffset + i)
      = s.content i := by
  have hmem : s.write ∈ replacementWrites placed targetSliceCount :=
    mem_cons_of_mem _ (mem_map_of_mem hs)
  have hlength : i < s.write.2.length := by
    simp only [OutputSlice.write, length_slice]
    exact hi
  have hwritten := writeAll_of_mem hapart hmem hlength (fun _ => 0)
  rw [getD_eq_getElem _ _ hlength] at hwritten
  refine hwritten.trans ?_
  simp only [OutputSlice.write, slice, getElem_map, getElem_range, Nat.zero_add]

/-- A file that the layout and the copy make for carried slices, with the slices in the order of the
    table. -/
structure Built (heap : ℕ → Bool) (sources : List (Slice × OutputSlice)) (placed : List OutputSlice)
    (targetSliceCount : ℕ) (file : File) (pairs : List (Slice × OutputSlice)) : Prop where
  written : WrittenFor heap file pairs
  order : descriptorOrder placed targetSliceCount = pairs.map Prod.snd
  placed : List.Forall₂ (fun source p => p.1 = source.1 ∧
    PlacedAs (outputHeaderSize (targetSliceCount + 1)) source.2 p.2) sources pairs
  gaps : ∀ i, outputHeaderSize (targetSliceCount + 1) ≤ i →
    (∀ p ∈ pairs, i < p.2.outputOffset ∨ p.2.outputOffset + p.2.size ≤ i) → file.bytes i = 0

/-- **The replacement file is written for the slices that it was made from.** -/
theorem built_of_placeSlices {slices : List Slice} {signed : Slice} {output : Slice → OutputSlice}
    {shimOut : OutputSlice} {total : ℕ}
    (hcarries : ∀ slice ∈ slices, Carries heap slice (output slice))
    (hshim : Carries heap signed shimOut) (hdistinct : (signed :: slices).Pairwise Slice.Distinct)
    (hcount : slices.length + 1 ≤ maxSlices)
    (hplace : placeSlices (outputHeaderSize (slices.length + 1)) (slices.map output ++ [shimOut])
      = .ok (placed, total)) :
    ∃ file pairs, writeReplacement placed slices.length total = .ok file ∧
      Built heap ((signed, shimOut) :: slices.map fun slice => (slice, output slice)) placed
        slices.length file pairs := by
  obtain ⟨hplaced, horder, hstart, hends, hsmall⟩ := placed_of_placeSlices hplace
  have htotal : total ≤ uint32Max := hsmall (by simp)
  obtain ⟨targets, shim, rfl, htargets, hlast⟩ := forall₂_concat_left hplaced
  rw [forall₂_map_left_iff] at htargets
  have hlength : slices.length = targets.length := htargets.length_eq
  have hsnd : (slices.zip targets).map Prod.snd = targets := map_snd_zip (by omega)
  have hfst : (slices.zip targets).map Prod.fst = slices := map_fst_zip (by omega)
  have hmem : ∀ p ∈ (signed, shim) :: slices.zip targets,
      Carries heap p.1 p.2 ∧ p.2 ∈ targets ++ [shim] ∧
        ∃ out, PlacedAs (outputHeaderSize (slices.length + 1)) out p.2 := by
    rw [forall_mem_cons]
    refine ⟨⟨hshim.of_placedAs hlast, by simp, _, hlast⟩, ?_⟩
    intro p hp
    have hzip := (forall₂_iff_zip.mp htargets).2 hp
    obtain ⟨hslice, htarget⟩ := of_mem_zip hp
    exact ⟨(hcarries _ hslice).of_placedAs hzip, mem_append_left _ htarget, _, hzip⟩
  have hpairs : ∀ s ∈ targets ++ [shim], ∃ p ∈ (signed, shim) :: slices.zip targets, p.2 = s := by
    intro s hs
    have hs' : s ∈ ((signed, shim) :: slices.zip targets).map Prod.snd := by
      rw [map_cons, hsnd]
      exact mem_cons.mpr ((mem_append.mp hs).symm.imp_left mem_singleton.mp)
    exact mem_map.mp hs'
  have hheader := length_encodeHeader targets shim
  have hbehind : ∀ s ∈ targets ++ [shim],
      (encodeHeader (targets ++ [shim]) targets.length).length ≤ s.outputOffset := by
    intro s hs
    obtain ⟨p, hp, rfl⟩ := hpairs s hs
    obtain ⟨-, -, out, hout⟩ := hmem p hp
    rw [hheader, ← hlength]
    exact hout.start_le
  have hapart := replacementWrites_apart horder hbehind
  have hcopyable : ∀ s ∈ targets ++ [shim], s.Copyable := by
    intro s hs
    obtain ⟨p, hp, rfl⟩ := hpairs s hs
    exact (hmem p hp).1.copyable
  have hwrite := writeReplacement_eq hcopyable hends (by simp only [uint32Max] at htotal; omega)
    (by rw [hheader, ← hlength]; exact hstart)
  rw [← hlength] at hwrite hapart hheader
  have hpairsLength : ((signed, shim) :: slices.zip targets).length = slices.length + 1 := by
    rw [length_cons, length_zip, ← hlength, Nat.min_self]
  refine ⟨_, (signed, shim) :: slices.zip targets, hwrite, ?_, ?_, ?_, ?_⟩
  · exact
      { count_pos := by rw [hpairsLength]; exact Nat.succ_pos _
        count_le := by rw [hpairsLength]; exact hcount
        length_le := htotal
        carries := fun p hp => (hmem p hp).1
        behind_table := by
          intro p hp
          obtain ⟨-, -, out, hout⟩ := hmem p hp
          rw [hpairsLength]
          exact hout.start_le
        in_file := fun p hp => hends p.2 (hmem p hp).2.1
        align_le := by
          intro p hp
          obtain ⟨-, -, out, hout⟩ := hmem p hp
          exact hout.align_le
        aligned := by
          intro p hp
          obtain ⟨-, -, out, hout⟩ := hmem p hp
          exact hout.aligned
        apart := by
          rw [pairwise_append] at horder
          refine pairwise_cons.mpr ⟨fun p hp => .inr ?_, ?_⟩
          · exact horder.2.2 p.2 (of_mem_zip hp).2 shim (mem_singleton_self _)
          · rw [← hsnd, pairwise_map] at horder
            exact horder.1.imp .inl
        distinct := by
          refine pairwise_map.mp ?_
          rw [map_cons, hfst]
          exact hdistinct
        content := fun p hp i hi => content_of_mem hapart (hmem p hp).2.1 hi
        header := by
          intro i hi
          rw [hpairsLength, ← hheader] at hi
          have hwritten := writeAll_of_mem hapart mem_cons_self hi (fun _ => 0)
          rw [Nat.zero_add] at hwritten
          refine hwritten.trans ?_
          simp only [map_cons, hsnd]
          rw [hlength, encodeHeader_eq] }
  · rw [map_cons, hsnd, hlength]
    exact descriptorOrder_eq targets shim
  · refine .cons ⟨rfl, hlast⟩ ?_
    rw [forall₂_map_left_iff]
    exact forall₂_zip_right htargets
  · intro i hi hmiss
    refine writeAll_of_misses ?_ _
    refine forall_mem_cons.mpr ⟨.inr ?_, ?_⟩
    · rw [Nat.zero_add, hheader]
      exact hi
    · intro w hw
      obtain ⟨s, hs, rfl⟩ := mem_map.mp hw
      obtain ⟨p, hp, rfl⟩ := hpairs s hs
      simpa only [Bytes.Write.Misses, OutputSlice.write, length_slice] using hmiss p hp

/-! ## Result -/

/-- What the reader returns for a source of the injection: the same slice, at the place and with the
    bytes that the output slice has. -/
structure Injected (file : File) (source : Slice × OutputSlice) (slice : Slice) : Prop where
  cpuType_eq : slice.cpuType = source.1.cpuType
  cpuSubtype_eq : slice.cpuSubtype = source.1.cpuSubtype
  fileType_eq : slice.fileType = source.1.fileType
  encrypted_eq : slice.encrypted = source.1.encrypted
  size_eq : slice.size = source.1.size
  alignExponent_eq :
    slice.alignExponent = max source.2.sourceAlignExponent outputMinAlignExponent
  content : ∀ i < slice.size, file.bytes (slice.offset + i) = source.2.content i

/-- The slices of the injection in the order of the table. -/
def injectionSources (target : File) (slices : List Slice)
    (replacement : Slice → Option Replacement) (signed : Slice) (shimOut : OutputSlice) :
    List (Slice × OutputSlice) :=
  (signed, shimOut) ::
    slices.map fun slice => (slice, targetOutput target slice (replacement slice))

theorem injected_of_built {sources pairs : List (Slice × OutputSlice)}
    (h : Built heap sources placed targetSliceCount file pairs) :
    List.Forall₂ (Injected file) sources (writtenImage file pairs).slices := by
  rw [writtenImage, forall₂_map_right_iff]
  refine forall₂_iff_zip.mpr ⟨h.placed.length_eq, fun hp => ?_⟩
  obtain ⟨hsame, hplaced⟩ := (forall₂_iff_zip.mp h.placed).2 hp
  have hmem := (of_mem_zip hp).2
  have hsize := (h.written.carries _ hmem).size_eq
  rename_i source p
  refine ⟨?_, ?_, ?_, ?_, ?_, hplaced.align_eq, fun i hi => ?_⟩
  case refine_6 =>
    have hcontent : p.2.content = source.2.content := by rw [hplaced.same]; rfl
    rw [← hcontent]
    exact h.written.content p hmem i (by rw [hsize]; exact hi)
  all_goals rw [← hsame]; rfl

/-- **The injected file reads back.** Whatever stands in the signatures, the reader accepts the file
    and returns the shim and then the target's slices, and the injector's verification passes. -/
theorem injected_roundTrip (heap : ℕ → Bool) (target shim : File) (image shimImage : Image)
    (signed shimSlice : Slice) (signedBytes : Bytes) (requestedSDK : ℕ)
    (replacement : Slice → Option Replacement) (placed : List OutputSlice) (total : ℕ)
    (htarget : parseImage heap target = .ok image) (hcount : image.count ≤ 4)
    (harm : ∀ slice ∈ image.slices, slice.cpuType = cpuTypeARM)
    (hconfined : ∀ slice ∈ image.slices, ∀ r ∈ replacement slice, r.Confined slice)
    (hshim : parseImage heap shim = .ok shimImage) (hthin : shimImage.slices = [signed])
    (harm64 : signed.cpuType = cpuTypeARM64)
    (hsigned : SignedShim shim shimSlice signed signedBytes requestedSDK)
    (hplace : placeSlices (outputHeaderSize (image.count + 1))
      (image.slices.map (fun slice => targetOutput target slice (replacement slice)) ++
        [shimOutput shimSlice signedBytes shim.length]) = .ok (placed, total)) :
    ∃ file result, writeReplacement placed image.count total = .ok file ∧
      (∀ fd initial, 0 ≤ fd → imageParseFD heap fd (.ok file) initial = ⟨true, result, ""⟩) ∧
      List.Forall₂ (Injected file)
        (injectionSources target image.slices replacement signed
          (shimOutput shimSlice signedBytes shim.length)) result.slices ∧
      (∀ i, outputHeaderSize (image.count + 1) ≤ i →
        (∀ slice ∈ result.slices, i < slice.offset ∨ slice.offset + slice.size ≤ i) →
          file.bytes i = 0) ∧
      verifyReplacement heap file placed image.count = .ok result := by
  obtain ⟨haccepted, hparsed⟩ := accepted_of_parseImage htarget
  obtain ⟨-, hshimParsed⟩ := accepted_of_parseImage hshim
  have hsignedParsed : SliceParsed heap shim signed :=
    hshimParsed signed (by rw [hthin]; exact mem_singleton_self _)
  have hdistinct : (signed :: image.slices).Pairwise Slice.Distinct := by
    refine pairwise_cons.mpr ⟨fun slice hslice hsame => ?_, haccepted.distinct⟩
    have htype := (Prod.mk.inj hsame).1
    rw [harm64, harm slice hslice] at htype
    cases htype
  obtain ⟨file, pairs, hwrite, hbuilt⟩ := built_of_placeSlices
    (fun slice hslice => carries_target (hparsed slice hslice) (hconfined slice hslice))
    (carries_shim hsignedParsed hsigned) hdistinct (Nat.succ_le_succ hcount) hplace
  have hparse := parseImage_eq hbuilt.written
  refine ⟨file, writtenImage file pairs, hwrite, ?_, injected_of_built hbuilt, ?_, ?_⟩
  · intro fd initial hfd
    rw [imageParseFD, if_neg (by omega)]
    simp only [Except.mapError_ok, hparse]
  · intro i hi hmiss
    refine hbuilt.gaps i hi fun p hp => ?_
    have hslice := hmiss (relocate p.1 p.2) (mem_map_of_mem hp)
    rwa [(hbuilt.written.carries p hp).size_eq]
  · have hlength : (writtenImage file pairs).count = image.count + 1 := by
      have hsame := hbuilt.placed.length_eq
      rw [length_cons, length_map] at hsame
      rw [Image.count, writtenImage, length_map, ← hsame]
      rfl
    rw [verifyReplacement, hparse, Except.mapError_ok, Except.ok_bind,
      ensure_bind (by rw [hlength]; exact beq_self_eq_true _)]
    have horder : descriptorOrder placed image.count = pairs.map Prod.snd := hbuilt.order
    rw [horder, writtenImage,
      verifySlices_eq fun p hp => verifySlice_eq hbuilt.written hp, Except.ok_bind]
    rfl

/-- A thin arm64 executable: a `__LINKEDIT` segment, a signature of 16 bytes and a build version. -/
def smallestShim : File :=
  ⟨fun i => (encodeWords
    ([0xFEEDFACF, 0x0100000C, 0, 2, 3, 112, 0, 0] ++
      [0x19, 72, 0x494C5F5F, 0x44454B4E, 0x5449, 0, 0, 0, 16, 0, 144, 0, 16, 0, 0, 0, 0, 0] ++
      [0x1D, 16, 144, 16] ++ [0x32, 24, 2, 0xB0000, 0xB0000, 0])).getD i 0, 160, by decide⟩

/-- A thin armv7 executable: a `__LINKEDIT` segment and a signature of 16 bytes. -/
def smallestTarget : File :=
  ⟨fun i => (encodeWords
    ([0xFEEDFACE, 12, 9, 2, 2, 72, 0] ++
      [1, 56, 0x494C5F5F, 0x44454B4E, 0x5449, 0, 0, 16, 112, 16, 0, 0, 0, 0] ++
      [0x1D, 16, 112, 16])).getD i 0, 128, by decide⟩

def smallestTargetSlice : Slice where
  hasCodeSignature := true
  hasLinkedit := true
  codeSignatureOffset := 112
  codeSignatureSize := 16
  codeSignatureCommandOffset := 84
  linkeditCommandOffset := 28
  linkeditVMSize := 16
  linkeditFileOffset := 112
  linkeditFileSize := 16
  cpuType := 12
  cpuSubtype := 9
  fileType := 2
  size := 128
  alignExponent := 14
  is32Bit := true
  headerSize := 28
  loadCommandCount := 2
  loadCommandBytes := 72

/-- Another signature for the target. -/
def smallestReplacement : Replacement := ⟨112, 16, fun _ => 0xFA⟩

def smallestShimSlice : Slice where
  hasCodeSignature := true
  hasLinkedit := true
  hasBuildVersion := true
  codeSignatureOffset := 144
  codeSignatureSize := 16
  codeSignatureCommandOffset := 104
  buildVersionCommandOffset := 120
  buildVersionPlatform := 2
  buildVersionMinOS := 0xB0000
  buildVersionSDK := 0xB0000
  linkeditCommandOffset := 32
  linkeditVMSize := 16
  linkeditFileOffset := 144
  linkeditFileSize := 16
  cpuType := 0x0100000C
  fileType := 2
  size := 160
  alignExponent := 14
  headerSize := 32
  loadCommandCount := 3
  loadCommandBytes := 112

/-- Where the two slices go. -/
def smallestPlaced : List OutputSlice :=
  [{ targetOutput smallestTarget smallestTargetSlice (some smallestReplacement) with
      outputOffset := 16384, outputAlignExponent := 14 },
    { shimOutput smallestShimSlice smallestShim.bytes 160 with
      outputOffset := 32768, outputAlignExponent := 14 }]

theorem injected_roundTrip_smallest :
    ∃ file result, writeReplacement smallestPlaced 1 32928 = .ok file ∧
      (∀ fd initial, 0 ≤ fd →
        imageParseFD (fun _ => true) fd (.ok file) initial = ⟨true, result, ""⟩) ∧
      verifyReplacement (fun _ => true) file smallestPlaced 1 = .ok result := by
  have hsigned : SignedShim smallestShim smallestShimSlice smallestShimSlice smallestShim.bytes
      0xB0000 := ⟨rfl, by decide, fun _ _ _ => rfl⟩
  have hconfined : ∀ slice ∈ [smallestTargetSlice], ∀ r ∈ some smallestReplacement,
      r.Confined slice := by
    rintro _ hslice _ ⟨⟩
    obtain rfl := mem_singleton.1 hslice
    exact ⟨rfl, by decide, by decide⟩
  obtain ⟨file, result, hwrite, hparse, -, -, hverify⟩ :=
    injected_roundTrip (fun _ => true) smallestTarget smallestShim
      { slices := [smallestTargetSlice], fileSize := 128 }
      { slices := [smallestShimSlice], fileSize := 160 }
      smallestShimSlice smallestShimSlice smallestShim.bytes 0xB0000
      (fun _ => some smallestReplacement) smallestPlaced 32928 rfl (by decide) (by decide) hconfined
      rfl rfl rfl hsigned rfl
  exact ⟨file, result, hwrite, hparse, hverify⟩

end LiveExec32.MachO
