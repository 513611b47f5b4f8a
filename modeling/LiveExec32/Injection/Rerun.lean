import LiveExec32.Injection.Inject
import LiveExec32.Injection.Recovery
import LiveExec32.Signature.Resigned
import LiveExec32.MachO.Injected

/-! # Running the injector again

A run that succeeds has installed a file that its own verification accepted: it has one slice more
than the target, and the first is the shim (`installed_of_inject`). A second run looks at the number
of slices before it looks at their types. With at most four slices it comes to the shim and has
nothing to do; a fifth slice is one too many to add another to. -/

namespace LiveExec32.Injection

open MachO Signature Except Bytes

/-! ## What the verification accepted -/

/-- The file has `count` slices, and the first is for arm64. -/
structure HasShim (heap : ℕ → Bool) (file : File) (count : ℕ) : Prop where
  length_ne : file.length ≠ 0
  shim_first : ∃ image slice rest, parseImage heap file = .ok image ∧ image.count = count ∧
    image.slices = slice :: rest ∧ slice.cpuType = cpuTypeARM64

variable {file : File} {inode : Inode} {placed : List OutputSlice × ℕ} {p : Prepared}
  {shimSlice : Slice} {heap : ℕ → Bool}

theorem length_ne_of_parseImage {image : Image} (h : parseImage heap file = .ok image) :
    file.length ≠ 0 := by
  obtain ⟨hlength, -⟩ := ensure_bind_eq_ok.mp h
  simpa using hlength

/-- The first slice of a verified file is of the type that was placed last. -/
theorem hasShim_of_verifyReplacement {targets : List OutputSlice} {shim : OutputSlice}
    {result : Image} (harm64 : shim.cpuType = cpuTypeARM64)
    (h : verifyReplacement heap file (targets ++ [shim]) targets.length = .ok result) :
    HasShim heap file (targets.length + 1) := by
  obtain ⟨image, hparse, h⟩ := bind_eq_ok.mp h
  rw [mapError_eq_ok] at hparse
  obtain ⟨hcount, h⟩ := ensure_bind_eq_ok.mp h
  rw [beq_iff_eq] at hcount
  obtain ⟨_, hverify, -⟩ := bind_eq_ok.mp h
  refine ⟨length_ne_of_parseImage hparse, image, ?_⟩
  cases hslices : image.slices with
  | nil =>
    rw [Image.count, hslices] at hcount
    simp at hcount
  | cons slice rest =>
    rw [descriptorOrder_eq, hslices, verifySlices] at hverify
    obtain ⟨_, hslice, -⟩ := bind_eq_ok.mp hverify
    obtain ⟨hsame, -⟩ := ensure_bind_eq_ok.mp hslice
    simp only [Bool.not_eq_true', Bool.or_eq_false_iff, bne_eq_false_iff_eq] at hsame
    exact ⟨slice, rest, hparse, hcount, rfl, hsame.1.1.1.1.1.1.1.trans harm64⟩

theorem cpuType_of_selectShimSlice {found : Option Slice} {candidates : List Slice}
    (hfound : ∀ s ∈ found, s.cpuType = cpuTypeARM64)
    (h : selectShimSlice found candidates = .ok (some shimSlice)) :
    shimSlice.cpuType = cpuTypeARM64 := by
  induction candidates generalizing found with
  | nil => exact hfound shimSlice (ok.inj h)
  | cons _ _ ih =>
    obtain ⟨-, h⟩ := ensure_bind_eq_ok.mp h
    obtain ⟨-, h⟩ := ensure_bind_eq_ok.mp h
    refine ih (fun s hs => ?_) h
    split at hs
    next hfits =>
      cases hs
      simp only [isGenericArm64, Bool.and_eq_true, beq_iff_eq] at hfits
      exact hfits.2.1.1
    · exact hfound s hs

theorem cpuType_of_chooseShimSlice {shim : File} (h : chooseShimSlice heap shim = .ok shimSlice) :
    shimSlice.cpuType = cpuTypeARM64 := by
  obtain ⟨-, h⟩ := ensure_bind_eq_ok.mp h
  obtain ⟨image, -, h⟩ := bind_eq_ok.mp h
  obtain ⟨found, hfound, h⟩ := bind_eq_ok.mp h
  cases found with
  | none => simp at h
  | some =>
    obtain ⟨-, h⟩ := ensure_bind_eq_ok.mp h
    cases h
    exact cpuType_of_selectShimSlice (by simp) hfound

variable {a : Arguments}

theorem length_createTargetOutputs {donor : Option Donor} {teamIdentifier : CString}
    {slices : List Slice} {outputs : List OutputSlice}
    (h : a.createTargetOutputs file donor teamIdentifier slices = .ok outputs) :
    outputs.length = slices.length := by
  induction slices generalizing outputs with
  | nil =>
    cases h
    rfl
  | cons _ _ ih =>
    obtain ⟨output, -, h⟩ := bind_eq_ok.mp h
    obtain ⟨others, hothers, h⟩ := bind_eq_ok.mp h
    cases h
    simp [ih hothers]

/-- The layout is one output slice for each slice of the target, and the shim. -/
theorem placed_of_layOut {target : Target} {metadata : SigningMetadata}
    (h : a.layOut file target shimSlice metadata = .ok placed) :
    ∃ targets shim, placed.1 = targets ++ [shim] ∧ targets.length = target.image.count ∧
      shim.cpuType = shimSlice.cpuType := by
  obtain ⟨signed, -, h⟩ := bind_eq_ok.mp h
  obtain ⟨donor, -, h⟩ := bind_eq_ok.mp h
  obtain ⟨outputs, houtputs, h⟩ := bind_eq_ok.mp h
  obtain ⟨hplaced, -⟩ := placed_of_placeSlices h
  obtain ⟨targets, shim, hsplit, htargets, hshim⟩ := forall₂_concat_left hplaced
  refine ⟨targets, shim, hsplit, ?_, ?_⟩
  · rw [← htargets.length_eq, length_createTargetOutputs houtputs, Image.count]
  · rw [hshim.same]
    rfl

variable {w : World}

/-- What a run builds has the shim first. -/
theorem hasShim_of_buildReplacement (harm64 : p.shimSlice.cpuType = cpuTypeARM64)
    (hplan : plan a w p = .ok placed)
    (h : buildReplacement a w p.target.image.count placed = .ok file) :
    HasShim a.heap file (p.target.image.count + 1) := by
  obtain ⟨-, hplan⟩ := ensure_bind_eq_ok.mp hplan
  obtain ⟨placed', hlayOut, hplan⟩ := bind_eq_ok.mp hplan
  obtain ⟨-, hplan⟩ := ensure_bind_eq_ok.mp hplan
  cases hplan
  obtain ⟨targets, shim, hsplit, hcount, hshim⟩ := placed_of_layOut hlayOut
  obtain ⟨-, h⟩ := ensure_bind_eq_ok.mp h
  obtain ⟨-, h⟩ := ensure_bind_eq_ok.mp h
  obtain ⟨written, -, h⟩ := bind_eq_ok.mp h
  obtain ⟨-, h⟩ := ensure_bind_eq_ok.mp h
  obtain ⟨-, h⟩ := ensure_bind_eq_ok.mp h
  obtain ⟨-, h⟩ := ensure_bind_eq_ok.mp h
  obtain ⟨result, hverify, h⟩ := bind_eq_ok.mp h
  cases h
  rw [hsplit, ← hcount] at hverify
  rw [← hcount]
  exact hasShim_of_verifyReplacement (hshim.trans harm64) hverify

/-- What a prepared run knows. -/
theorem prepare_eq_ok (h : prepare a w file = .ok p) :
    parseImage a.heap file = .ok p.target.image ∧ p.shimSlice.cpuType = cpuTypeARM64 := by
  obtain ⟨target, htarget, h⟩ := bind_eq_ok.mp h
  obtain ⟨⟨shimSlice, metadata⟩, hshim, h⟩ := bind_eq_ok.mp h
  cases h
  rw [mapError_eq_ok] at hshim
  obtain ⟨-, hshim⟩ := ensure_bind_eq_ok.mp hshim
  obtain ⟨-, hshim⟩ := ensure_bind_eq_ok.mp hshim
  obtain ⟨chosen, hchosen, hshim⟩ := bind_eq_ok.mp hshim
  obtain ⟨_, -, hshim⟩ := bind_eq_ok.mp hshim
  obtain ⟨rfl, -⟩ := Prod.mk.inj (ok.inj hshim)
  refine ⟨?_, cpuType_of_chooseShimSlice hchosen⟩
  obtain ⟨image, himage, htarget⟩ := bind_eq_ok.mp htarget
  rw [createMachOImage, mapError_eq_ok, mapError_eq_ok] at himage
  split at htarget
  · simp at htarget
  · obtain ⟨found, -, htarget⟩ := bind_eq_ok.mp htarget
    split at htarget
    · simp at htarget
    · cases htarget
      exact himage

/-! ## What the commit leaves -/

/-- No file has become another kind of file or has another size. -/
def Fs.SameKinds (fs fs' : Fs) : Prop :=
  ∀ inode, (fs'.attributes inode).mode = (fs.attributes inode).mode ∧
    (fs'.attributes inode).size = (fs.attributes inode).size

theorem Fs.SameKinds.refl (fs : Fs) : fs.SameKinds fs := fun _ => ⟨rfl, rfl⟩

theorem Fs.SameKinds.trans {fs₁ fs₂ fs₃ : Fs} (h₁ : fs₁.SameKinds fs₂) (h₂ : fs₂.SameKinds fs₃) :
    fs₁.SameKinds fs₃ :=
  fun inode => ⟨(h₂ inode).1.trans (h₁ inode).1, (h₂ inode).2.trans (h₁ inode).2⟩

section

variable {succeeds : Call → Bool} {ctime : Call → ℕ × ℕ} {fs : Fs} {s : Locals}

theorem sameKinds_clearTemporaryRestrictiveFlags (inode : Inode) :
    fs.SameKinds (clearTemporaryRestrictiveFlags succeeds ctime fs inode) := by
  unfold clearTemporaryRestrictiveFlags
  split
  · exact .refl fs
  · simp only
    split
    · intro other
      by_cases hother : other = inode
      · subst hother
        simp
      · simp [Function.update_of_ne hother]
    · exact .refl fs

theorem sameKinds_cleanup : fs.SameKinds (cleanup succeeds ctime fs s) := by
  have hstaged : fs.SameKinds (cleanStagingDirectory succeeds ctime fs s) := by
    unfold cleanStagingDirectory
    split
    · split
      · unfold removeStaged
        simp only
        split
        · exact sameKinds_clearTemporaryRestrictiveFlags _
        · split <;> exact sameKinds_clearTemporaryRestrictiveFlags _
      · exact .refl fs
    · exact .refl fs
  unfold cleanup
  simp only
  split
  · refine hstaged.trans ?_
    unfold removeStagingDirectory
    split
    · exact .refl _
    · split <;> exact .refl _
  · exact hstaged

theorem sameKinds_renameSwap {call : Call} {fs' : Fs}
    (h : renameSwap succeeds ctime call fs = some fs') : fs.SameKinds fs' := by
  unfold renameSwap at h
  split at h
  · cases h
    intro inode
    simp only
    split <;> exact ⟨rfl, rfl⟩
  · simp at h

theorem result_rollBack : (rollBack succeeds ctime fs s).2.result = s.result := by
  unfold rollBack
  split
  · rfl
  · split
    · rfl
    · split <;> rfl

/-- The staged file that was verified is a regular file. -/
theorem isRegular_of_replacementIsUnchanged (h : replacementIsUnchanged succeeds fs s)
    (hstaging : fs.staging = some inode) : (fs.stat inode).isRegular := by
  unfold replacementIsUnchanged statOf at h
  rw [hstaging] at h
  split at h
  next hpath =>
    split at hpath
    · cases hpath
      exact (Bool.and_eq_true_iff.mp h).1
    · simp at hpath
  · simp at h

/-- A commit that succeeds has installed a regular file of the size that it had. -/
theorem installed_of_commit (hresult : s.result ≠ .succeeded)
    (h : (commit succeeds ctime fs s).2.result = .succeeded) (hinode : s.temporaryFD = some inode) :
    (commit succeeds ctime fs s).1.target = some inode ∧
      (commit succeeds ctime fs s).1.contents = fs.contents ∧
      fs.SameKinds (commit succeeds ctime fs s).1 ∧ (fs.stat inode).isRegular := by
  obtain ⟨houtcome, -, hcontents⟩ := @outcome_commit succeeds ctime fs s hresult
  have htarget : (commit succeeds ctime fs s).1.target = some inode := by
    cases houtcome with
    | installed _ htarget => exact htarget.trans hinode
    | unchanged hother => exact absurd h hother
    | preserved hother => exact absurd h hother
  refine ⟨htarget, hcontents, ?_⟩
  unfold commit at h ⊢
  simp only at h ⊢
  split at h
  · exact absurd h hresult
  next hreplacement =>
    split at h
    · exact absurd h hresult
    next htargetSame =>
      split at h
      · exact absurd h hresult
      next fs' hrename =>
        rw [if_neg hreplacement, if_neg htargetSame]
        rw [Bool.not_eq_true', Bool.not_eq_false] at hreplacement
        have hstaging : fs.staging = some inode :=
          (staging_of_replacementIsUnchanged hreplacement).trans hinode
        split at h
        next hswap =>
          simp only [if_pos hswap]
          exact ⟨sameKinds_renameSwap hrename,
            isRegular_of_replacementIsUnchanged hreplacement hstaging⟩
        · rw [result_rollBack] at h
          exact absurd h hresult

end

/-! ## A run that succeeds -/

section

variable {a : Arguments} {w : World} {fs : Fs} {s : Locals}

theorem result_stop (reason : Stop) (hresult : s.result ≠ .succeeded) :
    (w.stop reason fs s).2.result ≠ .succeeded := by
  cases reason with
  | notApplicable => exact by simp [World.stop]
  | failed => exact hresult

theorem target_stop (reason : Stop) :
    (w.stop reason fs s).1.target = fs.target ∧ (w.stop reason fs s).1.contents = fs.contents :=
  target_cleanup

/-- The state after a successful run: a regular file with the shim first is installed. -/
structure Installed (a : Arguments) (fs : Fs) (count : ℕ) (inode : Inode) : Prop where
  target_eq : fs.target = some inode
  isRegular : (fs.stat inode).isRegular = true
  size_ne : (fs.stat inode).size ≠ 0
  hasShim : HasShim a.heap (fs.contents inode) count

theorem installed_of_fillReplacement (harm64 : p.shimSlice.cpuType = cpuTypeARM64)
    (hplan : plan a w p = .ok placed) (hresult : s.result ≠ .succeeded)
    (hfd : s.temporaryFD = some w.replacement.inode)
    (h : (fillReplacement a w p.target.image.count placed fs s).2.result = .succeeded) :
    Installed a (fillReplacement a w p.target.image.count placed fs s).1 (p.target.image.count + 1)
      w.replacement.inode := by
  unfold fillReplacement at h ⊢
  split at h
  · exact absurd h (result_stop _ hresult)
  next file hbuild =>
    have hshim := hasShim_of_buildReplacement harm64 hplan hbuild
    obtain ⟨htarget, hcontents, hkinds, hregular⟩ := installed_of_commit hresult h hfd
    have hboth := hkinds.trans (@sameKinds_cleanup w.succeeds w.ctime _
      (commit w.succeeds w.ctime (w.fill fs file) s).2)
    obtain ⟨hmode, hsize⟩ := hboth w.replacement.inode
    refine ⟨target_cleanup.1.trans htarget, ?_, ?_, ?_⟩
    · unfold Fs.stat Stat.isRegular at hregular ⊢
      rw [hmode]
      exact hregular
    · unfold Fs.stat
      rw [hsize]
      simpa [World.fill] using hshim.length_ne
    · rw [target_cleanup.2, hcontents]
      simpa [World.fill] using hshim

theorem installed_of_injectStaged (harm64 : p.shimSlice.cpuType = cpuTypeARM64)
    (hresult : s.result ≠ .succeeded) (h : (injectStaged a w p fs s).2.result = .succeeded) :
    Installed a (injectStaged a w p fs s).1 (p.target.image.count + 1) w.replacement.inode := by
  unfold injectStaged createReplacement at h ⊢
  split at h
  · exact absurd h (result_stop _ hresult)
  next placed hplan =>
    split at h
    · exact absurd h (result_stop _ hresult)
    next hreplacement =>
      rw [if_neg hreplacement]
      split at h
      · exact absurd h (result_stop _ hresult)
      next hstat =>
        rw [if_neg hstat]
        exact installed_of_fillReplacement harm64 hplan hresult rfl h

/-- **A run that succeeds has installed a file with one slice more, and the shim first.** -/
theorem installed_of_inject {image : Image} (htarget : fs.target = some inode)
    (hparse : parseImage a.heap (fs.contents inode) = .ok image)
    (h : (inject a w fs).2.result = .succeeded) :
    Installed a (inject a w fs).1 (image.count + 1) w.replacement.inode := by
  have hinitial : Locals.initial.result ≠ .succeeded := by decide
  unfold inject at h ⊢
  split at h
  · exact absurd h (result_stop _ hinitial)
  next targetStat hopen =>
    have hinode : targetStat.inode = inode := by
      obtain ⟨-, hopen⟩ := ensure_bind_eq_ok.mp hopen
      rw [htarget] at hopen
      split at hopen
      next hsame =>
        obtain ⟨-, hopen⟩ := ensure_bind_eq_ok.mp hopen
        obtain ⟨-, hopen⟩ := ensure_bind_eq_ok.mp hopen
        cases hopen
        exact (Option.some.inj hsame).symm
      · simp at hopen
    split at h
    · exact absurd h (result_stop _ hinitial)
    next p hprepare =>
      obtain ⟨himage, harm64⟩ := prepare_eq_ok hprepare
      obtain rfl : p.target.image = image := by
        rw [hinode, hparse] at himage
        exact (ok.inj himage).symm
      split at h
      · exact absurd h (result_stop _ hinitial)
      next hcreate =>
        rw [if_neg hcreate]
        exact installed_of_injectStaged harm64 hinitial h

/-! ## The second run -/

/-- The calls that open the target and look at it succeed. -/
def World.opensTarget (w : World) : Bool :=
  w.setup .openParentDirectory && w.setup .openTarget && w.setup .statTarget

variable {count : ℕ}

/-- What a run makes of a file that has the shim already. -/
theorem examineTarget_of_hasShim {preserveGuestSDK : Bool} (h : HasShim heap file count) :
    examineTarget heap preserveGuestSDK file =
      .error (if count ≥ maxSlices then .failed "target executable has too many slices to add arm64"
        else .notApplicable) := by
  obtain ⟨image, slice, rest, hparse, hcount, hslices, harm64⟩ := h.shim_first
  rw [examineTarget, createMachOImage, hparse, mapError_ok, mapError_ok,
    ok_bind, hcount]
  split
  · rfl
  · rw [hslices, examineSlices, examineSlice, if_pos harm64]
    rfl

/-- A run on an installed file stops where it looks at the target. -/
theorem inject_of_installed (h : Installed a fs count inode) :
    ∃ reason s, inject a w fs = w.stop reason fs s ∧ s.result = .failed ∧
      (reason = .notApplicable ↔ w.opensTarget ∧ count < maxSlices) := by
  unfold inject
  by_cases hopens : w.opensTarget = true
  · have hopen : w.openTarget fs = .ok (fs.stat inode) := by
      simp only [World.opensTarget, Bool.and_eq_true] at hopens
      rw [World.openTarget, ensure_bind hopens.1.1, hopens.1.2, h.target_eq]
      simp only
      rw [ensure_bind hopens.2, ensure_bind (by simp [h.isRegular, h.size_ne])]
      rfl
    have hprepare : prepare a w (fs.contents inode) = .error (if count ≥ maxSlices then
          .failed "target executable has too many slices to add arm64" else .notApplicable) := by
      rw [prepare, examineTarget_of_hasShim h.hasShim]
      rfl
    simp only [hopen]
    rw [show (fs.stat inode).inode = inode from rfl, hprepare]
    refine ⟨_, _, rfl, rfl, ?_⟩
    by_cases hmany : count ≥ maxSlices
    · rw [if_pos hmany]
      exact ⟨nofun, fun hfew => absurd hmany (by omega)⟩
    · rw [if_neg hmany]
      exact ⟨fun _ => ⟨hopens, by omega⟩, fun _ => rfl⟩
  · have hopen : ∃ e, w.openTarget fs = .error e := by
      cases hresult : w.openTarget fs with
      | error e => exact ⟨e, rfl⟩
      | ok =>
        refine absurd ?_ hopens
        obtain ⟨hparent, hresult⟩ := ensure_bind_eq_ok.mp hresult
        split at hresult
        next htarget _ =>
          obtain ⟨hstat, -⟩ := ensure_bind_eq_ok.mp hresult
          rw [World.opensTarget, hparent, htarget, hstat]
          rfl
        · simp at hresult
    obtain ⟨e, hopen⟩ := hopen
    simp only [hopen]
    refine ⟨_, _, rfl, rfl, ?_⟩
    exact ⟨nofun, fun hboth => absurd hboth.1 hopens⟩

end

/-- **A second run.** After a run that succeeded, another one with the same arguments reports that
    it is not applicable and leaves every byte, exactly if it can open the file and the target had
    at most three slices. -/
theorem rerun_notApplicable_iff (a : Arguments) (first second : World) (fs : Fs) (inode : Inode)
    (image : Image) (htarget : fs.target = some inode)
    (hparse : parseImage a.heap (fs.contents inode) = .ok image)
    (hsuccess : (inject a first fs).2.result = .succeeded) :
    ((inject a second (inject a first fs).1).2.result = .notApplicable ∧
        (inject a second (inject a first fs).1).1.target = (inject a first fs).1.target ∧
        (inject a second (inject a first fs).1).1.contents = (inject a first fs).1.contents) ↔
      second.opensTarget = true ∧ image.count ≤ 3 := by
  have hinstalled := installed_of_inject htarget hparse hsuccess
  obtain ⟨reason, s, hrun, hresult, hreason⟩ := @inject_of_installed _ a second _ _ hinstalled
  have hfew : image.count + 1 < maxSlices ↔ image.count ≤ 3 := by
    simp only [maxSlices]
    omega
  rw [hfew] at hreason
  rw [hrun, ← hreason]
  constructor
  · intro h
    cases reason with
    | notApplicable => rfl
    | failed => cases hresult.symm.trans h.1
  · intro h
    subst h
    exact ⟨rfl, target_stop _⟩

/-- A FAT file with an ARM executable for each of the subtypes, with one unknown load command each.
    -/
def armTarget (subtypes : List ℕ) : List UInt8 :=
  (fatMagic :: subtypes.length :: subtypes.zipIdx.flatMap fun (subtype, index) =>
    [cpuTypeARM, subtype, 8 + 20 * subtypes.length + 36 * index, 36, 2]).flatMap encodeBig ++
  encodeWords (subtypes.flatMap fun subtype =>
    [0xFEEDFACE, cpuTypeARM, subtype, mhExecute, 1, 8, 0, 0x99, 8])

/-- A thin arm64 executable with a build version and a signature with one CodeDirectory. -/
def signedShim : File where
  bytes i := (encodeWords
    ([0xFEEDFACF, cpuTypeARM64, 0, mhExecute, 3, 112, 0, 0] ++
      [0x19, 72, 0x494C5F5F, 0x44454B4E, 0x5449, 0, 0, 0, 76, 0, 144, 0, 76, 0, 0, 0, 0, 0] ++
      [0x1D, 16, 144, 76] ++ [0x32, 24, platformIOS, iOS11Version, 0, 0]) ++
    [magicEmbeddedSignature, 76, 1, slotCodeDirectory, 20].flatMap encodeBig ++
    [magicCodeDirectory, 56, 0x20200, 0, 56, 52, 0, 0, 0].flatMap encodeBig ++
    [20, 1, 0, 0] ++ [0, 0, 54].flatMap encodeBig ++ [0x61, 0, 0x54, 0]).getD i 0
  length := 220
  length_lt := by decide

/-- The signer returns what it is given. -/
def sampleArguments : Arguments where
  heap _ := true
  digests := firstBytes
  isIOS17 := true
  preserveGuestSDK := true
  shim := signedShim
  createSigningMetadata _ _ _ := .ok ⟨[], [], smallTeam⟩
  adHocSignMachO bytes size _ :=
    if h : size < 2 ^ 63 then .ok ⟨bytes, size, h⟩ else .error "could not sign"
  containsMetadata _ _ _ := .ok ()

def sampleWorld : World where
  setup _ := true
  succeeds _ := true
  ctime _ := (1, 0)
  directory := ⟨⟨0, 0o040700, 0, 0, 0, (0, 0), (0, 0)⟩, (0, 3)⟩
  replacement := ⟨⟨0, 0o100600, 0, 0, 0, (0, 0), (0, 0)⟩, (0, 2)⟩
  metadata := ⟨0, 0o100755, 0, 0, 0, (0, 0), (0, 0)⟩
  leavesSigningFile := false

/-- A directory with the target, as inode 1. -/
def sampleFs (subtypes : List ℕ) : Fs where
  target := some (0, 1)
  stagingDirectory := none
  staging := none
  stagingHasOther := false
  attributes _ := ⟨8 + 56 * subtypes.length, 0o100755, 0, 0, 0, (0, 0), (0, 0)⟩
  contents _ := ⟨fun i => (armTarget subtypes).getD i 0, min (8 + 56 * subtypes.length) 1000,
    by omega⟩

/-- Injection into a single slice, and the second run. -/
theorem rerun_notApplicable_iff_armv7 :
    (inject sampleArguments sampleWorld
      (inject sampleArguments sampleWorld (sampleFs [9])).1).2.result = .notApplicable := by
  have hsuccess : (inject sampleArguments sampleWorld (sampleFs [9])).2.result = .succeeded := by
    decide +kernel
  have hparse : (parseImage sampleArguments.heap ((sampleFs [9]).contents (0, 1))).map (·.count) =
      .ok 1 := by
    decide +kernel
  obtain ⟨image, himage, hcount⟩ := map_eq_ok.mp hparse
  exact ((rerun_notApplicable_iff sampleArguments sampleWorld sampleWorld
    (sampleFs [9]) (0, 1) image
    rfl himage hsuccess).mpr ⟨by decide, by omega⟩).1

/-- Injection into four slices succeeds, and the second run fails. -/
theorem rerun_failed_of_four_slices :
    (inject sampleArguments sampleWorld (sampleFs [6, 9, 11, 12])).2.result = .succeeded ∧
      (inject sampleArguments sampleWorld
        (inject sampleArguments sampleWorld (sampleFs [6, 9, 11, 12])).1).2.result = .failed := by
  have hsuccess :
      (inject sampleArguments sampleWorld (sampleFs [6, 9, 11, 12])).2.result = .succeeded := by
    decide +kernel
  have hparse : (parseImage sampleArguments.heap ((sampleFs [6, 9, 11, 12]).contents
      (0, 1))).map (·.count) = .ok 4 := by
    decide +kernel
  obtain ⟨image, himage, hcount⟩ := map_eq_ok.mp hparse
  have htarget : (sampleFs [6, 9, 11, 12]).target = some (0, 1) := rfl
  have hinstalled := @installed_of_inject _ sampleArguments sampleWorld _ _ htarget himage hsuccess
  rw [hcount] at hinstalled
  obtain ⟨reason, s, hrun, hresult, hreason⟩ :=
    @inject_of_installed _ sampleArguments sampleWorld _ _ hinstalled
  refine ⟨hsuccess, ?_⟩
  rw [hrun]
  cases reason with
  | notApplicable => exact absurd (hreason.mp rfl).2 (by decide)
  | failed => exact hresult

end LiveExec32.Injection
