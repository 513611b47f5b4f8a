import LiveExec32.Injection.Commit

/-! # The original executable is never lost

The cleanup never touches the target's name (`target_cleanup`), and it touches nothing at all once
the staging directory is to be preserved (`cleanup_of_preserve`). So what counts is where the commit
leaves the two files, and what it says about them (`Outcome`). -/

namespace LiveExec32.Injection

open MachO

section

variable {succeeds : Call → Bool} {ctime : Call → ℕ × ℕ} {fs : Fs} {s : Locals}

/-! ## Cleanup -/

theorem target_clearTemporaryRestrictiveFlags (inode : Inode) :
    (clearTemporaryRestrictiveFlags succeeds ctime fs inode).target = fs.target ∧
      (clearTemporaryRestrictiveFlags succeeds ctime fs inode).contents = fs.contents := by
  unfold clearTemporaryRestrictiveFlags
  split
  · exact ⟨rfl, rfl⟩
  · simp only
    split <;> exact ⟨rfl, rfl⟩

theorem target_removeStaged (inode : Inode) :
    (removeStaged succeeds ctime fs inode).target = fs.target ∧
      (removeStaged succeeds ctime fs inode).contents = fs.contents := by
  have hclear := @target_clearTemporaryRestrictiveFlags succeeds ctime fs inode
  unfold removeStaged
  simp only
  split
  · exact hclear
  · split <;> exact hclear

theorem target_removeStagingDirectory : (removeStagingDirectory succeeds fs s).target = fs.target ∧
      (removeStagingDirectory succeeds fs s).contents = fs.contents := by
  unfold removeStagingDirectory
  split
  · exact ⟨rfl, rfl⟩
  · split <;> exact ⟨rfl, rfl⟩

theorem target_cleanStagingDirectory :
    (cleanStagingDirectory succeeds ctime fs s).target = fs.target ∧
      (cleanStagingDirectory succeeds ctime fs s).contents = fs.contents := by
  unfold cleanStagingDirectory
  split
  · split
    · exact target_removeStaged _
    · exact ⟨rfl, rfl⟩
  · exact ⟨rfl, rfl⟩

/-- **The cleanup leaves the target's name and every file's contents.** -/
theorem target_cleanup : (cleanup succeeds ctime fs s).target = fs.target ∧
      (cleanup succeeds ctime fs s).contents = fs.contents := by
  unfold cleanup
  split
  · rw [target_removeStagingDirectory.1, target_removeStagingDirectory.2]
    exact target_cleanStagingDirectory
  · exact target_cleanStagingDirectory

/-- A staging directory that is to be preserved is left as it is. -/
theorem cleanup_of_preserve (h : s.preserveStagingDirectory) :
    cleanup succeeds ctime fs s = fs := by
  simp [cleanup, cleanStagingDirectory, h]

/-! ## Commit -/

variable {call : Call}

theorem statOf_eq_some {file : Option Inode} {stat : Stat}
    (h : statOf succeeds call fs file = some stat) : file = some stat.inode := by
  unfold statOf at h
  split at h
  · obtain ⟨inode, hinode, rfl⟩ := Option.map_eq_some_iff.mp h
    exact hinode
  · simp at h

/-- The name in the staging directory is the file that was verified. -/
theorem staging_of_replacementIsUnchanged (h : replacementIsUnchanged succeeds fs s) :
    fs.staging = s.temporaryFD := by
  unfold replacementIsUnchanged at h
  split at h
  next replacementStat replacementPathStat hreplacement hpath =>
    rw [Bool.and_eq_true, sameFileState, beq_iff_eq] at h
    rw [statOf_eq_some hreplacement, statOf_eq_some hpath, h.2]
  · simp at h

/-- A swap exchanges the names and leaves everything else. -/
theorem renameSwap_eq_some {fs' : Fs} (h : renameSwap succeeds ctime call fs = some fs') :
    fs'.staging = fs.target ∧ fs'.target = fs.staging ∧
      fs'.stagingDirectory = fs.stagingDirectory ∧ fs'.contents = fs.contents := by
  unfold renameSwap at h
  split at h
  next staged installed _ hstaged hinstalled =>
    cases h
    exact ⟨hinstalled.symm, hstaged.symm, rfl, rfl⟩
  · simp at h

/-- The errors of a swap that was not undone, or not verifiably. -/
def rollbackErrors : List String :=
  ["target changed during replacement; rollback was not safe",
    "target changed during replacement and rollback failed",
    "target changed during replacement; rollback could not be verified"]

/-- Where the commit leaves the two files. -/
inductive Outcome (fs : Fs) (original replacement : Option Inode) (s : Locals) : Prop
  /-- The replacement is installed. -/
  | installed (hresult : s.result = .succeeded) (htarget : fs.target = replacement)
  /-- The original is installed. -/
  | unchanged (hresult : s.result ≠ .succeeded) (htarget : fs.target = original)
  /-- The original is in the staging directory, and that is preserved. -/
  | preserved (hresult : s.result ≠ .succeeded) (hstaging : fs.staging = original)
      (hpreserve : s.preserveStagingDirectory = true) (herror : s.error ∈ rollbackErrors)

theorem outcome_rollBack (hresult : s.result ≠ .succeeded) :
    Outcome (rollBack succeeds ctime fs s).1 fs.staging fs.target (rollBack succeeds ctime fs s).2 ∧
      (rollBack succeeds ctime fs s).1.stagingDirectory = fs.stagingDirectory ∧
      (rollBack succeeds ctime fs s).1.contents = fs.contents := by
  unfold rollBack
  split
  · exact ⟨.preserved hresult rfl rfl (by simp [rollbackErrors]), rfl, rfl⟩
  · split
    · exact ⟨.preserved hresult rfl rfl (by simp [rollbackErrors]), rfl, rfl⟩
    next fs' hrename =>
      obtain ⟨-, htarget, hdirectory, hcontents⟩ := renameSwap_eq_some hrename
      split
      · exact ⟨.unchanged hresult htarget, hdirectory, hcontents⟩
      · exact ⟨.unchanged hresult htarget, hdirectory, hcontents⟩

/-- **Where the commit leaves the two files.** -/
theorem outcome_commit (hresult : s.result ≠ .succeeded) :
    Outcome (commit succeeds ctime fs s).1 fs.target s.temporaryFD (commit succeeds ctime fs s).2 ∧
      (commit succeeds ctime fs s).1.stagingDirectory = fs.stagingDirectory ∧
      (commit succeeds ctime fs s).1.contents = fs.contents := by
  unfold commit
  simp only
  split
  · exact ⟨.unchanged hresult rfl, rfl, rfl⟩
  next hreplacement =>
    split
    · exact ⟨.unchanged hresult rfl, rfl, rfl⟩
    · split
      · exact ⟨.unchanged hresult rfl, rfl, rfl⟩
      next fs' hrename =>
        obtain ⟨hstaging, htarget, hdirectory, hcontents⟩ := renameSwap_eq_some hrename
        have hverified : fs.staging = s.temporaryFD := by
          rw [Bool.not_eq_true', Bool.not_eq_false] at hreplacement
          exact staging_of_replacementIsUnchanged hreplacement
        split
        · exact ⟨.installed rfl (by rw [htarget, hverified]), hdirectory, hcontents⟩
        · rw [← hdirectory, ← hcontents, ← hstaging, ← hverified, ← htarget]
          exact outcome_rollBack hresult

/-- Before the swap nothing has changed. -/
theorem commit_of_not_swapped (h : (replacementIsUnchanged succeeds fs s &&
    targetIsUnchanged succeeds fs s && (renameSwap succeeds ctime .renameSwap fs).isSome) = false) :
    (commit succeeds ctime fs s).1 = fs := by
  unfold commit
  simp only
  split
  · rfl
  next hreplacement =>
    split
    · rfl
    next htarget =>
      split
      · rfl
      next fs' hrename =>
        rw [Bool.not_eq_true', Bool.not_eq_false] at hreplacement htarget
        have hall : (replacementIsUnchanged succeeds fs s && targetIsUnchanged succeeds fs s &&
            (renameSwap succeeds ctime .renameSwap fs).isSome) := by
          rw [hrename, Bool.and_eq_true, Bool.and_eq_true]
          exact ⟨⟨hreplacement, htarget⟩, rfl⟩
        cases hall.symm.trans h

end

/-! ## Result -/

/-- The cleanup keeps an outcome. -/
theorem Outcome.cleanup {succeeds : Call → Bool} {ctime : Call → ℕ × ℕ} {fs : Fs}
    {original replacement : Option Inode} {s : Locals} (h : Outcome fs original replacement s) :
    Outcome (cleanup succeeds ctime fs s) original replacement s := by
  cases h with
  | installed hresult htarget => exact .installed hresult (target_cleanup.1.trans htarget)
  | unchanged hresult htarget => exact .unchanged hresult (target_cleanup.1.trans htarget)
  | preserved hresult hstaging hpreserve herror =>
    rw [cleanup_of_preserve hpreserve]
    exact .preserved hresult hstaging hpreserve herror

/-- What the function leaves behind. -/
theorem Entry.outcome (entry : Entry) (succeeds : Call → Bool) (ctime : Call → ℕ × ℕ) :
    Outcome (entry.run succeeds ctime).1 (some entry.original) (some entry.replacement)
        (entry.run succeeds ctime).2 ∧
      ((entry.run succeeds ctime).2.preserveStagingDirectory → entry.commits ∧
          (entry.run succeeds ctime).1.stagingDirectory = entry.fs.stagingDirectory) ∧
      (entry.run succeeds ctime).1.contents = entry.fs.contents := by
  unfold Entry.run
  by_cases hcommits : entry.commits = true
  · obtain ⟨houtcome, hdirectory, hcontents⟩ :=
      @outcome_commit succeeds ctime entry.fs entry.locals entry.result_ne
    rw [entry.target_eq, entry.temporary_eq hcommits] at houtcome
    simp only [hcommits, if_true]
    refine ⟨houtcome.cleanup, fun hpreserve => ⟨trivial, ?_⟩, target_cleanup.2.trans hcontents⟩
    rw [cleanup_of_preserve hpreserve]
    exact hdirectory
  · simp only [if_neg hcommits]
    refine ⟨.unchanged entry.result_ne (target_cleanup.1.trans entry.target_eq),
      fun hpreserve => ?_,
      target_cleanup.2⟩
    rw [entry.preserve_eq] at hpreserve
    simp at hpreserve

/-- **The original executable is never lost.** A run that succeeds has installed the replacement;
    after any other the original is under the target's name, or in the staging directory, which then
    stays. -/
theorem original_never_lost (entry : Entry) (succeeds : Call → Bool) (ctime : Call → ℕ × ℕ) :
    ((entry.run succeeds ctime).2.result = .succeeded →
      (entry.run succeeds ctime).1.target = some entry.replacement) ∧
    ((entry.run succeeds ctime).2.result ≠ .succeeded →
      (entry.run succeeds ctime).1.target = some entry.original ∨
        ((entry.run succeeds ctime).1.staging = some entry.original ∧
          (entry.run succeeds ctime).1.stagingDirectory = entry.fs.stagingDirectory ∧
          entry.fs.stagingDirectory ≠ none ∧
          (entry.run succeeds ctime).2.error ∈ rollbackErrors)) ∧
    (entry.swapped succeeds ctime = false →
      (entry.run succeeds ctime).1.target = some entry.original) ∧
    (entry.run succeeds ctime).1.contents = entry.fs.contents := by
  obtain ⟨houtcome, hdirectory, hcontents⟩ := entry.outcome succeeds ctime
  refine ⟨fun hsucceeded => ?_, fun hother => ?_, fun hswapped => ?_, hcontents⟩
  · cases houtcome with
    | installed _ htarget => exact htarget
    | unchanged hresult => exact absurd hsucceeded hresult
    | preserved hresult => exact absurd hsucceeded hresult
  · cases houtcome with
    | installed hresult => exact absurd hresult hother
    | unchanged _ htarget => exact .inl htarget
    | preserved _ hstaging hpreserve herror =>
      obtain ⟨hcommits, hsame⟩ := hdirectory hpreserve
      exact .inr ⟨hstaging, hsame, entry.directory_ne hcommits, herror⟩
  · rw [← entry.target_eq]
    unfold Entry.run
    by_cases hcommits : entry.commits = true
    · simp only [Entry.swapped, hcommits, Bool.true_and] at hswapped
      simp only [hcommits, if_true]
      rw [target_cleanup.1, commit_of_not_swapped hswapped]
    · simp only [if_neg hcommits]
      exact target_cleanup.1

/-- The commit of a replacement with inode 2 for a target with inode 1. -/
def sampleEntry : Entry :=
  let attributes : Inode → Attributes := fun inode =>
    ⟨36, if inode = (0, 3) then 0o040700 else 0o100755, 0, 0, 0, (0, 0), (0, 0)⟩
  { fs := ⟨some (0, 1), some (0, 3), some (0, 2), false, attributes,
      fun _ => ⟨fun _ => 0, 36, by decide⟩⟩
    locals :=
      { replacementIdentityIsKnown := true
        targetStat := ⟨attributes (0, 1), (0, 1)⟩
        replacementStat := ⟨attributes (0, 2), (0, 2)⟩
        stagingDirectoryStat := ⟨attributes (0, 3), (0, 3)⟩
        targetFD := some (0, 1)
        temporaryFD := some (0, 2)
        stagingDirectoryIsOpen := true
        parentDirectoryIsOpen := true
        stagingDirectoryHasPath := true }
    original := (0, 1)
    replacement := (0, 2)
    commits := true
    target_eq := rfl
    result_ne := by decide
    preserve_eq := rfl
    staging_eq := rfl
    temporary_eq := fun _ => rfl
    directory_ne := fun _ => by decide }

example : (sampleEntry.run (fun _ => true) fun _ => (1, 0)).2.result = .succeeded := by decide

example : (sampleEntry.run (fun call => call != .fstatOriginal .swap && call != .renameRollback)
    fun _ => (1, 0)).1.staging = some (0, 1) := by decide

end LiveExec32.Injection
