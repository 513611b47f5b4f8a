import LiveExec32.Filesystem.Normalize

/-! # Guest paths stay inside their mount point

A normalized path has no `..`, and a mount point is replaced at a component boundary. So the host
path is the host directory of one mount point and a rest without `..`. -/

namespace LiveExec32.Filesystem

open Paths List Mounts

theorem isSubpath_iff (target base : Path) :
    isSubpath target base ↔ ∃ rest, target = base ++ rest ∧ AtBoundary rest := by
  have hboundary : ∀ rest : Path,
      (rest.head? = none ∨ rest.head? = some '/') ↔ AtBoundary rest := by
    intro rest
    cases rest with
    | nil => simp [AtBoundary]
    | cons => simp [AtBoundary]
  unfold isSubpath
  rw [Bool.and_eq_true, isPrefixOf_iff_prefix]
  simp only [Bool.or_eq_true, decide_eq_true_eq, hboundary]
  constructor
  · rintro ⟨⟨rest, rfl⟩, hrest⟩
    rw [drop_left] at hrest
    exact ⟨rest, rfl, hrest⟩
  · rintro ⟨rest, rfl, hrest⟩
    refine ⟨prefix_append _ _, ?_⟩
    rwa [drop_left]

/-! ## Which pair is used -/

/-- The pair is not for `/`, and its left side is a prefix of `input` up to a slash. -/
def pairMatches (input : Path) (pair : Path × Path) : Bool :=
  pair.1 ≠ rootPath && isSubpath input pair.1

/-- The right side for `/`: that of the last pair for it. -/
def rootRight (default : Path) (pairs : List (Path × Path)) : Path :=
  (((pairs.filter fun pair => pair.1 = rootPath).getLast?).map Prod.snd).getD default

theorem rootRight_cons_root (default right : Path) (rest : List (Path × Path)) :
    rootRight default ((rootPath, right) :: rest) = rootRight right rest := by
  unfold rootRight
  rw [filter_cons_of_pos (by simp)]
  cases hroots : rest.filter (fun pair => pair.1 = rootPath) with
  | nil => rfl
  | cons => rfl

theorem rootRight_cons_of_ne {left : Path} (h : left ≠ rootPath) (default right : Path)
    (rest : List (Path × Path)) :
    rootRight default ((left, right) :: rest) = rootRight default rest := by
  unfold rootRight
  rw [filter_cons_of_neg (by simpa using h)]

/-- The output for a matching pair; a right side `/` is not written before a slash. -/
def replaced (pair : Path × Path) (input : Path) : Path :=
  let suffix := input.drop pair.1.length
  (if pair.2 = rootPath && suffix ≠ [] then [] else pair.2) ++ suffix

theorem translateFrom_eq (default : Path) (pairs : List (Path × Path)) (input : Path) :
    translateFrom default pairs input = match pairs.find? (pairMatches input) with
        | some pair => bounded (replaced pair input)
        | none => bounded (rootRight default pairs ++ input) := by
  induction pairs generalizing default with
  | nil => rfl
  | cons pair _ ih =>
    obtain ⟨left, right⟩ := pair
    unfold translateFrom
    by_cases hroot : left = rootPath
    · subst hroot
      rw [if_pos rfl, ih, find?_cons_of_neg (by simp [pairMatches]), rootRight_cons_root]
    · rw [if_neg hroot]
      split
      · rename_i hmatch
        rw [find?_cons_of_pos (by simp [pairMatches, hroot, hmatch])]
        rfl
      · rename_i hmatch
        rw [ih, find?_cons_of_neg (by simp [pairMatches, hmatch]), rootRight_cons_of_ne hroot]

theorem bounded_eq_ok {path output : Path} (h : bounded path = .ok output) : path = output := by
  unfold bounded at h
  split at h
  · simp at h
  · exact Except.ok.inj h

namespace Mounts

/-- The mount point for a normalized path: the first one, other than `/`, whose guest directory
    contains the path, and otherwise the last one for `/`. -/
def mountFor (mounts : Mounts) (path : Path) : Option Mount :=
  match mounts.find? (fun m => pairMatches path (m.guest, m.host)) with
  | some m => some m
  | none => (mounts.filter fun m => m.guest = rootPath).getLast?

/-- The part of `path` below the guest directory of `m`. -/
def below (m : Mount) (path : Path) : Path :=
  if m.guest = rootPath then path else path.drop m.guest.length

/-- The host path that is written for a path below `m`. -/
def hostPath (m : Mount) (path : Path) : Path :=
  if m.guest ≠ rootPath ∧ m.host = rootPath ∧ below m path ≠ [] then below m path
  else m.host ++ below m path

theorem pathLeftToRight_guestToHost {mounts : Mounts}
    (hroot : ∃ m ∈ mounts, m.guest = rootPath) {normalized output : Path}
    (h : pathLeftToRight mounts.guestToHost normalized = .ok output) :
    ∃ m, mounts.mountFor normalized = some m ∧ output = hostPath m normalized
      ∧ ∃ before, normalized = before ++ below m normalized ∧ AtBoundary (below m normalized) := by
  unfold pathLeftToRight at h
  split at h
  · simp at h
  · rename_i habsolute
    rw [translateFrom_eq, guestToHost, find?_map] at h
    unfold mountFor
    cases hfind : mounts.find? (fun m => pairMatches normalized (m.guest, m.host)) with
    | some m =>
      rw [show mounts.find? (pairMatches normalized ∘ fun m => (m.guest, m.host)) = some m
        from hfind] at h
      have hmatch := find?_some hfind
      simp only [pairMatches, Bool.and_eq_true, decide_eq_true_eq] at hmatch
      obtain ⟨rest, hrest, hboundary⟩ := (isSubpath_iff _ _).1 hmatch.2
      have hbelow : below m normalized = rest := by
        rw [below, if_neg hmatch.1, hrest, drop_left]
      refine ⟨m, rfl, ?_, m.guest, hbelow ▸ hrest, hbelow ▸ hboundary⟩
      have houtput := bounded_eq_ok h
      have hdrop : normalized.drop m.guest.length = rest := by rw [hrest, drop_left]
      simp only [replaced, hdrop] at houtput
      rw [← houtput, hostPath, hbelow]
      by_cases hhost : m.host = rootPath ∧ rest ≠ []
      · rw [if_pos (by simpa using hhost), if_pos ⟨hmatch.1, hhost⟩, nil_append]
      · rw [if_neg (by simpa using hhost), if_neg fun hall => hhost hall.2]
    | none =>
      rw [show mounts.find? (pairMatches normalized ∘ fun m => (m.guest, m.host)) = none
        from hfind] at h
      obtain ⟨root, hmem, hguest⟩ := hroot
      have hne : (mounts.filter fun m => m.guest = rootPath) ≠ [] :=
        ne_nil_of_mem (mem_filter.2 ⟨hmem, by simpa using hguest⟩)
      obtain ⟨m, hlast⟩ := Option.isSome_iff_exists.1 (getLast?_isSome.2 hne)
      have hm : m.guest = rootPath := by
        have hmem' := (mem_filter.1 (mem_of_getLast? hlast)).2
        simpa using hmem'
      have hbelow : below m normalized = normalized := if_pos hm
      refine ⟨m, hlast, ?_, [], hbelow.symm, ?_⟩
      · rw [← bounded_eq_ok h, hostPath, hbelow, if_neg fun hall => hall.1 hm, rootRight,
          filter_map, getLast?_map, Option.map_map]
        rw [show (mounts.filter ((fun pair => decide (pair.1 = rootPath)) ∘
          fun m : Mount => (m.guest, m.host))).getLast? = some m from hlast]
        rfl
      · rw [hbelow]
        cases normalized with
        | nil => exact .inl rfl
        | cons c tail =>
          have hc : c = '/' := by simpa using habsolute
          exact .inr ⟨tail, by rw [hc]⟩

end Mounts

/-! ## Confinement -/

theorem dotDot_notMem_components_normalized {input normalized : Path}
    (h : normalizeGuestAbsolutePath input = .ok normalized) :
    dotDot ∉ components normalized := by
  rw [normalize_spec h]
  have hplain := isPlain_resolve input
  generalize resolve (components input) = cs at hplain
  have hboundary : AtBoundary (ending input cs) := by
    unfold ending
    split
    · exact .inr ⟨_, rfl⟩
    · split
      · exact .inr ⟨_, rfl⟩
      · exact .inl rfl
  have hending : dotDot ∉ components (ending input cs) := by
    unfold ending
    split
    · decide
    · split
      · decide
      · decide
  rw [components_body_append (fun c hc => (hplain c hc).1) hboundary, mem_append]
  rintro (hmem | hmem)
  · exact (hplain _ hmem).2.2 rfl
  · exact hending hmem

/-- **Path confinement.** When an absolute guest path is translated, the host path is the host
    directory of the mount point for the normalized path and a rest that is empty or starts with a
    slash and has no `..`. Only before a nonempty rest, a host directory `/` is not written. So the
    host path does not leave the host directory. -/
theorem pathGuestToHost_confined (mounts : Mounts) (hroot : ∃ m ∈ mounts, m.guest = rootPath)
    (getcwd : Option Path) (path output : Path) (habsolute : path.head? = some '/')
    (h : mounts.pathGuestToHost getcwd path = .ok output) :
    ∃ normalized m, normalizeGuestAbsolutePath path = .ok normalized
      ∧ mounts.mountFor normalized = some m
      ∧ AtBoundary (below m normalized)
      ∧ dotDot ∉ components (below m normalized)
      ∧ output = (if m.guest ≠ rootPath ∧ m.host = rootPath ∧ below m normalized ≠ []
          then below m normalized else m.host ++ below m normalized)
      ∧ resolve (components m.host) <+: resolve (components output) := by
  unfold pathGuestToHost at h
  split at h
  · simp at h
  · simp only [absoluteGuestPath, habsolute, if_true] at h
    split at h
    · simp at h
    · rename_i normalized hnormalized
      obtain ⟨m, hmount, houtput, before, hsplit, hboundary⟩ :=
        pathLeftToRight_guestToHost hroot h
      have hno : dotDot ∉ components (below m normalized) := by
        have hall := dotDot_notMem_components_normalized hnormalized
        rw [hsplit, components_append before hboundary] at hall
        exact fun hmem => hall (mem_append_right _ hmem)
      refine ⟨normalized, m, hnormalized, hmount, hboundary, hno, houtput, ?_⟩
      have hcomponents : components output
          = components m.host ++ components (below m normalized) := by
        rw [houtput, hostPath]
        split
        · rename_i hbare
          rw [hbare.2.1]
          rfl
        · exact components_append _ hboundary
      rw [hcomponents, resolve_append]
      exact prefix_foldl_descend hno

/-- The mount points of the source's own test. -/
def hostRootMounts : Mounts :=
  [⟨"/var/mobile".toList, "/var/tmp".toList⟩, ⟨"/rootfs".toList, rootPath⟩,
    ⟨rootPath, "/var/mobile/rootfs".toList⟩]

theorem pathGuestToHost_confined_test :
    (∃ m ∈ hostRootMounts, m.guest = rootPath)
      ∧ resolve (components "/var/tmp".toList) <+: resolve (components "/var/tmp/a".toList) := by
  refine ⟨by decide, ?_⟩
  obtain ⟨normalized, m, hnormalized, hmount, -, -, -, hinside⟩ :=
    pathGuestToHost_confined hostRootMounts (by decide) none "/var/mobile/../mobile/a".toList
      "/var/tmp/a".toList (by decide) (by decide)
  obtain rfl : normalized = "/var/mobile/a".toList :=
    Except.ok.inj (hnormalized.symm.trans (by decide))
  obtain rfl : m = ⟨"/var/mobile".toList, "/var/tmp".toList⟩ :=
    Option.some.inj (hmount.symm.trans (by decide))
  exact hinside

/-- Below the host directory `/` the rest is written alone. -/
theorem hostRoot_writtenAlone :
    hostRootMounts.pathGuestToHost none "/rootfs/a".toList = .ok "/a".toList
      ∧ (hostRootMounts.mountFor "/rootfs/a".toList).map Mount.host = some rootPath
      ∧ ¬ ∃ rest, "/a".toList = rootPath ++ rest ∧ AtBoundary rest := by
  refine ⟨by decide, by decide, ?_⟩
  rintro ⟨rest, heq, hboundary⟩
  have heq : ['/'] ++ ['a'] = ['/'] ++ rest := heq
  obtain rfl := append_cancel_left heq
  rcases hboundary with hnil | ⟨tail, htail⟩
  · simp at hnil
  · simp at htail

end LiveExec32.Filesystem
