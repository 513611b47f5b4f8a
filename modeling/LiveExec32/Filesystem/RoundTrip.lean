import LiveExec32.Filesystem.Confinement
import LiveExec32.Lib.PrefixTable

/-! # From guest to host and back

Relative paths, `readlink` and `F_GETPATH` translate a host path back to a guest path. Both
directions search the mount points in the order in which they were added, one by the guest
directories and the other by the host directories, so with overlapping mount points they may settle
on different ones.

For mount points with canonical directories both translations are the replacement of a prefix of
components (`PrefixTable`). `roundTrip_iff` says when a host path comes back: the mount point whose
host directory is found for it and the one whose guest directory is found for the path that results
agree. When already the mount point of the guest path and that of its host path agree, the host path
comes back, and relative paths mean what they should. -/

namespace LiveExec32.Filesystem

open Paths List PrefixTable

/-! ## Canonical paths -/

/-- What `realpath` returns: an absolute path of plain components, without a slash at the end. -/
def IsCanonical (path : Path) : Prop :=
  path = written (components path) ∧ ∀ c ∈ components path, IsPlain c

instance : DecidablePred IsCanonical := fun path =>
  inferInstanceAs (Decidable (path = written (components path) ∧ ∀ c ∈ components path, IsPlain c))

variable {pairs : List (Path × Path)} {cs : List Path} {getcwd : Option Path} {path output : Path}

theorem IsCanonical.eq_root_iff (h : IsCanonical path) :
    path = rootPath ↔ components path = [] := by
  constructor
  · rintro rfl
    rfl
  · intro hnil
    rw [h.1, hnil]
    rfl

theorem IsCanonical.eq_body (h : IsCanonical path) (hne : path ≠ rootPath) :
    path = body (components path) := by
  have hcs : components path ≠ [] := fun hnil => hne (h.eq_root_iff.2 hnil)
  have hwritten := h.1
  rwa [written, if_neg hcs] at hwritten

/-! ## Translation by components -/

/-- The empty path is written as `/`. -/
def rooted (path : Path) : Path := if path = [] then rootPath else path

/-- A table of canonical directories that does not map `/` to `/`. -/
def PairsCanonical (pairs : List (Path × Path)) : Prop :=
  ∀ pair ∈ pairs, IsCanonical pair.1 ∧ IsCanonical pair.2
    ∧ ¬ (pair.1 = rootPath ∧ pair.2 = rootPath)

def componentPairs (pairs : List (Path × Path)) : List (List Path × List Path) :=
  pairs.map fun pair => (components pair.1, components pair.2)

theorem isSubpath_shape (h : ∀ c ∈ cs, IsPlain c) {ending : Path} (hending : IsEnding ending)
    {base : Path} (hbase : IsCanonical base) (hne : base ≠ rootPath) :
    isSubpath (body cs ++ ending) base ↔ components base <+: cs := by
  rw [isSubpath_iff]
  constructor
  · rintro ⟨rest, heq, hboundary⟩
    have hcomponents := congrArg components heq
    rw [components_shape h hending, components_append base hboundary] at hcomponents
    rcases hending.components with hnone | hdot
    · rw [hnone, append_nil] at hcomponents
      exact ⟨_, hcomponents.symm⟩
    · -- the components of the directory are plain, so they do not reach the last dot
      rw [hdot] at hcomponents
      have hprefix : components base <+: cs ++ [dot] := ⟨_, hcomponents.symm⟩
      rcases prefix_concat_iff.1 hprefix with hall | hcs
      · exact absurd rfl (hbase.2 dot (by rw [hall]; simp)).2.1
      · exact hcs
  · rintro ⟨rest, rfl⟩
    refine ⟨body rest ++ ending, ?_, atBoundary_body_append rest hending.atBoundary⟩
    conv_rhs => rw [hbase.eq_body hne]
    rw [body_append, append_assoc]

theorem rooted_of_ne (h : path ≠ []) : rooted path = path := if_neg h

@[simp] theorem components_rootPath : components rootPath = [] := rfl

/-- A matching directory is replaced. -/
theorem replaced_shape {left right : Path} (hleft : IsCanonical left) (hne : left ≠ rootPath)
    (hright : IsCanonical right) (rest : List Path) (ending : Path) :
    replaced (left, right) (body (components left ++ rest) ++ ending)
      = rooted (body (components right ++ rest) ++ ending) := by
  have hdrop :
      (body (components left ++ rest) ++ ending).drop left.length = body rest ++ ending := by
    conv_lhs => rw [hleft.eq_body hne]
    rw [components_body fun c hc => (hleft.2 c hc).1, body_append, append_assoc, drop_left]
  simp only [replaced, hdrop]
  by_cases hroot : right = rootPath
  · subst hroot
    by_cases hempty : body rest ++ ending = []
    · simp [hempty, rooted]
    · simp [hempty, rooted]
  · have hcs : components right ≠ [] := fun hnil => hroot (hright.eq_root_iff.2 hnil)
    have hnonempty : body (components right ++ rest) ++ ending ≠ [] :=
      shape_ne_nil fun hnil => hcs (append_eq_nil_iff.1 hnil.1).1
    rw [if_neg (by simp [hroot]), rooted_of_ne hnonempty, body_append, append_assoc,
      ← hright.eq_body hroot]

theorem translateFrom_shape (hpairs : PairsCanonical pairs) (hplain : ∀ c ∈ cs, IsPlain c)
    {ending : Path} (hending : IsEnding ending) (hne : ¬ (cs = [] ∧ ending = []))
    (root : List Path) :
    translateFrom (body root) pairs (body cs ++ ending) = bounded (rooted (body
          ((selectFrom ([], root) (componentPairs pairs) cs).2
            ++ cs.drop (selectFrom ([], root) (componentPairs pairs) cs).1.length)
          ++ ending)) := by
  induction pairs generalizing root with
  | nil =>
    have hnonempty : body (root ++ cs) ++ ending ≠ [] :=
      shape_ne_nil fun hnil => hne ⟨(append_eq_nil_iff.1 hnil.1).2, hnil.2⟩
    show bounded (body root ++ (body cs ++ ending)) = bounded (rooted (body (root ++ cs) ++ ending))
    rw [rooted_of_ne hnonempty, body_append, append_assoc]
  | cons pair _ ih =>
    obtain ⟨left, right⟩ := pair
    obtain ⟨hleft, hright, hroots⟩ := hpairs (left, right) mem_cons_self
    have ih := ih fun pair hpair => hpairs pair (mem_cons_of_mem _ hpair)
    unfold translateFrom
    simp only [componentPairs, map_cons, selectFrom] at ih ⊢
    by_cases hroot : left = rootPath
    · have hbody : right = body (components right) :=
        hright.eq_body fun h => hroots ⟨hroot, h⟩
      have hnil := hleft.eq_root_iff.1 hroot
      rw [if_pos hroot, if_pos hnil, hnil]
      conv_lhs => rw [hbody]
      exact ih (components right)
    · have hcs : components left ≠ [] := fun hnil => hroot (hleft.eq_root_iff.2 hnil)
      rw [if_neg hroot, if_neg hcs]
      by_cases hprefix : components left <+: cs
      · rw [if_pos ((isSubpath_shape hplain hending hleft hroot).2 hprefix), if_pos hprefix]
        obtain ⟨below, rfl⟩ := hprefix
        rw [drop_left, ← replaced_shape hleft hroot hright below ending]
        rfl
      · have hno : ¬ isSubpath (body cs ++ ending) left := fun hsub =>
          hprefix ((isSubpath_shape hplain hending hleft hroot).1 hsub)
        rw [if_neg hno, if_neg hprefix]
        exact ih root

theorem pathLeftToRight_shape (hpairs : PairsCanonical pairs) (hplain : ∀ c ∈ cs, IsPlain c)
    {ending : Path} (hending : IsEnding ending) (hne : ¬ (cs = [] ∧ ending = []))
    (h : pathLeftToRight pairs (body cs ++ ending) = .ok output) :
    output = rooted (body (PrefixTable.translate (componentPairs pairs) cs) ++ ending) := by
  unfold pathLeftToRight at h
  split at h
  · simp at h
  · rw [show ([] : Path) = body [] from rfl, translateFrom_shape hpairs hplain hending hne] at h
    exact (bounded_eq_ok h).symm

/-! ## The round trip -/

namespace Mounts

/-- Every directory is canonical, and the guest's `/` is not the host's. -/
def Canonical (mounts : Mounts) : Prop :=
  ∀ m ∈ mounts, IsCanonical m.guest ∧ IsCanonical m.host
    ∧ ¬ (m.guest = rootPath ∧ m.host = rootPath)

instance (mounts : Mounts) : Decidable mounts.Canonical :=
  inferInstanceAs (Decidable (∀ m ∈ mounts, IsCanonical m.guest ∧ IsCanonical m.host
    ∧ ¬ (m.guest = rootPath ∧ m.host = rootPath)))

/-- The guest and host directories as components. -/
def table (mounts : Mounts) : List (List Path × List Path) :=
  mounts.map fun m => (components m.guest, components m.host)

variable {mounts : Mounts}

theorem Canonical.guestToHost (h : mounts.Canonical) : PairsCanonical mounts.guestToHost := by
  intro pair hpair
  obtain ⟨m, hm, rfl⟩ := mem_map.1 hpair
  exact h m hm

theorem Canonical.hostToGuest (h : mounts.Canonical) : PairsCanonical mounts.hostToGuest := by
  intro pair hpair
  obtain ⟨m, hm, rfl⟩ := mem_map.1 hpair
  obtain ⟨hguest, hhost, hroots⟩ := h m hm
  exact ⟨hhost, hguest, fun hboth => hroots ⟨hboth.2, hboth.1⟩⟩

theorem componentPairs_guestToHost (mounts : Mounts) :
    componentPairs mounts.guestToHost = mounts.table := by
  simp [componentPairs, Mounts.guestToHost, table]

theorem componentPairs_hostToGuest (mounts : Mounts) :
    componentPairs mounts.hostToGuest = PrefixTable.swap mounts.table := by
  simp [componentPairs, Mounts.hostToGuest, table, PrefixTable.swap]

end Mounts

/-- The replacement of plain directories keeps components plain. -/
theorem isPlain_translate (hpairs : PairsCanonical pairs) (hplain : ∀ c ∈ cs, IsPlain c) :
    ∀ c ∈ PrefixTable.translate (componentPairs pairs) cs, IsPlain c := by
  intro c hc
  rcases mem_translate hc with ⟨pair, hpair, hmem⟩ | hmem
  · obtain ⟨pair', hpair', rfl⟩ := mem_map.1 hpair
    exact (hpairs pair' hpair').2.1.2 c hmem
  · exact hplain c hmem

/-- The end of the path that is written for these components: `/` if nothing else is there. -/
def rootedEnding (cs : List Path) (ending : Path) : Path :=
  if cs = [] ∧ ending = [] then ['/'] else ending

theorem rooted_shape (cs : List Path) (ending : Path) :
    rooted (body cs ++ ending) = body cs ++ rootedEnding cs ending := by
  unfold rooted rootedEnding
  by_cases hboth : cs = [] ∧ ending = []
  · rw [if_pos hboth, hboth.1, hboth.2]
    rfl
  · rw [if_neg hboth, if_neg (shape_ne_nil hboth)]

theorem isEnding_rootedEnding (cs : List Path) {ending : Path} (h : IsEnding ending) :
    IsEnding (rootedEnding cs ending) := by
  unfold rootedEnding
  split
  · exact .inr (.inl rfl)
  · exact h

theorem rootedEnding_ne_nil (cs : List Path) (ending : Path) :
    ¬ (cs = [] ∧ rootedEnding cs ending = []) := by
  unfold rootedEnding
  split
  · simp
  · next hboth => exact hboth

namespace Shape

theorem translate (hpairs : PairsCanonical pairs) {ending : Path} (h : Shape path cs ending)
    (houtput : pathLeftToRight pairs path = .ok output) :
    Shape output (PrefixTable.translate (componentPairs pairs) cs)
      (rootedEnding (PrefixTable.translate (componentPairs pairs) cs) ending) := by
  refine ⟨?_, isPlain_translate hpairs h.plain, isEnding_rootedEnding _ h.isEnding,
    rootedEnding_ne_nil _ _⟩
  rw [h.eq] at houtput
  rw [← rooted_shape]
  exact pathLeftToRight_shape hpairs h.plain h.isEnding h.nonempty houtput

end Shape

namespace Mounts

variable {mounts : Mounts}

/-- The host path of an absolute guest path. -/
theorem shape_pathGuestToHost (hmounts : mounts.Canonical) (habsolute : path.head? = some '/')
    (h : mounts.pathGuestToHost getcwd path = .ok output) :
    Shape output (PrefixTable.translate mounts.table (resolve (components path)))
      (rootedEnding (PrefixTable.translate mounts.table (resolve (components path)))
        (ending path (resolve (components path)))) := by
  unfold pathGuestToHost at h
  split at h
  · simp at h
  · simp only [absoluteGuestPath, habsolute, if_true] at h
    split at h
    · simp at h
    · rename_i normalized hnormalized
      rw [← componentPairs_guestToHost]
      exact (Shape.normalized hnormalized).translate hmounts.guestToHost h

/-- The guest path of a host path. -/
theorem shape_pathHostToGuest (hmounts : mounts.Canonical) {ending : Path}
    (hpath : Shape path cs ending) (h : mounts.pathHostToGuest path = .ok output) :
    Shape output (PrefixTable.translate (PrefixTable.swap mounts.table) cs)
      (rootedEnding (PrefixTable.translate (PrefixTable.swap mounts.table) cs) ending) := by
  rw [← componentPairs_hostToGuest]
  exact hpath.translate hmounts.hostToGuest h

variable {host guest : Path}

theorem comesBack_iff (hmounts : mounts.Canonical) {ending' : Path}
    (hhost : Shape host cs ending') {back : Path} (hguest : mounts.pathHostToGuest host = .ok guest)
    (hback : mounts.pathGuestToHost getcwd guest = .ok back) :
    back = host ↔
      PrefixTable.translate mounts.table (PrefixTable.translate (swap mounts.table) cs) = cs
        ∧ ¬ (PrefixTable.translate (swap mounts.table) cs = [] ∧ host = body cs) := by
  have hguest' := shape_pathHostToGuest hmounts hhost hguest
  have hback' := shape_pathGuestToHost hmounts hguest'.head? hback
  have hending := ending_shape hguest'.plain hguest'.isEnding hguest'.nonempty
  rw [← hguest'.eq] at hending
  rw [hguest'.resolve_eq, hending] at hback'
  generalize PrefixTable.translate (swap mounts.table) cs = guestCs at hback' ⊢
  -- the host path without an end is written back with one only if its guest path is `/`
  have hend : rootedEnding cs (rootedEnding guestCs ending') = ending'
      ↔ ¬ (guestCs = [] ∧ host = body cs) := by
    have hbody : host = body cs ↔ ending' = [] := by
      rw [hhost.eq]
      simp
    rw [hbody]
    by_cases hbare : guestCs = [] ∧ ending' = []
    · simp [rootedEnding, hbare]
    · have hsame : rootedEnding guestCs ending' = ending' := if_neg hbare
      rw [hsame]
      exact iff_of_true (if_neg hhost.nonempty) hbare
  constructor
  · intro heq
    obtain ⟨hcs, hends⟩ := shape_inj hback'.plain hhost.plain hback'.isEnding hhost.isEnding
      (hback'.eq.symm.trans (heq.trans hhost.eq))
    rw [hcs] at hends
    exact ⟨hcs, hend.1 hends⟩
  · intro ⟨hcs, hbare⟩
    rw [hcs] at hback'
    rw [hback'.eq, hend.2 hbare]
    exact hhost.eq.symm

/-! ## Relative paths -/

theorem components_ne_nil (hne : path ≠ []) (hrelative : path.head? ≠ some '/') :
    components path ≠ [] := by
  rcases Normalizer.components_takeWhile hrelative with ⟨hnil, -⟩ | ⟨-, hcomponents⟩
  · exact absurd hnil hne
  · rw [hcomponents]
    simp

/-- What is behind a relative path does not depend on the directory before it. -/
theorem ending_join (hne : path ≠ []) (hrelative : path.head? ≠ some '/') (directory : Path)
    (cs : List Path) : ending (directory ++ '/' :: path) cs = ending path cs := by
  have hcomponents := components_ne_nil hne hrelative
  have hterminal : terminalComponent (directory ++ '/' :: path) = terminalComponent path := by
    rw [terminalComponent_eq, terminalComponent_eq, components_append_slash,
      getLast?_append_of_ne_nil _ hcomponents]
  have hlast : (directory ++ '/' :: path).getLast? = path.getLast? := by
    rw [getLast?_append_of_ne_nil _ (by simp), getLast?_cons_of_ne_nil hne]
  unfold ending preserveTerminalDirectoryComponent
  rw [hterminal, hlast]

theorem normalize_join {directory normalized : Path} (hne : path ≠ [])
    (hrelative : path.head? ≠ some '/')
    (h : normalizeGuestAbsolutePath (directory ++ '/' :: path) = .ok normalized) :
    normalized = body ((components path).foldl descend (resolve (components directory)))
      ++ ending path ((components path).foldl descend (resolve (components directory))) := by
  rw [normalize_spec h, components_append_slash, resolve_append, ending_join hne hrelative]

/-- The working directory that the host reports after changing to a directory, when no symbolic link
    is on the way. -/
def workingDirectory (host : Path) : Path := written (resolve (components host))

theorem shape_workingDirectory (host : Path) :
    Shape (workingDirectory host) (resolve (components host))
      (rootedEnding (resolve (components host)) []) := by
  refine ⟨?_, isPlain_resolve host, isEnding_rootedEnding _ (.inl rfl), rootedEnding_ne_nil _ _⟩
  rw [← rooted_shape, append_nil]
  unfold workingDirectory written rooted
  by_cases hnil : resolve (components host) = []
  · simp [hnil]
  · have hne : body (resolve (components host)) ≠ [] := by
      simpa using @shape_ne_nil _ [] (fun hboth => hnil hboth.1)
    rw [if_neg hnil, if_neg hne]

/-- A path that is not empty goes through the normalizer. -/
theorem pathGuestToHost_cases (h : mounts.pathGuestToHost getcwd path = .ok output) :
    ∃ guestPath normalized, mounts.absoluteGuestPath getcwd path = .ok guestPath
      ∧ normalizeGuestAbsolutePath guestPath = .ok normalized
      ∧ pathLeftToRight mounts.guestToHost normalized = .ok output := by
  unfold pathGuestToHost at h
  split at h
  · simp at h
  · split at h
    · simp at h
    · rename_i guestPath hguestPath
      split at h
      · simp at h
      · next normalized hnormalized => exact ⟨guestPath, normalized, hguestPath, hnormalized, h⟩

theorem absoluteGuestPath_relative {cwd guestPath : Path} (hrelative : path.head? ≠ some '/')
    (h : mounts.absoluteGuestPath (some cwd) path = .ok guestPath) :
    ∃ guestCWD, mounts.pathHostToGuest cwd = .ok guestCWD
      ∧ guestPath = guestCWD ++ '/' :: path := by
  unfold absoluteGuestPath at h
  rw [if_neg hrelative] at h
  simp only at h
  split at h
  · simp at h
  · rename_i guestCWD hcwd
    refine ⟨guestCWD, hcwd, ?_⟩
    rw [← bounded_eq_ok h, append_assoc, singleton_append]

theorem relative_eq (hmounts : mounts.Canonical) (habsolute : guest.head? = some '/')
    (hguest : PrefixTable.translate (swap mounts.table) (resolve (components host))
      = resolve (components guest))
    (hne : path ≠ []) (hrelative : path.head? ≠ some '/') {relative joined : Path}
    (h : mounts.pathGuestToHost (some (workingDirectory host)) path = .ok relative)
    (h' : mounts.pathGuestToHost getcwd (guest ++ '/' :: path) = .ok joined) :
    relative = joined := by
  obtain ⟨guestPath, normalized, hguestPath, hnormalized, hrelative'⟩ := pathGuestToHost_cases h
  obtain ⟨guestCWD, hcwd, rfl⟩ := absoluteGuestPath_relative hrelative hguestPath
  obtain ⟨guestPath', normalized', hguestPath', hnormalized', hjoined⟩ := pathGuestToHost_cases h'
  -- both paths are a directory with the same components, followed by the relative path
  have hdirectory : resolve (components guestCWD) = resolve (components guest) :=
    (shape_pathHostToGuest hmounts (shape_workingDirectory host) hcwd).resolve_eq.trans hguest
  have habsolute' : (guest ++ '/' :: path).head? = some '/' := by
    cases guest with
    | nil => simp at habsolute
    | cons => exact habsolute
  unfold absoluteGuestPath at hguestPath'
  rw [if_pos habsolute', Except.ok.injEq] at hguestPath'
  subst hguestPath'
  have hsameNormal : normalized = normalized' := by
    rw [normalize_join hne hrelative hnormalized, normalize_join hne hrelative hnormalized',
      hdirectory]
  rw [hsameNormal, hjoined] at hrelative'
  exact (Except.ok.inj hrelative').symm

end Mounts

/-- The mount points that are set up when the guest's root lies below `/var`. -/
def defaultMounts : Mounts :=
  [⟨rootPath, "/private/var/root".toList⟩, ⟨"/dev".toList, "/dev".toList⟩,
    ⟨"/private/var".toList, "/private/var".toList⟩, ⟨"/var".toList, "/private/var".toList⟩]

end LiveExec32.Filesystem
