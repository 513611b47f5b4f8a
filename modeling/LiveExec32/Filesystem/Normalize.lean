import LiveExec32.Filesystem.Basic

/-! # What normalization computes

The normalizer folds `..` away in its output buffer: it remembers the length before each component
and goes back to it. `normalize_spec` says what comes out in terms of components: those of the
input, resolved, each after a slash, and at the end what the input's own end asks for. -/

namespace LiveExec32.Filesystem

open Paths List Normalizer

/-- What the buffer holds for these components. -/
def written (cs : List Path) : Path := if cs = [] then rootPath else body cs

theorem written_concat (cs : List Path) (component : Path) :
    written (cs ++ [component]) = body (cs ++ [component]) := by
  simp [written]

variable {cs : List Path} {s : Normalizer} {input rest : Path}

namespace Normalizer

/-! ## The loop -/

/-- The buffer and the rewind stack for these components. -/
inductive Represents : Normalizer → List Path → Prop where
  | root : Represents {} []
  | push {s : Normalizer} {cs : List Path} {component : Path} (h : Represents s cs)
      (hplain : IsPlain component) :
      Represents
        { output := body (cs ++ [component])
          componentRewind := (written cs).length :: s.componentRewind }
        (cs ++ [component])

theorem Represents.output_eq (h : Represents s cs) : s.output = written cs := by
  cases h with
  | root => rfl
  | push => exact (written_concat _ _).symm

theorem Represents.isPlain (h : Represents s cs) : ∀ c ∈ cs, IsPlain c := by
  induction h with
  | root => exact fun c hc => absurd hc (by simp)
  | push h hplain ih =>
    intro c hc
    rcases mem_append.1 hc with hold | hnew
    · exact ih c hold
    · rw [mem_singleton.1 hnew]
      exact hplain

theorem Represents.length_componentRewind (h : Represents s cs) :
    s.componentRewind.length = cs.length := by
  induction h with
  | root => rfl
  | push _ _ ih => simp [ih]

theorem take_written (cs : List Path) (component : Path) :
    (body (cs ++ [component])).take (written cs).length = written cs := by
  unfold written
  split
  · next hnil => simp [hnil, rootPath]
  · rw [body_append, take_left]

/-- What is added to the buffer for a component that is kept. -/
theorem written_append (hplain : ∀ c ∈ cs, IsPlain c) (component : Path) :
    written cs ++ separator (written cs) ++ component = body (cs ++ [component]) := by
  by_cases hnil : cs = []
  · simp [hnil, written, separator, rootPath]
  · have hbody := two_mul_length_le_body fun c hc => (hplain c hc).1
    have hpos := length_pos_iff.2 hnil
    have hlength : (body cs).length ≠ 1 := by omega
    simp [written, separator, hnil, hlength]

/-- A component that fits is added, or dropped, or takes back the last one. -/
theorem add_represents (h : Represents s cs) {component : Path} (hcomponent : IsComponent component)
    (hfits : s.output.length + (separator s.output).length + component.length < pathMax) :
    ∃ s', s.add component = .ok s' ∧ Represents s' (descend cs component) := by
  unfold add descend
  simp only [hcomponent.1, decide_false, Bool.false_or, decide_eq_true_eq]
  split
  · exact ⟨s, rfl, h⟩
  · rename_i hdot
    split
    · cases h with
      | root => exact ⟨_, rfl, .root⟩
      | push h =>
        -- going back to the remembered length is going back to the buffer before
        refine ⟨_, rfl, ?_⟩
        rw [take_written, ← h.output_eq, dropLast_concat]
        exact h
    · rename_i hup
      rw [if_neg (by omega)]
      refine ⟨_, rfl, ?_⟩
      rw [h.output_eq, written_append h.isPlain]
      exact .push h ⟨hcomponent, hdot, hup⟩

theorem dropWhile_atBoundary (path : Path) : AtBoundary (path.dropWhile (fun c => c != '/')) := by
  induction path with
  | nil => exact .inl rfl
  | cons c rest ih =>
    rw [dropWhile_cons]
    split
    · exact ih
    · rename_i hc
      have hslash : c = '/' := by simpa using hc
      exact .inr ⟨rest, by rw [hslash]⟩

/-- The next component of an input that does not start with a slash. -/
theorem components_takeWhile {rest : Path} (h : rest.head? ≠ some '/') :
    (rest = [] ∧ rest.takeWhile (fun c => c != '/') = [])
      ∨ (IsComponent (rest.takeWhile (fun c => c != '/'))
        ∧ components rest = rest.takeWhile (fun c => c != '/')
          :: components (rest.dropWhile (fun c => c != '/'))) := by
  cases rest with
  | nil => exact .inl ⟨rfl, rfl⟩
  | cons c tail =>
    refine .inr ?_
    have hc : (c != '/') := by simpa using h
    have hcomponent : IsComponent ((c :: tail).takeWhile (fun c => c != '/')) := by
      refine ⟨by simp [hc], fun hmem => ?_⟩
      have hslash := mem_takeWhile_imp hmem
      simp at hslash
    refine ⟨hcomponent, ?_⟩
    conv_lhs => rw [← takeWhile_append_dropWhile (p := fun c => c != '/') (l := c :: tail)]
    rw [components_append _ (dropWhile_atBoundary _), components_of_isComponent hcomponent]
    rfl

theorem head?_dropWhile_slash (path : Path) :
    (path.dropWhile (fun c => c == '/')).head? ≠ some '/' := by
  induction path with
  | nil => simp
  | cons _ _ ih =>
    rw [dropWhile_cons]
    split
    · exact ih
    · next hc => simpa using hc

/-- The component that the next round takes from the rest of the input, -/
def component (rest : Path) : Path :=
  (rest.dropWhile (fun c => c == '/')).takeWhile (fun c => c != '/')

/-- and what the round leaves. -/
def remaining (rest : Path) : Path :=
  (rest.dropWhile (fun c => c == '/')).dropWhile (fun c => c != '/')

/-- A round takes a slash and a component, or the slashes at the end. -/
theorem round_spec (hboundary : AtBoundary rest) (hrest : rest ≠ []) : AtBoundary (remaining rest)
      ∧ 1 + (component rest).length + (remaining rest).length ≤ rest.length
      ∧ ((component rest = [] ∧ remaining rest = [] ∧ components rest = [])
        ∨ (IsComponent (component rest)
          ∧ components rest = component rest :: components (remaining rest))) := by
  obtain ⟨tail, rfl⟩ := hboundary.resolve_left hrest
  have hdrop : ('/' :: tail).dropWhile (fun c => c == '/')
      = tail.dropWhile (fun c => c == '/') := by
    simp
  have hlength := length_dropWhile_le (fun c => c == '/') tail
  have hsplit := congrArg length (takeWhile_append_dropWhile (p := fun c => c != '/')
    (l := tail.dropWhile (fun c => c == '/')))
  rw [length_append] at hsplit
  refine ⟨dropWhile_atBoundary _, ?_, ?_⟩
  · simp only [component, remaining, hdrop, length_cons]
    omega
  · rw [← components_dropWhile]
    rcases components_takeWhile (head?_dropWhile_slash ('/' :: tail)) with ⟨hnil, hnone⟩ | hsome
    · exact .inl ⟨hnone, by rw [remaining, hnil]; rfl, by rw [hnil, components_nil]⟩
    · exact .inr hsome

/-! ## Lengths -/

theorem length_body_dropLast_le (cs : List Path) :
    (body cs.dropLast).length ≤ (body cs).length := by
  induction cs using reverseRecOn with
  | nil => exact Nat.le_refl _
  | append_singleton =>
    rw [dropLast_concat, body_append, length_append]
    exact Nat.le_add_right _ _

theorem length_body_descend_le (cs : List Path) (component : Path) :
    (body (descend cs component)).length ≤ (body cs).length + (component.length + 1) := by
  have hdropLast := length_body_dropLast_le cs
  unfold descend
  split
  · omega
  · split
    · omega
    · simp

theorem length_body_resolve_le (cs : List Path) :
    (body (resolve cs)).length ≤ (body cs).length := by
  induction cs using reverseRecOn with
  | nil => exact Nat.le_refl _
  | append_singleton cs component =>
    have hlast := length_body_descend_le (resolve cs) component
    rw [resolve_append, body_append]
    simp only [foldl_cons, foldl_nil, body_cons, body_nil, length_append, length_cons, length_nil]
    omega

theorem length_body_components_le (hboundary : AtBoundary rest) :
    (body (components rest)).length ≤ rest.length := by
  induction hn : rest.length using Nat.strong_induction_on generalizing rest with
  | _ n ih =>
    by_cases hrest : rest = []
    · simp [hrest]
    · obtain ⟨hnext, hlength, ⟨-, -, hnone⟩ | ⟨-, hcomponents⟩⟩ := round_spec hboundary hrest
      · simp [hnone]
      · have hmore := ih _ (by omega) hnext rfl
        rw [hcomponents]
        simp only [body_cons, length_cons, length_append]
        omega

theorem Represents.componentRewind_lt (h : Represents s cs) (hlt : s.output.length < pathMax) :
    s.componentRewind.length < pathMax / 2 + 1 := by
  have hbody := two_mul_length_le_body fun c hc => (h.isPlain c hc).1
  rw [h.length_componentRewind]
  rw [h.output_eq, written] at hlt
  split at hlt
  · next hnil => simp [hnil]
  · omega

/-! ## Runs of the loop -/

/-- The head of the loop: what the buffer holds and what is left of the input are together no longer
    than the input, and mean the same. -/
structure Loop (input : Path) (s : Normalizer) (rest : Path) (cs : List Path) : Prop where
  represents : Represents s cs
  boundary : AtBoundary rest
  length : (body cs).length + rest.length ≤ input.length
  resolves : (components rest).foldl descend cs = resolve (components input)

theorem Loop.start (habsolute : input.head? = some '/') : Loop input {} input [] :=
  ⟨.root, .inr (head?_eq_some_iff.1 habsolute), by simp, rfl⟩

/-- A component fits behind what the buffer holds, and its entry fits on the stack. -/
theorem Loop.fits (h : Loop input s rest cs) (hlength : input.length < pathMax)
    (hrest : rest ≠ []) :
    s.componentRewind.length < pathMax / 2 + 1
      ∧ s.output.length + (separator s.output).length + (component rest).length < pathMax := by
  obtain ⟨-, hround, -⟩ := round_spec h.boundary hrest
  have hinput := h.length
  have happend := congrArg List.length (written_append h.represents.isPlain (component rest))
  rw [← h.represents.output_eq] at happend
  simp only [List.length_append, body_append, body_cons, body_nil, List.length_cons,
    List.length_nil] at happend
  exact ⟨h.represents.componentRewind_lt (by omega), by omega⟩

theorem Loop.round (h : Loop input s rest cs) (hlength : input.length < pathMax)
    (hrest : rest ≠ []) :
    ∃ s' cs', s.add (component rest) = .ok s' ∧ Loop input s' (remaining rest) cs' := by
  have hinput := h.length
  obtain ⟨hnext, hround, ⟨hnone, hdone, hcomponents⟩ | ⟨hcomponent, hcomponents⟩⟩ :=
    round_spec h.boundary hrest
  · -- only slashes were left
    refine ⟨s, cs, by simp [add, hnone], h.represents, hnext, by omega, ?_⟩
    rw [← h.resolves, hcomponents, hdone]
    rfl
  · obtain ⟨s', hadd, hs'⟩ := add_represents h.represents hcomponent (h.fits hlength hrest).2
    have hbody := length_body_descend_le cs (component rest)
    refine ⟨s', _, hadd, hs', hnext, by omega, ?_⟩
    rw [← h.resolves, hcomponents, foldl_cons]

/-- The states at the head of the loop, with the input that is left. -/
inductive Visits (input : Path) : Normalizer → Path → Prop where
  | start : Visits input {} input
  | round {s s' : Normalizer} {rest : Path} (h : Visits input s rest) (hrest : rest ≠ [])
      (hadd : s.add (component rest) = .ok s') : Visits input s' (remaining rest)

theorem Visits.loop (h : Visits input s rest) (habsolute : input.head? = some '/')
    (hlength : input.length < pathMax) : ∃ cs, Loop input s rest cs := by
  induction h with
  | start => exact ⟨[], .start habsolute⟩
  | round h hrest hadd ih =>
    obtain ⟨cs, hloop⟩ := ih
    obtain ⟨s', cs', hs', hnext⟩ := hloop.round hlength hrest
    obtain rfl := Except.ok.inj (hadd.symm.trans hs')
    exact ⟨cs', hnext⟩

theorem addAll_represents {fuel : ℕ} (h : Loop input s rest cs) (hlength : input.length < pathMax)
    (hfuel : rest.length ≤ fuel) :
    ∃ s', addAll fuel rest s = .ok s' ∧ Represents s' (resolve (components input)) := by
  induction fuel generalizing s rest cs with
  | zero =>
    obtain rfl : rest = [] := eq_nil_of_length_eq_zero (Nat.le_zero.1 hfuel)
    exact ⟨s, rfl, h.resolves ▸ h.represents⟩
  | succ _ ih =>
    by_cases hrest : rest = []
    · subst hrest
      exact ⟨s, by simp [addAll], h.resolves ▸ h.represents⟩
    · obtain ⟨s', cs', hadd, hs'⟩ := h.round hlength hrest
      obtain ⟨-, hround, -⟩ := round_spec h.boundary hrest
      obtain ⟨s'', hrun, hs''⟩ := ih hs' (by omega)
      refine ⟨s'', ?_, hs''⟩
      rw [component] at hadd
      rw [addAll, if_neg hrest]
      simp only [hadd]
      exact hrun

end Normalizer

/-! ## The end of the path -/

theorem components_concat_slash (path : Path) : components (path ++ ['/']) = components path := by
  rw [components_append_slash, components_nil, append_nil]

theorem getLast?_components_append (path : Path) {tail : Path} (h : IsComponent tail) :
    (components (path ++ tail)).getLast? = some (path.rtakeWhile (fun c => c != '/') ++ tail) := by
  induction path using reverseRecOn generalizing tail with
  | nil => simp [components_of_isComponent h]
  | append_singleton _ c ih =>
    by_cases hc : c = '/'
    · subst hc
      rw [append_assoc, singleton_append, components_append_slash,
        components_of_isComponent h, rtakeWhile_concat_neg _ _ _ (by simp)]
      simp
    · have htail : IsComponent (c :: tail) := ⟨by simp, by simpa [Ne.symm hc] using h.2⟩
      rw [append_assoc, singleton_append, ih htail, rtakeWhile_concat_pos _ _ _ (by simpa using hc)]
      simp

theorem terminalComponent_eq (path : Path) :
    terminalComponent path = (components path).getLast?.getD [] := by
  unfold terminalComponent
  induction path using reverseRecOn with
  | nil => rfl
  | append_singleton path c ih =>
    by_cases hc : c = '/'
    · subst hc
      rw [rdropWhile_concat_pos _ _ _ (by simp), components_concat_slash]
      exact ih
    · have htail : IsComponent [c] := ⟨by simp, by simpa using Ne.symm hc⟩
      rw [rdropWhile_concat_neg _ _ _ (by simpa using hc),
        getLast?_components_append path htail, rtakeWhile_concat_pos _ _ _ (by simpa using hc)]
      rfl

/-- What a normalized path ends with, after its components. -/
def ending (input : Path) (cs : List Path) : Path :=
  if preserveTerminalDirectoryComponent input then ['/', '.']
  else if cs = [] || input.getLast? = some '/' then ['/']
  else []

theorem preserveTerminalDirectoryComponent_iff (input : Path) :
    preserveTerminalDirectoryComponent input ↔ (components input).getLast? = some dot
      ∨ (components input).getLast? = some dotDot := by
  unfold preserveTerminalDirectoryComponent
  rw [terminalComponent_eq, Bool.or_eq_true, decide_eq_true_eq, decide_eq_true_eq]
  cases (components input).getLast? with
  | none => simp [dot, dotDot]
  | some => simp

/-- An end takes no more room than the input has for it. -/
theorem length_ending_le (habsolute : input.head? = some '/') :
    (body (resolve (components input)) ++ ending input (resolve (components input))).length
      ≤ input.length := by
  have hboundary : AtBoundary input := .inr (head?_eq_some_iff.1 habsolute)
  have hcomponents := length_body_components_le hboundary
  have hresolve := length_body_resolve_le (components input)
  unfold ending
  split
  · -- the last component of the input is not kept
    rename_i hpreserve
    have hdots := (preserveTerminalDirectoryComponent_iff input).1 hpreserve
    obtain ⟨last, hlast⟩ : ∃ last, (components input).getLast? = some last :=
      hdots.elim (⟨dot, ·⟩) (⟨dotDot, ·⟩)
    obtain ⟨before, hsplit⟩ := getLast?_eq_some_iff.1 hlast
    have hbefore := length_body_resolve_le before
    have hkept : (body (resolve (components input))).length ≤ (body (resolve before)).length := by
      rw [hsplit, resolve_append, foldl_cons, foldl_nil, descend]
      split
      · exact Nat.le_refl _
      · rw [if_pos (by simp_all)]
        exact length_body_dropLast_le _
    have hpos := length_pos_iff.2 (isComponent_of_mem (mem_of_getLast? hlast)).1
    rw [hsplit] at hcomponents
    simp only [body_append, body_cons, body_nil, length_append, length_cons,
      length_nil] at hcomponents ⊢
    omega
  · split
    · rename_i hslash
      have hpos : 1 ≤ input.length := length_pos_iff.2 (fun hnil => by simp [hnil] at habsolute)
      by_cases hnil : resolve (components input) = []
      · simpa [hnil] using hpos
      · -- the slash at the end belongs to no component
        obtain ⟨before, rfl⟩ := getLast?_eq_some_iff.1 (by simpa [hnil] using hslash)
        rw [components_concat_slash] at hresolve ⊢
        have hbefore : AtBoundary before := by
          cases before with
          | nil => exact .inl rfl
          | cons c tail => exact .inr ⟨tail, by simpa using habsolute⟩
        have := length_body_components_le hbefore
        simp only [length_append, length_cons, length_nil]
        omega
    · rw [append_nil]
      omega

variable {input : Path}

theorem finishNormalized_eq {output : Path} (houtput : output = written cs)
    (hplain : ∀ c ∈ cs, IsPlain c) (hinput : cs ≠ [] → 1 < input.length)
    (hfits : (body cs ++ ending input cs).length < pathMax) :
    finishNormalized input output = .ok (body cs ++ ending input cs) := by
  subst houtput
  unfold finishNormalized
  unfold ending at hfits ⊢
  split
  · rename_i hpreserve
    have hwritten := written_append hplain dot
    rw [if_pos hpreserve] at hfits
    rw [append_assoc, body_append] at hwritten
    simp only [← length_append, hwritten]
    exact if_neg (Nat.not_le.2 hfits)
  · rename_i hpreserve
    rw [if_neg hpreserve] at hfits
    by_cases hnil : cs = []
    · subst hnil
      simp [written, rootPath]
    · have hbody := two_mul_length_le_body fun c hc => (hplain c hc).1
      have hpos := length_pos_iff.2 hnil
      have hlong : 1 < (body cs).length := by omega
      by_cases hslash : input.getLast? = some '/'
      · simp only [hslash, decide_true, Bool.or_true, if_true, length_append,
          length_singleton] at hfits
        simp [written, hnil, hinput hnil, hslash, hlong, Nat.not_le.2 hfits]
      · simp [written, hnil, hslash]

/-- **Normalization succeeds.** Every absolute path that fits into a buffer is normalized: to its
    resolved components and an end. -/
theorem normalize_eq (habsolute : input.head? = some '/') (hlength : input.length < pathMax) :
    normalizeGuestAbsolutePath input
      = .ok (body (resolve (components input)) ++ ending input (resolve (components input))) := by
  obtain ⟨s, hadd, hrepresents⟩ := addAll_represents (.start habsolute) hlength (Nat.le_refl _)
  simp only [normalizeGuestAbsolutePath, habsolute, ne_eq, not_true_eq_false, if_false,
    Nat.not_le.2 hlength, hadd]
  refine finishNormalized_eq hrepresents.output_eq hrepresents.isPlain (fun hne => ?_)
    ((length_ending_le habsolute).trans_lt hlength)
  -- a path with a component is longer than its leading slash
  match input, hne with
  | [], hne => exact absurd rfl hne
  | [c], hne =>
    have hc : c = '/' := by simpa using habsolute
    exact absurd (by rw [hc]; rfl) hne
  | _ :: _ :: _, _ => simp

/-- **A normalized path is its resolved components and an end.** -/
theorem normalize_spec {normalized : Path} (h : normalizeGuestAbsolutePath input = .ok normalized) :
    normalized = body (resolve (components input))
      ++ ending input (resolve (components input)) := by
  have hchecks : input.head? = some '/' ∧ input.length < pathMax := by
    unfold normalizeGuestAbsolutePath at h
    split at h
    · simp at h
    · rename_i habsolute
      split at h
      · simp at h
      · rename_i hlength
        exact ⟨not_not.1 habsolute, Nat.not_le.1 hlength⟩
  rw [normalize_eq hchecks.1 hchecks.2] at h
  exact (Except.ok.inj h).symm

/-! ## Normalizing a path that is already normal -/

/-- The ends that normalization leaves. -/
def IsEnding (ending : Path) : Prop := ending = [] ∨ ending = ['/'] ∨ ending = ['/', '.']

theorem IsEnding.atBoundary {ending : Path} (h : IsEnding ending) : AtBoundary ending := by
  rcases h with rfl | rfl | rfl
  · exact .inl rfl
  · exact .inr ⟨_, rfl⟩
  · exact .inr ⟨_, rfl⟩

theorem IsEnding.components {ending : Path} (h : IsEnding ending) :
    components ending = [] ∨ components ending = [dot] := by
  rcases h with rfl | rfl | rfl
  · exact .inl rfl
  · exact .inl rfl
  · exact .inr rfl

theorem isEnding_ending (input : Path) (cs : List Path) : IsEnding (ending input cs) := by
  unfold ending
  split
  · exact .inr (.inr rfl)
  · split
    · exact .inr (.inl rfl)
    · exact .inl rfl

theorem components_shape (h : ∀ c ∈ cs, IsPlain c) {ending : Path} (hending : IsEnding ending) :
    components (body cs ++ ending) = cs ++ components ending :=
  components_body_append (fun c hc => (h c hc).1) hending.atBoundary

theorem resolve_shape (h : ∀ c ∈ cs, IsPlain c) {ending : Path} (hending : IsEnding ending) :
    resolve (components (body cs ++ ending)) = cs := by
  rw [components_shape h hending, resolve_append, resolve_of_isPlain h]
  rcases hending.components with hnone | hdot
  · rw [hnone]
    rfl
  · rw [hdot]
    rfl

theorem shape_inj {cs' : List Path} (h : ∀ c ∈ cs, IsPlain c) (h' : ∀ c ∈ cs', IsPlain c)
    {ending ending' : Path} (hending : IsEnding ending) (hending' : IsEnding ending')
    (heq : body cs ++ ending = body cs' ++ ending') : cs = cs' ∧ ending = ending' := by
  have hcs : cs = cs' := by
    rw [← resolve_shape h hending, heq, resolve_shape h' hending']
  subst hcs
  exact ⟨rfl, append_cancel_left heq⟩

theorem getLast?_components_shape (h : ∀ c ∈ cs, IsPlain c) {ending : Path}
    (hending : IsEnding ending) :
    preserveTerminalDirectoryComponent (body cs ++ ending) ↔ ending = ['/', '.'] := by
  have hplain : ∀ component, cs.getLast? = some component →
      component ≠ dot ∧ component ≠ dotDot := fun component hlast =>
    (h component (mem_of_getLast? hlast)).2
  unfold preserveTerminalDirectoryComponent
  rw [terminalComponent_eq, components_shape h hending]
  rcases hending with rfl | rfl | rfl
  · simp only [components_nil, append_nil]
    cases hlast : cs.getLast? with
    | none => simp [dot, dotDot]
    | some component => simp [hplain component hlast]
  · simp only [components_slash, components_nil, append_nil]
    cases hlast : cs.getLast? with
    | none => simp [dot, dotDot]
    | some component => simp [hplain component hlast]
  · have hdot : components ['/', '.'] = [dot] := rfl
    simp [hdot]

theorem getLast?_body (h : ∀ c ∈ cs, IsPlain c) : (body cs).getLast? ≠ some '/' := by
  induction cs using reverseRecOn with
  | nil => simp
  | append_singleton _ component =>
    obtain ⟨⟨hne, hslash⟩, -⟩ := h component (by simp)
    rw [body_append, body_cons, body_nil, append_nil, getLast?_append, getLast?_cons_of_ne_nil hne]
    obtain ⟨c, hc⟩ := Option.isSome_iff_exists.1 (getLast?_isSome.2 hne)
    rw [hc]
    rintro heq
    have hslash' : c = '/' := by simpa using heq
    exact hslash (hslash' ▸ mem_of_getLast? hc)

theorem ending_shape (h : ∀ c ∈ cs, IsPlain c) {ending' : Path} (hending : IsEnding ending')
    (hne : ¬ (cs = [] ∧ ending' = [])) : ending (body cs ++ ending') cs = ending' := by
  unfold ending
  by_cases hdot : ending' = ['/', '.']
  · rw [if_pos ((getLast?_components_shape h hending).2 hdot), hdot]
  · rw [if_neg (fun hpreserve => hdot ((getLast?_components_shape h hending).1 hpreserve))]
    rcases hending with rfl | rfl | rfl
    · have hcs : cs ≠ [] := fun hnil => hne ⟨hnil, rfl⟩
      rw [append_nil, if_neg (by simp [hcs, getLast?_body h])]
    · rw [if_pos (by simp)]
    · exact absurd rfl hdot

theorem shape_ne_nil {ending : Path} (h : ¬ (cs = [] ∧ ending = [])) : body cs ++ ending ≠ [] := by
  cases cs with
  | nil => simpa using h
  | cons => simp

/-- A normal path: plain components and an end. -/
structure Shape (path : Path) (cs : List Path) (ending : Path) : Prop where
  eq : path = body cs ++ ending
  plain : ∀ c ∈ cs, IsPlain c
  isEnding : IsEnding ending
  nonempty : ¬ (cs = [] ∧ ending = [])

namespace Shape

variable {path : Path}

theorem resolve_eq {ending : Path} (h : Shape path cs ending) : resolve (components path) = cs := by
  rw [h.eq, resolve_shape h.plain h.isEnding]

theorem head? {ending : Path} (h : Shape path cs ending) : path.head? = some '/' := by
  have hne := shape_ne_nil h.nonempty
  rw [← h.eq] at hne
  have hboundary : AtBoundary path := h.eq ▸ atBoundary_body_append cs h.isEnding.atBoundary
  rcases hboundary with hnil | ⟨rest, rfl⟩
  · exact absurd hnil hne
  · rfl

theorem normalized (h : normalizeGuestAbsolutePath input = .ok path) :
    Shape path (resolve (components input)) (ending input (resolve (components input))) := by
  refine ⟨normalize_spec h, isPlain_resolve input, isEnding_ending _ _, fun hboth => ?_⟩
  obtain ⟨hnil, hending⟩ := hboth
  rw [hnil, ending] at hending
  split at hending
  · simp at hending
  · simp at hending

end Shape

/-! ## The reference -/

/-- What normalization is for: the components of the input, resolved, each after a slash; then `/.`
    if the last component of the input was `.` or `..`, or else a slash if the input ended with one.
    The root is written as a slash. -/
def reference (input : Path) : Path :=
  let kept := resolve (components input)
  if (components input).getLast? = some dot ∨ (components input).getLast? = some dotDot then
    body kept ++ ['/', '.']
  else if kept = [] then ['/']
  else if input.getLast? = some '/' then body kept ++ ['/']
  else body kept

theorem reference_eq (input : Path) : reference input
      = body (resolve (components input)) ++ ending input (resolve (components input)) := by
  simp only [reference, ending, preserveTerminalDirectoryComponent_iff]
  split
  · rfl
  · by_cases hnil : resolve (components input) = []
    · simp [hnil]
    · by_cases hslash : input.getLast? = some '/'
      · simp [hnil, hslash]
      · simp [hnil, hslash]

theorem shape_reference (habsolute : input.head? = some '/') (hlength : input.length < pathMax) :
    Shape (reference input) (resolve (components input))
      (ending input (resolve (components input))) :=
  Shape.normalized (reference_eq input ▸ normalize_eq habsolute hlength)

/-- **Normalization computes the reference.** Every absolute path that fits into a buffer is
    normalized, without an access outside the buffer and the stack; the result has no `..`, is no
    longer than the input and is left as it is when it is normalized again. -/
theorem normalizeGuestAbsolutePath_reference (input : Path) (habsolute : input.head? = some '/')
    (hlength : input.length < pathMax) :
    normalizeGuestAbsolutePath input = .ok (reference input)
      ∧ (∀ s rest, Normalizer.Visits input s rest → rest ≠ [] →
        s.componentRewind.length < pathMax / 2 + 1
          ∧ s.output.length + (Normalizer.separator s.output).length
            + (Normalizer.component rest).length < pathMax)
      ∧ dotDot ∉ components (reference input)
      ∧ (reference input).length ≤ input.length
      ∧ normalizeGuestAbsolutePath (reference input) = .ok (reference input) := by
  have hshape := shape_reference habsolute hlength
  have hshorter : (reference input).length ≤ input.length :=
    reference_eq input ▸ length_ending_le habsolute
  refine ⟨reference_eq input ▸ normalize_eq habsolute hlength, fun s rest hvisits hrest => ?_, ?_,
    hshorter, ?_⟩
  · obtain ⟨cs, hloop⟩ := hvisits.loop habsolute hlength
    exact hloop.fits hlength hrest
  · rw [hshape.eq, components_shape hshape.plain hshape.isEnding, mem_append, not_or]
    refine ⟨fun hmem => (hshape.plain _ hmem).2.2 rfl, ?_⟩
    rcases hshape.isEnding.components with hnone | hdot
    · simp [hnone]
    · simp [hdot, dot, dotDot]
  · have hending := ending_shape hshape.plain hshape.isEnding hshape.nonempty
    rw [← hshape.eq] at hending
    rw [normalize_eq hshape.head? (hshorter.trans_lt hlength), hshape.resolve_eq,
      hending, ← hshape.eq]

theorem normalizeGuestAbsolutePath_reference_parent :
    "/a/b/..".toList.head? = some '/' ∧ "/a/b/..".toList.length < pathMax
      ∧ normalizeGuestAbsolutePath "/a/b/..".toList = .ok "/a/.".toList :=
  ⟨by decide, by decide,
    (normalizeGuestAbsolutePath_reference "/a/b/..".toList (by decide) (by decide)).1⟩

/-- **Normalization composes.** To normalize the first part of a path beforehand does not change
    what becomes of the whole. -/
theorem normalizeGuestAbsolutePath_append (first rest : Path) (habsolute : first.head? = some '/')
    (hlength : (first ++ '/' :: rest).length < pathMax) :
    (normalizeGuestAbsolutePath first >>= fun normalized =>
        normalizeGuestAbsolutePath (normalized ++ '/' :: rest))
      = normalizeGuestAbsolutePath (first ++ '/' :: rest) := by
  have hfirst := normalize_eq habsolute (by simp at hlength; omega)
  have hshape := Shape.normalized hfirst
  have hshorter := length_ending_le habsolute
  rw [hfirst]
  generalize body (resolve (components first)) ++ ending first (resolve (components first))
    = normalized at hshape hshorter
  have hresolve : resolve (components (normalized ++ '/' :: rest))
      = resolve (components (first ++ '/' :: rest)) := by
    simp only [components_append_slash, resolve_append, hshape.resolve_eq]
  -- the end of the first part counts only if the rest has no component
  have hends : preserveTerminalDirectoryComponent normalized
      ↔ preserveTerminalDirectoryComponent first := by
    rw [hshape.eq, getLast?_components_shape hshape.plain hshape.isEnding, ending]
    split
    · simp_all
    · split <;> simp_all
  have hterminal : preserveTerminalDirectoryComponent (normalized ++ '/' :: rest)
      = preserveTerminalDirectoryComponent (first ++ '/' :: rest) := by
    rw [Bool.eq_iff_iff]
    simp only [preserveTerminalDirectoryComponent_iff, components_append_slash, getLast?_append]
      at hends ⊢
    cases (components rest).getLast? with
    | none => simpa using hends
    | some => simp
  refine Eq.trans (normalize_eq (by simp [hshape.head?]) (by simp at hlength ⊢; omega)) ?_
  rw [normalize_eq (by simp [habsolute]) hlength, hresolve]
  simp [ending, hterminal, getLast?_cons]

theorem normalizeGuestAbsolutePath_append_parent :
    (normalizeGuestAbsolutePath "/a/..".toList >>= fun normalized =>
        normalizeGuestAbsolutePath (normalized ++ "/b".toList))
      = normalizeGuestAbsolutePath "/a/../b".toList :=
  normalizeGuestAbsolutePath_append "/a/..".toList ['b'] (by decide) (by decide)

end LiveExec32.Filesystem
