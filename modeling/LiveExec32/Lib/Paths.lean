import Mathlib.Algebra.Order.Ring.Int
import Mathlib.Data.List.Basic

/-! # Lexical paths

A path is read as the list of its components, the nonempty pieces between the slashes. `body` writes
components out again, each after a slash; `resolve` removes `.` and lets `..` remove the component
before it, without leaving the root. Nothing here looks at a file system. -/

namespace Paths

open List

abbrev Path := List Char

def dot : Path := ['.']

def dotDot : Path := ['.', '.']

/-- The nonempty pieces between the slashes. -/
def components (path : Path) : List Path :=
  (path.splitOnP (fun c => c == '/')).filter (fun piece => piece ≠ [])

def IsComponent (component : Path) : Prop := component ≠ [] ∧ '/' ∉ component

/-- A component that names a child. -/
def IsPlain (component : Path) : Prop :=
  IsComponent component ∧ component ≠ dot ∧ component ≠ dotDot

instance : DecidablePred IsComponent := fun component =>
  inferInstanceAs (Decidable (component ≠ [] ∧ '/' ∉ component))

instance : DecidablePred IsPlain := fun component =>
  inferInstanceAs (Decidable (IsComponent component ∧ component ≠ dot ∧ component ≠ dotDot))

/-- The end of a path, or its continuation with a further component. -/
def AtBoundary (path : Path) : Prop := path = [] ∨ ∃ rest, path = '/' :: rest

/-! ## Components -/

@[simp] theorem components_nil : components [] = [] := rfl

theorem components_append_slash (path rest : Path) :
    components (path ++ '/' :: rest) = components path ++ components rest := by
  unfold components
  rw [splitOnP_append_cons path rest (by simp), filter_append]

@[simp] theorem components_slash (rest : Path) : components ('/' :: rest) = components rest :=
  components_append_slash [] rest

variable {rest : Path}

theorem components_append (path : Path) (h : AtBoundary rest) :
    components (path ++ rest) = components path ++ components rest := by
  rcases h with rfl | ⟨rest, rfl⟩
  · simp
  · rw [components_append_slash, components_slash]

theorem components_of_isComponent {component : Path} (h : IsComponent component) :
    components component = [component] := by
  unfold components
  have hsplit : component.splitOnP (fun c => c == '/') = [component] := by
    refine splitOnP_eq_singleton fun c hc => ?_
    rw [beq_eq_false_iff_ne]
    rintro rfl
    exact h.2 hc
  rw [hsplit, filter_singleton]
  simp [h.1]

theorem not_mem_of_mem_splitOnP {path piece : Path}
    (h : piece ∈ path.splitOnP (fun c => c == '/')) : '/' ∉ piece := by
  induction path generalizing piece with
  | nil =>
    rw [splitOnP_nil, mem_singleton] at h
    simp [h]
  | cons c rest ih =>
    rw [splitOnP_cons_eq_if_modifyHead] at h
    split at h
    · rcases mem_cons.1 h with rfl | hmem
      · simp
      · exact ih hmem
    · rename_i hc
      cases hsplit : rest.splitOnP (fun c => c == '/') with
      | nil =>
        rw [hsplit] at h
        simp at h
      | cons first =>
        rw [hsplit, modifyHead_cons, mem_cons] at h
        rcases h with rfl | hmem
        · have hfirst : '/' ∉ first := ih (hsplit ▸ mem_cons_self)
          have hne : '/' ≠ c := fun heq => hc (by simp [← heq])
          simp [hfirst, hne]
        · exact ih (hsplit ▸ mem_cons_of_mem _ hmem)

theorem isComponent_of_mem {path component : Path} (h : component ∈ components path) :
    IsComponent component := by
  obtain ⟨hmem, hne⟩ := mem_filter.1 h
  exact ⟨by simpa using hne, not_mem_of_mem_splitOnP hmem⟩

/-- Leading slashes do not matter. -/
theorem components_dropWhile (path : Path) :
    components (path.dropWhile (fun c => c == '/')) = components path := by
  induction path with
  | nil => rfl
  | cons _ _ ih =>
    rw [dropWhile_cons]
    split
    · rename_i hc
      rw [beq_iff_eq.1 hc, components_slash]
      exact ih
    · rfl

/-! ## Writing components -/

/-- The components, each after a slash. -/
def body (cs : List Path) : Path := cs.flatMap fun component => '/' :: component

@[simp] theorem body_nil : body [] = [] := rfl

@[simp] theorem body_cons (component : Path) (cs : List Path) :
    body (component :: cs) = '/' :: (component ++ body cs) := by
  simp [body]

@[simp] theorem body_append (cs cs' : List Path) : body (cs ++ cs') = body cs ++ body cs' :=
  flatMap_append

theorem atBoundary_body_append (cs : List Path) (h : AtBoundary rest) :
    AtBoundary (body cs ++ rest) := by
  cases cs with
  | nil => exact h
  | cons component cs => exact .inr ⟨component ++ body cs ++ rest, by simp⟩

variable {cs : List Path}

theorem components_body_append (h : ∀ component ∈ cs, IsComponent component)
    (hrest : AtBoundary rest) :
    components (body cs ++ rest) = cs ++ components rest := by
  induction cs with
  | nil => rfl
  | cons component cs ih =>
    have hboundary := atBoundary_body_append cs hrest
    rw [body_cons, cons_append, components_slash, append_assoc,
      components_append component hboundary,
      components_of_isComponent (h component mem_cons_self),
      ih fun c hc => h c (mem_cons_of_mem _ hc)]
    rfl

theorem components_body (h : ∀ component ∈ cs, IsComponent component) :
    components (body cs) = cs := by
  have hbody := components_body_append h (.inl rfl)
  rwa [append_nil, components_nil, append_nil] at hbody

theorem two_mul_length_le_body (h : ∀ component ∈ cs, IsComponent component) :
    2 * cs.length ≤ (body cs).length := by
  induction cs with
  | nil => simp
  | cons component _ ih =>
    have hrest := ih fun c hc => h c (mem_cons_of_mem _ hc)
    have hpos := length_pos_iff.2 (h component mem_cons_self).1
    simp only [body_cons, length_cons, length_append]
    omega

/-! ## Resolving `.` and `..` -/

def descend (stack : List Path) (component : Path) : List Path :=
  if component = dot then stack
  else if component = dotDot then stack.dropLast
  else stack ++ [component]

def resolve (cs : List Path) : List Path := cs.foldl descend []

theorem resolve_append (cs cs' : List Path) :
    resolve (cs ++ cs') = cs'.foldl descend (resolve cs) :=
  foldl_append

variable {stack : List Path}

theorem isPlain_foldl_descend (hstack : ∀ c ∈ stack, IsPlain c) (h : ∀ c ∈ cs, IsComponent c) :
    ∀ c ∈ cs.foldl descend stack, IsPlain c := by
  induction cs generalizing stack with
  | nil => exact hstack
  | cons component _ ih =>
    refine ih (fun c hc => ?_) fun c hc => h c (mem_cons_of_mem _ hc)
    unfold descend at hc
    split at hc
    · exact hstack c hc
    · rename_i hdot
      split at hc
      · exact hstack c ((dropLast_sublist stack).subset hc)
      · rename_i hdotDot
        rcases mem_append.1 hc with hold | hnew
        · exact hstack c hold
        · rw [mem_singleton.1 hnew]
          exact ⟨h component mem_cons_self, hdot, hdotDot⟩

theorem isPlain_resolve (path : Path) : ∀ c ∈ resolve (components path), IsPlain c :=
  isPlain_foldl_descend (by simp) fun _ hc => isComponent_of_mem hc

theorem foldl_descend_of_isPlain (stack : List Path) (h : ∀ c ∈ cs, IsPlain c) :
    cs.foldl descend stack = stack ++ cs := by
  induction cs generalizing stack with
  | nil => simp
  | cons component _ ih =>
    obtain ⟨-, hdot, hdotDot⟩ := h component mem_cons_self
    rw [foldl_cons, ih _ fun c hc => h c (mem_cons_of_mem _ hc)]
    simp [descend, hdot, hdotDot]

theorem resolve_of_isPlain (h : ∀ c ∈ cs, IsPlain c) : resolve cs = cs := by
  rw [resolve, foldl_descend_of_isPlain [] h, nil_append]

/-- Components without `..` stay below where they start. -/
theorem prefix_foldl_descend (h : dotDot ∉ cs) : stack <+: cs.foldl descend stack := by
  induction cs generalizing stack with
  | nil => exact prefix_rfl
  | cons component _ ih =>
    have hne : component ≠ dotDot := fun heq => h (heq ▸ mem_cons_self)
    refine List.IsPrefix.trans ?_ (ih fun hmem => h (mem_cons_of_mem _ hmem))
    unfold descend
    split
    · exact prefix_rfl
    · exact prefix_append _ _

end Paths
