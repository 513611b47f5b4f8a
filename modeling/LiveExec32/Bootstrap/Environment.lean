import Mathlib.Algebra.Order.Ring.Int
import Mathlib.Data.List.Basic
import Mathlib.Tactic.Linarith

/-! # The guest's environment

The launcher does not hand its own environment to the guest. `CollectEnvironment` picks the entries
of the host environment whose name starts with `LC32_GUEST_ENV_`, strips the prefix and keeps the
last value of each well-formed name; `FinalizeEnvironment` then sets the three variables that the
launcher owns, over whatever was forwarded for them, and writes the map out as a list of strings.

The main result is isolation: the list is determined by the prefixed entries, entry by entry. -/

namespace LiveExec32.GuestBootstrap

open List

/-! ## The source -/

/-- `std::string`. -/
abbrev Text : Type :=
  List Char

def environmentPrefix : Text :=
  "LC32_GUEST_ENV_".toList

/-- `isalpha` and `isalnum` are those of the C locale: no call in the process sets another one. -/
def isEnvironmentName (name : Text) : Bool :=
  match name with
  | [] => false
  | first :: _ =>
    (first == '_' || first.isAlpha) && name.all fun value => value == '_' || value.isAlphanum

/-- The text of an entry before its first `=`, or the whole entry. -/
def sourceName (entry : Text) : Text :=
  entry.takeWhile (· != '=')

/-- The text of an entry behind its first `=`. -/
def entryValue (entry : Text) : Text :=
  (entry.dropWhile (· != '=')).tail

/-- `std::map` orders its keys by the bytes of the names. -/
abbrev Values : Type :=
  Std.TreeMap Text Text

structure EnvironmentSelection where
  values : Values
  rejectedSourceNames : List Text

/-- One round of the loop of `CollectEnvironment`. -/
def EnvironmentSelection.collect (selection : EnvironmentSelection) (entry : Text) :
    EnvironmentSelection :=
  if environmentPrefix.isPrefixOf (sourceName entry) then
    let guestName := (sourceName entry).drop environmentPrefix.length
    if '=' ∉ entry ∨ ¬ isEnvironmentName guestName then
      { selection with
        rejectedSourceNames := selection.rejectedSourceNames ++ [sourceName entry] }
    else
      { selection with values := selection.values.insert guestName (entryValue entry) }
  else
    selection

def collectEnvironment (environment : List Text) : EnvironmentSelection :=
  environment.foldl EnvironmentSelection.collect ⟨∅, []⟩

/-- The map and the list `overriddenNames` of `FinalizeEnvironment` after one launcher value. -/
def setLauncherValue (state : Values × List Text) (name value : Text) :
    Values × List Text :=
  (state.1.insert name value, if name ∈ state.1 then state.2 ++ [name] else state.2)

def launch (values : Values) (guestHome nativeGuestThreads : Text) :
    Values × List Text :=
  let state := setLauncherValue (values, []) "HOME".toList guestHome
  let state := setLauncherValue state "NATIVE_GUEST_THREADS".toList nativeGuestThreads
  setLauncherValue state "DYLD_SHARED_REGION".toList "private".toList

/-- The guest's environment, and the forwarded names that the launcher has overridden. -/
def finalizeEnvironment (selection : EnvironmentSelection)
    (guestHome nativeGuestThreads : Text) : List Text × List Text :=
  let state := launch selection.values guestHome nativeGuestThreads
  (state.1.toList.map fun entry => entry.1 ++ '=' :: entry.2, state.2)

/-! ## Entries -/

variable {name : Text}

theorem not_mem_of_isEnvironmentName (h : isEnvironmentName name) : '=' ∉ name := by
  intro hmem
  unfold isEnvironmentName at h
  split at h
  · cases hmem
  · rw [Bool.and_eq_true, all_eq_true] at h
    cases h.2 _ hmem

theorem sourceName_append (h : '=' ∉ name) (value : Text) :
    sourceName (name ++ '=' :: value) = name := by
  rw [sourceName, takeWhile_append_of_pos (by grind)]
  simp

theorem entryValue_append (h : '=' ∉ name) (value : Text) :
    entryValue (name ++ '=' :: value) = value := by
  rw [entryValue, dropWhile_append_of_pos (by grind)]
  simp

theorem entry_eq_append {entry : Text} (h : '=' ∈ entry) :
    entry = sourceName entry ++ '=' :: entryValue entry := by
  induction entry with
  | nil => cases h
  | cons c rest ih =>
    by_cases hc : c = '='
    · simp [sourceName, entryValue, hc]
    · have hrest := ih (by simpa [Ne.symm hc] using h)
      simpa [sourceName, entryValue, hc] using hrest

theorem not_mem_environmentPrefix : '=' ∉ environmentPrefix := by
  decide

/-- The prefix has no `=`, so that looking for it in the name is looking for it in the entry. -/
theorem prefix_sourceName_iff (entry : Text) :
    environmentPrefix <+: sourceName entry ↔ environmentPrefix <+: entry := by
  constructor
  · exact fun h => h.trans <| takeWhile_prefix _
  · rintro ⟨rest, rfl⟩
    rw [sourceName, takeWhile_append_of_pos (by grind [not_mem_environmentPrefix])]
    exact prefix_append _ _

/-! ## The loop -/

/-- The value that an entry of the host environment has for the guest's variable `name`: none where
    the entry is not a well-formed one for the prefixed name. -/
def forwardedValue (name entry : Text) : Option Text :=
  if isEnvironmentName name then entry.dropPrefix? (environmentPrefix ++ name ++ ['=']) else none

theorem forwardedValue_eq_some_iff {entry value : Text} : forwardedValue name entry = some value
      ↔ isEnvironmentName name ∧ entry = environmentPrefix ++ name ++ '=' :: value := by
  unfold forwardedValue
  split
  · rename_i hname
    simp [hname, dropPrefix?_eq_some_iff]
  · rename_i hname
    simp [hname]

theorem getElem?_collect (selection : EnvironmentSelection) (entry name : Text) :
    (selection.collect entry).values[name]?
      = (forwardedValue name entry).or selection.values[name]? := by
  cases hvalue : forwardedValue name entry with
  | some value =>
    obtain ⟨hname, rfl⟩ := forwardedValue_eq_some_iff.mp hvalue
    have heq : '=' ∉ environmentPrefix ++ name := by
      simp [not_mem_environmentPrefix, not_mem_of_isEnvironmentName hname]
    rw [EnvironmentSelection.collect, sourceName_append heq, entryValue_append heq]
    simp [hname]
  | none =>
    unfold EnvironmentSelection.collect
    split
    · rename_i hprefix
      obtain ⟨guestName, hguest⟩ := isPrefixOf_iff_prefix.mp hprefix
      simp only [← hguest, drop_left]
      split
      · rfl
      · rename_i h
        simp only [not_or, not_not] at h
        -- An accepted entry for the name itself would have had a value.
        have hne : guestName ≠ name := by
          rintro rfl
          have hentry := entry_eq_append h.1
          rw [← hguest] at hentry
          simp [forwardedValue_eq_some_iff.mpr ⟨h.2, hentry⟩] at hvalue
        simp [Std.TreeMap.getElem?_insert, hne]
    · rfl

theorem getElem?_foldl_collect (environment : List Text) (name : Text)
    (selection : EnvironmentSelection) :
    (environment.foldl EnvironmentSelection.collect selection).values[name]?
      = (environment.filterMap (forwardedValue name)).getLast?.or selection.values[name]? := by
  induction environment generalizing selection with
  | nil => rfl
  | cons entry rest ih =>
    rw [foldl_cons, ih, getElem?_collect]
    cases hvalue : forwardedValue name entry with
    | none => simp [hvalue]
    | some value => simp [hvalue, getLast?_cons]

/-- The map holds, for each name, the value of the last well-formed entry for it. -/
theorem getElem?_collectEnvironment (environment : List Text) (name : Text) :
    (collectEnvironment environment).values[name]?
      = (environment.filterMap (forwardedValue name)).getLast? := by
  simp [collectEnvironment, getElem?_foldl_collect]

/-- Entries without the prefix leave no trace, not even among the rejected names. -/
theorem collectEnvironment_filter (environment : List Text) :
    collectEnvironment (environment.filter (environmentPrefix.isPrefixOf ·))
      = collectEnvironment environment := by
  rw [collectEnvironment, foldl_filter, collectEnvironment]
  congr 1
  funext selection entry
  split
  · rfl
  · rename_i h
    refine (if_neg fun hname => h ?_).symm
    exact isPrefixOf_iff_prefix.2 <|
      (prefix_sourceName_iff entry).1 <| isPrefixOf_iff_prefix.1 hname

/-! ## The finished list -/

def launcherNames : List Text :=
  ["HOME".toList, "NATIVE_GUEST_THREADS".toList, "DYLD_SHARED_REGION".toList]

theorem getElem?_setLauncherValue (state : Values × List Text) (name value name' : Text) :
    (setLauncherValue state name value).1[name']?
      = if name = name' then some value else state.1[name']? := by
  simp [setLauncherValue, Std.TreeMap.getElem?_insert]

theorem getElem?_launch (values : Values) (home threads name : Text) :
    (launch values home threads).1[name]?
      = if "DYLD_SHARED_REGION".toList = name then some "private".toList
        else if "NATIVE_GUEST_THREADS".toList = name then some threads
        else if "HOME".toList = name then some home
        else values[name]? := by
  rw [launch, getElem?_setLauncherValue, getElem?_setLauncherValue, getElem?_setLauncherValue]

theorem getElem?_launch_of_not_mem (values : Values) (home threads : Text)
    (h : name ∉ launcherNames) : (launch values home threads).1[name]? = values[name]? := by
  rw [launcherNames, mem_cons, mem_cons, mem_singleton, not_or, not_or] at h
  rw [getElem?_launch, if_neg (Ne.symm h.2.2), if_neg (Ne.symm h.2.1), if_neg (Ne.symm h.1)]

/-- No name in the finished map has a `=`: the launcher's have none, and a forwarded one was
    checked. -/
theorem not_mem_of_mem_launch {environment : List Text} {home threads : Text}
    {entry : Text × Text}
    (h : entry ∈ (launch (collectEnvironment environment).values home threads).1.toList) :
    '=' ∉ entry.1 := by
  rw [Std.TreeMap.mem_toList_iff_getElem?_eq_some] at h
  by_cases hname : entry.1 ∈ launcherNames
  · revert hname
    generalize entry.1 = name
    revert name
    decide
  · rw [getElem?_launch_of_not_mem _ _ _ hname, getElem?_collectEnvironment] at h
    obtain ⟨_, -, hvalue⟩ := mem_filterMap.mp (mem_of_getLast? h)
    exact not_mem_of_isEnvironmentName (forwardedValue_eq_some_iff.mp hvalue).1

theorem mem_finalizeEnvironment_iff (environment : List Text) (home threads : Text)
    (hname : '=' ∉ name) (value : Text) :
    name ++ '=' :: value ∈ (finalizeEnvironment (collectEnvironment environment) home threads).1
      ↔ (launch (collectEnvironment environment).values home threads).1[name]? = some value := by
  rw [← Std.TreeMap.mem_toList_iff_getElem?_eq_some]
  constructor
  · intro h
    obtain ⟨entry, hentry, heq⟩ := mem_map.mp h
    have hkey := not_mem_of_mem_launch hentry
    have hnames := congrArg sourceName heq
    have hvalues := congrArg entryValue heq
    rw [sourceName_append hkey, sourceName_append hname] at hnames
    rw [entryValue_append hkey, entryValue_append hname] at hvalues
    rwa [← hnames, ← hvalues]
  · exact fun h => mem_map.mpr ⟨_, h, rfl⟩

theorem finalizeEnvironment_names_nodup (environment : List Text) (home threads : Text) :
    ((finalizeEnvironment (collectEnvironment environment) home threads).1.map
      sourceName).Nodup := by
  rw [finalizeEnvironment, map_map, Nodup, pairwise_map]
  refine Std.TreeMap.distinct_keys_toList.imp_of_mem fun hleft hright hne heq => hne ?_
  dsimp only [Function.comp_apply] at heq
  rw [sourceName_append (not_mem_of_mem_launch hleft),
    sourceName_append (not_mem_of_mem_launch hright)] at heq
  exact Std.compare_eq_iff_eq.mpr heq

/-- **The guest's environment is isolated from the host's.** Its names are pairwise distinct; the
    three launcher variables have the launcher's values; any other variable is there exactly with
    the value of the last well-formed entry for its prefixed name; and entries without the prefix
    have no influence on it. -/
theorem finalizeEnvironment_isolated (environment : List Text) (home threads : Text) :
    let guest := (finalizeEnvironment (collectEnvironment environment) home threads).1
    (guest.map sourceName).Nodup
      ∧ "HOME".toList ++ '=' :: home ∈ guest
      ∧ "NATIVE_GUEST_THREADS".toList ++ '=' :: threads ∈ guest
      ∧ "DYLD_SHARED_REGION".toList ++ '=' :: "private".toList ∈ guest
      ∧ (∀ name value, '=' ∉ name → name ∉ launcherNames →
          (name ++ '=' :: value ∈ guest
            ↔ (environment.filterMap (forwardedValue name)).getLast? = some value))
      ∧ ∀ environment' : List Text,
          environment'.filter (environmentPrefix.isPrefixOf ·)
              = environment.filter (environmentPrefix.isPrefixOf ·) →
            (finalizeEnvironment (collectEnvironment environment') home threads).1 = guest := by
  have hmem {name : Text} (h : '=' ∉ name) (value : Text) :=
    mem_finalizeEnvironment_iff environment home threads h value
  refine ⟨finalizeEnvironment_names_nodup environment home threads, ?_, ?_, ?_, ?_, ?_⟩
  · rw [hmem (by decide), getElem?_launch, if_neg (by decide), if_neg (by decide), if_pos rfl]
  · rw [hmem (by decide), getElem?_launch, if_neg (by decide), if_pos rfl]
  · rw [hmem (by decide), getElem?_launch, if_pos rfl]
  · intro name value hname hother
    rw [hmem hname, getElem?_launch_of_not_mem _ _ _ hother, getElem?_collectEnvironment]
  · intro environment' hagree
    rw [← collectEnvironment_filter environment', hagree, collectEnvironment_filter]

/-- A forwarded variable, a forwarded `HOME` and a variable of the host. -/
theorem finalizeEnvironment_isolated_forwarded :
    let environment := ["LC32_GUEST_ENV_A=1".toList, "LC32_GUEST_ENV_HOME=/x".toList,
      "LC32_GUEST_ENV_A=2=".toList, "A=3".toList]
    "A=2=".toList
      ∈ (finalizeEnvironment (collectEnvironment environment) "/h".toList "1".toList).1 := by
  intro environment
  exact ((finalizeEnvironment_isolated environment "/h".toList "1".toList).2.2.2.2.1
    "A".toList "2=".toList
    (by decide) (by decide)).mpr (by decide)

end LiveExec32.GuestBootstrap
