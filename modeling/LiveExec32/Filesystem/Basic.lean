import LiveExec32.Lib.Paths
import Mathlib.Data.List.DropRight

/-! # The guest's file system

`LC32Filesystem` maps guest paths to host paths through a list of mount points. A guest path is
first normalized as a string: `.` and `..` are folded away in place, so that no path with `..`
reaches the host. Then the first mount point whose guest directory is a prefix of it, up to a slash,
is replaced by its host directory. The mount point `/` is the fallback. The same search, with the
two columns of the table exchanged, maps host paths back.

A path is the list of its bytes, without the terminating zero; the buffers have `PATH_MAX` bytes. -/

namespace LiveExec32.Filesystem

open Paths (Path dot dotDot)

def pathMax : ℕ := 1024

inductive Errno where
  | EINVAL
  | ENOENT
  | ENAMETOOLONG
  /-- What `getcwd` failed with. -/
  | getcwd
deriving DecidableEq, Repr

def rootPath : Path := ['/']

/-! ## Normalization -/

/-- The buffer and, for each component kept in it, the length before that component, last first. -/
structure Normalizer where
  output : Path := rootPath
  componentRewind : List ℕ := []
deriving DecidableEq, Repr

namespace Normalizer

/-- What goes between the buffer and a further component. -/
def separator (output : Path) : Path := if output.length = 1 then [] else ['/']

/-- One component of the input. -/
def add (s : Normalizer) (component : Path) : Except Errno Normalizer :=
  if component = [] || component = dot then .ok s
  else if component = dotDot then
    match s.componentRewind with
    | [] => .ok s
    | length :: rest => .ok { output := s.output.take length, componentRewind := rest }
  else if pathMax - s.output.length - (separator s.output).length ≤ component.length then
    .error .ENAMETOOLONG
  else
    .ok
      { output := s.output ++ separator s.output ++ component
        componentRewind := s.output.length :: s.componentRewind }

/-- The loop over the input; every round consumes a byte. -/
def addAll : ℕ → Path → Normalizer → Except Errno Normalizer
  | 0, _, s => .ok s
  | fuel + 1, input, s =>
    if input = [] then .ok s
    else
      let rest := input.dropWhile (fun c => c == '/')
      match s.add (rest.takeWhile (fun c => c != '/')) with
      | .error error => .error error
      | .ok s' => addAll fuel (rest.dropWhile (fun c => c != '/')) s'

end Normalizer

/-- The last component, for an absolute path. -/
def terminalComponent (input : Path) : Path :=
  (input.rdropWhile (fun c => c == '/')).rtakeWhile (fun c => c != '/')

def preserveTerminalDirectoryComponent (input : Path) : Bool :=
  terminalComponent input = dot || terminalComponent input = dotDot

/-- `output` with the end that makes it name a directory if the input did. -/
def finishNormalized (input output : Path) : Except Errno Path :=
  if preserveTerminalDirectoryComponent input then
    let suffix := Normalizer.separator output ++ dot
    if pathMax ≤ output.length + suffix.length then .error .ENAMETOOLONG else .ok (output ++ suffix)
  else if 1 < input.length && input.getLast? = some '/' && 1 < output.length then
    if pathMax ≤ output.length + 1 then .error .ENAMETOOLONG else .ok (output ++ ['/'])
  else .ok output

def normalizeGuestAbsolutePath (input : Path) : Except Errno Path :=
  if input.head? ≠ some '/' then .error .EINVAL
  else if pathMax ≤ input.length then .error .ENAMETOOLONG
  else
    match Normalizer.addAll input.length input {} with
    | .error error => .error error
    | .ok s => finishNormalized input s.output

/-! ## Mount points -/

structure Mount where
  guest : Path
  host : Path
deriving DecidableEq, Repr

/-- Whether `target` is `base` or below it. -/
def isSubpath (target base : Path) : Bool :=
  base.isPrefixOf target
    && ((target.drop base.length).head? = none || (target.drop base.length).head? = some '/')

/-- The result of a `snprintf` into a buffer of `PATH_MAX` bytes. -/
def bounded (output : Path) : Except Errno Path :=
  if pathMax ≤ output.length then .error .ENAMETOOLONG else .ok output

/-- The loop of `pathLeftToRight`. -/
def translateFrom (rightRootfsPath : Path) : List (Path × Path) → Path → Except Errno Path
  | [], input => bounded (rightRootfsPath ++ input)
  | (left, right) :: rest, input =>
    if left = rootPath then translateFrom right rest input
    else if isSubpath input left then
      let suffix := input.drop left.length
      bounded ((if right = rootPath && suffix ≠ [] then [] else right) ++ suffix)
    else translateFrom rightRootfsPath rest input

def pathLeftToRight (pairs : List (Path × Path)) (input : Path) : Except Errno Path :=
  if input.head? ≠ some '/' then .error .EINVAL else translateFrom [] pairs input

/-- The mount points in the order in which they were added. -/
abbrev Mounts := List Mount

namespace Mounts

def guestToHost (mounts : Mounts) : List (Path × Path) := mounts.map fun m => (m.guest, m.host)

def hostToGuest (mounts : Mounts) : List (Path × Path) := mounts.map fun m => (m.host, m.guest)

def pathHostToGuest (mounts : Mounts) (input : Path) : Except Errno Path :=
  pathLeftToRight mounts.hostToGuest input

/-- The absolute guest path that `pathGuestToHost` normalizes. -/
def absoluteGuestPath (mounts : Mounts) (getcwd : Option Path) (input : Path) :
    Except Errno Path :=
  if input.head? = some '/' then .ok input
  else
    match getcwd with
    | none => .error .getcwd
    | some hostCWD =>
      match mounts.pathHostToGuest hostCWD with
      | .error error => .error error
      | .ok guestCWD => bounded (guestCWD ++ ['/'] ++ input)

/-- `getcwd` is the host's working directory. -/
def pathGuestToHost (mounts : Mounts) (getcwd : Option Path) (input : Path) : Except Errno Path :=
  if input = [] then .error .ENOENT
  else
    match mounts.absoluteGuestPath getcwd input with
    | .error error => .error error
    | .ok guestPath =>
      match normalizeGuestAbsolutePath guestPath with
      | .error error => .error error
      | .ok normalizedPath => pathLeftToRight mounts.guestToHost normalizedPath

end Mounts

end LiveExec32.Filesystem
