import Curator.Basic
import Curator.Support.Search

/-!
# Znode paths

`paths.go` splits, joins and validates slash-separated znode paths.  The
functions are translated statement by statement: `strings.LastIndex` and
`strings.Index` become `ListSearch.lastIndexOf` and `ListSearch.indexOf`,
slices become `take` and `drop`, and the `bytes.Buffer` of `JoinPath` an
accumulated list.

`ValidatePath` walks the code points of the path with their byte offsets; the
offsets only appear in the error texts.  Its byte look-ups `path[i-2]` and
`path[i+1]` are made next to a one-byte `'.'`, so they read the code point
before the previous one and the code point after the current one.
-/

namespace Curator

open ListSearch

/-- `PATH_SEPARATOR`. -/
def pathSeparator : GoString := ['/']

/-- `GetNodeFromPath`: the text after the last separator. -/
def getNodeFromPath (path : GoString) : GoString :=
  match lastIndexOf pathSeparator path with
  | none => path
  | some idx => if idx + 1 ≥ path.length then [] else path.drop (idx + 1)

/-- A `PathAndNode`. -/
structure PathAndNode where
  path : GoString
  node : GoString
  deriving DecidableEq, Repr

/-- `SplitPath`, whose error result is always nil. -/
def splitPath (path : GoString) : PathAndNode :=
  match lastIndexOf pathSeparator path with
  | none => ⟨path, []⟩
  | some idx =>
    if idx > 0 then ⟨path.take idx, path.drop (idx + 1)⟩
    else ⟨pathSeparator, path.drop (idx + 1)⟩

/-- One pass of `JoinPath`'s loop over the children. -/
def joinChild (path child : GoString) : GoString :=
  if child.length = 0 ∨ child = pathSeparator then
    if path.length = 0 then path ++ pathSeparator else path
  else
    let child := if pathSeparator.isPrefixOf child then child.drop 1 else child
    let child := if pathSeparator.isSuffixOf child then child.dropLast else child
    path ++ pathSeparator ++ child

/-- What `JoinPath` writes for the parent before its loop: the parent with
one leading separator and without a trailing one. -/
def joinParent (parent : GoString) : GoString :=
  if parent.length > 0 then
    (if pathSeparator.isPrefixOf parent then [] else pathSeparator) ++
      (if pathSeparator.isSuffixOf parent then parent.dropLast else parent)
  else []

/-- `JoinPath(parent, children...)`. -/
def joinPath (parent : GoString) (children : List GoString) : GoString :=
  children.foldl joinChild (joinParent parent)

/-- `unicode.In(c, invalidCharaters)`: the four ranges of the table. -/
def invalidCharaters (c : Char) : Bool :=
  c.toNat ≤ 0x001f || (0x007f ≤ c.toNat && c.toNat ≤ 0x009f) ||
    (0xd800 ≤ c.toNat && c.toNat ≤ 0xf8ff) || (0xfff0 ≤ c.toNat && c.toNat ≤ 0xffff)

/-- `ValidatePath`'s loop from the second code point on: `c` at byte offset
`i`, after `lastc`, itself after `before`. -/
def validatePathLoop : (before lastc : Char) → (i : ℕ) → GoString → Option ZkError
  | _, _, _, [] => none
  | before, lastc, i, c :: rest =>
    -- `i+1 == len(path) || path[i+1] == '/'`, read after a one-byte `'.'`
    let endsSegment : Bool := match rest with
      | [] => true
      | d :: _ => d == '/'
    if c.toNat = 0 then some (.message ("null character not allowed @ " ++ toString i))
    else if c = '/' ∧ lastc = '/' then
      some (.message ("empty node name specified @ " ++ toString i))
    else if c = '.' ∧ lastc = '.' then
      if before = '/' ∧ endsSegment then
        some (.message ("relative paths not allowed @ " ++ toString i))
      else validatePathLoop lastc c (i + c.utf8Size) rest
    else if c = '.' then
      if lastc = '/' ∧ endsSegment then
        some (.message ("relative paths not allowed @ " ++ toString i))
      else validatePathLoop lastc c (i + c.utf8Size) rest
    else if invalidCharaters c then some (.message ("invalid charater @ " ++ toString i))
    else validatePathLoop lastc c (i + c.utf8Size) rest

/-- `ValidatePath`: `none` is a nil error.  The loop starts at the second code
point with `lastc = '/'`; the code point before that is never read there. -/
def validatePath (path : GoString) : Option ZkError :=
  if path.length = 0 then some (.message "Path cannot be null")
  else if !pathSeparator.isPrefixOf path then
    some (.message "Path must start with / character")
  else if path.length = 1 then none
  else if pathSeparator.isSuffixOf path then
    some (.message "Path must not end with / character")
  else validatePathLoop '/' '/' 1 path.tail

/-! ### Joining paths of known shape -/

section Join

/-- A text with no separator at either end, such as a namespace or a node
name, is prefixed with the separator. -/
theorem joinParent_of_bare {s : GoString} (hs : s ≠ [])
    (hhead : s.head? ≠ some '/') (hlast : s.getLast? ≠ some '/') :
    joinParent s = '/' :: s := by
  have hlen : s.length > 0 := List.length_pos_iff.mpr hs
  have hpre : ¬ ['/'] <+: s := by rwa [List.singleton_prefix_iff_head?_eq_some]
  have hsuf : ¬ ['/'] <:+ s := by rwa [List.singleton_suffix_iff_getLast?_eq_some]
  simp [joinParent, hlen, pathSeparator, hpre, hsuf]

/-- A path that starts with the separator and does not end with it is kept. -/
theorem joinParent_of_child {r : GoString} (hr : r ≠ [])
    (hlast : r.getLast? ≠ some '/') : joinParent ('/' :: r) = '/' :: r := by
  have hcons : ('/' :: r).getLast? = r.getLast? := by
    obtain ⟨d, ds, rfl⟩ := List.exists_cons_of_ne_nil hr
    simp
  have hsuf : ¬ ['/'] <:+ ('/' :: r) := by
    rwa [List.singleton_suffix_iff_getLast?_eq_some, hcons]
  simp [joinParent, pathSeparator, hsuf]

/-- The root contributes nothing before the loop. -/
theorem joinParent_root : joinParent pathSeparator = [] := by
  decide

/-- A child with no separator at either end is appended after one. -/
theorem joinChild_of_bare (path : GoString) {child : GoString} (hc : child ≠ [])
    (hhead : child.head? ≠ some '/') (hlast : child.getLast? ≠ some '/') :
    joinChild path child = path ++ '/' :: child := by
  have hlen : child.length ≠ 0 := by simpa using hc
  have hne : child ≠ ['/'] := by
    rintro rfl
    exact hhead rfl
  have hpre : ¬ ['/'] <+: child := by rwa [List.singleton_prefix_iff_head?_eq_some]
  have hsuf : ¬ ['/'] <:+ child := by rwa [List.singleton_suffix_iff_getLast?_eq_some]
  simp [joinChild, hlen, hne, pathSeparator, hpre, hsuf]

/-- A child path that starts with the separator and does not end with it is
appended as it is. -/
theorem joinChild_of_child (path : GoString) {r : GoString} (hr : r ≠ [])
    (hlast : r.getLast? ≠ some '/') : joinChild path ('/' :: r) = path ++ '/' :: r := by
  have hsuf : ¬ ['/'] <:+ r := by rwa [List.singleton_suffix_iff_getLast?_eq_some]
  simp [joinChild, hr, pathSeparator, hsuf]

/-- The root as a child adds nothing to a non-empty path. -/
theorem joinChild_root {path : GoString} (hp : path ≠ []) :
    joinChild path pathSeparator = path := by
  simp [joinChild, hp]

/-- The node of a path whose last separator stands before `name`. -/
theorem getNodeFromPath_append {pre name : GoString} (hsep : '/' ∉ name) :
    getNodeFromPath (pre ++ '/' :: name) = name := by
  have hlast : lastIndexOf pathSeparator (pre ++ '/' :: name) = some pre.length :=
    lastIndexOf_singleton_append hsep pre
  simp [getNodeFromPath, hlast]

end Join

end Curator
