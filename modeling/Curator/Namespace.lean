import Curator.PathGrammar

/-!
# Namespaces

`namespace.go` prefixes every path a namespaced framework sends with its
namespace (`FixForNamespace`) and strips it again from the paths the server
reports (`namespaceImpl.unfixForNamespace`).  `newNamespace` falls back to no
namespace when `"/" + namespace` is not a valid path.

The `ensurePath` side effect of `namespaceImpl.fixForNamespace` is modelled
with `EnsurePath`; here only the path computations are.
-/

namespace Curator

/-- `FixForNamespace(namespace, path, isSequential)`, whose error result is
always nil and which ignores `isSequential`. -/
def fixForNamespace (nspace path : GoString) (_isSequential : Bool) : GoString :=
  if nspace.length > 0 then joinPath nspace [path] else path

/-- The fields of `namespaceImpl` its path functions read: the namespace and
the path of the `EnsurePath` made for it, if any. -/
structure NamespaceImpl where
  nspace : GoString
  ensurePath : Option GoString
  deriving DecidableEq, Repr

/-- `newNamespace(client, namespace)`: an invalid namespace is logged and
replaced by none. -/
def newNamespace (nspace : GoString) : NamespaceImpl :=
  if nspace.length > 0 then
    match validatePath ('/' :: nspace) with
    | some _ => ⟨[], none⟩
    | none => ⟨nspace, some (joinPath pathSeparator [nspace])⟩
  else ⟨nspace, none⟩

/-- `namespaceImpl.unfixForNamespace(path)`: strip the text of
`JoinPath(namespace)` from a path that starts with it. -/
def unfixForNamespace (nspace path : GoString) : GoString :=
  if nspace.length > 0 ∧ path.length > 0 then
    let nsPrefix := joinPath nspace []
    if nsPrefix.isPrefixOf path then
      if nsPrefix.length < path.length then path.drop nsPrefix.length
      else pathSeparator
    else path
  else path

/-! ### The shape of namespaced paths

A namespace accepted by `newNamespace` neither starts nor ends with the
separator, and a valid path other than the root starts with it and does not
end with it.  Under these shapes fixing prepends `"/" + namespace` and
unfixing removes it again. -/

section Shapes

variable {nspace : GoString} (hns : nspace ≠ [])
  (hhead : nspace.head? ≠ some '/') (hlast : nspace.getLast? ≠ some '/')
include hns hhead hlast

/-- Fixing a path that starts with the separator and does not end with it. -/
theorem fixForNamespace_of_child {r : GoString} (hr : r ≠ [])
    (hrlast : r.getLast? ≠ some '/') (b : Bool) :
    fixForNamespace nspace ('/' :: r) b = '/' :: (nspace ++ '/' :: r) := by
  have hlen : nspace.length > 0 := List.length_pos_iff.mpr hns
  simp only [fixForNamespace, hlen, if_true, joinPath, List.foldl_cons, List.foldl_nil,
    joinParent_of_bare hns hhead hlast, joinChild_of_child _ hr hrlast, List.cons_append]

/-- Fixing the root gives the namespace node itself. -/
theorem fixForNamespace_root (b : Bool) :
    fixForNamespace nspace pathSeparator b = '/' :: nspace := by
  have hlen : nspace.length > 0 := List.length_pos_iff.mpr hns
  simp only [fixForNamespace, hlen, if_true, joinPath, List.foldl_cons, List.foldl_nil,
    joinParent_of_bare hns hhead hlast]
  exact joinChild_root (List.cons_ne_nil _ _)

/-- Unfixing removes the namespace from a path below it. -/
theorem unfixForNamespace_of_child (r : GoString) :
    unfixForNamespace nspace ('/' :: (nspace ++ '/' :: r)) = '/' :: r := by
  have hlen : nspace.length > 0 := List.length_pos_iff.mpr hns
  have hjoin : joinPath nspace [] = '/' :: nspace := joinParent_of_bare hns hhead hlast
  have hpre : ('/' :: nspace).isPrefixOf ('/' :: (nspace ++ '/' :: r)) = true := by
    rw [List.isPrefixOf_iff_prefix, ← List.cons_append]
    exact List.prefix_append _ _
  have hlt : ('/' :: nspace).length < ('/' :: (nspace ++ '/' :: r)).length := by
    simp
  have hdrop : ('/' :: (nspace ++ '/' :: r)).drop ('/' :: nspace).length = '/' :: r := by
    rw [← List.cons_append]
    exact List.drop_left
  have hpath : ('/' :: (nspace ++ '/' :: r)).length > 0 := by simp
  unfold unfixForNamespace
  rw [if_pos ⟨hlen, hpath⟩]
  simp only [hjoin, hpre, if_true]
  rw [if_pos hlt, hdrop]

/-- Unfixing the namespace node gives the root. -/
theorem unfixForNamespace_root :
    unfixForNamespace nspace ('/' :: nspace) = pathSeparator := by
  have hlen : nspace.length > 0 := List.length_pos_iff.mpr hns
  have hjoin : joinPath nspace [] = '/' :: nspace := joinParent_of_bare hns hhead hlast
  simp [unfixForNamespace, hlen, hjoin]

end Shapes

open ListSegments in
/-- A namespace `newNamespace` accepts has the shapes above, so fixing a valid
path gives a valid path below the namespace, and unfixing gives it back. -/
theorem fixForNamespace_of_valid {nspace : GoString} (hns : nspace ≠ [])
    (hvalid : validatePath ('/' :: nspace) = none) {p : GoString}
    (hp : validatePath p = none) (b : Bool) :
    fixForNamespace nspace p b =
        (if p = pathSeparator then '/' :: nspace else '/' :: (nspace ++ p)) ∧
      validatePath (fixForNamespace nspace p b) = none ∧
      unfixForNamespace nspace (fixForNamespace nspace p b) = p := by
  have hnsRoot : '/' :: nspace ≠ pathSeparator := by simpa [pathSeparator] using hns
  obtain ⟨segs, hsegs, hnames, hjoin⟩ : ∃ segs, segs ≠ [] ∧
      (∀ s ∈ segs, NodeName goPathChar s) ∧ '/' :: nspace = joinSegments '/' segs :=
    ((validatePath_eq_none_iff _).mp hvalid).resolve_left hnsRoot
  obtain ⟨s, rest, rfl⟩ := List.exists_cons_of_ne_nil hsegs
  have hnspace : nspace = s ++ joinSegments '/' rest := by simpa using hjoin
  have hhead : nspace.head? ≠ some '/' := by
    have hs := hnames s List.mem_cons_self
    obtain ⟨c, cs, hc⟩ := List.exists_cons_of_ne_nil hs.ne_nil
    rw [hnspace, hc]
    simpa [hc] using hs.head?_ne
  have hlast : nspace.getLast? ≠ some '/' := hnspace ▸ (joinSegments_cons_shape hnames).2
  rcases validatePath_shape hp with rfl | ⟨r, rfl, hr, hrlast⟩
  · rw [fixForNamespace_root hns hhead hlast, unfixForNamespace_root hns hhead hlast]
    exact ⟨rfl, hvalid, rfl⟩
  have hroot : '/' :: r ≠ pathSeparator := by simpa [pathSeparator] using hr
  rw [fixForNamespace_of_child hns hhead hlast hr hrlast,
    unfixForNamespace_of_child hns hhead hlast, if_neg hroot]
  refine ⟨rfl, ?_, rfl⟩
  obtain ⟨segs', hsegs', hnames', hjoin'⟩ : ∃ segs, segs ≠ [] ∧
      (∀ s ∈ segs, NodeName goPathChar s) ∧ '/' :: r = joinSegments '/' segs :=
    ((validatePath_eq_none_iff _).mp hp).resolve_left hroot
  refine (validatePath_eq_none_iff _).mpr (.inr ⟨s :: rest ++ segs', by simp, ?_, ?_⟩)
  · intro x hx
    rcases List.mem_append.mp hx with hx | hx
    · exact hnames x hx
    · exact hnames' x hx
  · rw [joinSegments_append, ← hjoin, ← hjoin', List.cons_append]

/-- The namespace `a` and the valid path `/ab`, which is neither `/a` nor
below it: the prefix test of `unfixForNamespace` compares text, not
segments, so it cuts `/a` off `/ab` and answers `b`. -/
theorem unfixForNamespace_cuts_sibling :
    (newNamespace "a".toList).nspace = "a".toList ∧ validatePath "/ab".toList = none ∧
      "/ab".toList ≠ "/a".toList ∧ "/a/".toList.isPrefixOf "/ab".toList = false ∧
      unfixForNamespace "a".toList "/ab".toList = "b".toList := by
  decide

end Curator
