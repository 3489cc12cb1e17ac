import Curator.PathGrammar
import Mathlib.Data.List.GetD
import Mathlib.Data.List.Induction

/-!
# Joining and splitting valid paths

Over the path grammar, `JoinPath` keeps a valid parent as it is (the root as
nothing) and writes each node name after one separator, so that
`joinPath q names` is `q` followed by the joined names
(`joinPath_eq_joinSegments`).  `SplitPath` cuts at the last separator, which
stands right before the last node name: it takes off one name at a time, and
at the root parent it answers `/`, which `JoinPath` did not write.
-/

namespace Curator

open ListSearch ListSegments

/-- `SplitPath` applied `k` times, each time to the path the one before
answered: the answers in order. -/
def splitPathTimes : ℕ → GoString → List PathAndNode
  | 0, _ => []
  | k + 1, p => splitPath p :: splitPathTimes k (splitPath p).path

/-- The answers that take `names` off `joinPath q names` one at a time: the
`j`-th name, for `j` from the last down to the first, with the path the names
before it make under `q`. -/
def peeledAnswers (q : GoString) (names : List GoString) : List PathAndNode :=
  (List.range names.length).reverse.map fun j =>
    ⟨if j = 0 then q else joinPath q (names.take j), names.getD j []⟩

section NodeNames

variable {ok : Char → Prop}

theorem joinChild_of_nodeName (path : GoString) {n : GoString} (hn : NodeName ok n) :
    joinChild path n = path ++ '/' :: n :=
  joinChild_of_bare path hn.ne_nil hn.head?_ne hn.getLast?_ne

/-- `JoinPath`'s loop over node names writes each after one separator. -/
theorem foldl_joinChild_of_nodeNames :
    ∀ {names : List GoString}, (∀ n ∈ names, NodeName ok n) → ∀ (path : GoString),
      names.foldl joinChild path = path ++ joinSegments '/' names
  | [], _, path => by simp
  | n :: names, hnames, path => by
    rw [List.foldl_cons, joinChild_of_nodeName path (hnames n List.mem_cons_self),
      foldl_joinChild_of_nodeNames (fun x hx => hnames x (List.mem_cons_of_mem n hx))]
    simp

/-- A joined sequence of node names starts with the separator and does not
end with one, so `JoinPath` keeps it as a parent. -/
theorem joinParent_joinSegments {segs : List GoString} (hne : segs ≠ [])
    (hnames : ∀ s ∈ segs, NodeName ok s) :
    joinParent (joinSegments '/' segs) = joinSegments '/' segs := by
  obtain ⟨s, rest, rfl⟩ := List.exists_cons_of_ne_nil hne
  obtain ⟨hr, hlast⟩ := joinSegments_cons_shape hnames
  rw [joinSegments_cons]
  exact joinParent_of_child hr hlast

theorem joinSegments_ne_pathSeparator {segs : List GoString}
    (hnames : ∀ s ∈ segs, NodeName ok s) : joinSegments '/' segs ≠ pathSeparator := by
  intro h
  cases segs with
  | nil => simp [pathSeparator] at h
  | cons s rest =>
    have hs : s ≠ [] := (hnames s List.mem_cons_self).ne_nil
    simp [pathSeparator, hs] at h

end NodeNames

/-- A path in the grammar other than the root is a parent text, empty for the
root, followed by a separator and a node name. -/
theorem ZnodePath.exists_parent {ok : Char → Prop} {x : GoString} (h : ZnodePath ok x)
    (hroot : x ≠ pathSeparator) :
    ∃ pre name, x = pre ++ '/' :: name ∧ NodeName ok name ∧ pre ≠ pathSeparator ∧
      (pre = [] ∨ ZnodePath ok pre) := by
  obtain ⟨segs, hne, hnames, rfl⟩ := h.resolve_left hroot
  obtain ⟨init, name, rfl⟩ : ∃ init name, segs = init ++ [name] :=
    ⟨segs.dropLast, segs.getLast hne, (List.dropLast_append_getLast hne).symm⟩
  have hinit : ∀ s ∈ init, NodeName ok s := fun s hs => hnames s (by simp [hs])
  refine ⟨joinSegments '/' init, name, joinSegments_concat '/' init name, hnames name (by simp),
    joinSegments_ne_pathSeparator hinit, ?_⟩
  by_cases hnil : init = []
  · exact .inl (by simp [hnil])
  · exact .inr (.inr ⟨init, hnil, hinit, rfl⟩)

/-! ### `JoinPath` over the grammar -/

section Join

variable {ok : Char → Prop}

/-- `JoinPath` writes a parent in the grammar as it is, the root as nothing. -/
theorem joinParent_of_znodePath {q : GoString} (hq : ZnodePath ok q) :
    joinParent q = if q = pathSeparator then [] else q := by
  rcases hq with rfl | ⟨segs, hne, hnames, rfl⟩
  · rw [if_pos rfl, joinParent_root]
  · rw [if_neg (joinSegments_ne_pathSeparator hnames), joinParent_joinSegments hne hnames]

theorem joinPath_eq_joinSegments {q : GoString} (hq : ZnodePath ok q)
    {names : List GoString} (hnames : ∀ n ∈ names, NodeName ok n) :
    joinPath q names = (if q = pathSeparator then [] else q) ++ joinSegments '/' names := by
  rw [joinPath, foldl_joinChild_of_nodeNames hnames, joinParent_of_znodePath hq]

/-- Node names joined under a path in the grammar give a path in the grammar. -/
theorem znodePath_joinPath {q : GoString} (hq : ZnodePath ok q) {names : List GoString}
    (hne : names ≠ []) (hnames : ∀ n ∈ names, NodeName ok n) :
    ZnodePath ok (joinPath q names) := by
  rw [joinPath_eq_joinSegments hq hnames]
  rcases hq with rfl | ⟨segs, hsegs, hsnames, rfl⟩
  · exact .inr ⟨names, hne, hnames, by simp⟩
  · rw [if_neg (joinSegments_ne_pathSeparator hsnames), ← joinSegments_append]
    refine .inr ⟨segs ++ names, by simp [hsegs], fun s hs => ?_, rfl⟩
    rcases List.mem_append.mp hs with hs | hs
    · exact hsnames s hs
    · exact hnames s hs

end Join

/-! ### `SplitPath` over the grammar -/

section Split

variable {ok : Char → Prop}

/-- `SplitPath` cuts before a last name that holds no separator; an empty
path before it is answered as the root. -/
theorem splitPath_append {name : GoString} (hsep : '/' ∉ name) (pre : GoString) :
    splitPath (pre ++ '/' :: name) = ⟨if pre = [] then pathSeparator else pre, name⟩ := by
  have hlast : lastIndexOf pathSeparator (pre ++ '/' :: name) = some pre.length :=
    lastIndexOf_singleton_append hsep pre
  by_cases hpre : pre = []
  · subst hpre
    rw [List.nil_append, List.length_nil] at hlast
    simp [splitPath, hlast]
  · have hlen : pre.length > 0 := List.length_pos_iff.mpr hpre
    simp [splitPath, hlast, hlen, hpre]

/-- One split takes the last name off a join. -/
theorem splitPath_joinPath_concat {q : GoString} (hq : ZnodePath ok q)
    {names : List GoString} (hnames : ∀ n ∈ names, NodeName ok n) {n : GoString}
    (hn : NodeName ok n) :
    splitPath (joinPath q (names ++ [n])) = ⟨if names = [] then q else joinPath q names, n⟩ := by
  have hall : ∀ x ∈ names ++ [n], NodeName ok x := by
    intro x hx
    rcases List.mem_append.mp hx with hx | hx
    · exact hnames x hx
    · rw [List.mem_singleton.mp hx]; exact hn
  rw [joinPath_eq_joinSegments hq hall, joinSegments_concat, ← List.append_assoc,
    splitPath_append hn.sep_not_mem, joinPath_eq_joinSegments hq hnames]
  congr 1
  by_cases hns : names = []
  · subst hns
    by_cases hroot : q = pathSeparator
    · simp [hroot]
    · simp [hroot, hq.ne_nil]
  · have hjoin : joinSegments '/' names ≠ [] := joinSegments_ne_nil '/' hns
    simp [hns, hjoin]

theorem peeledAnswers_concat (q : GoString) {init : List GoString} (hinit : init ≠ [])
    (n : GoString) :
    peeledAnswers q (init ++ [n]) = ⟨joinPath q init, n⟩ :: peeledAnswers q init := by
  have hlen : init.length ≠ 0 := by simpa using hinit
  simp only [peeledAnswers, List.length_append, List.length_singleton, List.range_succ,
    List.reverse_append, List.reverse_singleton, List.singleton_append, List.map_cons]
  congr 1
  · simp [hlen]
  · refine List.map_congr_left fun j hj => ?_
    have hj : j < init.length := List.mem_range.mp (List.mem_reverse.mp hj)
    rw [List.take_append_of_le_length (Nat.le_of_lt hj), List.getD_append _ _ _ _ hj]

/-- Splitting a join of node names as many times as there are names takes
them off from the last one on, each with the path of the names before it, and
ends at the parent. -/
theorem splitPathTimes_joinPath {q : GoString} (hq : ZnodePath ok q) :
    ∀ {names : List GoString}, names ≠ [] → (∀ n ∈ names, NodeName ok n) →
      splitPathTimes names.length (joinPath q names) = peeledAnswers q names := by
  intro names
  induction names using List.reverseRecOn with
  | nil => intro h; exact absurd rfl h
  | append_singleton init n ih =>
    intro _ hnames
    have hinit : ∀ x ∈ init, NodeName ok x := fun x hx => hnames x (by simp [hx])
    have hn : NodeName ok n := hnames n (by simp)
    rw [List.length_append, List.length_singleton, splitPathTimes,
      splitPath_joinPath_concat hq hinit hn]
    by_cases hnil : init = []
    · subst hnil
      simp [splitPathTimes, peeledAnswers]
    · simp only [if_neg hnil]
      rw [ih hnil hinit, peeledAnswers_concat q hnil]

/-- A valid path other than the root is its parent joined with its node. -/
theorem splitPath_of_znodePath {p : GoString} (hp : ZnodePath ok p)
    (hroot : p ≠ pathSeparator) :
    getNodeFromPath p = (splitPath p).node ∧
      joinPath (splitPath p).path [(splitPath p).node] = p := by
  rcases hp with h | ⟨segs, hne, hnames, rfl⟩
  · exact absurd h hroot
  obtain ⟨init, n, hsplit⟩ : ∃ init n, segs = init ++ [n] :=
    ⟨segs.dropLast, segs.getLast hne, (List.dropLast_append_getLast hne).symm⟩
  subst hsplit
  have hinit : ∀ x ∈ init, NodeName ok x := fun x hx => hnames x (by simp [hx])
  have hn : NodeName ok n := hnames n (by simp)
  have hpath : joinSegments '/' (init ++ [n]) = joinPath pathSeparator (init ++ [n]) := by
    rw [joinPath_eq_joinSegments (.inl rfl) hnames]
    simp
  refine ⟨?_, ?_⟩
  · rw [joinSegments_concat, getNodeFromPath_append hn.sep_not_mem,
      splitPath_append hn.sep_not_mem]
  · rw [hpath, splitPath_joinPath_concat (.inl rfl) hinit hn]
    by_cases hnil : init = []
    · simp [hnil]
    · have hparent : ZnodePath ok (joinPath pathSeparator init) :=
        znodePath_joinPath (.inl rfl) hnil hinit
      have hall : ∀ x ∈ init ++ [n], NodeName ok x := hnames
      simp only [if_neg hnil]
      rw [joinPath_eq_joinSegments hparent (by simpa using hn),
        joinPath_eq_joinSegments (.inl rfl) hinit, joinPath_eq_joinSegments (.inl rfl) hall]
      simp [joinSegments_ne_pathSeparator hinit, joinSegments_concat]

end Split

/-- Node names joined under a valid path give a valid path, which splitting
takes apart again name by name down to the parent; and every valid path other
than the root is the join of what `SplitPath` answers for it. -/
theorem joinPath_splitPath_roundTrip :
    (∀ (q : GoString) (names : List GoString), validatePath q = none → names ≠ [] →
      (∀ n ∈ names, NodeName goPathChar n) →
        validatePath (joinPath q names) = none ∧
          splitPathTimes names.length (joinPath q names) = peeledAnswers q names) ∧
    (∀ p : GoString, validatePath p = none → p ≠ pathSeparator →
      getNodeFromPath p = (splitPath p).node ∧
        joinPath (splitPath p).path [(splitPath p).node] = p) := by
  refine ⟨fun q names hq hne hnames => ?_, fun p hp hroot => ?_⟩
  · have hq' : ZnodePath goPathChar q := (validatePath_eq_none_iff q).mp hq
    exact ⟨(validatePath_eq_none_iff _).mpr (znodePath_joinPath hq' hne hnames),
      splitPathTimes_joinPath hq' hne hnames⟩
  · exact splitPath_of_znodePath ((validatePath_eq_none_iff p).mp hp) hroot

theorem joinPath_splitPath_roundTrip_nested :
    let q := "/a".toList
    let names := ["b".toList, "c".toList]
    let p := "/a/b".toList
    (validatePath q = none ∧ names ≠ [] ∧ (∀ n ∈ names, NodeName goPathChar n)) ∧
      (validatePath (joinPath q names) = none ∧
        splitPathTimes names.length (joinPath q names) = peeledAnswers q names) ∧
      (validatePath p = none ∧ p ≠ pathSeparator) ∧
      (getNodeFromPath p = (splitPath p).node ∧
        joinPath (splitPath p).path [(splitPath p).node] = p) := by
  intro q names p
  have hnames : ∀ n ∈ names, NodeName goPathChar n := by decide
  have hq : validatePath q = none ∧ names ≠ [] ∧ (∀ n ∈ names, NodeName goPathChar n) :=
    ⟨by decide, by decide, hnames⟩
  have hp : validatePath p = none ∧ p ≠ pathSeparator := ⟨by decide, by decide⟩
  exact ⟨hq, joinPath_splitPath_roundTrip.1 q names hq.1 hq.2.1 hq.2.2, hp,
    joinPath_splitPath_roundTrip.2 p hp.1 hp.2⟩

end Curator
