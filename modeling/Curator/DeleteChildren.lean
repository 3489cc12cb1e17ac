import Curator.PathSplit
import Curator.Server

/-!
# `DeleteChildren`

`DeleteChildren(conn, path, deleteSelf)` (`paths.go`) lists the children of
`path`, calls itself with `deleteSelf` on `JoinPath(path, child)` for each one,
and then, when `deleteSelf`, deletes `path`: `ErrNotEmpty` (a child created in
between) starts it over, and `ErrNoNode` counts as success.

The connection is the store itself, with no other writer, and the recursion
runs on fuel.  On a tree (valid paths, each filed under a node, none twice), a
call on a node with `n` nodes below it returns nil within `n + 1` levels,
having removed exactly those nodes and, when `deleteSelf`, the node itself
(`deleteChildren_removes_subtree`).  The proof is an induction on the fuel:
the loop over the children removes their subtrees one after another, which
are disjoint and together make up everything below the node.
-/

namespace Curator

open ListSegments

/-- The loop `for _, child := range children` of `DeleteChildren`, `del` being
the call on a child's path: the first error ends it. -/
def deleteChildrenLoop (del : GoString → Store → Option (Option ZkError × Store))
    (path : GoString) : List GoString → Store → Option (Option ZkError × Store)
  | [], st => some (none, st)
  | child :: rest, st =>
    match del (joinPath path [child]) st with
    | none => none
    | some (some e, st') => some (some e, st')
    | some (none, st') => deleteChildrenLoop del path rest st'

/-- `DeleteChildren(conn, path, deleteSelf)` on the store behind `conn`, `none`
when `fuel` levels of recursion do not suffice. -/
def deleteChildren : ℕ → GoString → Bool → Store → Option (Option ZkError × Store)
  | 0, _, _, _ => none
  | fuel + 1, path, deleteSelf, st =>
    match validatePath path with
    | some e => some (some e, st)
    | none =>
      match st.children path with
      | (.error e, st') => some (some e, st')
      | (.ok children, st') =>
        match deleteChildrenLoop (fun child s => deleteChildren fuel child true s) path
            children st' with
        | none => none
        | some (some e, st'') => some (some e, st'')
        | some (none, st'') =>
          if deleteSelf then
            match st''.delete path (-1) with
            | (.ok (), st''') => some (none, st''')
            | (.error e, st''') =>
              if e = .errNotEmpty then deleteChildren fuel path true st'''
              else if e = .errNoNode then some (none, st''')
              else some (some e, st''')
          else some (none, st'')

/-! ### Subtrees -/

/-- What `JoinPath` writes before the separator of a child: nothing for the
root. -/
def childBase (p : GoString) : GoString := if p = pathSeparator then [] else p

/-- `q` lies strictly below `p`. -/
def IsStrictlyBelow (p q : GoString) : Prop := q ≠ p ∧ childBase p ++ ['/'] <+: q

instance (p q : GoString) : Decidable (IsStrictlyBelow p q) :=
  inferInstanceAs (Decidable (q ≠ p ∧ childBase p ++ ['/'] <+: q))

/-- `q` is `p` or lies below it. -/
def InSubtree (p q : GoString) : Prop := q = p ∨ IsStrictlyBelow p q

instance (p q : GoString) : Decidable (InSubtree p q) :=
  inferInstanceAs (Decidable (q = p ∨ IsStrictlyBelow p q))

/-- The store without the nodes whose path satisfies `P`. -/
def Store.removeWhere (st : Store) (P : GoString → Prop) [DecidablePred P] : Store :=
  { st with nodes := st.nodes.filter fun e => !decide (P e.1) }

/-- The number of nodes below `p`. -/
def Store.countBelow (st : Store) (p : GoString) : ℕ :=
  (st.nodes.filter fun e => decide (IsStrictlyBelow p e.1)).length

/-- A store that is a tree: every path is valid and filed under a node, and no
path occurs twice. -/
structure Store.IsTree (st : Store) : Prop where
  valid : ∀ e ∈ st.nodes, validatePath e.1 = none
  parent : ∀ e ∈ st.nodes, e.1 ≠ pathSeparator → (st.lookup (parentOf e.1)).isSome
  nodup : (st.nodes.map Prod.fst).Nodup

section Below

variable {p q x : GoString}

theorem childBase_root : childBase pathSeparator = [] := if_pos rfl

theorem parentOf_root : parentOf pathSeparator = pathSeparator := by decide

theorem childBase_of_ne (h : p ≠ pathSeparator) : childBase p = p := if_neg h

theorem eq_root_of_childBase_nil (hp : p ≠ []) (h : childBase p = []) : p = pathSeparator := by
  by_contra hroot
  rw [childBase_of_ne hroot] at h
  exact hp h

theorem length_le_childBase (p : GoString) : p.length ≤ (childBase p).length + 1 := by
  by_cases hroot : p = pathSeparator
  · simp [hroot, pathSeparator]
  · rw [childBase_of_ne hroot]
    omega

/-- The parent of `pre/name` writes its children after `pre`. -/
theorem childBase_parentOf {pre name : GoString} (hsep : '/' ∉ name)
    (hpre : pre ≠ pathSeparator) : childBase (parentOf (pre ++ '/' :: name)) = pre := by
  rw [parentOf_append hsep]
  split_ifs with hnil
  · rw [hnil, childBase_root]
  · exact childBase_of_ne hpre

/-- A valid path filed under `p` lies below it. -/
theorem isStrictlyBelow_of_parentOf (hx : ZnodePath goPathChar x) (hne : x ≠ p)
    (hparent : parentOf x = p) : IsStrictlyBelow p x := by
  have hroot : x ≠ pathSeparator := by
    rintro rfl
    exact hne (parentOf_root.symm.trans hparent)
  obtain ⟨pre, name, rfl, hname, hpre, -⟩ := hx.exists_parent hroot
  refine ⟨hne, ?_⟩
  rw [← hparent, childBase_parentOf hname.sep_not_mem hpre]
  simp

/-- Nothing lies below the root but other paths. -/
theorem ne_root_of_isStrictlyBelow (hp : p ≠ []) (h : IsStrictlyBelow p x) :
    x ≠ pathSeparator := by
  rintro rfl
  have hnil : childBase p = [] := by
    simpa [pathSeparator] using h.2.length_le
  exact h.1 (eq_root_of_childBase_nil hp hnil).symm

/-- Going up from a valid path below `p` reaches `p` or stays below it. -/
theorem parentOf_of_isStrictlyBelow (hx : ZnodePath goPathChar x) (hp : p ≠ [])
    (h : IsStrictlyBelow p x) : parentOf x = p ∨ IsStrictlyBelow p (parentOf x) := by
  obtain ⟨hne, hpre⟩ := h
  have hroot : x ≠ pathSeparator := ne_root_of_isStrictlyBelow hp ⟨hne, hpre⟩
  obtain ⟨pre, name, rfl, hname, hpreRoot, -⟩ := hx.exists_parent hroot
  rcases List.prefix_concat_iff.mp (sep_prefix_of_prefix_cons '/' hpre hname.sep_not_mem)
    with heq | hbelow
  · left
    have hbase : childBase p = pre := List.append_inj_left' heq rfl
    rw [parentOf_append hname.sep_not_mem]
    by_cases hroot' : p = pathSeparator
    · rw [hroot', childBase_root] at hbase
      simp [← hbase, hroot']
    · rw [childBase_of_ne hroot'] at hbase
      simp [← hbase, hp]
  · right
    have hpreNil : pre ≠ [] := by
      rintro rfl
      simp at hbelow
    rw [parentOf_append hname.sep_not_mem, if_neg hpreNil]
    refine ⟨fun hpreEq => ?_, hbelow⟩
    subst hpreEq
    have hlen := hbelow.length_le
    by_cases hroot' : pre = pathSeparator
    · exact hpreRoot hroot'
    · rw [childBase_of_ne hroot', List.length_append] at hlen
      simp only [List.length_singleton] at hlen
      omega

/-- A subtree holds the children of its nodes. -/
theorem inSubtree_of_parentOf (hx : ZnodePath goPathChar x) (hroot : x ≠ pathSeparator)
    (hq : q ≠ []) (h : InSubtree q (parentOf x)) : InSubtree q x := by
  obtain ⟨pre, name, rfl, hname, hpre, -⟩ := hx.exists_parent hroot
  have hname0 : name ≠ [] := hname.ne_nil
  have hlenq := length_le_childBase q
  right
  rcases h with heq | ⟨hne, hbelow⟩
  · have hbase : childBase q = pre := by
      rw [← heq, childBase_parentOf hname.sep_not_mem hpre]
    refine ⟨fun hxq => ?_, by rw [hbase]; simp⟩
    have hlen := congrArg List.length hxq
    rw [← hbase] at hlen
    simp only [List.length_append, List.length_cons] at hlen
    have := List.length_pos_iff.mpr hname0
    omega
  · have hpreNil : pre ≠ [] := by
      intro hnil
      rw [hnil, parentOf_append hname.sep_not_mem, if_pos rfl] at hne hbelow
      exact hne (eq_root_of_childBase_nil hq (by simpa [pathSeparator] using hbelow.length_le)).symm
    rw [parentOf_append hname.sep_not_mem, if_neg hpreNil] at hbelow
    refine ⟨fun hxq => ?_, hbelow.trans (by simp)⟩
    have hlen := hbelow.length_le
    have hlenx := congrArg List.length hxq
    simp only [List.length_append, List.length_cons] at hlen hlenx
    omega

/-- The subtree of a child lies below the parent. -/
theorem isStrictlyBelow_of_inSubtree_child {c : GoString} (hc : c ≠ [])
    (h : InSubtree (childBase p ++ '/' :: c) x) : IsStrictlyBelow p x := by
  have hlenp := length_le_childBase p
  have hcp : childBase p ++ '/' :: c ≠ pathSeparator := by
    intro h
    have hlen := congrArg List.length h
    simp [pathSeparator] at hlen
    exact hc (List.length_eq_zero_iff.mp (by omega))
  have hclen := List.length_pos_iff.mpr hc
  rcases h with rfl | ⟨-, hbelow⟩
  · refine ⟨fun h => ?_, by simp⟩
    have hlen := congrArg List.length h
    simp only [List.length_append, List.length_cons] at hlen
    omega
  · rw [childBase_of_ne hcp] at hbelow
    refine ⟨fun h => ?_, (by simp : childBase p ++ ['/'] <+: childBase p ++ '/' :: c).trans
      (List.prefix_append _ _ |>.trans hbelow)⟩
    have hlen := hbelow.length_le
    rw [h] at hlen
    simp only [List.length_append, List.length_cons] at hlen
    omega

/-- Two children of one node do not lie in each other's subtrees. -/
theorem not_inSubtree_sibling {b c c' : GoString} (hc : c ≠ []) (hc' : '/' ∉ c')
    (hne : c ≠ c') : ¬ InSubtree (b ++ '/' :: c) (b ++ '/' :: c') := by
  have hcp : b ++ '/' :: c ≠ pathSeparator := by
    intro h
    have hlen := congrArg List.length h
    simp [pathSeparator] at hlen
    exact hc (List.length_eq_zero_iff.mp (by omega))
  rintro (h | ⟨-, hbelow⟩)
  · exact hne (List.cons.inj (List.append_cancel_left h)).2.symm
  · rw [childBase_of_ne hcp, List.append_assoc, List.cons_append,
      List.prefix_append_right_inj, List.cons_prefix_cons] at hbelow
    exact hc' (hbelow.2.subset (by simp))

end Below

/-! ### Removing nodes -/

section Remove

variable {st : Store}

theorem Store.lookup_isSome_iff {q : GoString} :
    (st.lookup q).isSome ↔ ∃ e ∈ st.nodes, e.1 = q := by
  simp only [Store.lookup, Option.isSome_map, List.find?_isSome, beq_iff_eq]

theorem Store.lookup_removeWhere (P : GoString → Prop) [DecidablePred P] (q : GoString) :
    (st.removeWhere P).lookup q = if P q then none else st.lookup q := by
  unfold Store.removeWhere Store.lookup
  dsimp only
  split_ifs with hq
  · rw [Option.map_eq_none_iff, List.find?_eq_none]
    intro e he heq
    have he' := (List.mem_filter.mp he).2
    simp only [beq_iff_eq] at heq
    simp [heq, hq] at he'
  · congr 1
    rw [List.find?_filter]
    congr 1
    funext e
    by_cases heq : e.1 = q
    · simp [heq, hq]
    · simp [heq]

theorem Store.removeWhere_removeWhere (P Q : GoString → Prop) [DecidablePred P]
    [DecidablePred Q] :
    (st.removeWhere P).removeWhere Q = st.removeWhere fun x => P x ∨ Q x := by
  simp only [Store.removeWhere, List.filter_filter]
  congr 2
  funext e
  by_cases hP : P e.1 <;> by_cases hQ : Q e.1 <;> simp [hP, hQ]

/-- Two conditions that agree on the paths of the store remove the same
nodes. -/
theorem Store.removeWhere_congr {P Q : GoString → Prop} [DecidablePred P] [DecidablePred Q]
    (h : ∀ e ∈ st.nodes, P e.1 ↔ Q e.1) : st.removeWhere P = st.removeWhere Q := by
  simp only [Store.removeWhere]
  congr 1
  exact List.filter_congr fun e he => by simp [h e he]

theorem Store.countBelow_removeWhere_le (P : GoString → Prop) [DecidablePred P]
    (q : GoString) : (st.removeWhere P).countBelow q ≤ st.countBelow q := by
  simp only [Store.countBelow, Store.removeWhere]
  exact (List.Sublist.filter _ List.filter_sublist).length_le

/-- Removing a set of paths that holds the children of its members keeps a
tree a tree. -/
theorem Store.IsTree.removeWhere (ht : st.IsTree) {P : GoString → Prop} [DecidablePred P]
    (hP : ∀ x, validatePath x = none → x ≠ pathSeparator → P (parentOf x) → P x) :
    (st.removeWhere P).IsTree := by
  refine ⟨fun e he => ht.valid e (List.mem_of_mem_filter he), fun e he hroot => ?_, ?_⟩
  · have he' := List.mem_filter.mp he
    have hkeep : ¬ P e.1 := by simpa using he'.2
    rw [Store.lookup_removeWhere, if_neg fun hpar => hkeep (hP _ (ht.valid e he'.1) hroot hpar)]
    exact ht.parent e he'.1 hroot
  · exact ht.nodup.sublist (List.Sublist.map _ List.filter_sublist)

theorem mem_childrenOf_iff {c : GoString} :
    c ∈ st.childrenOf p ↔
      ∃ e ∈ st.nodes, e.1 ≠ p ∧ parentOf e.1 = p ∧ getNodeFromPath e.1 = c := by
  simp only [Store.childrenOf, List.mem_map, List.mem_filter, Bool.and_eq_true, bne_iff_ne,
    ne_eq, beq_iff_eq]
  constructor
  · rintro ⟨e, ⟨he, hne, hp⟩, rfl⟩
    exact ⟨e, he, hne, hp, rfl⟩
  · rintro ⟨e, he, hne, hp, rfl⟩
    exact ⟨e, ⟨he, hne, hp⟩, rfl⟩

end Remove

/-! ### Children of a node of a tree -/

section Children

variable {st : Store} (ht : st.IsTree) {p : GoString}
include ht

theorem Store.IsTree.znodePath {e : GoString × ZNode} (he : e ∈ st.nodes) :
    ZnodePath goPathChar e.1 :=
  (validatePath_eq_none_iff _).mp (ht.valid e he)

theorem Store.IsTree.znodePath_of_lookup (hp : (st.lookup p).isSome) :
    ZnodePath goPathChar p := by
  obtain ⟨e, he, rfl⟩ := Store.lookup_isSome_iff.mp hp
  exact ht.znodePath he

/-- A node filed under `p` is `JoinPath(p, name)` for its name, a node
name. -/
theorem Store.IsTree.joinPath_getNodeFromPath (hp : (st.lookup p).isSome)
    {e : GoString × ZNode} (he : e ∈ st.nodes) (hne : e.1 ≠ p) (hparent : parentOf e.1 = p) :
    joinPath p [getNodeFromPath e.1] = e.1 ∧ NodeName goPathChar (getNodeFromPath e.1) ∧
      e.1 = childBase p ++ '/' :: getNodeFromPath e.1 := by
  have hroot : e.1 ≠ pathSeparator := fun h => hne (by rw [← hparent, h, parentOf_root])
  obtain ⟨pre, name, hx, hname, hpre, -⟩ := (ht.znodePath he).exists_parent hroot
  have hbase : childBase p = pre := by
    rw [← hparent, hx, childBase_parentOf hname.sep_not_mem hpre]
  have hnode : getNodeFromPath e.1 = name := by
    rw [hx, getNodeFromPath_append hname.sep_not_mem]
  have hjoin : joinPath p [name] = childBase p ++ '/' :: name := by
    rw [joinPath_eq_joinSegments (ht.znodePath_of_lookup hp) (by simpa using hname)]
    simp [childBase]
  rw [hnode, hjoin, hbase, hx]
  exact ⟨rfl, hname, rfl⟩


/-- The children of a node each lie outside the subtrees of those listed
before them. -/
theorem Store.IsTree.pairwise_childrenOf (hp : (st.lookup p).isSome) :
    (st.childrenOf p).Pairwise fun c c' =>
      ¬ InSubtree (joinPath p [c]) (joinPath p [c']) := by
  have hdistinct : st.nodes.Pairwise fun e e' => e.1 ≠ e'.1 := List.pairwise_map.mp ht.nodup
  unfold Store.childrenOf
  rw [List.pairwise_map]
  refine (hdistinct.filter _).imp_of_mem fun {e e'} he he' hee' => ?_
  obtain ⟨he, hne, hpar⟩ : e ∈ st.nodes ∧ e.1 ≠ p ∧ parentOf e.1 = p := by
    simpa using List.mem_filter.mp he
  obtain ⟨he', hne', hpar'⟩ : e' ∈ st.nodes ∧ e'.1 ≠ p ∧ parentOf e'.1 = p := by
    simpa using List.mem_filter.mp he'
  obtain ⟨hj, hname, hx⟩ := ht.joinPath_getNodeFromPath hp he hne hpar
  obtain ⟨hj', hname', hx'⟩ := ht.joinPath_getNodeFromPath hp he' hne' hpar'
  rw [hj, hj', hx, hx']
  refine not_inSubtree_sibling hname.ne_nil hname'.sep_not_mem fun h => hee' ?_
  rw [hx, hx', h]

/-- The subtree of a child is smaller than what lies below its parent: the
child itself is below the parent and not below itself. -/
theorem Store.IsTree.countBelow_child_lt (hp : (st.lookup p).isSome) {e : GoString × ZNode}
    (he : e ∈ st.nodes) (hne : e.1 ≠ p) (hparent : parentOf e.1 = p) :
    st.countBelow e.1 < st.countBelow p := by
  obtain ⟨-, hname, hx⟩ := ht.joinPath_getNodeFromPath hp he hne hparent
  have himp : ∀ x, IsStrictlyBelow e.1 x → IsStrictlyBelow p x := fun x hx' =>
    isStrictlyBelow_of_inSubtree_child hname.ne_nil (by rw [← hx]; exact .inr hx')
  have hsub : (st.nodes.filter fun e' => decide (IsStrictlyBelow e.1 e'.1)) =
      (st.nodes.filter fun e' => decide (IsStrictlyBelow p e'.1)).filter
        fun e' => decide (IsStrictlyBelow e.1 e'.1) := by
    rw [List.filter_filter]
    exact List.filter_congr fun e' _ => by
      by_cases h : IsStrictlyBelow e.1 e'.1
      · simp [h, himp _ h]
      · simp [h]
  have hbelow : IsStrictlyBelow p e.1 := isStrictlyBelow_of_parentOf (ht.znodePath he) hne hparent
  unfold Store.countBelow
  rw [hsub, List.length_filter_lt_length_iff_exists]
  exact ⟨e, List.mem_filter.mpr ⟨he, by simpa using hbelow⟩, by simp [IsStrictlyBelow]⟩

end Children

/-- Everything below a node lies in the subtree of one of its children; the
recursion climbs from the node below to its parent, which the tree holds. -/
theorem Store.IsTree.exists_child_of_isStrictlyBelow {st : Store} (ht : st.IsTree)
    {p : GoString} (hp : p ≠ []) (x : GoString) (hx : (st.lookup x).isSome)
    (hbelow : IsStrictlyBelow p x) :
    ∃ e ∈ st.nodes, e.1 ≠ p ∧ parentOf e.1 = p ∧ InSubtree e.1 x := by
  obtain ⟨ex, hex, hexx⟩ := Store.lookup_isSome_iff.mp hx
  have hvalid : ZnodePath goPathChar x := hexx ▸ ht.znodePath hex
  rcases parentOf_of_isStrictlyBelow hvalid hp hbelow with hpar | hpar
  · exact ⟨ex, hex, hexx ▸ hbelow.1, hexx ▸ hpar, .inl hexx.symm⟩
  have hroot : x ≠ pathSeparator := ne_root_of_isStrictlyBelow hp hbelow
  obtain ⟨pre, name, hxeq, hname, -, -⟩ := hvalid.exists_parent hroot
  have hlen : (parentOf x).length < x.length := by
    have hname0 := List.length_pos_iff.mpr hname.ne_nil
    rw [hxeq, parentOf_append hname.sep_not_mem]
    split_ifs
    · simp only [pathSeparator, List.length_append, List.length_cons, List.length_nil]
      omega
    · simp
  have hparx : (st.lookup (parentOf x)).isSome := by
    rw [← hexx]
    exact ht.parent ex hex (by rw [hexx]; exact hroot)
  obtain ⟨e, he, hne, hparent, hsub⟩ :=
    Store.IsTree.exists_child_of_isStrictlyBelow ht hp (parentOf x) hparx hpar
  exact ⟨e, he, hne, hparent, inSubtree_of_parentOf hvalid hroot (ht.znodePath he).ne_nil hsub⟩
termination_by x.length

/-- Each listed child of a node of a tree is a node other than the root, with
fewer nodes below it than below its parent. -/
theorem Store.IsTree.child_of_mem_childrenOf {st : Store} (ht : st.IsTree) {p c : GoString}
    (hp : (st.lookup p).isSome) (hc : c ∈ st.childrenOf p) :
    (st.lookup (joinPath p [c])).isSome ∧ joinPath p [c] ≠ pathSeparator ∧
      st.countBelow (joinPath p [c]) < st.countBelow p := by
  obtain ⟨e, he, hne, hpar, rfl⟩ := mem_childrenOf_iff.mp hc
  obtain ⟨hj, -, -⟩ := ht.joinPath_getNodeFromPath hp he hne hpar
  rw [hj]
  refine ⟨Store.lookup_isSome_iff.mpr ⟨e, he, rfl⟩, fun h => ?_, ht.countBelow_child_lt hp he hne hpar⟩
  rw [h] at hpar hne
  exact hne hpar

/-- What lies strictly below a node of a tree is what lies in the subtrees of
its children. -/
theorem Store.IsTree.exists_child_inSubtree_iff {st : Store} (ht : st.IsTree) {p : GoString}
    (hp : (st.lookup p).isSome) {ex : GoString × ZNode} (hex : ex ∈ st.nodes) :
    (∃ c ∈ st.childrenOf p, InSubtree (joinPath p [c]) ex.1) ↔ IsStrictlyBelow p ex.1 := by
  constructor
  · rintro ⟨c, hc, hsub⟩
    obtain ⟨e, he, hne, hpar, rfl⟩ := mem_childrenOf_iff.mp hc
    obtain ⟨hj, hname, hx⟩ := ht.joinPath_getNodeFromPath hp he hne hpar
    rw [hj, hx] at hsub
    exact isStrictlyBelow_of_inSubtree_child hname.ne_nil hsub
  · intro hx
    obtain ⟨e, he, hne, hpar, hsub⟩ := ht.exists_child_of_isStrictlyBelow
      (ht.znodePath_of_lookup hp).ne_nil ex.1 (Store.lookup_isSome_iff.mpr ⟨ex, hex, rfl⟩) hx
    refine ⟨getNodeFromPath e.1, mem_childrenOf_iff.mpr ⟨e, he, hne, hpar, rfl⟩, ?_⟩
    rw [(ht.joinPath_getNodeFromPath hp he hne hpar).1]
    exact hsub


/-! ### The run on a tree -/

section Run

/-- The loop over children removes their subtrees one after another, given
that each call does on a tree. -/
theorem deleteChildrenLoop_removes {fuel : ℕ} {p : GoString}
    (hcall : ∀ (st : Store) (q : GoString), st.IsTree → (st.lookup q).isSome →
      q ≠ pathSeparator → st.countBelow q < fuel →
      deleteChildren fuel q true st = some (none, st.removeWhere (InSubtree q))) :
    ∀ (cs : List GoString) (st : Store), st.IsTree →
      (∀ c ∈ cs, (st.lookup (joinPath p [c])).isSome ∧ joinPath p [c] ≠ pathSeparator ∧
        st.countBelow (joinPath p [c]) < fuel) →
      cs.Pairwise (fun c c' => ¬ InSubtree (joinPath p [c]) (joinPath p [c'])) →
      deleteChildrenLoop (fun q s => deleteChildren fuel q true s) p cs st =
        some (none, st.removeWhere fun x => ∃ c ∈ cs, InSubtree (joinPath p [c]) x)
  | [], st, _, _, _ => by
    simp only [deleteChildrenLoop]
    congr
    simp [Store.removeWhere]
  | c :: cs, st, ht, hcs, hpair => by
    obtain ⟨hc, hroot, hcount⟩ := hcs c List.mem_cons_self
    obtain ⟨hfirst, hrest⟩ := List.pairwise_cons.mp hpair
    have hq0 : joinPath p [c] ≠ [] := (ht.znodePath_of_lookup hc).ne_nil
    have ht' : (st.removeWhere (InSubtree (joinPath p [c]))).IsTree :=
      ht.removeWhere fun x hx hxroot =>
        inSubtree_of_parentOf ((validatePath_eq_none_iff x).mp hx) hxroot hq0
    have hcs' : ∀ c' ∈ cs,
        ((st.removeWhere (InSubtree (joinPath p [c]))).lookup (joinPath p [c'])).isSome ∧
          joinPath p [c'] ≠ pathSeparator ∧
          (st.removeWhere (InSubtree (joinPath p [c]))).countBelow (joinPath p [c']) < fuel := by
      intro c' hc'
      obtain ⟨hl, hr, hn⟩ := hcs c' (List.mem_cons_of_mem c hc')
      refine ⟨?_, hr, Nat.lt_of_le_of_lt (Store.countBelow_removeWhere_le _ _) hn⟩
      rw [Store.lookup_removeWhere, if_neg (hfirst c' hc')]
      exact hl
    simp only [deleteChildrenLoop, hcall st _ ht hc hroot hcount]
    rw [deleteChildrenLoop_removes hcall cs _ ht' hcs' hrest, Store.removeWhere_removeWhere]
    congr 2
    exact Store.removeWhere_congr fun e _ => by simp

/-- A `Delete` of a node with no child removes it. -/
theorem Store.delete_of_childless {st : Store} {p : GoString} {n : ZNode}
    (hp : st.lookup p = some n) (hchildren : st.childrenOf p = []) :
    st.delete p (-1) = (.ok (), { st with nodes := st.nodes.filter fun e => e.1 != p }) := by
  simp [Store.delete, hp, hchildren, versionMatches_any]

/-- On a tree, `DeleteChildren` on a node with fewer nodes below it than its
fuel removes what lies below it, and the node itself when `deleteSelf`. -/
theorem deleteChildren_tree : ∀ (fuel : ℕ) (st : Store) (p : GoString) (deleteSelf : Bool),
    st.IsTree → (st.lookup p).isSome → (deleteSelf = true → p ≠ pathSeparator) →
    st.countBelow p < fuel →
    deleteChildren fuel p deleteSelf st =
      some (none, st.removeWhere fun q => IsStrictlyBelow p q ∨ (deleteSelf = true ∧ q = p))
  | 0, _, _, _, _, _, _, hfuel => absurd hfuel (Nat.not_lt_zero _)
  | fuel + 1, st, p, deleteSelf, ht, hp, hroot, hfuel => by
    have hvalid : validatePath p = none := (validatePath_eq_none_iff p).mpr (ht.znodePath_of_lookup hp)
    obtain ⟨n, hn⟩ := Option.isSome_iff_exists.mp hp
    have hchildren : st.children p = (.ok (st.childrenOf p), st) := by
      simp [Store.children, hn]
    have hcall : ∀ (st : Store) (q : GoString), st.IsTree → (st.lookup q).isSome →
        q ≠ pathSeparator → st.countBelow q < fuel →
        deleteChildren fuel q true st = some (none, st.removeWhere (InSubtree q)) := by
      intro st q ht hq hqroot hcount
      rw [deleteChildren_tree fuel st q true ht hq (fun _ => hqroot) hcount]
      congr 2
      exact Store.removeWhere_congr fun e _ => by simp [InSubtree, or_comm]
    have hcs : ∀ c ∈ st.childrenOf p, (st.lookup (joinPath p [c])).isSome ∧
        joinPath p [c] ≠ pathSeparator ∧ st.countBelow (joinPath p [c]) < fuel := by
      intro c hc
      obtain ⟨hl, hr, hlt⟩ := ht.child_of_mem_childrenOf hp hc
      exact ⟨hl, hr, Nat.lt_of_lt_of_le hlt (Nat.le_of_lt_succ hfuel)⟩
    have hbelow : (st.removeWhere fun x => ∃ c ∈ st.childrenOf p, InSubtree (joinPath p [c]) x) =
        st.removeWhere (IsStrictlyBelow p) :=
      Store.removeWhere_congr fun _ hex => ht.exists_child_inSubtree_iff hp hex
    have hloop := deleteChildrenLoop_removes hcall (st.childrenOf p) st ht hcs
      (ht.pairwise_childrenOf hp)
    rw [hbelow] at hloop
    simp only [deleteChildren, hvalid, hchildren, hloop]
    cases deleteSelf with
    | false =>
      simp only [Bool.false_eq_true, if_false]
      congr 2
      exact Store.removeWhere_congr fun e _ => by simp
    | true =>
      have hn' : (st.removeWhere (IsStrictlyBelow p)).lookup p = some n := by
        rw [Store.lookup_removeWhere, if_neg fun h => h.1 rfl, hn]
      have hchildless : (st.removeWhere (IsStrictlyBelow p)).childrenOf p = [] := by
        refine List.eq_nil_iff_forall_not_mem.mpr fun c hc => ?_
        obtain ⟨e, he, hne, hpar, -⟩ := mem_childrenOf_iff.mp hc
        have hkeep := (List.mem_filter.mp he).2
        have hvalid' := ht.znodePath (List.mem_of_mem_filter he)
        simp [isStrictlyBelow_of_parentOf hvalid' hne hpar] at hkeep
      simp only [if_true, Store.delete_of_childless hn' hchildless]
      congr 2
      simp only [Store.removeWhere, List.filter_filter]
      congr 1
      refine List.filter_congr fun e _ => ?_
      by_cases h : IsStrictlyBelow p e.1 <;> by_cases h' : e.1 = p <;> simp [h, h']

end Run

/-- On a tree with no other writer, `DeleteChildren(conn, p, deleteSelf)` for
a node `p` (not the root when `deleteSelf`) returns nil once its fuel exceeds
the number of nodes below `p`, having removed exactly those nodes, and `p`
itself when `deleteSelf`; every other node is left as it was. -/
theorem deleteChildren_removes_subtree {st : Store} (ht : st.IsTree) {p : GoString}
    (hp : (st.lookup p).isSome) (deleteSelf : Bool) (hroot : deleteSelf = true → p ≠ pathSeparator)
    (fuel : ℕ) (hfuel : st.countBelow p < fuel) :
    ∃ st', deleteChildren fuel p deleteSelf st = some (none, st') ∧ st'.counters = st.counters ∧
      ∀ q, st'.lookup q =
        if IsStrictlyBelow p q ∨ (deleteSelf = true ∧ q = p) then none else st.lookup q :=
  ⟨_, deleteChildren_tree fuel st p deleteSelf ht hp hroot hfuel, rfl,
    fun q => Store.lookup_removeWhere _ q⟩

/-- `DeleteChildren("/a", true)` on the tree `/`, `/a`, `/a/b`, `/c` with two
levels of fuel. -/
theorem deleteChildren_removes_subtree_a :
    let st : Store := ⟨[(pathSeparator, ⟨[], 0⟩), ("/a".toList, ⟨[], 0⟩),
      ("/a/b".toList, ⟨[], 0⟩), ("/c".toList, ⟨[], 0⟩)], []⟩
    (st.IsTree ∧ (st.lookup "/a".toList).isSome ∧ (true = true → "/a".toList ≠ pathSeparator) ∧
        st.countBelow "/a".toList < 2) ∧
      ∃ st', deleteChildren 2 "/a".toList true st = some (none, st') ∧
        st'.counters = st.counters ∧
        ∀ q, st'.lookup q = if IsStrictlyBelow "/a".toList q ∨ (true = true ∧ q = "/a".toList)
          then none else st.lookup q := by
  intro st
  have ht : st.IsTree := ⟨by decide, by decide, by decide⟩
  have hp : (st.lookup "/a".toList).isSome := by decide
  have hroot : true = true → "/a".toList ≠ pathSeparator := fun _ => by decide
  have hfuel : st.countBelow "/a".toList < 2 := by decide
  exact ⟨⟨ht, hp, hroot, hfuel⟩, deleteChildren_removes_subtree ht hp true hroot 2 hfuel⟩

/-- Under the root, `JoinPath` writes one separator before each child. -/
example : ((deleteChildren 3 pathSeparator false
    ⟨[(pathSeparator, ⟨[], 0⟩), ("/a".toList, ⟨[], 0⟩), ("/a/b".toList, ⟨[], 0⟩)], []⟩).map
      fun r => (r.1, r.2.nodes.map Prod.fst)) = some (none, [pathSeparator]) := by
  decide

end Curator
