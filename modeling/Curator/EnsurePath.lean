import Curator.PathGrammar
import Curator.Retry
import Curator.Server

/-!
# `MakeDirs` and `EnsurePath`

`MakeDirs` (`paths.go`) walks the separators of a valid path from the second
character on and, for each prefix ending before one (and for the whole path
when `makeLastNode`), asks `Exists` and creates the node when it is missing,
taking `ErrNodeExists` as success.  An `ensurePath` runs `MakeDirs` once,
through the client's retry loop, in its `ensurePathHelper`; after that first
call the helper marks itself started and the owner drops it, whatever the
call returned.

The world the calls act on is a `Server` with a fault oracle; `client.Conn()`
is one more numbered call of that oracle, which touches no node.
-/

namespace Curator

open ListSearch

/-- The prefixes `MakeDirs`'s loop visits from offset `pos` on, for at most
`fuel` passes: each pass ends the prefix at the next separator after `pos`. -/
def makeDirsSubPaths (path : GoString) (makeLastNode : Bool) : ℕ → ℕ → List GoString
  | 0, _ => []
  | fuel + 1, pos =>
    if pos < path.length then
      match indexOf pathSeparator (path.drop (pos + 1)) with
      | none => if makeLastNode then [path] else []
      | some idx => path.take (pos + idx + 1) :: makeDirsSubPaths path makeLastNode fuel (pos + idx + 1)
    else []

/-- The body of `MakeDirs`'s loop over the prefixes: `Exists`, then a
persistent `Create` with empty data for a missing node. -/
def makeDirsNodes (fault : ℕ → Option ZkError) : List GoString → Server → Option ZkError × Server
  | [], w => (none, w)
  | subPath :: rest, w =>
    let r := w.request fault (fun st => st.exists subPath)
    match r.1 with
    | .error e => (some e, r.2)
    | .ok (some _) => makeDirsNodes fault rest r.2
    | .ok none =>
      let c := r.2.request fault (fun st => st.create subPath [] .persistent)
      match c.1 with
      | .error e => if e = .errNodeExists then makeDirsNodes fault rest c.2 else (some e, c.2)
      | .ok _ => makeDirsNodes fault rest c.2

/-- `MakeDirs(conn, path, makeLastNode, aclProvider)`.  Every pass of the loop
moves `pos` forward, so `path.length` passes run it to its end. -/
def makeDirs (fault : ℕ → Option ZkError) (path : GoString) (makeLastNode : Bool)
    (w : Server) : Option ZkError × Server :=
  match validatePath path with
  | some e => (some e, w)
  | none => makeDirsNodes fault (makeDirsSubPaths path makeLastNode path.length 1) w

/-- `client.Conn()`: a numbered call that reaches no node. -/
def Server.conn (fault : ℕ → Option ZkError) (w : Server) : Except ZkError Unit × Server :=
  w.request fault (fun st => (.ok (), st))

/-- The closure `ensurePathHelper.Ensure` hands to `CallWithRetry`. -/
def ensureAttempt (fault : ℕ → Option ZkError) (path : GoString) (makeLastNode : Bool)
    (w : Server) : (Unit × Option ZkError) × Server :=
  let c := w.conn fault
  match c.1 with
  | .error e => (((), some e), c.2)
  | .ok () =>
    let r := makeDirs fault path makeLastNode c.2
    (((), r.1), r.2)

/-- An `ensurePathHelper`. -/
structure EnsurePathHelper where
  started : Bool
  deriving DecidableEq, Repr

/-- An `ensurePath` with the helper it owns. -/
structure EnsurePath where
  path : GoString
  makeLastNode : Bool
  helper : Option EnsurePathHelper
  deriving DecidableEq, Repr

/-- `NewEnsurePath(path)`. -/
def newEnsurePath (path : GoString) : EnsurePath :=
  ⟨path, true, some ⟨false⟩⟩

/-- `ensurePathHelper.Ensure(client, path, makeLastNode)` on the helper of its
owner `p`, `none` when the retry loop has not returned within `fuel` passes.
Setting `started` is seen only through `ExcludingLast` views, since the owner
drops the helper at once. -/
def EnsurePathHelper.ensure (fault : ℕ → Option ZkError) (client : CuratorZookeeperClient)
    (fuel : ℕ) (h : EnsurePathHelper) (p : EnsurePath) (w : Server) :
    Option (Option ZkError × EnsurePath × Server) :=
  if !h.started then
    let r := callWithRetryOn (ensureAttempt fault p.path p.makeLastNode) (fun _ => 0) fuel
      client.newRetryLoop w
    r.1.result.map fun res => (res.2, { p with helper := none }, r.2)
  else some (none, p, w)

/-- `ensurePath.Ensure(client)`. -/
def EnsurePath.ensure (fault : ℕ → Option ZkError) (client : CuratorZookeeperClient)
    (fuel : ℕ) (p : EnsurePath) (w : Server) : Option (Option ZkError × EnsurePath × Server) :=
  match p.helper with
  | none => some (none, p, w)
  | some h => h.ensure fault client fuel p w

section MakeDirs

variable {fault : ℕ → Option ZkError}

/-- `MakeDirs` removes no node. -/
theorem makeDirsNodes_isSome_lookup {q : GoString} :
    ∀ (ps : List GoString) (w : Server), (w.store.lookup q).isSome →
      ((makeDirsNodes fault ps w).2.store.lookup q).isSome := by
  intro ps
  induction ps with
  | nil =>
    intro w h
    exact h
  | cons p ps ih =>
    intro w h
    have hr : ((w.request fault fun st => st.exists p).2.store.lookup q).isSome :=
      Server.request_store_of (fun st => (st.lookup q).isSome) (fun h => h) h
    have hc : (((w.request fault fun st => st.exists p).2.request fault
        fun st => st.create p [] .persistent).2.store.lookup q).isSome :=
      Server.request_store_of (fun st => (st.lookup q).isSome)
        (fun h => Store.create_isSome_lookup h p [] .persistent) hr
    simp only [makeDirsNodes]
    split
    · exact hr
    · exact ih _ hr
    · split
      · split
        · exact ih _ hc
        · exact hc
      · exact ih _ hc

/-- `MakeDirs` creates persistent nodes only, so no sequence counter moves. -/
theorem makeDirsNodes_counters :
    ∀ (ps : List GoString) (w : Server),
      (makeDirsNodes fault ps w).2.store.counters = w.store.counters := by
  intro ps
  induction ps with
  | nil =>
    intro w
    rfl
  | cons p ps ih =>
    intro w
    have hr : (w.request fault fun st => st.exists p).2.store.counters = w.store.counters :=
      Server.request_store_of (fun st => st.counters = w.store.counters) (fun h => h) rfl
    have hc : ((w.request fault fun st => st.exists p).2.request fault
        fun st => st.create p [] .persistent).2.store.counters = w.store.counters :=
      Server.request_store_of (fun st => st.counters = w.store.counters)
        (fun h => (Store.create_counters_of_not_sequential rfl).trans h) hr
    simp only [makeDirsNodes]
    split
    · exact hr
    · exact (ih _).trans hr
    · split
      · split
        · exact (ih _).trans hc
        · exact hc
      · exact (ih _).trans hc

end MakeDirs

/-- `MakeDirs` keeps every node and every sequence counter. -/
theorem makeDirs_frame (fault : ℕ → Option ZkError) (path : GoString) (makeLastNode : Bool)
    (w : Server) :
    (∀ q, (w.store.lookup q).isSome → ((makeDirs fault path makeLastNode w).2.store.lookup q).isSome) ∧
      (makeDirs fault path makeLastNode w).2.store.counters = w.store.counters := by
  unfold makeDirs
  split
  · exact ⟨fun _ h => h, rfl⟩
  · exact ⟨fun q h => makeDirsNodes_isSome_lookup _ _ h, makeDirsNodes_counters _ _⟩

/-! ### The chain of ancestors

For a valid path `/s₁/⋯/sₖ` the prefixes `MakeDirs` visits are the ancestors
`/s₁`, `/s₁/s₂`, …, `/s₁/⋯/sₖ₋₁` and then, when `makeLastNode`, the path
itself: each the parent of the next, the first one a child of the root. -/

section Chain

open ListSegments

/-- The ancestors of a path below the root: its non-empty prefixes that a
separator follows, the shortest first. -/
def properAncestors (p : GoString) : List GoString :=
  (prefixesBefore '/' p).filter (· ≠ [])

/-- The nodes `MakeDirs` is to make for `p`: its ancestors below the root, then
`p` itself when `makeLastNode`. -/
def makeDirsChain (p : GoString) (makeLastNode : Bool) : List GoString :=
  properAncestors p ++ if makeLastNode then [p] else []

/-- Each path of the list has the one before it as its parent, the first one
`prev`. -/
def ParentChain : GoString → List GoString → Prop
  | _, [] => True
  | prev, q :: rest => parentOf q = prev ∧ ParentChain q rest

/-- The chain is what its name says: the non-root proper ancestors of `p`, and
`p` when `makeLastNode`. -/
theorem mem_makeDirsChain {p q : GoString} {makeLastNode : Bool} :
    q ∈ makeDirsChain p makeLastNode ↔
      (q ≠ [] ∧ q ++ ['/'] <+: p) ∨ (makeLastNode = true ∧ q = p) := by
  simp only [makeDirsChain, properAncestors, List.mem_append, List.mem_filter,
    mem_prefixesBefore, decide_eq_true_eq]
  cases makeLastNode <;> simp [and_comm]

/-- From a position one before the text `y`, the loop visits the prefixes
that end before each separator of `y`, then the whole path. -/
theorem makeDirsSubPaths_append (makeLastNode : Bool) :
    ∀ (fuel pos : ℕ) (x y : GoString), x.length = pos + 1 →
      (prefixesBefore '/' y).length < fuel →
      makeDirsSubPaths (x ++ y) makeLastNode fuel pos =
        (prefixesBefore '/' y).map (x ++ ·) ++ if makeLastNode then [x ++ y] else []
  | 0, _, _, _, _, hfuel => absurd hfuel (Nat.not_lt_zero _)
  | fuel + 1, pos, x, y, hx, hfuel => by
    have hpos : pos < (x ++ y).length := by
      rw [List.length_append]
      omega
    have hdrop : (x ++ y).drop (pos + 1) = y := by
      rw [← hx]
      exact List.drop_left
    by_cases hy : '/' ∈ y
    · obtain ⟨a, b, rfl, ha⟩ := exists_append_sep_of_mem '/' hy
      have hprefixes := prefixesBefore_append_sep '/' ha b
      rw [hprefixes, List.length_cons, List.length_map] at hfuel
      have htake : (x ++ (a ++ '/' :: b)).take (pos + a.length + 1) = x ++ a := by
        rw [show pos + a.length + 1 = (x ++ a).length by rw [List.length_append]; omega,
          ← List.append_assoc]
        exact List.take_left
      have hrec := makeDirsSubPaths_append makeLastNode fuel (pos + a.length + 1)
        (x ++ a ++ ['/']) b (by simp; omega) (by omega)
      rw [show x ++ a ++ ['/'] ++ b = x ++ (a ++ '/' :: b) by simp] at hrec
      have hidx : indexOf pathSeparator (a ++ '/' :: b) = some a.length :=
        indexOf_singleton_append ha b
      simp only [makeDirsSubPaths, if_pos hpos, hdrop, hidx]
      rw [htake, hrec, hprefixes]
      simp
    · have hidx : indexOf pathSeparator y = none := indexOf_singleton_of_not_mem hy
      simp only [makeDirsSubPaths, if_pos hpos, hdrop, hidx, prefixesBefore_of_not_mem '/' hy]
      simp

/-- The prefixes `MakeDirs` visits for a valid path other than the root are
its chain. -/
theorem makeDirsSubPaths_of_valid {p : GoString} (hp : validatePath p = none)
    (hroot : p ≠ pathSeparator) (makeLastNode : Bool) :
    makeDirsSubPaths p makeLastNode p.length 1 = makeDirsChain p makeLastNode := by
  obtain ⟨segs, hne, hnames, hjoin⟩ := ((validatePath_eq_none_iff p).mp hp).resolve_left hroot
  obtain ⟨s, rest, rfl⟩ := List.exists_cons_of_ne_nil hne
  have hs := hnames s List.mem_cons_self
  obtain ⟨c, cs, hcs⟩ := List.exists_cons_of_ne_nil hs.ne_nil
  have hc : c ≠ '/' := fun h => hs.sep_not_mem (by rw [hcs, h]; exact List.mem_cons_self)
  have hpath : p = ['/', c] ++ (cs ++ joinSegments '/' rest) := by
    rw [hjoin, joinSegments_cons, hcs]
    simp
  have hchain : properAncestors p = (prefixesBefore '/' (cs ++ joinSegments '/' rest)).map
      (['/', c] ++ ·) := by
    rw [hpath, properAncestors, List.cons_append, prefixesBefore_cons, List.cons_append,
      prefixesBefore_cons, if_neg hc]
    simp [List.filter_map, Function.comp_def]
  have hfuel := length_prefixesBefore_le '/' (cs ++ joinSegments '/' rest)
  rw [makeDirsChain, hchain, hpath]
  exact makeDirsSubPaths_append makeLastNode _ 1 ['/', c] _ rfl
    (by simp only [List.length_append, List.length_cons, List.length_nil] at hfuel ⊢; omega)

/-- Below a prefix `pre`, the prefixes before each separator of `b` and then
the whole path each have the one before as parent, the first one `pre` itself
(the root when `pre` is empty). -/
theorem parentChain_prefixesBefore (makeLastNode : Bool) (b pre : GoString) :
    ParentChain (if pre = [] then pathSeparator else pre)
      ((prefixesBefore '/' b).map (pre ++ '/' :: ·) ++
        if makeLastNode then [pre ++ '/' :: b] else []) := by
  by_cases hb : '/' ∈ b
  · obtain ⟨a, b', rfl, ha⟩ := exists_append_sep_of_mem '/' hb
    have hlt : b'.length < (a ++ '/' :: b').length := by simp; omega
    have hpre : pre ++ '/' :: a ≠ [] := by simp
    have ih := parentChain_prefixesBefore makeLastNode b' (pre ++ '/' :: a)
    rw [if_neg hpre] at ih
    rw [prefixesBefore_append_sep '/' ha, List.map_cons, List.cons_append]
    refine ⟨parentOf_append ha, ?_⟩
    simpa [Function.comp_def] using ih
  · rw [prefixesBefore_of_not_mem '/' hb]
    cases makeLastNode
    · trivial
    · exact ⟨parentOf_append hb, trivial⟩
termination_by b.length

/-- The chain of a path below the root starts at a child of the root. -/
theorem parentChain_makeDirsChain (r : GoString) (makeLastNode : Bool) :
    ParentChain pathSeparator (makeDirsChain ('/' :: r) makeLastNode) := by
  have hchain : properAncestors ('/' :: r) = (prefixesBefore '/' r).map ([] ++ '/' :: ·) := by
    simp [properAncestors, prefixesBefore_cons, List.filter_map, Function.comp_def]
  have h := parentChain_prefixesBefore makeLastNode r []
  rw [if_pos rfl] at h
  rw [makeDirsChain, hchain]
  simpa using h

/-- The chain is ordered by length, so no path occurs twice. -/
theorem nodup_makeDirsChain (p : GoString) (makeLastNode : Bool) :
    (makeDirsChain p makeLastNode).Nodup := by
  have hanc : (properAncestors p).Pairwise (fun a b => a.length < b.length) :=
    (pairwise_length_prefixesBefore '/' p).filter _
  have hlt : ∀ q ∈ properAncestors p, q.length < p.length := fun q hq =>
    length_lt_of_mem_prefixesBefore '/' (List.mem_of_mem_filter hq)
  have hpair : (makeDirsChain p makeLastNode).Pairwise (fun a b => a.length < b.length) := by
    rw [makeDirsChain]
    split
    · refine List.pairwise_append.mpr ⟨hanc, by simp, fun a ha b hb => ?_⟩
      rw [List.mem_singleton.mp hb]
      exact hlt a ha
    · simpa using hanc
  exact hpair.imp fun h heq => by
    rw [heq] at h
    exact Nat.lt_irrefl _ h

end Chain

/-! ### A run of `MakeDirs` over its chain

One pass of the loop either fails at the oracle, passes over a node that is
there, or creates a missing node under its parent; over a chain whose first
parent is a node, the run creates a prefix of the missing paths in order. -/

/-- The store with empty persistent nodes added at `qs`, in order. -/
def Store.addEmptyNodes (st : Store) (qs : List GoString) : Store :=
  ⟨st.nodes ++ qs.map fun q => (q, ⟨[], 0⟩), st.counters⟩

@[simp] theorem Store.addEmptyNodes_nil (st : Store) : st.addEmptyNodes [] = st := by
  simp [Store.addEmptyNodes]

theorem Store.addEmptyNodes_cons (st : Store) (q : GoString) (qs : List GoString) :
    st.addEmptyNodes (q :: qs) =
      (⟨st.nodes ++ [(q, ⟨[], 0⟩)], st.counters⟩ : Store).addEmptyNodes qs := by
  simp [Store.addEmptyNodes]

theorem Store.lookup_addEmptyNodes_isSome (st : Store) (qs : List GoString) (q : GoString) :
    ((st.addEmptyNodes qs).lookup q).isSome ↔ (st.lookup q).isSome ∨ q ∈ qs := by
  induction qs generalizing st with
  | nil => simp
  | cons x qs ih =>
    rw [Store.addEmptyNodes_cons, ih, Store.lookup_append_singleton]
    by_cases hq : q = x
    · subst hq
      cases st.lookup q <;> simp
    · simp [hq]

section Run

variable {fault : ℕ → Option ZkError} {q : GoString} {rest : List GoString} {w : Server}

/-- An `Exists` the oracle fails ends the loop with its error. -/
theorem makeDirsNodes_cons_of_exists_fault {e : ZkError} (he : fault w.requests = some e) :
    makeDirsNodes fault (q :: rest) w = (some e, ⟨w.store, w.requests + 1⟩) := by
  simp [makeDirsNodes, Server.request, he]

/-- A node that is there is passed over. -/
theorem makeDirsNodes_cons_of_present (he : fault w.requests = none)
    (hq : (w.store.lookup q).isSome) :
    makeDirsNodes fault (q :: rest) w = makeDirsNodes fault rest ⟨w.store, w.requests + 1⟩ := by
  obtain ⟨n, hn⟩ := Option.isSome_iff_exists.mp hq
  simp [makeDirsNodes, Server.request, he, Store.exists, hn]

/-- A `Create` the oracle fails with anything but `ErrNodeExists` ends the
loop with its error. -/
theorem makeDirsNodes_cons_of_create_fault (he : fault w.requests = none)
    (hq : w.store.lookup q = none) {e : ZkError} (hc : fault (w.requests + 1) = some e)
    (hne : e ≠ .errNodeExists) :
    makeDirsNodes fault (q :: rest) w = (some e, ⟨w.store, w.requests + 2⟩) := by
  simp [makeDirsNodes, Server.request, he, Store.exists, hq, hc, hne]

/-- A missing node under a present parent is created, and the loop goes on. -/
theorem makeDirsNodes_cons_of_create (he : fault w.requests = none)
    (hq : w.store.lookup q = none) (hc : fault (w.requests + 1) = none)
    (hparent : (w.store.lookup (parentOf q)).isSome) :
    makeDirsNodes fault (q :: rest) w =
      makeDirsNodes fault rest ⟨⟨w.store.nodes ++ [(q, ⟨[], 0⟩)], w.store.counters⟩,
        w.requests + 2⟩ := by
  have hok := (Store.create_of_absent [] hparent hq).1
  have hstore := (Store.create_of_ok hok).2.2.2
  simp only [CreateMode.isSequential, Bool.false_eq_true, if_false] at hstore
  simp [makeDirsNodes, Server.request, he, Store.exists, hq, hc, hok, hstore]

/-- The run over a chain of distinct paths whose first parent is a node, on a
server whose oracle makes up no `ErrNodeExists`: it adds the first `k` missing
paths of the chain, in order, and nothing else; it returns nil only when it
added all of them, and an error only when the oracle injected it into the
last call it made.  The
induction is on the chain, and the missing paths of the rest are the same
before and after a node is created, since no path occurs twice. -/
theorem makeDirsNodes_chain (hfault : ∀ n, fault n ≠ some .errNodeExists) :
    ∀ (ps : List GoString) (prev : GoString) (w : Server), ParentChain prev ps → ps.Nodup →
      (w.store.lookup prev).isSome →
      ∃ k ≤ (ps.filter fun q => (w.store.lookup q).isNone).length,
        (makeDirsNodes fault ps w).2.store =
            w.store.addEmptyNodes ((ps.filter fun q => (w.store.lookup q).isNone).take k) ∧
          ((makeDirsNodes fault ps w).1 = none →
            k = (ps.filter fun q => (w.store.lookup q).isNone).length) ∧
          (∀ e, (makeDirsNodes fault ps w).1 = some e →
            fault ((makeDirsNodes fault ps w).2.requests - 1) = some e) ∧
          (∀ n, w.requests ≤ n → n + 1 < (makeDirsNodes fault ps w).2.requests → fault n = none) ∧
          (makeDirsNodes fault ps w).1 = if w.requests < (makeDirsNodes fault ps w).2.requests
            then fault ((makeDirsNodes fault ps w).2.requests - 1) else none
  | [], _, w, _, _, _ =>
    ⟨0, Nat.le_refl _, by simp [makeDirsNodes], fun _ => by simp, fun e h => by simp [makeDirsNodes] at h,
      fun n hn hlt => by simp only [makeDirsNodes] at hlt; omega, by simp [makeDirsNodes]⟩
  | q :: rest, prev, w, ⟨hparent, hchain⟩, hnodup, hprev => by
    obtain ⟨hnotin, hrest⟩ := List.nodup_cons.mp hnodup
    cases he : fault w.requests with
    | some e =>
      rw [makeDirsNodes_cons_of_exists_fault he]
      exact ⟨0, Nat.zero_le _, by simp, by simp, fun e' h => by simpa [he] using h,
        fun n hn hlt => by simp only at hlt; omega, by simp [he]⟩
    | none =>
      by_cases hq : (w.store.lookup q).isSome
      · have hfilter : ((q :: rest).filter fun x => (w.store.lookup x).isNone) =
            rest.filter fun x => (w.store.lookup x).isNone := by
          obtain ⟨n, hn⟩ := Option.isSome_iff_exists.mp hq
          simp [hn]
        rw [makeDirsNodes_cons_of_present he hq, hfilter]
        obtain ⟨k, hk, hstore, hnone, herr, hbefore, hlast⟩ :=
          makeDirsNodes_chain hfault rest q ⟨w.store, w.requests + 1⟩ hchain hrest hq
        refine ⟨k, hk, hstore, hnone, herr, fun n hn hlt => ?_, ?_⟩
        · rcases Nat.eq_or_lt_of_le hn with rfl | hn
          · exact he
          · exact hbefore n hn hlt
        · dsimp only at hlast ⊢
          rw [hlast]
          split_ifs with h₁ h₂ h₂
          · rfl
          · omega
          · rw [show (makeDirsNodes fault rest ⟨w.store, w.requests + 1⟩).2.requests - 1 = w.requests
              by omega, he]
          · rfl
      have hq' : w.store.lookup q = none := Option.not_isSome_iff_eq_none.mp hq
      have hfilter : ((q :: rest).filter fun x => (w.store.lookup x).isNone) =
          q :: rest.filter fun x => (w.store.lookup x).isNone := by
        simp [hq']
      rw [hfilter]
      cases hc : fault (w.requests + 1) with
      | some e =>
        have hne : e ≠ .errNodeExists := fun h => hfault (w.requests + 1) (h ▸ hc)
        rw [makeDirsNodes_cons_of_create_fault he hq' hc hne]
        refine ⟨0, Nat.zero_le _, by simp, by simp, fun e' h => by simpa [hc] using h,
          fun n hn hlt => ?_, by simp [hc]⟩
        have hn' : n = w.requests := by
          simp only at hlt
          omega
        rw [hn']
        exact he
      | none =>
        let st' : Store := ⟨w.store.nodes ++ [(q, ⟨[], 0⟩)], w.store.counters⟩
        have hnew : (st'.lookup q).isSome := by
          simp [st', Store.lookup_append_of_none hq']
        have hsame : (rest.filter fun x => (st'.lookup x).isNone) =
            rest.filter fun x => (w.store.lookup x).isNone := by
          refine List.filter_congr fun x hx => ?_
          have hxq : x ≠ q := fun h => hnotin (h ▸ hx)
          simp [st', Store.lookup_append_singleton, hxq]
        obtain ⟨k, hk, hstore, hnone, herr, hbefore, hlast⟩ :=
          makeDirsNodes_chain hfault rest q ⟨st', w.requests + 2⟩ hchain hrest hnew
        rw [hsame] at hk hstore hnone
        have hrun : makeDirsNodes fault (q :: rest) w = makeDirsNodes fault rest ⟨st', w.requests + 2⟩ :=
          makeDirsNodes_cons_of_create he hq' hc (hparent ▸ hprev)
        rw [hrun]
        refine ⟨k + 1, by simpa using hk, ?_, fun h => by simp [hnone h], herr,
          fun n hn hlt => ?_, ?_⟩
        · rw [hstore, List.take_succ_cons, Store.addEmptyNodes_cons]
        · rcases Nat.lt_or_ge n (w.requests + 2) with hn₂ | hn₂
          · rcases Nat.eq_or_lt_of_le hn with rfl | hn₁
            · exact he
            · rw [show n = w.requests + 1 by omega]
              exact hc
          · exact hbefore n hn₂ hlt
        · dsimp -zeta only at hlast ⊢
          rw [hlast]
          split_ifs with h₁ h₂ h₂
          · rfl
          · omega
          · rcases Nat.lt_or_ge (makeDirsNodes fault rest ⟨st', w.requests + 2⟩).2.requests
              (w.requests + 2) with h₃ | h₃
            · rw [show (makeDirsNodes fault rest ⟨st', w.requests + 2⟩).2.requests - 1 = w.requests
                by omega, he]
            · rw [show (makeDirsNodes fault rest ⟨st', w.requests + 2⟩).2.requests - 1 =
                w.requests + 1 by omega, hc]
          · rfl

end Run

/-- The loop of `MakeDirs` walks the chain of a valid path; for the root it
walks nothing, and the root's chain holds only the root, a node. -/
theorem makeDirsSubPaths_walk {r : GoString} (hp : validatePath ('/' :: r) = none)
    (makeLastNode : Bool) {st : Store} (hroot : (st.lookup pathSeparator).isSome) :
    makeDirsSubPaths ('/' :: r) makeLastNode ('/' :: r).length 1 =
        makeDirsChain ('/' :: r) makeLastNode ∨
      (makeDirsSubPaths ('/' :: r) makeLastNode ('/' :: r).length 1 = [] ∧
        (makeDirsChain ('/' :: r) makeLastNode).filter (fun q => (st.lookup q).isNone) = []) := by
  by_cases hr : r = []
  · subst hr
    refine .inr ⟨rfl, ?_⟩
    have hanc : properAncestors pathSeparator = [] := by decide
    simp only [makeDirsChain, show ['/'] = pathSeparator from rfl, hanc, List.nil_append]
    have hroot' : st.lookup pathSeparator ≠ none := Option.isSome_iff_ne_none.mp hroot
    cases makeLastNode <;> simp [hroot']
  · exact .inl (makeDirsSubPaths_of_valid hp (by simpa [pathSeparator] using hr) makeLastNode)

/-- `MakeDirs` of a valid path adds a first part of the chain's missing paths,
all of them when it returns nil, and fails only with an injected fault. -/
theorem makeDirs_chain (fault : ℕ → Option ZkError) (hfault : ∀ n, fault n ≠ some .errNodeExists)
    {r : GoString} (hp : validatePath ('/' :: r) = none) (makeLastNode : Bool) {w : Server}
    (hroot : (w.store.lookup pathSeparator).isSome) :
    ∃ k ≤ ((makeDirsChain ('/' :: r) makeLastNode).filter fun q => (w.store.lookup q).isNone).length,
      (makeDirs fault ('/' :: r) makeLastNode w).2.store = w.store.addEmptyNodes
          (((makeDirsChain ('/' :: r) makeLastNode).filter fun q => (w.store.lookup q).isNone).take k) ∧
        ((makeDirs fault ('/' :: r) makeLastNode w).1 = none →
          k = ((makeDirsChain ('/' :: r) makeLastNode).filter fun q => (w.store.lookup q).isNone).length) ∧
        (∀ e, (makeDirs fault ('/' :: r) makeLastNode w).1 = some e →
          fault ((makeDirs fault ('/' :: r) makeLastNode w).2.requests - 1) = some e) ∧
        (∀ n, w.requests ≤ n → n + 1 < (makeDirs fault ('/' :: r) makeLastNode w).2.requests →
          fault n = none) ∧
        (makeDirs fault ('/' :: r) makeLastNode w).1 =
          if w.requests < (makeDirs fault ('/' :: r) makeLastNode w).2.requests
          then fault ((makeDirs fault ('/' :: r) makeLastNode w).2.requests - 1) else none := by
  rw [makeDirs, hp]
  rcases makeDirsSubPaths_walk hp makeLastNode hroot with hwalk | ⟨hwalk, hmissing⟩
  · rw [hwalk]
    exact makeDirsNodes_chain hfault _ _ w (parentChain_makeDirsChain r makeLastNode)
      (nodup_makeDirsChain _ _) hroot
  · rw [hwalk, hmissing]
    exact ⟨0, Nat.le_refl _, by simp [makeDirsNodes], fun _ => rfl,
      fun e h => by simp [makeDirsNodes] at h, fun n hn hlt => by simp only [makeDirsNodes] at hlt; omega,
      by simp [makeDirsNodes]⟩

/-- `MakeDirs` on a store whose root is a node, with an oracle that makes up
no `ErrNodeExists`, for a valid path: its chain runs down from the root, each
path a child of the one before; the run adds the first `k` of the chain's
missing paths in order and nothing else, all of them when it returns nil; an
error it returns is the one the oracle injected into its last call; every
call before its last one got through, and what it returns is the fault of its
last call, so the first call that fails ends it with that call's error; and
with no fault it returns nil, leaving the tree with the chain added. -/
theorem makeDirs_creates_missing_ancestors (fault : ℕ → Option ZkError)
    (hfault : ∀ n, fault n ≠ some .errNodeExists) {p : GoString} (hp : validatePath p = none)
    (makeLastNode : Bool) {w : Server} (hroot : (w.store.lookup pathSeparator).isSome) :
    ParentChain pathSeparator (makeDirsChain p makeLastNode) ∧
      (∃ k ≤ ((makeDirsChain p makeLastNode).filter fun q => (w.store.lookup q).isNone).length,
        (makeDirs fault p makeLastNode w).2.store = w.store.addEmptyNodes
            (((makeDirsChain p makeLastNode).filter fun q => (w.store.lookup q).isNone).take k) ∧
          ((makeDirs fault p makeLastNode w).1 = none →
            k = ((makeDirsChain p makeLastNode).filter fun q => (w.store.lookup q).isNone).length)) ∧
      (∀ e, (makeDirs fault p makeLastNode w).1 = some e →
        fault ((makeDirs fault p makeLastNode w).2.requests - 1) = some e) ∧
      (∀ n, w.requests ≤ n → n + 1 < (makeDirs fault p makeLastNode w).2.requests → fault n = none) ∧
      ((makeDirs fault p makeLastNode w).1 =
        if w.requests < (makeDirs fault p makeLastNode w).2.requests
        then fault ((makeDirs fault p makeLastNode w).2.requests - 1) else none) ∧
      ((∀ n, fault n = none) → (makeDirs fault p makeLastNode w).1 = none ∧
        ∀ q, ((makeDirs fault p makeLastNode w).2.store.lookup q).isSome ↔
          (w.store.lookup q).isSome ∨ q ∈ makeDirsChain p makeLastNode) := by
  obtain ⟨r, rfl⟩ : ∃ r, p = '/' :: r := by
    rcases validatePath_shape hp with h | ⟨r, h, -⟩
    · exact ⟨[], h⟩
    · exact ⟨r, h⟩
  obtain ⟨k, hk, hstore, hnone, herr, hbefore, hlast⟩ :=
    makeDirs_chain fault hfault hp makeLastNode hroot
  refine ⟨parentChain_makeDirsChain r makeLastNode, ⟨k, hk, hstore, hnone⟩, herr, hbefore, hlast,
    fun hnofault => ?_⟩
  have hnil : (makeDirs fault ('/' :: r) makeLastNode w).1 = none := by
    cases h : (makeDirs fault ('/' :: r) makeLastNode w).1 with
    | none => rfl
    | some e =>
      simp [hnofault _] at herr
      exact absurd h (herr e)
  refine ⟨hnil, fun q => ?_⟩
  rw [hstore, hnone hnil, List.take_length, Store.lookup_addEmptyNodes_isSome]
  cases hq : w.store.lookup q <;> simp [hq]

/-- `MakeDirs("/a/b", true)` on a server holding only the root, with no
fault. -/
theorem makeDirs_creates_missing_ancestors_ab :
    let fault : ℕ → Option ZkError := fun _ => none
    let w : Server := ⟨Store.empty, 0⟩
    ((∀ n, fault n ≠ some .errNodeExists) ∧ validatePath "/a/b".toList = none ∧
        (w.store.lookup pathSeparator).isSome) ∧
      makeDirsChain "/a/b".toList true = ["/a".toList, "/a/b".toList] ∧
      ((∀ n, fault n = none) → (makeDirs fault "/a/b".toList true w).1 = none ∧
        ∀ q, ((makeDirs fault "/a/b".toList true w).2.store.lookup q).isSome ↔
          (w.store.lookup q).isSome ∨ q ∈ makeDirsChain "/a/b".toList true) := by
  intro fault w
  have hfault : ∀ n, fault n ≠ some .errNodeExists := fun _ => by simp [fault]
  have hp : validatePath "/a/b".toList = none := by decide
  have hroot : (w.store.lookup pathSeparator).isSome := by decide
  exact ⟨⟨hfault, hp, hroot⟩, by decide,
    (makeDirs_creates_missing_ancestors fault hfault hp true hroot).2.2.2.2.2⟩

section Ensure

variable (fault : ℕ → Option ZkError) (client : CuratorZookeeperClient)

/-- An `ensurePath` whose helper is gone answers nil and makes no call. -/
theorem EnsurePath.ensure_of_no_helper {p : EnsurePath} (hp : p.helper = none) (fuel : ℕ)
    (w : Server) : p.ensure fault client fuel w = some (none, p, w) := by
  simp [EnsurePath.ensure, hp]

/-- The first `Ensure` of a new `ensurePath`, when its attempt ends the retry
loop, returns the attempt's error and leaves the owner without its helper,
whether or not `MakeDirs` succeeded. -/
theorem newEnsurePath_ensure_of_final {path : GoString} {w : Server} {err : Option ZkError}
    (hattempt : (ensureAttempt fault path true w).1.2 = err)
    (hfinal : ∀ e, err = some e → shouldRetry e = false) (fuel : ℕ) :
    (newEnsurePath path).ensure fault client (fuel + 1) w =
      some (err, { newEnsurePath path with helper := none },
        (ensureAttempt fault path true w).2) := by
  have hproc : (ensureAttempt fault path true w).1 = ((), err) := Prod.ext rfl hattempt
  simp only [EnsurePath.ensure, newEnsurePath, EnsurePathHelper.ensure, Bool.not_false,
    if_true]
  rw [callWithRetryOn_of_final hproc hfinal]
  rfl

end Ensure

/-- With `ErrConnectionLoss` (which the loop does not retry) on the first
`Exists` of `MakeDirs("/a/b")`, the first `Ensure` returns that error and the
owner drops its helper; the next `Ensure` returns nil and makes no call, and
`/a` was never created. -/
theorem ensure_noop_after_failed_makeDirs :
    let fault : ℕ → Option ZkError := fun n => if n = 1 then some .errConnectionLoss else none
    let client : CuratorZookeeperClient := ⟨newRetryOneTime 0⟩
    let w : Server := ⟨Store.empty, 0⟩
    let p := { newEnsurePath "/a/b".toList with helper := none }
    let w' := (ensureAttempt fault "/a/b".toList true w).2
    (newEnsurePath "/a/b".toList).ensure fault client 1 w =
        some (some .errConnectionLoss, p, w') ∧
      p.ensure fault client 1 w' = some (none, p, w') ∧ w'.store.lookup "/a".toList = none := by
  intro fault client w p w'
  have hattempt : (ensureAttempt fault "/a/b".toList true w).1.2 = some .errConnectionLoss := by
    decide
  refine ⟨newEnsurePath_ensure_of_final fault client hattempt ?_ 0,
    EnsurePath.ensure_of_no_helper fault client rfl 1 w', by decide⟩
  intro e he
  cases he
  rfl

end Curator
