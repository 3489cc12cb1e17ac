import Curator.Paths

/-!
# A ZooKeeper-like node store

The ensemble the client talks to, as the recipes assume it: nodes by path,
each with its data and a version that every successful `Set` raises by one.
`Create` fails with `ErrNoNode` under a missing parent and with
`ErrNodeExists` on a present node, and names a sequential node after its
parent's counter, zero-padded to ten digits.  A versioned `Set` or `Delete`
succeeds only at the node's version, `-1` matching any.  ACLs and ephemeral
owners are not modelled: no session expires here.

A `Server` numbers the requests it receives, and the fault oracle `fault n`
makes the `n`-th request fail with that error before it reaches the store.
-/

namespace Curator

open ListSearch

/-- `zk.Stat`, with the one field the modelled code reads. -/
structure Stat where
  version : ℤ
  deriving DecidableEq, Repr

/-- A stored node. -/
structure ZNode where
  data : Bytes
  version : ℕ
  deriving DecidableEq, Repr

/-- The stat the server reports for a node. -/
def ZNode.stat (n : ZNode) : Stat := ⟨n.version⟩

/-- `CreateMode` (`PERSISTENT`, `EPHEMERAL` and their sequential forms). -/
inductive CreateMode where
  | persistent
  | ephemeral
  | persistentSequential
  | ephemeralSequential
  deriving DecidableEq, Repr

def CreateMode.isSequential : CreateMode → Bool
  | .persistentSequential | .ephemeralSequential => true
  | _ => false

/-- The parent the server files a node under: the text before the last `/`,
and the root for a node directly below it. -/
def parentOf (path : GoString) : GoString :=
  match lastIndexOf pathSeparator path with
  | some (i + 1) => path.take (i + 1)
  | _ => pathSeparator

/-- The parent of a path whose last separator stands before `name`. -/
theorem parentOf_append {pre name : GoString} (hsep : '/' ∉ name) :
    parentOf (pre ++ '/' :: name) = if pre = [] then pathSeparator else pre := by
  have hlast : lastIndexOf pathSeparator (pre ++ '/' :: name) = some pre.length :=
    lastIndexOf_singleton_append hsep pre
  cases pre with
  | nil =>
    simp only [List.nil_append, List.length_nil] at hlast
    simp [parentOf, hlast]
  | cons c pre =>
    simp only [List.cons_append, List.length_cons] at hlast
    simp [parentOf, hlast]

/-- The suffix of a sequential node: the counter in ten zero-padded digits. -/
def sequenceSuffix (n : ℕ) : GoString :=
  let digits := Nat.toDigits 10 n
  List.replicate (10 - digits.length) '0' ++ digits

/-- The nodes by path, in creation order, and the sequence counter of each
parent that has had a sequential child. -/
structure Store where
  nodes : List (GoString × ZNode)
  counters : List (GoString × ℕ)
  deriving DecidableEq, Repr

namespace Store

/-- A store holding only the root. -/
def empty : Store := ⟨[(pathSeparator, ⟨[], 0⟩)], []⟩

def lookup (st : Store) (path : GoString) : Option ZNode :=
  (st.nodes.find? (fun e => e.1 == path)).map Prod.snd

def counter (st : Store) (parent : GoString) : ℕ :=
  ((st.counters.find? (fun e => e.1 == parent)).map Prod.snd).getD 0

/-- The names of the children of `path`, in creation order. -/
def childrenOf (st : Store) (path : GoString) : List GoString :=
  (st.nodes.filter (fun e => e.1 != path && parentOf e.1 == path)).map
    (fun e => getNodeFromPath e.1)

/-- `Get(path)`. -/
def get (st : Store) (path : GoString) : Except ZkError (Bytes × Stat) × Store :=
  match st.lookup path with
  | none => (.error .errNoNode, st)
  | some n => (.ok (n.data, n.stat), st)

/-- `Create(path, data, flags, acl)`, answering the created path. -/
def create (st : Store) (path : GoString) (data : Bytes) (mode : CreateMode) :
    Except ZkError GoString × Store :=
  let parent := parentOf path
  match st.lookup parent with
  | none => (.error .errNoNode, st)
  | some _ =>
    let name := if mode.isSequential then path ++ sequenceSuffix (st.counter parent) else path
    match st.lookup name with
    | some _ => (.error .errNodeExists, st)
    | none =>
      let counters :=
        if mode.isSequential then (parent, st.counter parent + 1) :: st.counters
        else st.counters
      (.ok name, ⟨st.nodes ++ [(name, ⟨data, 0⟩)], counters⟩)

/-- Does a request's version match a node's, `-1` matching every version? -/
def versionMatches (version : ℤ) (n : ZNode) : Bool :=
  version == -1 || version == n.version

/-- `Set(path, data, version)`. -/
def set (st : Store) (path : GoString) (data : Bytes) (version : ℤ) :
    Except ZkError Stat × Store :=
  match st.lookup path with
  | none => (.error .errNoNode, st)
  | some n =>
    if !versionMatches version n then (.error .errBadVersion, st)
    else
      let n' : ZNode := ⟨data, n.version + 1⟩
      (.ok n'.stat,
        { st with nodes := st.nodes.map (fun e => if e.1 = path then (path, n') else e) })

/-- `Delete(path, version)`. -/
def delete (st : Store) (path : GoString) (version : ℤ) : Except ZkError Unit × Store :=
  match st.lookup path with
  | none => (.error .errNoNode, st)
  | some n =>
    if !versionMatches version n then (.error .errBadVersion, st)
    else if st.childrenOf path ≠ [] then (.error .errNotEmpty, st)
    else (.ok (), { st with nodes := st.nodes.filter (fun e => e.1 != path) })

/-- `Children(path)`. -/
def children (st : Store) (path : GoString) : Except ZkError (List GoString) × Store :=
  match st.lookup path with
  | none => (.error .errNoNode, st)
  | some _ => (.ok (st.childrenOf path), st)

section Lookup

variable {st : Store} {q : GoString}

theorem lookup_append_of_isSome (h : (st.lookup q).isSome) (extra : List (GoString × ZNode))
    (counters : List (GoString × ℕ)) :
    (⟨st.nodes ++ extra, counters⟩ : Store).lookup q = st.lookup q := by
  rw [lookup, Option.isSome_map] at h
  obtain ⟨e, he⟩ := Option.isSome_iff_exists.mp h
  simp only [lookup, List.find?_append, he, Option.some_or]

theorem lookup_append_of_none (h : st.lookup q = none) (n : ZNode)
    (counters : List (GoString × ℕ)) :
    (⟨st.nodes ++ [(q, n)], counters⟩ : Store).lookup q = some n := by
  have hfind : st.nodes.find? (fun e => e.1 == q) = none := by simpa [lookup] using h
  simp [lookup, List.find?_append, hfind]

/-- `Create` keeps every node that was there. -/
theorem create_isSome_lookup (h : (st.lookup q).isSome) (path : GoString) (data : Bytes)
    (mode : CreateMode) : ((st.create path data mode).2.lookup q).isSome := by
  unfold create
  dsimp only
  split
  · exact h
  · split
    · exact h
    · rw [lookup_append_of_isSome h]
      exact h

end Lookup

section Write

variable {st : Store} {path : GoString}

theorem lookup_append_singleton (st : Store) (p q : GoString) (n : ZNode)
    (counters : List (GoString × ℕ)) :
    (⟨st.nodes ++ [(p, n)], counters⟩ : Store).lookup q =
      (st.lookup q).or (if q = p then some n else none) := by
  unfold lookup
  rw [List.find?_append]
  cases h : st.nodes.find? (fun e => e.1 == q) with
  | some e => simp
  | none =>
    by_cases hq : q = p
    · subst hq
      simp
    · simp [hq, Ne.symm hq]

theorem lookup_map_update (st : Store) (path q : GoString) (n' : ZNode) :
    (⟨st.nodes.map (fun e => if e.1 = path then (path, n') else e), st.counters⟩ : Store).lookup q =
      if q = path then (st.lookup path).map (fun _ => n') else st.lookup q := by
  unfold lookup
  dsimp only
  induction st.nodes with
  | nil => split <;> rfl
  | cons e l ih =>
    by_cases he : e.1 = path
    · by_cases hq : q = path
      · subst hq
        simp [he]
      · simp only [hq, if_false] at ih
        simp [he, hq, Ne.symm hq, ih, -List.find?_map]
    · by_cases hq : q = path
      · subst hq
        simp only [if_true] at ih
        simp [he, ih, -List.find?_map]
      · by_cases heq : e.1 = q
        · simp [hq, heq, -List.find?_map]
        · simp only [hq, if_false] at ih
          simp [he, hq, heq, ih, -List.find?_map]

/-- A `Set` at a matching version writes the data, raises the version by one
and changes no other node. -/
theorem set_of_matches (data : Bytes) {version : ℤ} {n : ZNode} (h : st.lookup path = some n)
    (hv : versionMatches version n = true) :
    (st.set path data version).1 = .ok (⟨data, n.version + 1⟩ : ZNode).stat ∧
      ∀ q, (st.set path data version).2.lookup q =
        if q = path then some ⟨data, n.version + 1⟩ else st.lookup q := by
  refine ⟨by simp [set, h, hv], fun q => ?_⟩
  simp only [set, h, hv, Bool.not_true, Bool.false_eq_true, if_false]
  rw [lookup_map_update]
  split <;> simp [h]

theorem set_of_mismatch (data : Bytes) {version : ℤ} {n : ZNode} (h : st.lookup path = some n)
    (hv : versionMatches version n = false) :
    st.set path data version = (.error .errBadVersion, st) := by
  simp [set, h, hv]

theorem set_of_absent (data : Bytes) (version : ℤ) (h : st.lookup path = none) :
    st.set path data version = (.error .errNoNode, st) := by
  simp [set, h]

/-- The version a node reports matches it. -/
theorem versionMatches_stat (n : ZNode) : versionMatches n.stat.version n = true := by
  simp [versionMatches, ZNode.stat]

theorem versionMatches_any (n : ZNode) : versionMatches (-1) n = true := by
  simp [versionMatches]

/-- `Set` keeps every node that was there. -/
theorem set_isSome_lookup {q : GoString} (hq : (st.lookup q).isSome) (path : GoString)
    (data : Bytes) (version : ℤ) : ((st.set path data version).2.lookup q).isSome := by
  cases h : st.lookup path with
  | none => rwa [set_of_absent data version h]
  | some n =>
    cases hv : versionMatches version n with
    | false => rwa [set_of_mismatch data h hv]
    | true =>
      rw [(set_of_matches data h hv).2 q]
      split <;> simp [hq]

/-- A persistent `Create` of a missing node under a present parent adds the
node at version zero and changes no other node. -/
theorem create_of_absent (data : Bytes) (hparent : (st.lookup (parentOf path)).isSome)
    (h : st.lookup path = none) :
    (st.create path data .persistent).1 = .ok path ∧
      ∀ q, (st.create path data .persistent).2.lookup q =
        if q = path then some ⟨data, 0⟩ else st.lookup q := by
  obtain ⟨m, hm⟩ := Option.isSome_iff_exists.mp hparent
  refine ⟨by simp [create, hm, h, CreateMode.isSequential], fun q => ?_⟩
  simp only [create, hm, h, CreateMode.isSequential, Bool.false_eq_true, if_false]
  rw [lookup_append_singleton]
  by_cases hq : q = path
  · subst hq
    simp [h]
  · simp [hq]

theorem create_of_present (data : Bytes) (hparent : (st.lookup (parentOf path)).isSome)
    (h : (st.lookup path).isSome) :
    st.create path data .persistent = (.error .errNodeExists, st) := by
  obtain ⟨m, hm⟩ := Option.isSome_iff_exists.mp hparent
  obtain ⟨n, hn⟩ := Option.isSome_iff_exists.mp h
  simp [create, hm, hn, CreateMode.isSequential]

theorem create_of_no_parent (data : Bytes) (mode : CreateMode)
    (hparent : st.lookup (parentOf path) = none) :
    st.create path data mode = (.error .errNoNode, st) := by
  simp [create, hparent]

end Write

section Sequence

variable {st : Store} {path : GoString}

theorem counter_cons (nodes : List (GoString × ZNode)) (counters : List (GoString × ℕ))
    (parent q : GoString) (k : ℕ) :
    (⟨nodes, (parent, k) :: counters⟩ : Store).counter q =
      if q = parent then k else (⟨nodes, counters⟩ : Store).counter q := by
  by_cases hq : q = parent
  · subst hq
    simp [counter]
  · simp [counter, hq, Ne.symm hq]

/-- A `Create` that answers a name added a node of that name, which was
missing, under a present parent; a sequential one named it after the
parent's counter and raised the counter. -/
theorem create_of_ok {data : Bytes} {mode : CreateMode} {name : GoString}
    (h : (st.create path data mode).1 = .ok name) :
    st.lookup name = none ∧ (st.lookup (parentOf path)).isSome ∧
      name = (if mode.isSequential then path ++ sequenceSuffix (st.counter (parentOf path))
        else path) ∧
      (st.create path data mode).2 = ⟨st.nodes ++ [(name, ⟨data, 0⟩)],
        if mode.isSequential then (parentOf path, st.counter (parentOf path) + 1) :: st.counters
        else st.counters⟩ := by
  unfold create at h ⊢
  dsimp only at h ⊢
  split at h
  · simp at h
  · next m hm =>
    split at h
    · simp at h
    · next hname =>
      obtain rfl := Except.ok.inj h
      exact ⟨hname, by simp [hm], rfl, rfl⟩

/-- A `Create` that answers a name made the node of that name. -/
theorem create_lookup_of_ok {data : Bytes} {mode : CreateMode} {name : GoString}
    (h : (st.create path data mode).1 = .ok name) :
    ((st.create path data mode).2.lookup name).isSome := by
  obtain ⟨hnone, -, -, hst⟩ := create_of_ok h
  rw [hst, lookup_append_of_none hnone]
  rfl

/-- A `Create` that fails changes nothing. -/
theorem create_of_error {data : Bytes} {mode : CreateMode} {e : ZkError}
    (h : (st.create path data mode).1 = .error e) : (st.create path data mode).2 = st := by
  cases hp : st.lookup (parentOf path) with
  | none => simp [create, hp]
  | some m =>
    cases hn : st.lookup
        (if mode.isSequential then path ++ sequenceSuffix (st.counter (parentOf path)) else path) with
    | some n => simp [create, hp, hn]
    | none => simp [create, hp, hn] at h

/-- `Create` never lowers a counter, and raises at most one, by one. -/
theorem counter_create (data : Bytes) (mode : CreateMode) (q : GoString) :
    st.counter q ≤ (st.create path data mode).2.counter q ∧
      (st.create path data mode).2.counter q ≤ st.counter q + 1 := by
  cases h : (st.create path data mode).1 with
  | error e =>
    rw [create_of_error h]
    omega
  | ok name =>
    rw [(create_of_ok h).2.2.2]
    split
    · rw [counter_cons]
      split
      · next hq =>
        subst hq
        omega
      · exact ⟨Nat.le_refl _, Nat.le_succ _⟩
    · exact ⟨Nat.le_refl _, Nat.le_succ _⟩

theorem create_counters_of_not_sequential {data : Bytes} {mode : CreateMode}
    (hm : mode.isSequential = false) : (st.create path data mode).2.counters = st.counters := by
  cases h : (st.create path data mode).1 with
  | error e => rw [create_of_error h]
  | ok name =>
    rw [(create_of_ok h).2.2.2]
    simp [hm]

theorem lookup_filter_ne (st : Store) {path q : GoString} (hq : q ≠ path)
    (counters : List (GoString × ℕ)) :
    (⟨st.nodes.filter (fun e => e.1 != path), counters⟩ : Store).lookup q = st.lookup q := by
  unfold lookup
  dsimp only
  induction st.nodes with
  | nil => rfl
  | cons e l ih =>
    by_cases he : e.1 = path
    · have hne : e.1 ≠ q := fun h => hq (h ▸ he)
      rw [List.filter_cons_of_neg (by simp [he]), ih,
        List.find?_cons_of_neg (by simpa using hne)]
    · rw [List.filter_cons_of_pos (by simpa using he)]
      by_cases heq : e.1 = q
      · rw [List.find?_cons_of_pos (by simpa using heq), List.find?_cons_of_pos (by simpa using heq)]
      · rw [List.find?_cons_of_neg (by simpa using heq), List.find?_cons_of_neg (by simpa using heq),
          ih]

theorem delete_counters (version : ℤ) : (st.delete path version).2.counters = st.counters := by
  unfold delete
  split
  · rfl
  · split
    · rfl
    · split <;> rfl

/-- `Delete` removes at most the node it names. -/
theorem delete_frame (version : ℤ) {q : GoString} (hq : q ≠ path) :
    (st.delete path version).2.lookup q = st.lookup q := by
  unfold delete
  split
  · rfl
  · split
    · rfl
    · split
      · rfl
      · exact lookup_filter_ne st hq st.counters

theorem children_snd (st : Store) (path : GoString) : (st.children path).2 = st := by
  unfold children
  split <;> rfl

theorem children_of_ok {cs : List GoString} (h : (st.children path).1 = .ok cs) :
    cs = st.childrenOf path := by
  unfold children at h
  split at h
  · simp at h
  · exact (Except.ok.inj h).symm

/-- Every node filed under `path` is listed among its children. -/
theorem getNodeFromPath_mem_childrenOf {q : GoString} (h : (st.lookup q).isSome)
    (hne : q ≠ path) (hp : parentOf q = path) : getNodeFromPath q ∈ st.childrenOf path := by
  rw [lookup, Option.isSome_map] at h
  obtain ⟨e, he⟩ := Option.isSome_iff_exists.mp h
  have hq : e.1 = q := by simpa using List.find?_some he
  refine List.mem_map.mpr ⟨e, List.mem_filter.mpr ⟨List.mem_of_find?_eq_some he, ?_⟩, ?_⟩
  · simp [hq, hne, hp]
  · rw [hq]

end Sequence

end Store

/-- `Exists(path)`: a missing node is a nil stat with a nil error. -/
def Store.exists (st : Store) (path : GoString) : Except ZkError (Option Stat) × Store :=
  (.ok ((st.lookup path).map ZNode.stat), st)

/-- A request of one client that an injected fault may fail before it reaches
the store. -/
def Store.withFault {α : Type} (fault : Option ZkError) (st : Store)
    (op : Store → Except ZkError α × Store) : Except ZkError α × Store :=
  match fault with
  | some e => (.error e, st)
  | none => op st

/-- The store behind a connection, with the number of requests it has
received. -/
structure Server where
  store : Store
  requests : ℕ

/-- One request: the fault oracle may fail it before it reaches the store. -/
def Server.request {α : Type} (fault : ℕ → Option ZkError) (w : Server)
    (op : Store → Except ZkError α × Store) : Except ZkError α × Server :=
  match fault w.requests with
  | some e => (.error e, { w with requests := w.requests + 1 })
  | none =>
    let r := op w.store
    (r.1, ⟨r.2, w.requests + 1⟩)

/-- A request either fails at the oracle, leaving the store, or is the store
operation itself. -/
theorem Server.request_cases {α : Type} (fault : ℕ → Option ZkError) (w : Server)
    (op : Store → Except ZkError α × Store) :
    (∃ e, fault w.requests = some e ∧
        w.request fault op = (.error e, { w with requests := w.requests + 1 })) ∨
      (fault w.requests = none ∧
        w.request fault op = ((op w.store).1, ⟨(op w.store).2, w.requests + 1⟩)) := by
  unfold Server.request
  split
  · next e he => exact .inl ⟨e, he, rfl⟩
  · next he => exact .inr ⟨he, rfl⟩

/-- A request the oracle lets through is the store operation itself. -/
theorem Server.request_of_none {α : Type} {fault : ℕ → Option ZkError} {w : Server}
    (h : fault w.requests = none) (op : Store → Except ZkError α × Store) :
    w.request fault op = ((op w.store).1, ⟨(op w.store).2, w.requests + 1⟩) := by
  simp [Server.request, h]

/-- A property of stores that every operation keeps holds after a request. -/
theorem Server.request_store_of {α : Type} (P : Store → Prop) {fault : ℕ → Option ZkError}
    {w : Server} {op : Store → Except ZkError α × Store} (hop : P w.store → P (op w.store).2)
    (hw : P w.store) : P (w.request fault op).2.store := by
  rcases Server.request_cases fault w op with ⟨e, -, h⟩ | ⟨-, h⟩
  · rw [h]
    exact hw
  · rw [h]
    exact hop hw

/-- A request that reaches the store answers what the store answers. -/
theorem Server.request_of_not_fault {α : Type} {fault : ℕ → Option ZkError} {w : Server}
    {op : Store → Except ZkError α × Store} {r : Except ZkError α}
    (hr : (w.request fault op).1 = r) (hfault : ∀ e, fault w.requests = some e → r ≠ .error e) :
    (op w.store).1 = r ∧ (w.request fault op).2.store = (op w.store).2 := by
  rcases Server.request_cases fault w op with ⟨e, he, h⟩ | ⟨-, h⟩
  · rw [h] at hr
    exact absurd hr.symm (hfault e he)
  · rw [h] at hr ⊢
    exact ⟨hr, rfl⟩

end Curator
