import Curator.EnsurePath
import Curator.Namespace

/-!
# Compressed data

The `Compressed()` builders run the framework's `CompressionProvider` over a
payload before it is sent, and `GetData().Decompressed()` runs it over the
data a read answered.  The provider is assumed to keep its contract
(`CompressionProvider.RoundTrips`): `Compress` never fails, and `Decompress`
gives back what was compressed.

Under the contract, data a compressed `Create`, `SetData` or transaction wrote
reads back as its payload (`create_compressed_then_getData` and its
siblings).  But the closure of `getDataBuilder.pathInForeground` decompresses
whatever `Get` answered, the nil data of a failed read included, and an
error of `Decompress` replaces the read's.  A provider that cannot
decompress empty data, as the gzip provider cannot, turns `ErrNoNode` into
its own error; when it can, the decompressed read is the plain read followed
by `Decompress` (`forPath_decompressed_eq`).

The retry loop runs as everywhere in the framework (`callWithRetryOn`, over a
server whose every request may fail with an injected fault).  Watches,
`StoringStatIn`, ACLs and the background variants are not modelled here.
-/

namespace Curator

/-- A `CompressionProvider`: the data and the error each of its calls
returns. -/
structure CompressionProvider where
  compress : GoString → Bytes → Bytes × Option ZkError
  decompress : GoString → Bytes → Bytes × Option ZkError

/-- The contract the provider is assumed to keep: `Compress` never fails, and
`Decompress` gives back what `Compress` made, whatever paths the two get. -/
structure CompressionProvider.RoundTrips (c : CompressionProvider) : Prop where
  compress_ok : ∀ path data, (c.compress path data).2 = none
  decompress_compress : ∀ path path' data, c.decompress path' (c.compress path data).1 = (data, none)

/-- The fields of `curatorFramework` the data builders read. -/
structure CuratorFramework where
  zookeeperClient : CuratorZookeeperClient
  nspace : GoString
  compressionProvider : CompressionProvider

/-! ### The data the write builders send -/

namespace CompressionProvider

variable (c : CompressionProvider)

/-- The data `createBuilder.ForPathWithData` and `setDataBuilder.ForPathWithData`
send for `payload`: compressed when the builder is `Compressed()`, a failed
`Compress` ending the call with its error. -/
def payloadFor (compress : Bool) (givenPath : GoString) (payload : Bytes) : Except ZkError Bytes :=
  if compress then
    match c.compress givenPath payload with
    | (_, some e) => .error e
    | (data, none) => .ok data
  else .ok payload

/-- The data `transactionCreateBuilder.ForPathWithData` and
`transactionSetDataBuilder.ForPathWithData` send: `data, _ = Compress(path, payload)`
keeps the data and drops the error. -/
def transactionPayload (compress : Bool) (path : GoString) (payload : Bytes) : Bytes :=
  if compress then (c.compress path payload).1 else payload

/-- `Decompress` applied after a read: the claim's description of a
decompressed read, a failed read keeping its error. -/
def afterRead (path : GoString) : Bytes × Option ZkError → Bytes × Option ZkError
  | (data, none) =>
    match c.decompress path data with
    | (_, some e) => ([], some e)
    | (payload, none) => (payload, none)
  | (_, some e) => ([], some e)

variable {c}

theorem payloadFor_compressed (hc : c.RoundTrips) (givenPath : GoString) (payload : Bytes) :
    c.payloadFor true givenPath payload = .ok (c.compress givenPath payload).1 := by
  have h : c.compress givenPath payload = ((c.compress givenPath payload).1, none) := by
    rw [← hc.compress_ok givenPath payload]
  simp only [payloadFor, if_true]
  rw [h]

/-- Under the contract the transaction builders send what the other builders
send; only a failing `Compress` tells them apart. -/
theorem transactionPayload_eq (hc : c.RoundTrips) (compress : Bool) (path : GoString)
    (payload : Bytes) : c.payloadFor compress path payload = .ok (c.transactionPayload compress path payload) := by
  cases compress with
  | false => rfl
  | true => exact payloadFor_compressed hc path payload

/-- A failing `Compress` ends a `Create` or a `SetData` with its error, while
a transaction sends the data it came with. -/
theorem payloadFor_of_compress_error {path : GoString} {payload : Bytes} {e : ZkError}
    (h : (c.compress path payload).2 = some e) :
    c.payloadFor true path payload = .error e ∧
      c.transactionPayload true path payload = (c.compress path payload).1 := by
  have h' : c.compress path payload = ((c.compress path payload).1, some e) := by rw [← h]
  refine ⟨?_, rfl⟩
  simp only [payloadFor, if_true]
  rw [h']

theorem afterRead_compressed (hc : c.RoundTrips) (path path' : GoString) (d : Bytes) :
    c.afterRead path' ((c.compress path d).1, none) = (d, none) := by
  simp [afterRead, hc.decompress_compress]

end CompressionProvider

/-- A `Go` result whose value is dropped on error: `("", err)` or `(nil, err)`. -/
def goResult {α : Type} (zero : α) : Except ZkError α → α × Option ZkError
  | .ok a => (a, none)
  | .error e => (zero, some e)

/-! ### `Create` and `SetData` -/

/-- The fields of `createBuilder` its foreground call reads. -/
structure CreateBuilder where
  createMode : CreateMode
  createParentsIfNeeded : Bool
  compress : Bool

/-- The closure `createBuilder.pathInForeground` hands to the retry loop:
`Create`, and on `ErrNoNode` with `CreatingParentsIfNeeded`, `MakeDirs` of
the parents and `Create` again. -/
def CreateBuilder.attempt (b : CreateBuilder) (fault : ℕ → Option ZkError) (path : GoString)
    (payload : Bytes) (w : Server) : (GoString × Option ZkError) × Server :=
  let cn := w.conn fault
  match cn.1 with
  | .error e => (([], some e), cn.2)
  | .ok () =>
    let r := cn.2.request fault fun st => st.create path payload b.createMode
    let created := goResult [] r.1
    if created.2 = some .errNoNode ∧ b.createParentsIfNeeded = true then
      let d := makeDirs fault path false r.2
      match d.1 with
      | some e => (([], some e), d.2)
      | none =>
        let r' := d.2.request fault fun st => st.create path payload b.createMode
        (goResult [] r'.1, r'.2)
    else (created, r.2)

/-- `createBuilder.pathInForeground(path, payload)`, `none` when the loop
has not returned within `fuel` passes. -/
def CreateBuilder.pathInForeground (b : CreateBuilder) (fw : CuratorFramework)
    (fault : ℕ → Option ZkError) (fuel : ℕ) (path : GoString) (payload : Bytes) (w : Server) :
    Option (GoString × Option ZkError) × Server :=
  let r := callWithRetryOn (b.attempt fault path payload) (fun _ => 0) fuel
    fw.zookeeperClient.newRetryLoop w
  (r.1.result, r.2)

/-- `createBuilder.ForPathWithData(givenPath, payload)` in the foreground. -/
def CreateBuilder.forPathWithData (b : CreateBuilder) (fw : CuratorFramework)
    (fault : ℕ → Option ZkError) (fuel : ℕ) (givenPath : GoString) (payload : Bytes)
    (w : Server) : Option (GoString × Option ZkError) × Server :=
  match fw.compressionProvider.payloadFor b.compress givenPath payload with
  | .error e => (some ([], some e), w)
  | .ok data =>
    let adjustedPath := fixForNamespace fw.nspace givenPath b.createMode.isSequential
    let r := b.pathInForeground fw fault fuel adjustedPath data w
    (r.1.map fun res => (unfixForNamespace fw.nspace res.1, res.2), r.2)

/-- The fields of `setDataBuilder` its foreground call reads. -/
structure SetDataBuilder where
  version : ℤ
  compress : Bool

/-- The closure `setDataBuilder.pathInForeground` hands to the retry loop. -/
def SetDataBuilder.attempt (b : SetDataBuilder) (fault : ℕ → Option ZkError) (path : GoString)
    (payload : Bytes) (w : Server) : (Option Stat × Option ZkError) × Server :=
  let cn := w.conn fault
  match cn.1 with
  | .error e => ((none, some e), cn.2)
  | .ok () =>
    let r := cn.2.request fault fun st => st.set path payload b.version
    (goResult none (r.1.map some), r.2)

/-- `setDataBuilder.pathInForeground(path, payload)`. -/
def SetDataBuilder.pathInForeground (b : SetDataBuilder) (fw : CuratorFramework)
    (fault : ℕ → Option ZkError) (fuel : ℕ) (path : GoString) (payload : Bytes) (w : Server) :
    Option (Option Stat × Option ZkError) × Server :=
  let r := callWithRetryOn (b.attempt fault path payload) (fun _ => 0) fuel
    fw.zookeeperClient.newRetryLoop w
  (r.1.result, r.2)

/-- `setDataBuilder.ForPathWithData(givenPath, payload)` in the foreground. -/
def SetDataBuilder.forPathWithData (b : SetDataBuilder) (fw : CuratorFramework)
    (fault : ℕ → Option ZkError) (fuel : ℕ) (givenPath : GoString) (payload : Bytes)
    (w : Server) : Option (Option Stat × Option ZkError) × Server :=
  match fw.compressionProvider.payloadFor b.compress givenPath payload with
  | .error e => (some (none, some e), w)
  | .ok data => b.pathInForeground fw fault fuel (fixForNamespace fw.nspace givenPath false) data w

/-! ### Transactions -/

/-- The requests a transaction collects. -/
inductive TransactionOp where
  | create (path : GoString) (data : Bytes) (mode : CreateMode)
  | delete (path : GoString) (version : ℤ)
  | setData (path : GoString) (data : Bytes) (version : ℤ)
  | check (path : GoString) (version : ℤ)

/-- A `curatorTransaction`: the operations added so far. -/
structure CuratorTransaction where
  operations : List TransactionOp

/-- The fields of `transactionCreateBuilder` its `ForPathWithData` reads. -/
structure TransactionCreateBuilder where
  createMode : CreateMode
  compress : Bool

/-- The fields of `transactionSetDataBuilder` its `ForPathWithData` reads. -/
structure TransactionSetDataBuilder where
  version : ℤ
  compress : Bool

/-- `transactionCreateBuilder.ForPathWithData(path, payload)`. -/
def TransactionCreateBuilder.forPathWithData (b : TransactionCreateBuilder)
    (fw : CuratorFramework) (t : CuratorTransaction) (path : GoString) (payload : Bytes) :
    CuratorTransaction :=
  ⟨t.operations ++ [.create (fixForNamespace fw.nspace path false)
    (fw.compressionProvider.transactionPayload b.compress path payload) b.createMode]⟩

/-- `transactionSetDataBuilder.ForPathWithData(path, payload)`. -/
def TransactionSetDataBuilder.forPathWithData (b : TransactionSetDataBuilder)
    (fw : CuratorFramework) (t : CuratorTransaction) (path : GoString) (payload : Bytes) :
    CuratorTransaction :=
  ⟨t.operations ++ [.setData (fixForNamespace fw.nspace path false)
    (fw.compressionProvider.transactionPayload b.compress path payload) b.version]⟩

/-- One operation of a `Multi`, on the store the operations before it left. -/
def Store.runOp (st : Store) : TransactionOp → Except ZkError Store
  | .create path data mode => (st.create path data mode).1.map fun _ => (st.create path data mode).2
  | .delete path version => (st.delete path version).1.map fun _ => (st.delete path version).2
  | .setData path data version =>
    (st.set path data version).1.map fun _ => (st.set path data version).2
  | .check path version =>
    match st.lookup path with
    | none => .error .errNoNode
    | some n => if versionMatches version n then .ok st else .error .errBadVersion

/-- `Multi(ops...)`: every operation in order, or, if one fails, none of
them. -/
def Store.multi (st : Store) (ops : List TransactionOp) : Except ZkError Unit × Store :=
  match ops.foldlM Store.runOp st with
  | .ok st' => (.ok (), st')
  | .error e => (.error e, st)

/-- The closure `curatorTransaction.Commit` hands to the retry loop. -/
def CuratorTransaction.attempt (t : CuratorTransaction) (fault : ℕ → Option ZkError)
    (w : Server) : (Unit × Option ZkError) × Server :=
  let cn := w.conn fault
  match cn.1 with
  | .error e => (((), some e), cn.2)
  | .ok () =>
    let r := cn.2.request fault fun st => st.multi t.operations
    (goResult () r.1, r.2)

/-- `curatorTransaction.Commit()`: its error; the results it lists are not
modelled. -/
def CuratorTransaction.commit (t : CuratorTransaction) (fw : CuratorFramework)
    (fault : ℕ → Option ZkError) (fuel : ℕ) (w : Server) : Option (Option ZkError) × Server :=
  let r := callWithRetryOn (t.attempt fault) (fun _ => 0) fuel fw.zookeeperClient.newRetryLoop w
  (r.1.result.map Prod.snd, r.2)

/-! ### `GetData` -/

/-- The field of `getDataBuilder` its foreground call reads. -/
structure GetDataBuilder where
  decompress : Bool

/-- The end of the closure of `getDataBuilder.pathInForeground`: `data` and
`err` are what `Get` answered, nil data on error.  A failed `Decompress`
replaces both. -/
def GetDataBuilder.decompressing (b : GetDataBuilder) (c : CompressionProvider) (path : GoString)
    (data : Bytes) (err : Option ZkError) : Bytes × Option ZkError :=
  if b.decompress then
    match c.decompress path data with
    | (_, some e) => ([], some e)
    | (payload, none) => (payload, err)
  else (data, err)

/-- The closure `getDataBuilder.pathInForeground` hands to the retry loop. -/
def GetDataBuilder.attempt (b : GetDataBuilder) (fw : CuratorFramework)
    (fault : ℕ → Option ZkError) (path : GoString) (w : Server) : (Bytes × Option ZkError) × Server :=
  let cn := w.conn fault
  match cn.1 with
  | .error e => (([], some e), cn.2)
  | .ok () =>
    let r := cn.2.request fault fun st => st.get path
    match r.1 with
    | .ok (data, _) => (b.decompressing fw.compressionProvider path data none, r.2)
    | .error e => (b.decompressing fw.compressionProvider path [] (some e), r.2)

/-- `getDataBuilder.pathInForeground(path)`. -/
def GetDataBuilder.pathInForeground (b : GetDataBuilder) (fw : CuratorFramework)
    (fault : ℕ → Option ZkError) (fuel : ℕ) (path : GoString) (w : Server) :
    Option (Bytes × Option ZkError) × Server :=
  let r := callWithRetryOn (b.attempt fw fault path) (fun _ => 0) fuel
    fw.zookeeperClient.newRetryLoop w
  (r.1.result, r.2)

/-- What `getDataBuilder.ForPath` answers for a result of `pathInForeground`:
nil data with an error. -/
def GetDataBuilder.answer (res : Bytes × Option ZkError) : Bytes × Option ZkError :=
  match res.2 with
  | some e => ([], some e)
  | none => (res.1, none)

/-- `getDataBuilder.ForPath(givenPath)` in the foreground. -/
def GetDataBuilder.forPath (b : GetDataBuilder) (fw : CuratorFramework)
    (fault : ℕ → Option ZkError) (fuel : ℕ) (givenPath : GoString) (w : Server) :
    Option (Bytes × Option ZkError) × Server :=
  let r := b.pathInForeground fw fault fuel (fixForNamespace fw.nspace givenPath false) w
  (r.1.map GetDataBuilder.answer, r.2)

/-! ### What one call of a closure does -/

theorem goResult_eq_of_none {α : Type} {zero a : α} {r : Except ZkError α}
    (h : goResult zero r = (a, none)) : r = .ok a := by
  cases r with
  | ok a' =>
    simp only [goResult, Prod.mk.injEq] at h
    rw [h.1]
  | error e => simp [goResult] at h

/-- A `Create` request that answered a name made that node with the data
sent; one that is not sequential named it after its path. -/
theorem Server.request_create_of_ok {fault : ℕ → Option ZkError} {w : Server}
    {path name : GoString} {data : Bytes} {mode : CreateMode}
    (h : (w.request fault fun st => st.create path data mode).1 = .ok name) :
    (w.request fault fun st => st.create path data mode).2.store.lookup name = some ⟨data, 0⟩ ∧
      (mode.isSequential = false → name = path) := by
  obtain ⟨hc, hst⟩ := Server.request_of_not_fault h (fun e _ => by simp)
  obtain ⟨hnone, -, hname, hcreate⟩ := Store.create_of_ok hc
  refine ⟨?_, fun hseq => by simpa [hseq] using hname⟩
  rw [hst, hcreate, Store.lookup_append_of_none hnone]

/-- A `SetData` request that answered a stat wrote the data sent. -/
theorem Server.request_set_of_ok {fault : ℕ → Option ZkError} {w : Server}
    {path : GoString} {data : Bytes} {version : ℤ} {stat : Stat}
    (h : (w.request fault fun st => st.set path data version).1 = .ok stat) :
    ((w.request fault fun st => st.set path data version).2.store.lookup path).map ZNode.data =
      some data := by
  obtain ⟨hs, hst⟩ := Server.request_of_not_fault h (fun e _ => by simp)
  rw [hst]
  cases hn : w.store.lookup path with
  | none => simp [Store.set_of_absent data version hn] at hs
  | some n =>
    cases hv : Store.versionMatches version n with
    | false => simp [Store.set_of_mismatch data hn hv] at hs
    | true => simp [(Store.set_of_matches data hn hv).2 path]

/-- The closure of a `Create` that returned a path without error made that
node with the payload, at the path it was given unless it is sequential. -/
theorem CreateBuilder.attempt_of_ok (b : CreateBuilder) {fault : ℕ → Option ZkError}
    {path p : GoString} {payload : Bytes} {w : Server}
    (h : (b.attempt fault path payload w).1 = (p, none)) :
    (b.attempt fault path payload w).2.store.lookup p = some ⟨payload, 0⟩ ∧
      (b.createMode.isSequential = false → p = path) := by
  rcases hcn : (w.conn fault).1 with e | ⟨⟩
  · simp [CreateBuilder.attempt, hcn] at h
  · simp only [CreateBuilder.attempt, hcn] at h ⊢
    split_ifs at h ⊢ with hparents
    · rcases hd : (makeDirs fault path false ((w.conn fault).2.request fault
          fun st => st.create path payload b.createMode).2).1 with _ | e
      · simp only [hd] at h ⊢
        exact Server.request_create_of_ok (goResult_eq_of_none h)
      · simp [hd] at h
    · exact Server.request_create_of_ok (goResult_eq_of_none h)

/-- The closure of a `SetData` that returned without error wrote the
payload. -/
theorem SetDataBuilder.attempt_of_ok (b : SetDataBuilder) {fault : ℕ → Option ZkError}
    {path : GoString} {payload : Bytes} {w : Server} {stat : Option Stat}
    (h : (b.attempt fault path payload w).1 = (stat, none)) :
    ((b.attempt fault path payload w).2.store.lookup path).map ZNode.data = some payload := by
  rcases hcn : (w.conn fault).1 with e | ⟨⟩
  · simp [SetDataBuilder.attempt, hcn] at h
  · simp only [SetDataBuilder.attempt, hcn] at h ⊢
    obtain ⟨s, hs⟩ : ∃ s, ((w.conn fault).2.request fault
        fun st => st.set path payload b.version).1 = .ok s := by
      cases hr : ((w.conn fault).2.request fault fun st => st.set path payload b.version).1 with
      | ok s => exact ⟨s, rfl⟩
      | error e => simp [hr, goResult, Except.map] at h
    exact Server.request_set_of_ok hs

theorem GetDataBuilder.attempt_of_conn_error (b : GetDataBuilder) (fw : CuratorFramework)
    {fault : ℕ → Option ZkError} (path : GoString) {w : Server} {e : ZkError}
    (hcn : (w.conn fault).1 = .error e) :
    b.attempt fw fault path w = (([], some e), (w.conn fault).2) := by
  simp [GetDataBuilder.attempt, hcn]

/-- A read that reached the node answers its data, decompressed if asked. -/
theorem GetDataBuilder.attempt_of_get_ok (b : GetDataBuilder) (fw : CuratorFramework)
    {fault : ℕ → Option ZkError} (path : GoString) {w : Server} {data : Bytes} {stat : Stat}
    (hcn : (w.conn fault).1 = .ok ())
    (hget : ((w.conn fault).2.request fault fun st => st.get path).1 = .ok (data, stat)) :
    b.attempt fw fault path w = (b.decompressing fw.compressionProvider path data none,
      ((w.conn fault).2.request fault fun st => st.get path).2) := by
  simp [GetDataBuilder.attempt, hcn, hget]

/-- A failed read answers its error with nil data, both handed to
`Decompress` if asked. -/
theorem GetDataBuilder.attempt_of_get_error (b : GetDataBuilder) (fw : CuratorFramework)
    {fault : ℕ → Option ZkError} (path : GoString) {w : Server} {e : ZkError}
    (hcn : (w.conn fault).1 = .ok ())
    (hget : ((w.conn fault).2.request fault fun st => st.get path).1 = .error e) :
    b.attempt fw fault path w = (b.decompressing fw.compressionProvider path [] (some e),
      ((w.conn fault).2.request fault fun st => st.get path).2) := by
  simp [GetDataBuilder.attempt, hcn, hget]

/-! ### A decompressed read against the plain one

Decompressing changes only what the closure returns, never what it asks the
server, so the two loops see the same worlds.  They make the same passes
while `Decompress` fails with no error the loop would retry and succeeds on
the nil data of a failed read; then the decompressed answer is the plain one
followed by `Decompress`. -/

section Agreement

variable (fw : CuratorFramework) (fault : ℕ → Option ZkError) (path : GoString)

/-- What a plain read and a decompressed read of the same world answer. -/
def GetDataBuilder.Agree (x y : Bytes × Option ZkError) : Prop :=
  GetDataBuilder.answer y = fw.compressionProvider.afterRead path (GetDataBuilder.answer x)

variable {fw path}

theorem GetDataBuilder.attempt_decompressed_agree
    (hnil : (fw.compressionProvider.decompress path []).2 = none)
    (hfinal : ∀ data e, (fw.compressionProvider.decompress path data).2 = some e →
      shouldRetry e = false) (w : Server) :
    ((⟨true⟩ : GetDataBuilder).attempt fw fault path w).2 =
        ((⟨false⟩ : GetDataBuilder).attempt fw fault path w).2 ∧
      GetDataBuilder.Agree fw path ((⟨false⟩ : GetDataBuilder).attempt fw fault path w).1
        ((⟨true⟩ : GetDataBuilder).attempt fw fault path w).1 ∧
      ((⟨false⟩ : GetDataBuilder).attempt fw fault path w).1.2.any shouldRetry =
        ((⟨true⟩ : GetDataBuilder).attempt fw fault path w).1.2.any shouldRetry := by
  rcases hcn : (w.conn fault).1 with e | ⟨⟩
  · rw [GetDataBuilder.attempt_of_conn_error ⟨true⟩ fw path hcn,
      GetDataBuilder.attempt_of_conn_error ⟨false⟩ fw path hcn]
    exact ⟨rfl, rfl, rfl⟩
  · rcases hget : ((w.conn fault).2.request fault fun st => st.get path).1 with e | ⟨data, stat⟩
    · rw [GetDataBuilder.attempt_of_get_error ⟨true⟩ fw path hcn hget,
        GetDataBuilder.attempt_of_get_error ⟨false⟩ fw path hcn hget]
      have hd : fw.compressionProvider.decompress path [] =
          ((fw.compressionProvider.decompress path []).1, none) := by rw [← hnil]
      generalize (fw.compressionProvider.decompress path []).1 = payload at hd
      simp [GetDataBuilder.decompressing, hd, GetDataBuilder.Agree, GetDataBuilder.answer,
        CompressionProvider.afterRead]
    · rw [GetDataBuilder.attempt_of_get_ok ⟨true⟩ fw path hcn hget,
        GetDataBuilder.attempt_of_get_ok ⟨false⟩ fw path hcn hget]
      refine ⟨rfl, ?_, ?_⟩
      · cases hd : fw.compressionProvider.decompress path data with
        | mk payload err =>
          cases err <;>
            simp [GetDataBuilder.decompressing, hd, GetDataBuilder.Agree, GetDataBuilder.answer,
              CompressionProvider.afterRead]
      · cases hd : fw.compressionProvider.decompress path data with
        | mk payload err =>
          cases err with
          | none => simp [GetDataBuilder.decompressing, hd]
          | some e => simp [GetDataBuilder.decompressing, hd, hfinal data e (by rw [hd])]

/-- When `Decompress` succeeds on empty data and never fails with an error
the loop retries, a decompressed read is the plain read followed by
`Decompress`, in the same world. -/
theorem GetDataBuilder.pathInForeground_decompressed
    (hnil : (fw.compressionProvider.decompress path []).2 = none)
    (hfinal : ∀ data e, (fw.compressionProvider.decompress path data).2 = some e →
      shouldRetry e = false) (fuel : ℕ) (w : Server) :
    ((⟨true⟩ : GetDataBuilder).pathInForeground fw fault fuel path w).2 =
        ((⟨false⟩ : GetDataBuilder).pathInForeground fw fault fuel path w).2 ∧
      ((⟨true⟩ : GetDataBuilder).pathInForeground fw fault fuel path w).1.map
          GetDataBuilder.answer =
        (((⟨false⟩ : GetDataBuilder).pathInForeground fw fault fuel path w).1.map
          GetDataBuilder.answer).map (fw.compressionProvider.afterRead path) := by
  have hagree := GetDataBuilder.attempt_decompressed_agree fault hnil hfinal
  obtain ⟨hworld, hrel⟩ := callWithRetryOn_rel (GetDataBuilder.Agree fw path)
    (fun w => (hagree w).1) (fun w => (hagree w).2.1) (fun w => (hagree w).2.2) (fun _ => 0)
    fuel fw.zookeeperClient.newRetryLoop w
  have hmap : ∀ {a b : Option (Bytes × Option ZkError)}, Option.Rel (GetDataBuilder.Agree fw path) a b →
      b.map GetDataBuilder.answer =
        (a.map GetDataBuilder.answer).map (fw.compressionProvider.afterRead path) := by
    intro a b h
    cases h with
    | none => rfl
    | some h => exact congrArg some h
  exact ⟨hworld, hmap hrel⟩

theorem GetDataBuilder.forPath_decompressed_eq {givenPath : GoString}
    (hpath : fixForNamespace fw.nspace givenPath false = path)
    (hnil : (fw.compressionProvider.decompress path []).2 = none)
    (hfinal : ∀ data e, (fw.compressionProvider.decompress path data).2 = some e →
      shouldRetry e = false) (fuel : ℕ) (w : Server) :
    (⟨true⟩ : GetDataBuilder).forPath fw fault fuel givenPath w =
      (((⟨false⟩ : GetDataBuilder).forPath fw fault fuel givenPath w).1.map
        (fw.compressionProvider.afterRead path),
        ((⟨false⟩ : GetDataBuilder).forPath fw fault fuel givenPath w).2) := by
  obtain ⟨hworld, hanswer⟩ :=
    GetDataBuilder.pathInForeground_decompressed fault hnil hfinal fuel w
  simp only [GetDataBuilder.forPath, hpath, hworld, hanswer]

end Agreement

/-! ### Reads of a node and of a missing one -/

/-- `client.Conn()` that the oracle lets through. -/
theorem Server.conn_of_none {fault : ℕ → Option ZkError} {w : Server}
    (h : fault w.requests = none) : w.conn fault = (.ok (), ⟨w.store, w.requests + 1⟩) :=
  Server.request_of_none h _

section Reads

variable {fw : CuratorFramework} {fault : ℕ → Option ZkError} {w : Server} {path : GoString}

/-- A loop whose first closure call answers without a retryable error
returns that answer. -/
theorem GetDataBuilder.pathInForeground_of_first (b : GetDataBuilder) {fuel : ℕ}
    {res : Bytes × Option ZkError} (hres : (b.attempt fw fault path w).1 = res)
    (hfinal : ∀ e, res.2 = some e → shouldRetry e = false) :
    (b.pathInForeground fw fault (fuel + 1) path w).1 = some res := by
  have h : (b.attempt fw fault path w).1 = (res.1, res.2) := hres
  simp only [GetDataBuilder.pathInForeground, callWithRetryOn_of_final h hfinal]

/-- `ForPath` answers like its first closure call when that call's error,
if any, is one the loop does not retry. -/
theorem GetDataBuilder.forPath_of_first (b : GetDataBuilder) {fuel : ℕ} {givenPath : GoString}
    {res : Bytes × Option ZkError}
    (hres : (b.attempt fw fault (fixForNamespace fw.nspace givenPath false) w).1 = res)
    (hfinal : ∀ e, res.2 = some e → shouldRetry e = false) :
    (b.forPath fw fault (fuel + 1) givenPath w).1 = some (GetDataBuilder.answer res) := by
  simp only [GetDataBuilder.forPath, GetDataBuilder.pathInForeground_of_first b hres hfinal]
  rfl

/-- With the first two requests let through, the read answers what the store
holds at the path. -/
theorem GetDataBuilder.attempt_of_store (b : GetDataBuilder) (hconn : fault w.requests = none)
    (hget : fault (w.requests + 1) = none) :
    (b.attempt fw fault path w).1 =
      match w.store.lookup path with
      | none => b.decompressing fw.compressionProvider path [] (some .errNoNode)
      | some n => b.decompressing fw.compressionProvider path n.data none := by
  have hcn := Server.conn_of_none hconn
  have hread : ((w.conn fault).2.request fault fun st => st.get path).1 = (w.store.get path).1 := by
    rw [hcn, Server.request_of_none
      (show fault (⟨w.store, w.requests + 1⟩ : Server).requests = none from hget)]
  cases hn : w.store.lookup path with
  | none =>
    have hr : ((w.conn fault).2.request fault fun st => st.get path).1 = .error .errNoNode := by
      rw [hread]
      simp [Store.get, hn]
    simp [GetDataBuilder.attempt_of_get_error b fw path (by rw [hcn]) hr]
  | some n =>
    have hr : ((w.conn fault).2.request fault fun st => st.get path).1 = .ok (n.data, n.stat) := by
      rw [hread]
      simp [Store.get, hn]
    simp [GetDataBuilder.attempt_of_get_ok b fw path (by rw [hcn]) hr]

/-- Data a compressed write left reads back decompressed as the payload. -/
theorem GetDataBuilder.forPath_decompressed_of_node (hc : fw.compressionProvider.RoundTrips)
    {givenPath q : GoString} {d : Bytes} {n : ZNode} (fuel : ℕ)
    (hconn : fault w.requests = none) (hget : fault (w.requests + 1) = none)
    (hnode : w.store.lookup (fixForNamespace fw.nspace givenPath false) = some n)
    (hdata : n.data = (fw.compressionProvider.compress q d).1) :
    ((⟨true⟩ : GetDataBuilder).forPath fw fault (fuel + 1) givenPath w).1 = some (d, none) := by
  have hres : ((⟨true⟩ : GetDataBuilder).attempt fw fault
      (fixForNamespace fw.nspace givenPath false) w).1 = (d, none) := by
    rw [GetDataBuilder.attempt_of_store _ hconn hget, hnode]
    simp [GetDataBuilder.decompressing, hdata, hc.decompress_compress]
  rw [GetDataBuilder.forPath_of_first _ hres (fun e h => by cases h)]
  rfl

end Reads

/-! ### Writes that read back -/

section Writes

variable {fw : CuratorFramework} {fault : ℕ → Option ZkError} {fuel : ℕ} {w : Server}

/-- A foreground `Create` that returned without error made the node its last
request named, with the payload. -/
theorem CreateBuilder.pathInForeground_of_ok (b : CreateBuilder) {path p : GoString}
    {payload : Bytes} (h : (b.pathInForeground fw fault fuel path payload w).1 = some (p, none)) :
    (b.pathInForeground fw fault fuel path payload w).2.store.lookup p = some ⟨payload, 0⟩ ∧
      (b.createMode.isSequential = false → p = path) := by
  obtain ⟨k, hk, hw⟩ := callWithRetryOn_of_result h
  simp only [CreateBuilder.pathInForeground, hw]
  exact b.attempt_of_ok hk

theorem SetDataBuilder.pathInForeground_of_ok (b : SetDataBuilder) {path : GoString}
    {payload : Bytes} {stat : Option Stat}
    (h : (b.pathInForeground fw fault fuel path payload w).1 = some (stat, none)) :
    ((b.pathInForeground fw fault fuel path payload w).2.store.lookup path).map ZNode.data =
      some payload := by
  obtain ⟨k, hk, hw⟩ := callWithRetryOn_of_result h
  simp only [SetDataBuilder.pathInForeground, hw]
  exact b.attempt_of_ok hk

/-- A `Create().Compressed()` of `d` that returned without error is read back
decompressed as `d`. -/
theorem create_compressed_then_getData (hc : fw.compressionProvider.RoundTrips)
    (b : CreateBuilder) (hcompress : b.compress = true) (hseq : b.createMode.isSequential = false)
    {givenPath p : GoString} {d : Bytes}
    (hok : (b.forPathWithData fw fault fuel givenPath d w).1 = some (p, none))
    {fault' : ℕ → Option ZkError} (fuel' : ℕ)
    (hconn : fault' (b.forPathWithData fw fault fuel givenPath d w).2.requests = none)
    (hget : fault' ((b.forPathWithData fw fault fuel givenPath d w).2.requests + 1) = none) :
    ((⟨true⟩ : GetDataBuilder).forPath fw fault' (fuel' + 1) givenPath
      (b.forPathWithData fw fault fuel givenPath d w).2).1 = some (d, none) := by
  have hpayload := CompressionProvider.payloadFor_compressed hc givenPath d
  have hfw : b.forPathWithData fw fault fuel givenPath d w =
      ((b.pathInForeground fw fault fuel (fixForNamespace fw.nspace givenPath false)
          (fw.compressionProvider.compress givenPath d).1 w).1.map
          (fun res => (unfixForNamespace fw.nspace res.1, res.2)),
        (b.pathInForeground fw fault fuel (fixForNamespace fw.nspace givenPath false)
          (fw.compressionProvider.compress givenPath d).1 w).2) := by
    simp only [CreateBuilder.forPathWithData, hcompress, hpayload, hseq]
  rw [hfw] at hok hconn hget ⊢
  obtain ⟨⟨p', err⟩, hres, hpe⟩ := Option.map_eq_some_iff.mp hok
  obtain ⟨-, rfl⟩ := Prod.mk.inj hpe
  obtain ⟨hnode, hpath⟩ := b.pathInForeground_of_ok hres
  rw [hpath hseq] at hnode
  exact GetDataBuilder.forPath_decompressed_of_node hc fuel' hconn hget hnode rfl

/-- A `SetData().Compressed()` of `d` that returned without error is read
back decompressed as `d`. -/
theorem setData_compressed_then_getData (hc : fw.compressionProvider.RoundTrips)
    (b : SetDataBuilder) (hcompress : b.compress = true) {givenPath : GoString} {d : Bytes}
    {stat : Option Stat} (hok : (b.forPathWithData fw fault fuel givenPath d w).1 = some (stat, none))
    {fault' : ℕ → Option ZkError} (fuel' : ℕ)
    (hconn : fault' (b.forPathWithData fw fault fuel givenPath d w).2.requests = none)
    (hget : fault' ((b.forPathWithData fw fault fuel givenPath d w).2.requests + 1) = none) :
    ((⟨true⟩ : GetDataBuilder).forPath fw fault' (fuel' + 1) givenPath
      (b.forPathWithData fw fault fuel givenPath d w).2).1 = some (d, none) := by
  have hpayload := CompressionProvider.payloadFor_compressed hc givenPath d
  simp only [SetDataBuilder.forPathWithData, hcompress, hpayload] at hok hconn hget ⊢
  obtain ⟨n, hn, hdata⟩ := Option.map_eq_some_iff.mp (b.pathInForeground_of_ok hok)
  exact GetDataBuilder.forPath_decompressed_of_node hc fuel' hconn hget hn hdata

/-! Transactions: a committed `Multi` ran every operation in order, so the
node its last operation wrote holds that operation's data. -/

theorem Server.conn_store (fault : ℕ → Option ZkError) (w : Server) :
    (w.conn fault).2.store = w.store :=
  Server.request_store_of (fun st => st = w.store) (fun h => h) rfl

theorem Store.multi_of_ok {st : Store} {ops : List TransactionOp} (h : (st.multi ops).1 = .ok ()) :
    ops.foldlM Store.runOp st = .ok (st.multi ops).2 := by
  unfold Store.multi at h ⊢
  split
  · next st' hst => rw [hst]
  · next e hst => rw [hst] at h; cases h

theorem Store.foldlM_runOp_concat {st st'' : Store} {ops : List TransactionOp}
    {op : TransactionOp} (h : (ops ++ [op]).foldlM Store.runOp st = .ok st'') :
    ∃ st', ops.foldlM Store.runOp st = .ok st' ∧ st'.runOp op = .ok st'' := by
  rw [List.foldlM_append] at h
  cases hops : ops.foldlM Store.runOp st with
  | error e => rw [hops] at h; cases h
  | ok st' =>
    rw [hops] at h
    have h' : List.foldlM Store.runOp st' [op] = .ok st'' := h
    exact ⟨st', rfl, by simpa [List.foldlM] using h'⟩

theorem Store.runOp_create_of_ok {st st' : Store} {path : GoString} {data : Bytes}
    {mode : CreateMode} (h : st.runOp (.create path data mode) = .ok st')
    (hseq : mode.isSequential = false) : st'.lookup path = some ⟨data, 0⟩ := by
  cases hc : (st.create path data mode).1 with
  | error e => simp [Store.runOp, hc, Except.map] at h
  | ok name =>
    simp only [Store.runOp, hc, Except.map] at h
    obtain rfl := Except.ok.inj h
    obtain ⟨hnone, -, hname, hcreate⟩ := Store.create_of_ok hc
    have hpath : name = path := by simpa [hseq] using hname
    subst hpath
    rw [hcreate, Store.lookup_append_of_none hnone]

theorem Store.runOp_setData_of_ok {st st' : Store} {path : GoString} {data : Bytes}
    {version : ℤ} (h : st.runOp (.setData path data version) = .ok st') :
    (st'.lookup path).map ZNode.data = some data := by
  cases hs : (st.set path data version).1 with
  | error e => simp [Store.runOp, hs, Except.map] at h
  | ok stat =>
    simp only [Store.runOp, hs, Except.map] at h
    obtain rfl := Except.ok.inj h
    have hreq : ((⟨st, 0⟩ : Server).request (fun _ => none) fun st => st.set path data version).1 =
        .ok stat := by
      rw [Server.request_of_none rfl]
      exact hs
    simpa [Server.request_of_none] using Server.request_set_of_ok hreq

/-- The closure of a `Commit` that returned without error ran the whole
`Multi` on the store it found. -/
theorem CuratorTransaction.attempt_of_ok (t : CuratorTransaction) {fault : ℕ → Option ZkError}
    {w : Server} (h : (t.attempt fault w).1 = ((), none)) :
    t.operations.foldlM Store.runOp w.store = .ok (t.attempt fault w).2.store := by
  rcases hcn : (w.conn fault).1 with e | ⟨⟩
  · simp [CuratorTransaction.attempt, hcn] at h
  · simp only [CuratorTransaction.attempt, hcn] at h ⊢
    obtain ⟨hm, hst⟩ := Server.request_of_not_fault (goResult_eq_of_none h) (fun e _ => by simp)
    rw [hst, ← Store.multi_of_ok hm, Server.conn_store]

theorem CuratorTransaction.commit_of_ok (t : CuratorTransaction) {fw : CuratorFramework}
    {fault : ℕ → Option ZkError} {fuel : ℕ} {w : Server}
    (h : (t.commit fw fault fuel w).1 = some none) :
    ∃ st, t.operations.foldlM Store.runOp st = .ok (t.commit fw fault fuel w).2.store := by
  obtain ⟨⟨u, err⟩, hres, herr⟩ := Option.map_eq_some_iff.mp h
  obtain ⟨k, hk, hw⟩ := callWithRetryOn_of_result hres
  simp only at herr
  subst herr
  refine ⟨(worldAfter (t.attempt fault) w k).store, ?_⟩
  simp only [CuratorTransaction.commit, hw]
  exact t.attempt_of_ok hk

/-- A transaction whose last operation is a `Create().Compressed()` of `d`,
committed without error, is read back decompressed as `d`. -/
theorem transactionCreate_compressed_then_getData (hc : fw.compressionProvider.RoundTrips)
    (b : TransactionCreateBuilder) (hcompress : b.compress = true)
    (hseq : b.createMode.isSequential = false) (t : CuratorTransaction) {givenPath : GoString}
    {d : Bytes} (hok : ((b.forPathWithData fw t givenPath d).commit fw fault fuel w).1 = some none)
    {fault' : ℕ → Option ZkError} (fuel' : ℕ)
    (hconn : fault' ((b.forPathWithData fw t givenPath d).commit fw fault fuel w).2.requests = none)
    (hget : fault' (((b.forPathWithData fw t givenPath d).commit fw fault fuel w).2.requests + 1) =
      none) :
    ((⟨true⟩ : GetDataBuilder).forPath fw fault' (fuel' + 1) givenPath
      ((b.forPathWithData fw t givenPath d).commit fw fault fuel w).2).1 = some (d, none) := by
  obtain ⟨st, hst⟩ := CuratorTransaction.commit_of_ok _ hok
  obtain ⟨st', -, hop⟩ := Store.foldlM_runOp_concat hst
  have hnode := Store.runOp_create_of_ok hop hseq
  simp only [CompressionProvider.transactionPayload, hcompress, if_true] at hnode
  exact GetDataBuilder.forPath_decompressed_of_node hc fuel' hconn hget hnode rfl

/-- A transaction whose last operation is a `SetData().Compressed()` of `d`,
committed without error, is read back decompressed as `d`. -/
theorem transactionSetData_compressed_then_getData (hc : fw.compressionProvider.RoundTrips)
    (b : TransactionSetDataBuilder) (hcompress : b.compress = true) (t : CuratorTransaction)
    {givenPath : GoString} {d : Bytes}
    (hok : ((b.forPathWithData fw t givenPath d).commit fw fault fuel w).1 = some none)
    {fault' : ℕ → Option ZkError} (fuel' : ℕ)
    (hconn : fault' ((b.forPathWithData fw t givenPath d).commit fw fault fuel w).2.requests = none)
    (hget : fault' (((b.forPathWithData fw t givenPath d).commit fw fault fuel w).2.requests + 1) =
      none) :
    ((⟨true⟩ : GetDataBuilder).forPath fw fault' (fuel' + 1) givenPath
      ((b.forPathWithData fw t givenPath d).commit fw fault fuel w).2).1 = some (d, none) := by
  obtain ⟨st, hst⟩ := CuratorTransaction.commit_of_ok _ hok
  obtain ⟨st', -, hop⟩ := Store.foldlM_runOp_concat hst
  obtain ⟨n, hn, hdata⟩ := Option.map_eq_some_iff.mp (Store.runOp_setData_of_ok hop)
  simp only [CompressionProvider.transactionPayload, hcompress, if_true] at hdata
  exact GetDataBuilder.forPath_decompressed_of_node hc fuel' hconn hget hn hdata

end Writes

/-- A provider that frames the data with a header byte and, as the gzip
provider does, rejects data without one. -/
def framingProvider : CompressionProvider where
  compress _ data := (0 :: data, none)
  decompress _ data :=
    match data with
    | [] => ([], some (.message "EOF"))
    | _ :: payload => (payload, none)

theorem framingProvider_roundTrips : framingProvider.RoundTrips where
  compress_ok _ _ := rfl
  decompress_compress _ _ _ := rfl

/-- A read of a missing node answers `ErrNoNode`, but decompressed it answers
the error of decompressing the nil data instead. -/
theorem getData_decompressed_replaces_noNode (fw : CuratorFramework) (fault : ℕ → Option ZkError)
    (fuel : ℕ) (givenPath : GoString) (w : Server) {e : ZkError}
    (hnil : (fw.compressionProvider.decompress (fixForNamespace fw.nspace givenPath false) []).2 =
      some e)
    (he : shouldRetry e = false) (hconn : fault w.requests = none)
    (hget : fault (w.requests + 1) = none)
    (hmissing : w.store.lookup (fixForNamespace fw.nspace givenPath false) = none) :
    ((⟨false⟩ : GetDataBuilder).forPath fw fault (fuel + 1) givenPath w).1 =
        some ([], some .errNoNode) ∧
      ((⟨true⟩ : GetDataBuilder).forPath fw fault (fuel + 1) givenPath w).1 = some ([], some e) := by
  have hd : fw.compressionProvider.decompress (fixForNamespace fw.nspace givenPath false) [] =
      ((fw.compressionProvider.decompress (fixForNamespace fw.nspace givenPath false) []).1,
        some e) := by rw [← hnil]
  have hplain : ((⟨false⟩ : GetDataBuilder).attempt fw fault
      (fixForNamespace fw.nspace givenPath false) w).1 = ([], some .errNoNode) := by
    rw [GetDataBuilder.attempt_of_store _ hconn hget, hmissing]
    rfl
  have hdecomp : ((⟨true⟩ : GetDataBuilder).attempt fw fault
      (fixForNamespace fw.nspace givenPath false) w).1 = ([], some e) := by
    rw [GetDataBuilder.attempt_of_store _ hconn hget, hmissing]
    simp only [GetDataBuilder.decompressing, if_true]
    rw [hd]
  constructor
  · rw [GetDataBuilder.forPath_of_first _ hplain (fun e' h => by cases h; rfl)]
    rfl
  · rw [GetDataBuilder.forPath_of_first _ hdecomp (fun e' h => by cases h; exact he)]
    rfl

/-- On a framework with the framing provider and no namespace, a read of the
missing `/a` answers `ErrNoNode` plain and `EOF` decompressed. -/
theorem getData_decompressed_replaces_noNode_framing :
    framingProvider.RoundTrips ∧
      (framingProvider.decompress (fixForNamespace [] "/a".toList false) []).2 =
        some (.message "EOF") ∧
      shouldRetry (.message "EOF") = false ∧
      ((⟨false⟩ : GetDataBuilder).forPath ⟨⟨newRetryOneTime 0⟩, [], framingProvider⟩
          (fun _ => none) 1 "/a".toList ⟨Store.empty, 0⟩).1 = some ([], some .errNoNode) ∧
      ((⟨true⟩ : GetDataBuilder).forPath ⟨⟨newRetryOneTime 0⟩, [], framingProvider⟩
          (fun _ => none) 1 "/a".toList ⟨Store.empty, 0⟩).1 = some ([], some (.message "EOF")) :=
  ⟨framingProvider_roundTrips, rfl, rfl,
    getData_decompressed_replaces_noNode ⟨⟨newRetryOneTime 0⟩, [], framingProvider⟩ (fun _ => none)
      0 "/a".toList ⟨Store.empty, 0⟩ rfl rfl rfl rfl (by decide)⟩

end Curator
