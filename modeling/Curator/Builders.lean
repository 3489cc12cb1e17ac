import Curator.Namespace

/-!
# The paths the builders report

Every builder of the framework takes a caller-relative path, sends the
namespaced `adjustedPath = fixForNamespace(givenPath)` to the server, and, in
the background, hands its callback a `curatorEvent` whose `Path()` and
`Name()` it computes from what the server answered.  Nine builders do this in
nine near-copies.  Six of them (delete, getData, setData, getChildren, getACL,
setACL) share one computation, `unfixedEventPath`; the other three keep their
own bodies:

* `createBuilder.pathInBackground` takes the path the server created as it is,
  without unfixing it;
* `syncBuilder.pathInBackground` unfixes a path its `pathInForeground` has
  already unfixed;
* `checkExistsBuilder.pathInBackground` never falls back to the given path and
  takes the name from the adjusted path.

The server's answer is an input: the path it reports and the error, if any.
-/

namespace Curator

/-- The `Path()` and `Name()` of a callback's `curatorEvent`. -/
structure EventPath where
  path : GoString
  name : GoString
  deriving DecidableEq, Repr

/-- The event path shared by six builders: the unfixed adjusted path, or the
given path when the operation failed, and the name of that path. -/
def unfixedEventPath (nspace adjustedPath givenPath : GoString)
    (err : Option ZkError) : EventPath :=
  let path := if err.isSome then givenPath else unfixForNamespace nspace adjustedPath
  ⟨path, getNodeFromPath path⟩

/-- `deleteBuilder.pathInBackground`. -/
def DeleteBuilder.pathInBackground (nspace path givenPath : GoString)
    (err : Option ZkError) : EventPath :=
  unfixedEventPath nspace path givenPath err

/-- `getDataBuilder.pathInBackground`. -/
def GetDataBuilder.pathInBackground (nspace adjustedPath givenPath : GoString)
    (err : Option ZkError) : EventPath :=
  unfixedEventPath nspace adjustedPath givenPath err

/-- `setDataBuilder.pathInBackground`. -/
def SetDataBuilder.pathInBackground (nspace path givenPath : GoString)
    (err : Option ZkError) : EventPath :=
  unfixedEventPath nspace path givenPath err

/-- `getChildrenBuilder.pathInBackground`. -/
def GetChildrenBuilder.pathInBackground (nspace adjustedPath givenPath : GoString)
    (err : Option ZkError) : EventPath :=
  unfixedEventPath nspace adjustedPath givenPath err

/-- `getACLBuilder.pathInBackground`. -/
def GetACLBuilder.pathInBackground (nspace path givenPath : GoString)
    (err : Option ZkError) : EventPath :=
  unfixedEventPath nspace path givenPath err

/-- `setACLBuilder.pathInBackground`. -/
def SetACLBuilder.pathInBackground (nspace path givenPath : GoString)
    (err : Option ZkError) : EventPath :=
  unfixedEventPath nspace path givenPath err

/-- `createBuilder.pathInBackground`: `createdPath` is what `pathInForeground`
returned, the path as the server created it. -/
def CreateBuilder.pathInBackground (createdPath givenPath : GoString)
    (err : Option ZkError) : EventPath :=
  let path := if err.isSome then givenPath else createdPath
  ⟨path, getNodeFromPath path⟩

/-- The path `createBuilder.ForPathWithData` returns in the foreground. -/
def CreateBuilder.forPathInForeground (nspace createdPath : GoString) : GoString :=
  unfixForNamespace nspace createdPath

/-- The path `createBuilder.ForPathWithData` returns at once when it runs in
the background. -/
def CreateBuilder.forPathInBackground (nspace adjustedPath : GoString) : GoString :=
  unfixForNamespace nspace adjustedPath

/-- `syncBuilder.pathInForeground`: the unfixed path the server synced. -/
def SyncBuilder.pathInForeground (nspace syncPath : GoString) : GoString :=
  unfixForNamespace nspace syncPath

/-- `syncBuilder.pathInBackground`, which unfixes the result of
`pathInForeground` once more. -/
def SyncBuilder.pathInBackground (nspace syncPath givenPath : GoString)
    (err : Option ZkError) : EventPath :=
  let path := if err.isSome then givenPath
    else unfixForNamespace nspace (SyncBuilder.pathInForeground nspace syncPath)
  ⟨path, getNodeFromPath path⟩

/-- `checkExistsBuilder.pathInBackground`: the event always carries the
unfixed adjusted path, and its name is read off the adjusted path. -/
def CheckExistsBuilder.pathInBackground (nspace path : GoString) : EventPath :=
  ⟨unfixForNamespace nspace path, getNodeFromPath path⟩

/-! ### Under a namespace -/

section Namespaced

variable {nspace : GoString} (hns : nspace ≠ [])
  (hhead : nspace.head? ≠ some '/') (hlast : nspace.getLast? ≠ some '/')
include hns hhead hlast

/-- The six shared builders report a successful operation on a path below the
root under the caller's own path. -/
theorem unfixedEventPath_of_success {r : GoString} (hr : r ≠ [])
    (hrlast : r.getLast? ≠ some '/') (givenPath : GoString) :
    (unfixedEventPath nspace (fixForNamespace nspace ('/' :: r) false)
        givenPath none).path = '/' :: r := by
  simp [unfixedEventPath, fixForNamespace_of_child hns hhead hlast hr hrlast,
    unfixForNamespace_of_child hns hhead hlast]

/-- A successful background create reports the namespaced path the server
created, never the caller's. -/
theorem CreateBuilder.pathInBackground_of_success {r : GoString} (hr : r ≠ [])
    (hrlast : r.getLast? ≠ some '/') (givenPath : GoString) :
    (CreateBuilder.pathInBackground (fixForNamespace nspace ('/' :: r) false)
        givenPath none).path = '/' :: (nspace ++ '/' :: r) := by
  simp [CreateBuilder.pathInBackground, fixForNamespace_of_child hns hhead hlast hr hrlast]

end Namespaced

/-- Three of the nine background callbacks, under the namespace `"parent"`
that `newNamespace` accepts: a successful create of `"/child"` reports
`"/parent/child"`; a successful sync of `"/parent/x"` reports `"/x"`,
having stripped the namespace twice; and an exists of `"/"` reports the path
`"/"` under the name `"parent"`, while the name of `"/"` is empty. -/
theorem backgroundEventPath_namespace_divergences :
    validatePath "/parent".toList = none ∧
    (CreateBuilder.pathInBackground
        (fixForNamespace "parent".toList "/child".toList false)
        "/child".toList none).path = "/parent/child".toList ∧
    (SyncBuilder.pathInBackground "parent".toList
        (fixForNamespace "parent".toList "/parent/x".toList false)
        "/parent/x".toList none).path = "/x".toList ∧
    CheckExistsBuilder.pathInBackground "parent".toList
        (fixForNamespace "parent".toList "/".toList false) =
      ⟨"/".toList, "parent".toList⟩ ∧
    getNodeFromPath "/".toList = [] := by
  decide

end Curator
