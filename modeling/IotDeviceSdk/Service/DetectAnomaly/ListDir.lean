import IotDeviceSdk.Libc.Strings

/-!
# `detect_anomaly.c`: the walk of a directory

`ListDir` calls a callback for a directory and the directories below it.  The path stands in one
block of `PATH_MAX` bytes, to which the name of a subdirectory is appended and from which it is cut
off again.  The file system does not change during the walk: `opendir` gives the entries that
`readdir` reads.
-/

namespace IotDeviceSdk.Service

/-- `PATH_MAX`. -/
def PATH_MAX : ℕ := 4096

/-- `DT_DIR`. -/
def DT_DIR : ℕ := 4

/-- The name of an entry of a directory. -/
structure FileName where
  bytes : List UInt8
  zero_not_mem : 0 ∉ bytes
  slash_not_mem : 47 ∉ bytes

instance : DecidableEq FileName := fun name name' =>
  decidable_of_iff (name.bytes = name'.bytes) (by cases name; cases name'; simp)

/-- `struct dirent`, as far as the walk reads it. -/
structure Dirent where
  d_name : FileName
  d_type : ℕ
  deriving DecidableEq

variable {α : Type}

/-- `strcat_s(path, "/")` and `strcat_s(path, d_name)`, and whether both are fine. -/
def listDir.appendName (path : List UInt8) (d_name : FileName) : Option (List UInt8 × Bool) := do
  let (path, ret) ← strcatS path PATH_MAX [47]
  if ret ≠ EOK then return (path, false)
  let (path, ret) ← strcatS path PATH_MAX d_name.bytes
  return (path, decide (ret = EOK))

/-- The loop of `ListDir` in a subdirectory, `listDir` the call for it. -/
def listDir.enter (listDir : List UInt8 → α → Option (List UInt8 × α)) (path : List UInt8) (arg : α)
    (d_name : FileName) : Option (List UInt8 × α) := do
  let len := (← readString path).length
  let (path, fits) ← appendName path d_name
  let (path, arg) ← (if fits then listDir path arg else some (path, arg))
  -- the name is cut off; after a `strcat_s` that failed the path is empty
  (writeAt path len 0).map fun path => (path, arg)

/-- The loop of `ListDir`. -/
def listDir.loop (listDir : List UInt8 → α → Option (List UInt8 × α)) :
    List Dirent → List UInt8 → α → Option (List UInt8 × α)
  | [], path, arg => some (path, arg)
  | dirInfo :: dirObj, path, arg =>
    if dirInfo.d_name.bytes = [46] ∨ dirInfo.d_name.bytes = [46, 46] ∨ dirInfo.d_type ≠ DT_DIR then
      loop listDir dirObj path arg
    else do
      let (path, arg) ← enter listDir path arg dirInfo.d_name
      loop listDir dirObj path arg

/-- `ListDir`, with the calls inside each other that are left: the block of the path afterwards and
what the callback has made of its argument. -/
def listDir (opendir : List UInt8 → Option (List Dirent)) (callback : List UInt8 → α → α) :
    ℕ → List UInt8 → α → Option (List UInt8 × α)
  | 0, _, _ => none
  | depth + 1, path, arg => do
    let name ← readString path
    let arg := callback name arg
    match opendir name with
    | none => some (path, arg)
    | some dirObj => listDir.loop (listDir opendir callback depth) dirObj path arg

end IotDeviceSdk.Service
