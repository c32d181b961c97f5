import CounselReady.Storage
import CounselReady.Framework.FileSystem

/-! # The Local Object Store

    `app.storage.local`: objects as files under a root directory. A key is joined to
    the root and resolved, and what it resolves to must lie under the root.
-/

namespace CounselReady

open Framework

/-! ### Paths -/

/-- `pathlib.Path`, in parts. -/
structure PurePath where
  absolute : Bool
  parts : List String

def PurePath.of_str (text : String) : PurePath where
  absolute := text.toList.head? == some '/'
  parts := ((text.toList.splitOn '/').map String.ofList).filter
    (fun part => part != "" && part != ".")

/-- `base / other`: an absolute path replaces the one before it. -/
def PurePath.join (base other : PurePath) : PurePath :=
  if other.absolute then other else ⟨base.absolute, base.parts ++ other.parts⟩

/-- Where the process runs, and how many links it follows. -/
structure Host where
  cwd : Path
  links : Nat

/-- The names of a path, from the root of the file system on. -/
def PurePath.names (host : Host) (path : PurePath) : List String :=
  if path.absolute then path.parts else host.cwd ++ path.parts

/-- `Path.resolve`. `none` is the RuntimeError of a symlink loop. -/
def PurePath.resolve (host : Host) (fs : FileSystem Bytes) (path : PurePath) : Option Path :=
  fs.realpath host.links [] (path.names host)

/-! ### The store -/

inductive LocalError where
  /-- ValueError, "key escapes the store root" -/
  | escapes (key : String)
  | object_not_found (key : String)
  | os (e : OsError)

structure LocalObjectStore where
  root : PurePath

namespace LocalObjectStore

/-- `_path` -/
def path (store : LocalObjectStore) (host : Host) (fs : FileSystem Bytes) (key : String) :
    Except LocalError Path :=
  match (store.root.join (.of_str key)).resolve host fs with
  | none => .error (.os .symlink_loop)
  | some candidate =>
      match store.root.resolve host fs with
      | none => .error (.os .symlink_loop)
      | some root =>
          if root.isPrefixOf candidate then .ok candidate else .error (.escapes key)

def put (store : LocalObjectStore) (host : Host) (key : String) (data : Bytes)
    (disk : Disk Bytes) : Except LocalError Unit × Disk Bytes :=
  match store.path host disk.fs key with
  | .error e => (.error e, disk)
  | .ok path =>
      match disk.make_dirs host.links path.dropLast with
      | (.error e, disk) => (.error (.os e), disk)
      | (.ok _, disk) =>
          match disk.write_bytes host.links path data with
          | (.error e, disk) => (.error (.os e), disk)
          | (.ok _, disk) => (.ok (), disk)

def get (store : LocalObjectStore) (host : Host) (key : String) (disk : Disk Bytes) :
    Except LocalError Bytes × Disk Bytes :=
  match store.path host disk.fs key with
  | .error e => (.error e, disk)
  | .ok path =>
      match disk.read_bytes host.links path with
      | (.error .file_not_found, disk) => (.error (.object_not_found key), disk)
      | (.error e, disk) => (.error (.os e), disk)
      | (.ok data, disk) => (.ok data, disk)

def delete (store : LocalObjectStore) (host : Host) (key : String) (disk : Disk Bytes) :
    Except LocalError Unit × Disk Bytes :=
  match store.path host disk.fs key with
  | .error e => (.error e, disk)
  | .ok path =>
      match disk.unlink host.links path with
      | (.error e, disk) => (.error (.os e), disk)
      | (.ok _, disk) => (.ok (), disk)

end LocalObjectStore

/-! ### The path of a key -/

section path
variable {store : LocalObjectStore} {host : Host} {fs : FileSystem Bytes} {root : Path}

/-- **The check.** What a key is resolved to has no links on it and lies under the root. -/
theorem path_checked {key : String} {path : Path} (h : store.path host fs key = .ok path) :
    fs.Canonical path ∧ ∃ root, store.root.resolve host fs = some root ∧ root <+: path := by
  unfold LocalObjectStore.path at h
  split at h
  · cases h
  next candidate hcandidate =>
  split at h
  · cases h
  next root hroot =>
  split at h
  · next hprefix =>
    cases h
    exact ⟨FileSystem.realpath_canonical (FileSystem.canonical_root fs) hcandidate, root, hroot,
      List.isPrefixOf_iff_prefix.mp hprefix⟩
  · cases h

/-- A relative key whose names meet no link under the root. -/
theorem path_below {key : String} {names : List String} (hkey : PurePath.of_str key = ⟨false, names⟩)
    (hroot : store.root.resolve host fs = some root) (hstraight : fs.Straight root names) :
    store.path host fs key = .ok (root ++ names) := by
  have hnames : (store.root.join ⟨false, names⟩).names host = store.root.names host ++ names := by
    unfold PurePath.join PurePath.names
    rw [if_neg Bool.false_ne_true]
    dsimp only
    split
    · rfl
    · rw [List.append_assoc]
  have hcandidate : (store.root.join ⟨false, names⟩).resolve host fs = some (root ++ names) := by
    unfold PurePath.resolve at hroot ⊢
    rw [hnames]
    exact FileSystem.realpath_below hstraight hroot
  unfold LocalObjectStore.path
  rw [hkey, hcandidate]
  dsimp only
  rw [hroot]
  exact if_pos (List.isPrefixOf_iff_prefix.mpr (List.prefix_append _ _))

end path

end CounselReady
