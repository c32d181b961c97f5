import CounselReady.Storage.Local

/-! # The Local Store is a Map

    The routes are modelled with a store that is a map from keys to bytes. The files
    under a root directory are one: on the keys of the program every operation answers
    as the map does, and whatever the key, no file outside the root is touched.

    * `StoreCall.asked_mapped`: the map, and the store the routes ask.
    * `StoreCall.contained`: any key.
    * `StoreRoot`, `Shows`: a root directory, and the map its files are.
    * `StoreCall.refines`: one call on a key of the program.
    * `local_store_is_a_map`: any number of them.
-/

namespace CounselReady

open Framework

/-! ### Calls -/

inductive StoreCall where
  | put (key : String) (data : Bytes)
  | get (key : String)
  | delete (key : String)

def StoreCall.key : StoreCall → String
  | .put key _ => key
  | .get key => key
  | .delete key => key

abbrev Answered := Except LocalError (Option Bytes)

/-- The answer of the local store, and its disk. -/
def StoreCall.run (store : LocalObjectStore) (host : Host) :
    StoreCall → Disk Bytes → Answered × Disk Bytes
  | .put key data, disk =>
      ((store.put host key data disk).1.map fun _ => none, (store.put host key data disk).2)
  | .get key, disk => ((store.get host key disk).1.map some, (store.get host key disk).2)
  | .delete key, disk =>
      ((store.delete host key disk).1.map fun _ => none, (store.delete host key disk).2)

def run_calls (store : LocalObjectStore) (host : Host) :
    List StoreCall → Disk Bytes → List Answered × Disk Bytes
  | [], disk => ([], disk)
  | call :: calls, disk =>
      ((call.run store host disk).1 :: (run_calls store host calls (call.run store host disk).2).1,
        (run_calls store host calls (call.run store host disk).2).2)

/-- The answer of a map, and the map afterwards. -/
def StoreCall.mapped : StoreCall → Store → Answered × Store
  | .put key data, m => (.ok none, m.set key (some data))
  | .get key, m =>
      (match m key with
        | some data => .ok (some data)
        | none => .error (.object_not_found key), m)
  | .delete key, m => (.ok none, m.set key none)

def map_calls : List StoreCall → Store → List Answered × Store
  | [], m => ([], m)
  | call :: calls, m =>
      ((call.mapped m).1 :: (map_calls calls (call.mapped m).2).1,
        (map_calls calls (call.mapped m).2).2)

/-- The same call, as the routes make it: what it brings, or that it fails. -/
def StoreCall.asked : StoreCall → Outside → Option (Option Bytes) × Outside
  | .put key data, o =>
      ((run_ext (.put key data) o).1.toOption.map fun _ => none, (run_ext (.put key data) o).2)
  | .get key, o => ((run_ext (.get key) o).1.toOption.map some, (run_ext (.get key) o).2)
  | .delete key, o =>
      ((run_ext (.remove key) o).1.toOption.map fun _ => none, (run_ext (.remove key) o).2)

/-- As long as it works, the store of the routes is the map. -/
theorem StoreCall.asked_mapped (call : StoreCall) {o : Outside} (h : o.outcome = .works) :
    (call.asked o).1 = (call.mapped o.store).1.toOption ∧
      (call.asked o).2.store = (call.mapped o.store).2 := by
  cases call with
  | put key data => simp [asked, mapped, run_ext, Outside.written, h, Except.toOption]
  | delete key => simp [asked, mapped, run_ext, Outside.written, h, Except.toOption]
  | get key =>
    cases hdata : o.store key with
    | none => simp [asked, mapped, run_ext, h, hdata, Except.toOption]
    | some data => simp [asked, mapped, run_ext, h, hdata, Except.toOption]

/-! ### Any key -/

section contained
variable {store : LocalObjectStore} {host : Host}

theorem path_unresolved {fs : FileSystem Bytes} (h : store.root.resolve host fs = none)
    (key : String) : store.path host fs key = .error (.os .symlink_loop) := by
  unfold LocalObjectStore.path
  split
  · rfl
  · rw [h]

section resolved
variable {disk : Disk Bytes} {root : Path} {key : String}

theorem path_under (hroot : store.root.resolve host disk.fs = some root) {path : Path}
    (h : store.path host disk.fs key = .ok path) : disk.fs.Canonical path ∧ root <+: path := by
  obtain ⟨hcanonical, root', hroot', hp⟩ := path_checked h
  rw [hroot] at hroot'
  cases hroot'
  exact ⟨hcanonical, hp⟩

theorem put_contained {data : Bytes} (hroot : store.root.resolve host disk.fs = some root) :
    Disk.Within root disk (store.put host key data disk).2 := by
  unfold LocalObjectStore.put
  split
  · exact .refl root disk
  next path hpath =>
  obtain ⟨hcanonical, hp⟩ := path_under hroot hpath
  have hdirs := Disk.make_dirs_within host.links hcanonical hp
  split
  · next heq =>
    rw [heq] at hdirs
    exact hdirs
  next made heq =>
  rw [heq] at hdirs
  have hwrite := Disk.write_bytes_within host.links data (hcanonical.congr hdirs.links) hp
  split
  · next heq' =>
    rw [heq'] at hwrite
    exact hdirs.trans hwrite
  · next heq' =>
    rw [heq'] at hwrite
    exact hdirs.trans hwrite

theorem get_contained (hroot : store.root.resolve host disk.fs = some root) :
    Disk.Within root disk (store.get host key disk).2 := by
  unfold LocalObjectStore.get
  split
  · exact .refl root disk
  next path hpath =>
  obtain ⟨hcanonical, hp⟩ := path_under hroot hpath
  have hread := Disk.read_bytes_within host.links hcanonical hp
  split
  all_goals
    next heq =>
      rw [heq] at hread
      exact hread

theorem delete_contained (hroot : store.root.resolve host disk.fs = some root) :
    Disk.Within root disk (store.delete host key disk).2 := by
  unfold LocalObjectStore.delete
  split
  · exact .refl root disk
  next path hpath =>
  obtain ⟨hcanonical, hp⟩ := path_under hroot hpath
  have hunlink := Disk.unlink_within host.links hcanonical hp
  split
  all_goals
    next heq =>
      rw [heq] at hunlink
      exact hunlink

end resolved

/-- **One call.** It stays within the root, wherever that is. -/
theorem StoreCall.contained (call : StoreCall) {disk : Disk Bytes} {root : Path}
    (hroot : store.root.resolve host disk.fs = some root) :
    Disk.Within root disk (call.run store host disk).2 := by
  cases call with
  | put key data => exact put_contained hroot
  | get key => exact get_contained hroot
  | delete key => exact delete_contained hroot

/-- **Any number of calls.** The root stays where it is, and so do they. -/
theorem run_calls_contained (calls : List StoreCall) {disk : Disk Bytes} {root : Path}
    (hroot : store.root.resolve host disk.fs = some root) :
    Disk.Within root disk (run_calls store host calls disk).2 := by
  induction calls generalizing disk with
  | nil => exact .refl root disk
  | cons call calls ih =>
    have hone := call.contained hroot
    have hstill : store.root.resolve host (call.run store host disk).2.fs = some root := by
      unfold PurePath.resolve at hroot ⊢
      rw [← FileSystem.realpath_congr hone.links]
      exact hroot
    exact hone.trans (ih hstill)

/-- With a root that leads nowhere there is no disk to touch. -/
theorem run_calls_unresolved (calls : List StoreCall) {disk : Disk Bytes}
    (hroot : store.root.resolve host disk.fs = none) :
    (run_calls store host calls disk).2 = disk := by
  have hone : ∀ call : StoreCall, (call.run store host disk).2 = disk := by
    intro call
    cases call with
    | put key data =>
      show (store.put host key data disk).2 = disk
      rw [LocalObjectStore.put, path_unresolved hroot]
    | get key =>
      show (store.get host key disk).2 = disk
      rw [LocalObjectStore.get, path_unresolved hroot]
    | delete key =>
      show (store.delete host key disk).2 = disk
      rw [LocalObjectStore.delete, path_unresolved hroot]
  induction calls with
  | nil => rfl
  | cons call calls ih =>
    show (run_calls store host calls (call.run store host disk).2).2 = disk
    rw [hone call]
    exact ih

end contained

/-! ### The program's keys -/

def HexDigest (digest : String) : Prop :=
  digest ≠ "" ∧ ∀ c ∈ digest.toList, c ∈ "0123456789abcdef".toList

/-- A case and a digest. -/
structure ObjectId where
  case_id : Uuid
  digest : String
  hex : HexDigest digest

def ObjectId.key (o : ObjectId) : String := storage_key o.case_id.str o.digest

/-- Where the object lies, under the root. -/
def ObjectId.names (o : ObjectId) : List String := ["cases", o.case_id.str, "documents", o.digest]

theorem ObjectId.key_inj {o o' : ObjectId} (h : o.key = o'.key) : o = o' := by
  obtain ⟨case_id, digest, hex⟩ := o
  obtain ⟨hcase, hdigest⟩ := storage_key_inj h
  cases o'
  cases hcase
  cases hdigest
  rfl

theorem ObjectId.names_inj {o o' : ObjectId} (h : o.names = o'.names) : o = o' := by
  have hparts := List.cons.inj (List.cons.inj h).2
  have hdigest := List.cons.inj (List.cons.inj hparts.2).2
  refine ObjectId.key_inj ?_
  unfold ObjectId.key
  rw [hparts.1, hdigest.1]

theorem mem_hex_digits {k n : Nat} {c : Char} (h : c ∈ hex_digits k n) :
    ∃ d < 16, c = Nat.digitChar d := by
  induction k generalizing n with
  | zero => exact absurd h List.not_mem_nil
  | succ k ih =>
    rcases List.mem_append.mp h with hhigh | hlow
    · exact ih hhigh
    · exact ⟨n % 16, Nat.mod_lt _ (by omega), List.mem_singleton.mp hlow⟩

/-- There is no slash in a UUID. -/
theorem slash_not_mem_str (u : Uuid) : '/' ∉ u.str.toList := by
  have hdigit : ∀ d < 16, '/' ≠ Nat.digitChar d := by decide
  have hdigits : ∀ k n, '/' ∉ hex_digits k n := by
    intro k n hmem
    obtain ⟨d, hd, heq⟩ := mem_hex_digits hmem
    exact hdigit d hd heq
  have hdash : '/' ≠ '-' := by decide
  simp only [Uuid.str, String.toList_ofList, List.mem_append, List.mem_cons, hdigits, hdash,
    or_self, not_false_eq_true]

theorem hex_facts {digest : String} (h : HexDigest digest) :
    '/' ∉ digest.toList ∧ FileSystem.PlainName digest := by
  have hslash : '/' ∉ "0123456789abcdef".toList := by decide
  have hdot : '.' ∉ "0123456789abcdef".toList := by decide
  refine ⟨fun hmem => hslash (h.2 _ hmem), h.1, ?_, ?_⟩
  · rintro rfl
    exact hdot (h.2 '.' (by decide))
  · rintro rfl
    exact hdot (h.2 '.' (by decide))

theorem str_plain (u : Uuid) : FileSystem.PlainName u.str := by
  have hlength := Uuid.length_str u
  refine ⟨?_, ?_, ?_⟩
  all_goals
    intro heq
    rw [heq] at hlength
    exact absurd hlength (by decide)

theorem ObjectId.plain (o : ObjectId) : ∀ name ∈ o.names, FileSystem.PlainName name := by
  intro name hname
  simp only [ObjectId.names, List.mem_cons, List.not_mem_nil, or_false] at hname
  rcases hname with rfl | rfl | rfl | rfl
  · exact ⟨by decide, by decide, by decide⟩
  · exact str_plain _
  · exact ⟨by decide, by decide, by decide⟩
  · exact (hex_facts o.hex).2

/-- **The key, read as a path.** It is relative, and its parts are the names of the object. -/
theorem ObjectId.of_str_key (o : ObjectId) : PurePath.of_str o.key = ⟨false, o.names⟩ := by
  have htext : o.key.toList = "cases".toList ++ '/' :: (o.case_id.str.toList ++
      '/' :: ("documents".toList ++ '/' :: o.digest.toList)) := by
    simp [ObjectId.key, storage_key]
  have hsplit : o.key.toList.splitOn '/' =
      ["cases".toList, o.case_id.str.toList, "documents".toList, o.digest.toList] := by
    rw [htext, List.splitOn_append_cons_self_of_not_mem (by decide),
      List.splitOn_append_cons_self_of_not_mem (slash_not_mem_str _),
      List.splitOn_append_cons_self_of_not_mem (by decide),
      List.splitOn_eq_singleton (hex_facts o.hex).1]
  have hrelative : (o.key.toList.head? == some '/') = false := by
    rw [htext]
    rfl
  have hparts : (o.key.toList.splitOn '/').map String.ofList = o.names := by
    rw [hsplit]
    simp only [List.map_cons, List.map_nil, String.ofList_toList]
    rfl
  have hkept : o.names.filter (fun part => part != "" && part != ".") = o.names := by
    refine List.filter_eq_self.mpr fun name hname => ?_
    obtain ⟨hempty, hdot, _⟩ := o.plain name hname
    rw [Bool.and_eq_true, bne_iff_ne, bne_iff_ne]
    exact ⟨hempty, hdot⟩
  unfold PurePath.of_str
  rw [hrelative, hparts, hkept]

/-! ### A root directory -/

def file_at (fs : FileSystem Bytes) (path : Path) : Option Bytes :=
  match fs.node path with
  | some (.file data) => some data
  | _ => none

/-- A directory without links, there or still to be made. Nothing but directories is in
    the way of the objects, and no directory in their place. -/
structure StoreRoot (fs : FileSystem Bytes) (root : Path) : Prop where
  canonical : fs.Canonical root
  way : ∀ before, before <+: root → fs.node before = none ∨ fs.node before = some .dir
  linkless : ∀ path, root <+: path → ¬ fs.has_link path
  clear : ∀ (o : ObjectId) before, before <+: o.names.dropLast →
    fs.node (root ++ before) = none ∨ fs.node (root ++ before) = some .dir
  place : ∀ o : ObjectId, fs.node (root ++ o.names) ≠ some .dir

/-- The map holds what the files hold. -/
def Shows (fs : FileSystem Bytes) (root : Path) (m : Store) : Prop :=
  ∀ o : ObjectId, m o.key = file_at fs (root ++ o.names)

section root
variable {store : LocalObjectStore} {host : Host} {fs : FileSystem Bytes} {root : Path}
  {o : ObjectId} {m : Store}

theorem path_of_object (hlinkless : ∀ path, root <+: path → ¬ fs.has_link path)
    (hroot : store.root.resolve host fs = some root) (o : ObjectId) :
    store.path host fs o.key = .ok (root ++ o.names) := by
  have hstraight : fs.Straight root o.names :=
    ⟨o.plain, fun _ _ _ => hlinkless _ (List.prefix_append _ _)⟩
  exact path_below o.of_str_key hroot hstraight

theorem StoreRoot.object_canonical (h : StoreRoot fs root) (o : ObjectId) :
    fs.Canonical (root ++ o.names) where
  plain name hname := by
    rcases List.mem_append.mp hname with habove | hbelow
    · exact h.canonical.plain name habove
    · exact o.plain name hbelow
  linkless before hbefore := by
    rcases FileSystem.on_the_way_down hbefore with habove | ⟨names, rfl, _⟩
    · exact h.canonical.linkless before habove
    · exact h.linkless _ (List.prefix_append _ _)

/-- What is on the way to an object is a directory, or missing. -/
theorem StoreRoot.on_the_way (h : StoreRoot fs root) {path : Path}
    (hpath : path <+: root ++ o.names.dropLast) :
    fs.node path = none ∨ fs.node path = some .dir := by
  rcases FileSystem.on_the_way_down hpath with habove | ⟨names, rfl, hnames⟩
  · exact h.way path habove
  · exact h.clear o names hnames

/-- An object is there as a file, or it is missing. -/
theorem StoreRoot.object_node (h : StoreRoot fs root) (o : ObjectId) :
    fs.node (root ++ o.names) = none ∨ ∃ data, fs.node (root ++ o.names) = some (.file data) := by
  cases hnode : fs.node (root ++ o.names) with
  | none => exact .inl rfl
  | some node =>
    cases node with
    | dir => exact absurd hnode (h.place o)
    | file data => exact .inr ⟨data, rfl⟩
    | link absolute names =>
      exact absurd ⟨absolute, names, hnode⟩ (h.linkless _ (List.prefix_append _ _))

/-- A missing object is missing in the plainest way. -/
theorem StoreRoot.lookup_error (h : StoreRoot fs root) (o : ObjectId)
    (hnone : fs.node (root ++ o.names) = none) :
    fs.lookup_error (root ++ o.names) = .file_not_found := by
  refine if_neg fun hany => ?_
  obtain ⟨path, hpath, hfile⟩ := List.any_eq_true.mp hany
  have hp := (List.mem_inits path _).mp hpath
  have hnode : fs.node path = none ∨ fs.node path = some .dir := by
    by_cases hself : path = root ++ o.names
    · exact .inl (hself ▸ hnone)
    · have hway : path <+: root ++ o.names.dropLast := by
        have hsplit : root ++ o.names = root ++ o.names.dropLast ++ [o.digest] := by
          rw [List.append_assoc]
          rfl
        rw [hsplit] at hp hself
        exact (List.prefix_concat_iff.mp hp).resolve_left hself
      exact h.on_the_way hway
  unfold FileSystem.is_file at hfile
  rcases hnode with hnode | hnode
  · rw [hnode] at hfile
    cases hfile
  · rw [hnode] at hfile
    cases hfile

theorem object_dropLast (root : Path) (o : ObjectId) :
    (root ++ o.names).dropLast = root ++ o.names.dropLast := List.dropLast_append_of_ne_nil nofun

theorem not_way_to_object (o o' : ObjectId) :
    ¬ root ++ o'.names <+: root ++ o.names.dropLast := by
  intro h
  have hlength := h.length_le
  rw [List.length_append, List.length_append] at hlength
  have hobject : o'.names.length = 4 := rfl
  have hway : o.names.dropLast.length = 3 := rfl
  omega

/-- One object is written or removed, and directories come about on the way to it. -/
theorem StoreRoot.changed (h : StoreRoot fs root) (hm : Shows fs root m) {fs' : FileSystem Bytes}
    {new : Option Bytes} (hlinks : fs.SameLinks fs')
    (hself : fs'.node (root ++ o.names) = new.map .file)
    (hother : ∀ path, path ≠ root ++ o.names → fs'.node path = fs.node path ∨
      (path <+: root ++ o.names.dropLast ∧ fs'.node path = some .dir)) :
    StoreRoot fs' root ∧ Shows fs' root (m.set o.key new) := by
  -- directories are three names deep, objects four
  have hway : ∀ (o' : ObjectId) before, before <+: o'.names.dropLast →
      root ++ before ≠ root ++ o.names := by
    intro o' before hbefore heq
    have hlength := hbefore.length_le
    have hshort : o'.names.dropLast.length = 3 := rfl
    have hlong : o.names.length = 4 := rfl
    have hsame := congrArg List.length (List.append_cancel_left heq)
    omega
  have hobject : ∀ o', root ++ ObjectId.names o' ≠ root ++ o.names →
      fs'.node (root ++ o'.names) = fs.node (root ++ o'.names) := fun o' hne =>
    (hother _ hne).resolve_right fun ⟨hp, _⟩ => not_way_to_object o o' hp
  refine ⟨⟨h.canonical.congr hlinks, ?_, ?_, ?_, ?_⟩, ?_⟩
  · intro before hbefore
    have hne : before ≠ root ++ o.names := by
      intro heq
      have hlength := hbefore.length_le
      have hlong : o.names.length = 4 := rfl
      rw [heq, List.length_append] at hlength
      omega
    rcases hother before hne with hsame | ⟨_, hdir⟩
    · rw [hsame]
      exact h.way before hbefore
    · exact .inr hdir
  · rintro path hpath ⟨absolute, names, hlink⟩
    exact h.linkless path hpath ⟨absolute, names, (hlinks _ _ _).mpr hlink⟩
  · intro o' before hbefore
    rcases hother _ (hway o' before hbefore) with hsame | ⟨_, hdir⟩
    · rw [hsame]
      exact h.clear o' before hbefore
    · exact .inr hdir
  · intro o' hdir
    by_cases heq : root ++ o'.names = root ++ o.names
    · rw [heq, hself] at hdir
      cases new with
      | none => cases hdir
      | some data => cases hdir
    · rw [hobject o' heq] at hdir
      exact h.place o' hdir
  · intro o'
    by_cases heq : root ++ o'.names = root ++ o.names
    · obtain rfl := ObjectId.names_inj (List.append_cancel_left heq)
      unfold file_at
      rw [Store.set_self, hself]
      cases new with
      | none => rfl
      | some data => rfl
    · have hkey : o'.key ≠ o.key := fun hkey => heq (by rw [ObjectId.key_inj hkey])
      unfold file_at
      rw [Store.set_ne m new hkey, hobject o' heq]
      exact hm o'

/-! ### One call on a key of the program -/

variable {disk : Disk Bytes}

theorem put_object (h : StoreRoot disk.fs root) (hm : Shows disk.fs root m)
    (hroot : store.root.resolve host disk.fs = some root) (o : ObjectId) (data : Bytes) :
    (store.put host o.key data disk).1 = .ok () ∧
      StoreRoot (store.put host o.key data disk).2.fs root ∧
      Shows (store.put host o.key data disk).2.fs root (m.set o.key (some data)) := by
  have hcanonical := h.object_canonical o
  have hparent : disk.fs.Canonical (root ++ o.names).dropLast :=
    hcanonical.of_prefix (List.dropLast_prefix _)
  have hclear : ∀ before, before <+: (root ++ o.names).dropLast →
      disk.fs.node ([] ++ before) = none ∨ disk.fs.node ([] ++ before) = some .dir := by
    intro before hbefore
    rw [object_dropLast] at hbefore
    exact h.on_the_way hbefore
  obtain ⟨made, hmade, hdir⟩ := FileSystem.make_dirs_clear disk.fs.root hclear
  rw [List.nil_append, object_dropLast] at hdir
  have hsame : ∀ path, ¬ path <+: root ++ o.names.dropLast →
      made.node path = disk.fs.node path := by
    intro path hout
    rw [← object_dropLast] at hout
    exact FileSystem.make_dirs_way hmade hout
  have hlinks := (FileSystem.make_dirs_added hmade).same_links
  have hobject : made.node (root ++ o.names) = disk.fs.node (root ++ o.names) :=
    hsame _ (not_way_to_object o o)
  -- its parent is a directory now, and there is none in its own place
  have hfree : made.Free (root ++ o.names) := by
    refine ⟨by simp [ObjectId.names], ?_, ?_⟩
    · rw [object_dropLast]
      exact FileSystem.is_dir_iff.mpr hdir
    · rw [Bool.eq_false_iff]
      intro hisdir
      rw [FileSystem.is_dir_iff, hobject] at hisdir
      exact h.place o hisdir
  -- no link on the way, so every path is its own real path
  have hput : store.put host o.key data disk = (.ok (),
      ⟨made.put (root ++ o.names) (some (.file data)) hfree,
        (root ++ o.names) :: disk.opened⟩) := by
    unfold LocalObjectStore.put
    rw [path_of_object h.linkless hroot o]
    simp only [Disk.make_dirs, FileSystem.realpath_self hparent, hmade, Disk.write_bytes,
      FileSystem.realpath_self (hcanonical.congr hlinks), hfree, dite_true]
  rw [hput]
  refine ⟨rfl, h.changed hm ?_ (FileSystem.node_put_self hfree) fun path hne => ?_⟩
  · have hplain := (hcanonical.congr hlinks).linkless _ (List.prefix_refl _)
    have hlast : made.SameLinks (made.put (root ++ o.names) (some (.file data)) hfree) :=
      Disk.same_links_put hfree hplain fun _ _ h => by cases h
    exact fun path absolute names => (hlinks path absolute names).trans (hlast path absolute names)
  · rw [FileSystem.node_put_ne hfree hne]
    by_cases hp : path <+: root ++ o.names.dropLast
    · refine .inr ⟨hp, ?_⟩
      by_cases hend : path = root ++ o.names.dropLast
      · rw [hend, hdir]
      · exact FileSystem.dir_above (by rw [hdir]; exact fun h => by cases h) hp hend
    · exact .inl (hsame path hp)

theorem get_object (h : StoreRoot disk.fs root) (hm : Shows disk.fs root m)
    (hroot : store.root.resolve host disk.fs = some root) (o : ObjectId) :
    (store.get host o.key disk).1 =
        (match m o.key with
          | some data => .ok data
          | none => .error (.object_not_found o.key)) ∧
      (store.get host o.key disk).2.fs = disk.fs := by
  unfold LocalObjectStore.get
  rw [path_of_object h.linkless hroot o, hm o]
  simp only [Disk.read_bytes, FileSystem.realpath_self (h.object_canonical o), file_at]
  rcases h.object_node o with hnode | ⟨data, hnode⟩
  · rw [hnode, h.lookup_error o hnode]
    exact ⟨rfl, rfl⟩
  · rw [hnode]
    exact ⟨rfl, rfl⟩

theorem delete_object (h : StoreRoot disk.fs root) (hm : Shows disk.fs root m)
    (hroot : store.root.resolve host disk.fs = some root) (o : ObjectId) :
    (store.delete host o.key disk).1 = .ok () ∧
      StoreRoot (store.delete host o.key disk).2.fs root ∧
      Shows (store.delete host o.key disk).2.fs root (m.set o.key none) := by
  have hcanonical := h.object_canonical o
  have hparent : disk.fs.Canonical (root ++ o.names).dropLast :=
    hcanonical.of_prefix (List.dropLast_prefix _)
  rcases h.object_node o with hnode | ⟨data, hnode⟩
  · have hdelete : store.delete host o.key disk = (.ok (),
        { disk with opened := (root ++ o.names) :: disk.opened }) := by
      unfold LocalObjectStore.delete
      rw [path_of_object h.linkless hroot o]
      simp only [Disk.unlink, FileSystem.realpath_self hparent, Disk.last_place, hnode,
        h.lookup_error o hnode, if_true]
    rw [hdelete]
    exact ⟨rfl, h.changed hm (fun _ _ _ => Iff.rfl) hnode fun path _ => .inl rfl⟩
  · have hdir : disk.fs.node (root ++ o.names).dropLast = some .dir := by
      refine FileSystem.dir_above (by rw [hnode]; exact fun h => by cases h)
        (List.dropLast_prefix _) fun heq => ?_
      rw [object_dropLast] at heq
      exact not_way_to_object o o (by rw [heq])
    have hfree : disk.fs.Free (root ++ o.names) := by
      refine ⟨by simp [ObjectId.names], FileSystem.is_dir_iff.mpr hdir, ?_⟩
      rw [Bool.eq_false_iff]
      exact fun hisdir => h.place o (FileSystem.is_dir_iff.mp hisdir)
    have hdelete : store.delete host o.key disk = (.ok (),
        ⟨disk.fs.put (root ++ o.names) none hfree, (root ++ o.names) :: disk.opened⟩) := by
      unfold LocalObjectStore.delete
      rw [path_of_object h.linkless hroot o]
      simp only [Disk.unlink, FileSystem.realpath_self hparent, Disk.last_place, hnode, hfree,
        dite_true]
    rw [hdelete]
    have hplain := hcanonical.linkless _ (List.prefix_refl _)
    exact ⟨rfl, h.changed hm (Disk.same_links_put hfree hplain fun _ _ h => by cases h)
      (FileSystem.node_put_self hfree) fun path hne => .inl (FileSystem.node_put_ne hfree hne)⟩

/-- **One call** on a key of the program answers as the map does, and shows the map after. -/
theorem StoreCall.refines (call : StoreCall) (hkey : ∃ o : ObjectId, call.key = o.key)
    (h : StoreRoot disk.fs root) (hm : Shows disk.fs root m)
    (hroot : store.root.resolve host disk.fs = some root) :
    (call.run store host disk).1 = (call.mapped m).1 ∧
      StoreRoot (call.run store host disk).2.fs root ∧
      Shows (call.run store host disk).2.fs root (call.mapped m).2 := by
  obtain ⟨o, hkey⟩ := hkey
  cases call with
  | put key data =>
    obtain rfl : key = o.key := hkey
    obtain ⟨hanswer, hstate⟩ := put_object h hm hroot o data
    refine ⟨?_, hstate⟩
    show (store.put host o.key data disk).1.map _ = _
    rw [hanswer]
    rfl
  | get key =>
    obtain rfl : key = o.key := hkey
    obtain ⟨hanswer, hfs⟩ := get_object h hm hroot o
    refine ⟨?_, ?_⟩
    · show (store.get host o.key disk).1.map _ = (match m o.key with
        | some data => .ok (some data)
        | none => .error (.object_not_found o.key))
      rw [hanswer]
      cases m o.key with
      | none => rfl
      | some data => rfl
    · show StoreRoot (store.get host o.key disk).2.fs root ∧
        Shows (store.get host o.key disk).2.fs root m
      rw [hfs]
      exact ⟨h, hm⟩
  | delete key =>
    obtain rfl : key = o.key := hkey
    obtain ⟨hanswer, hstate⟩ := delete_object h hm hroot o
    refine ⟨?_, hstate⟩
    show (store.delete host o.key disk).1.map _ = _
    rw [hanswer]
    rfl

/-- **Any number of calls** on keys of the program. -/
theorem run_calls_refines (calls : List StoreCall)
    (hkeys : ∀ call ∈ calls, ∃ o : ObjectId, call.key = o.key)
    (h : StoreRoot disk.fs root) (hm : Shows disk.fs root m)
    (hroot : store.root.resolve host disk.fs = some root) :
    (run_calls store host calls disk).1 = (map_calls calls m).1 ∧
      Shows (run_calls store host calls disk).2.fs root (map_calls calls m).2 := by
  induction calls generalizing disk m with
  | nil => exact ⟨rfl, hm⟩
  | cons call calls ih =>
    obtain ⟨hanswer, hroot', hm'⟩ := call.refines (hkeys call List.mem_cons_self) h hm hroot
    have hstill : store.root.resolve host (call.run store host disk).2.fs = some root := by
      unfold PurePath.resolve at hroot ⊢
      rw [← FileSystem.realpath_congr (call.contained hroot).links]
      exact hroot
    obtain ⟨hanswers, hend⟩ :=
      ih (fun c hc => hkeys c (List.mem_cons_of_mem _ hc)) hroot' hm' hstill
    refine ⟨?_, hend⟩
    show (call.run store host disk).1 :: (run_calls store host calls _).1 =
      (call.mapped m).1 :: (map_calls calls _).1
    rw [hanswer, hanswers]

end root

/-- A directory with nothing under `cases`, or none yet, shows the empty map. -/
theorem store_root_empty {fs : FileSystem Bytes} {root : Path} (hcanonical : fs.Canonical root)
    (hway : ∀ before, before <+: root → fs.node before = none ∨ fs.node before = some .dir)
    (hlinkless : ∀ path, root <+: path → ¬ fs.has_link path)
    (hempty : fs.node (root ++ ["cases"]) = none) :
    StoreRoot fs root ∧ Shows fs root fun _ => none := by
  have hbelow : ∀ names, fs.node (root ++ "cases" :: names) = none := by
    intro names
    by_contra hsome
    rw [List.append_cons] at hsome
    by_cases hself : root ++ ["cases"] = root ++ ["cases"] ++ names
    · rw [← hself] at hsome
      exact hsome hempty
    · have hdir := FileSystem.dir_above hsome (List.prefix_append _ _) hself
      rw [hempty] at hdir
      cases hdir
  refine ⟨⟨hcanonical, hway, hlinkless, fun o before hbefore => ?_, fun o hdir => ?_⟩, fun o => ?_⟩
  · cases before with
    | nil =>
      rw [List.append_nil]
      exact hway root (List.prefix_refl root)
    | cons name names =>
      obtain rfl : name = "cases" := (List.cons_prefix_cons.mp hbefore).1
      exact .inl (hbelow names)
  · rw [ObjectId.names, hbelow] at hdir
    cases hdir
  · unfold file_at
    rw [ObjectId.names, hbelow]

/-- **The refinement.** From a root directory without links that shows a map, any number of
    calls on the program's keys are answered as by the map, and it is shown afterwards; a
    directory with nothing under `cases` shows the empty one. Different objects have
    different files. Whatever the keys, and whatever the root leads to, no file outside of
    it is opened or removed, and nothing comes about there but the directories to it. -/
theorem local_store_is_a_map (store : LocalObjectStore) (host : Host) :
    (∀ (disk : Disk Bytes) (root : Path), store.root.resolve host disk.fs = some root →
      (∀ (calls : List StoreCall) (m : Store), StoreRoot disk.fs root → Shows disk.fs root m →
        (∀ call ∈ calls, ∃ o : ObjectId, call.key = o.key) →
        (run_calls store host calls disk).1 = (map_calls calls m).1 ∧
          Shows (run_calls store host calls disk).2.fs root (map_calls calls m).2) ∧
      ((∀ path, root <+: path → ¬ disk.fs.has_link path) →
        ((∀ before, before <+: root →
            disk.fs.node before = none ∨ disk.fs.node before = some .dir) →
          disk.fs.node (root ++ ["cases"]) = none →
          StoreRoot disk.fs root ∧ Shows disk.fs root fun _ => none) ∧
        ∀ o o' : ObjectId,
          store.path host disk.fs o.key = store.path host disk.fs o'.key → o = o')) ∧
    ∀ (disk : Disk Bytes) (calls : List StoreCall),
      match store.root.resolve host disk.fs with
      | some root => Disk.Within root disk (run_calls store host calls disk).2
      | none => (run_calls store host calls disk).2 = disk := by
  refine ⟨fun disk root hroot => ⟨fun calls m h hm hkeys => ?_, fun hlinkless =>
    ⟨fun hway hempty => ?_, fun o o' hpath => ?_⟩⟩, fun disk calls => ?_⟩
  · exact run_calls_refines calls hkeys h hm hroot
  · have hcanonical := FileSystem.realpath_canonical (FileSystem.canonical_root disk.fs) hroot
    exact store_root_empty hcanonical hway hlinkless hempty
  · rw [path_of_object hlinkless hroot o, path_of_object hlinkless hroot o'] at hpath
    exact ObjectId.names_inj (List.append_cancel_left (Except.ok.inj hpath))
  · cases hroot : store.root.resolve host disk.fs with
    | none => exact run_calls_unresolved calls hroot
    | some root => exact run_calls_contained calls hroot

namespace Sample

/-- The root directory, and nothing in it. -/
def blank_root : FileSystem Bytes where
  node path := if path = [] then some .dir else none
  root := rfl
  above path name h := by
    rw [if_neg (List.append_ne_nil_of_right_ne_nil path (List.cons_ne_nil name []))] at h
    exact absurd rfl h

theorem blank_root_node {path : Path} :
    blank_root.node path = none ∨ blank_root.node path = some .dir := by
  by_cases h : path = []
  · exact .inr (if_pos h)
  · exact .inl (if_neg h)

theorem blank_root_linkless (path : Path) : ¬ blank_root.has_link path := by
  rintro ⟨absolute, names, hlink⟩
  rcases @blank_root_node path with hnone | hdir
  · rw [hnone] at hlink
    cases hlink
  · rw [hdir] at hlink
    cases hlink

def objects : LocalObjectStore := ⟨⟨true, ["srv", "objects"]⟩⟩

def host : Host := ⟨[], 40⟩

theorem hex_0a : HexDigest "0a" := by
  have hdigits : ("0a".toList.all fun c => "0123456789abcdef".toList.contains c) = true := by decide
  exact ⟨by decide, fun c hc => List.contains_iff_mem.mp (List.all_eq_true.mp hdigits c hc)⟩

def scan_object : ObjectId := ⟨2#128, "0a", hex_0a⟩

/-- The object stored, read, removed and looked for. -/
def visits : List StoreCall :=
  [.put scan_object.key [1], .get scan_object.key, .delete scan_object.key, .get scan_object.key]

end Sample

/-- On a blank disk: what has been stored is read, and what has been removed is not found. -/
theorem blank_disk_is_a_map :
    (run_calls Sample.objects Sample.host Sample.visits ⟨Sample.blank_root, []⟩).1 =
      [.ok none, .ok (some [1]), .ok none, .error (.object_not_found Sample.scan_object.key)] := by
  have hroot : Sample.objects.root.resolve Sample.host Sample.blank_root =
      some ["srv", "objects"] := by
    decide
  have hmap := (local_store_is_a_map Sample.objects Sample.host).1 ⟨Sample.blank_root, []⟩ _ hroot
  have hempty := (hmap.2 fun path _ => Sample.blank_root_linkless path).1
    (fun before _ => Sample.blank_root_node) rfl
  have hkeys : ∀ call ∈ Sample.visits, ∃ o : ObjectId, call.key = o.key := by
    intro call hcall
    refine ⟨Sample.scan_object, ?_⟩
    simp only [Sample.visits, List.mem_cons, List.not_mem_nil, or_false] at hcall
    rcases hcall with rfl | rfl | rfl | rfl <;> rfl
  rw [(hmap.1 Sample.visits _ hempty.1 hempty.2 hkeys).1]
  simp [Sample.visits, map_calls, StoreCall.mapped, Store.set]

end CounselReady
