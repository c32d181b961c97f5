import Mathlib.Data.List.Basic
import Mathlib.Data.List.Infix

/-! # A File System

    Directories, files and symbolic links under one root. A path is resolved name by
    name: `..` goes up, and a link is followed. What is resolved has no links on it,
    so to resolve it again changes nothing.

    * `realpath`: resolution, as far as a number of links allows.
    * `Canonical`, `realpath_canonical`, `realpath_self`: what it gives.
    * `realpath_below`: below a place that has been reached, names that meet no link
      are simply added.
    * `make_dirs`, `read_bytes`, `write_bytes`, `unlink`: the operations, and `Within`,
      what they leave alone.
-/

namespace Framework

/-- The names from the root of the file system on. -/
abbrev Path := List String

inductive Node (Data : Type) where
  | dir
  | file (data : Data)
  | link (absolute : Bool) (names : List String)

inductive OsError where
  | file_not_found
  | not_a_directory
  | is_a_directory
  | file_exists
  | symlink_loop
  deriving DecidableEq

/-- What there is, is in a directory. -/
structure FileSystem (Data : Type) where
  node : Path → Option (Node Data)
  root : node [] = some .dir
  above : ∀ path name, node (path ++ [name]) ≠ none → node path = some .dir

variable {Data : Type} {fs fs' : FileSystem Data} {path path' rest : Path} {name : String}

namespace FileSystem

def has_link (fs : FileSystem Data) (path : Path) : Prop :=
  ∃ absolute names, fs.node path = some (.link absolute names)

/-! ### Resolution -/

/-- Along the names, from `path` on; `follow` takes over at a link. -/
def walk (fs : FileSystem Data) (follow : Path → List String → Option Path) :
    Path → List String → Option Path
  | path, [] => some path
  | path, name :: rest =>
      if name = "" ∨ name = "." then fs.walk follow path rest
      else if name = ".." then fs.walk follow path.dropLast rest
      else
        match fs.node (path ++ [name]) with
        | some (.link absolute names) => follow (if absolute then [] else path) (names ++ rest)
        | _ => fs.walk follow (path ++ [name]) rest

/-- `os.path.realpath`: what is missing is taken as it is written. `none` is a loop of
    links, or a chain of them that is too long. -/
def realpath (fs : FileSystem Data) : (links : Nat) → Path → List String → Option Path
  | 0 => fs.walk fun _ _ => none
  | links + 1 => fs.walk (fs.realpath links)

/-- A name that is no direction. -/
def PlainName (name : String) : Prop := name ≠ "" ∧ name ≠ "." ∧ name ≠ ".."

section walk
variable {follow : Path → List String → Option Path}

theorem walk_stay (hname : name = "" ∨ name = ".") :
    fs.walk follow path (name :: rest) = fs.walk follow path rest := if_pos hname

theorem walk_up : fs.walk follow path (".." :: rest) = fs.walk follow path.dropLast rest := rfl

theorem walk_down (hname : PlainName name) (hnode : ¬ fs.has_link (path ++ [name])) :
    fs.walk follow path (name :: rest) = fs.walk follow (path ++ [name]) rest := by
  rw [walk, if_neg (not_or.mpr ⟨hname.1, hname.2.1⟩), if_neg hname.2.2]
  split
  · next absolute names hlink => exact absurd ⟨absolute, names, hlink⟩ hnode
  · rfl

theorem walk_link (hname : PlainName name) {absolute : Bool} {names : List String}
    (hlink : fs.node (path ++ [name]) = some (.link absolute names)) :
    fs.walk follow path (name :: rest) =
      follow (if absolute then [] else path) (names ++ rest) := by
  rw [walk, if_neg (not_or.mpr ⟨hname.1, hname.2.1⟩), if_neg hname.2.2, hlink]

end walk

/-- A name stays, goes up, or is plain. -/
theorem name_cases (name : String) : (name = "" ∨ name = ".") ∨ name = ".." ∨ PlainName name := by
  by_cases hstay : name = "" ∨ name = "."
  · exact .inl hstay
  · by_cases hup : name = ".."
    · exact .inr (.inl hup)
    · exact .inr (.inr ⟨fun h => hstay (.inl h), fun h => hstay (.inr h), hup⟩)

/-- There is no link on the path, and no `..`. -/
structure Canonical (fs : FileSystem Data) (path : Path) : Prop where
  plain : ∀ name ∈ path, PlainName name
  linkless : ∀ before, before <+: path → ¬ fs.has_link before

theorem Canonical.of_prefix (h : fs.Canonical path) (hp : path' <+: path) : fs.Canonical path' where
  plain name hname := h.plain name (hp.subset hname)
  linkless before hbefore := h.linkless before (hbefore.trans hp)

theorem canonical_root (fs : FileSystem Data) : fs.Canonical [] where
  plain name hname := absurd hname List.not_mem_nil
  linkless before hbefore := by
    rw [List.prefix_nil.mp hbefore]
    rintro ⟨absolute, names, hlink⟩
    rw [fs.root] at hlink
    cases hlink

theorem Canonical.down (h : fs.Canonical path) (hname : PlainName name)
    (hnode : ¬ fs.has_link (path ++ [name])) : fs.Canonical (path ++ [name]) where
  plain name' hname' := by
    rcases List.mem_append.mp hname' with hold | hnew
    · exact h.plain name' hold
    · rwa [List.mem_singleton.mp hnew]
  linkless before hbefore := by
    rcases List.prefix_concat_iff.mp hbefore with rfl | hshorter
    · exact hnode
    · exact h.linkless before hshorter

theorem walk_canonical {follow : Path → List String → Option Path}
    (hfollow : ∀ path rest target, fs.Canonical path → follow path rest = some target →
      fs.Canonical target) {target : Path} (h : fs.Canonical path)
    (hwalk : fs.walk follow path rest = some target) : fs.Canonical target := by
  induction rest generalizing path with
  | nil =>
    cases hwalk
    exact h
  | cons name rest ih =>
    rcases name_cases name with hstay | rfl | hname
    · rw [walk_stay hstay] at hwalk
      exact ih h hwalk
    · rw [walk_up] at hwalk
      exact ih (h.of_prefix (List.dropLast_prefix path)) hwalk
    by_cases hlink : fs.has_link (path ++ [name])
    · -- a link starts over, from the top or from where it lies
      obtain ⟨absolute, names, hnode⟩ := hlink
      rw [walk_link hname hnode] at hwalk
      refine hfollow _ _ _ ?_ hwalk
      cases absolute with
      | true => exact canonical_root fs
      | false => exact h
    · rw [walk_down hname hlink] at hwalk
      exact ih (h.down hname hlink) hwalk

/-- **What resolution gives.** A path of plain names, without a link on the way. -/
theorem realpath_canonical {links : Nat} {target : Path} (h : fs.Canonical path)
    (hreal : fs.realpath links path rest = some target) : fs.Canonical target := by
  induction links generalizing path rest target with
  | zero =>
    refine walk_canonical (fun _ _ _ _ hnone => ?_) h hreal
    cases hnone
  | succ links ih => exact walk_canonical (fun _ _ _ hpath => ih hpath) h hreal

/-- On the way down to `path` and on to `rest`: above, or below. -/
theorem on_the_way_down {before : Path} (h : before <+: path ++ rest) :
    before <+: path ∨ ∃ names, before = path ++ names ∧ names <+: rest := by
  rcases List.prefix_or_prefix_of_prefix h (List.prefix_append path rest) with habove | hbelow
  · exact .inl habove
  · obtain ⟨names, rfl⟩ := hbelow
    exact .inr ⟨names, rfl, (List.prefix_append_right_inj path).mp h⟩

/-! ### Names that meet no link -/

/-- The names lead on from `path`, and there is no link on the way. -/
structure Straight (fs : FileSystem Data) (path : Path) (rest : List String) : Prop where
  plain : ∀ name ∈ rest, PlainName name
  linkless : ∀ before, before <+: rest → before ≠ [] → ¬ fs.has_link (path ++ before)

theorem Straight.tail (h : fs.Straight path (name :: rest)) :
    fs.Straight (path ++ [name]) rest where
  plain name' hname' := h.plain name' (List.mem_cons_of_mem _ hname')
  linkless before hbefore _ := by
    rw [List.append_assoc]
    have hlonger : [name] ++ before <+: name :: rest :=
      List.cons_prefix_cons.mpr ⟨rfl, hbefore⟩
    exact h.linkless _ hlonger (List.cons_ne_nil _ _)

theorem Canonical.straight (h : fs.Canonical path) : fs.Straight [] path where
  plain := h.plain
  linkless before hbefore _ := h.linkless before hbefore

theorem walk_straight {follow : Path → List String → Option Path} (h : fs.Straight path rest) :
    fs.walk follow path rest = some (path ++ rest) := by
  induction rest generalizing path with
  | nil => rw [List.append_nil]; rfl
  | cons name rest ih =>
    have hnode := h.linkless [name] (List.cons_prefix_cons.mpr ⟨rfl, List.nil_prefix⟩)
      (List.cons_ne_nil _ _)
    rw [walk_down (h.plain name List.mem_cons_self) hnode, ih h.tail, List.append_assoc]
    rfl

theorem realpath_straight {links : Nat} (h : fs.Straight path rest) :
    fs.realpath links path rest = some (path ++ rest) := by
  cases links with
  | zero => exact walk_straight h
  | succ links => exact walk_straight h

/-- **Once is enough.** A path that has been resolved is resolved to itself. -/
theorem realpath_self {links : Nat} (h : fs.Canonical path) :
    fs.realpath links [] path = some path := realpath_straight h.straight

theorem walk_below {follow : Path → List String → Option Path} {names : List String}
    {target : Path} (hstraight : fs.Straight target names)
    (hfollow : ∀ path rest, follow path rest = some target →
      follow path (rest ++ names) = some (target ++ names))
    (hwalk : fs.walk follow path rest = some target) :
    fs.walk follow path (rest ++ names) = some (target ++ names) := by
  induction rest generalizing path with
  | nil =>
    cases hwalk
    exact walk_straight hstraight
  | cons name rest ih =>
    rw [List.cons_append]
    rcases name_cases name with hstay | rfl | hname
    · rw [walk_stay hstay] at hwalk ⊢
      exact ih hwalk
    · rw [walk_up] at hwalk ⊢
      exact ih hwalk
    by_cases hlink : fs.has_link (path ++ [name])
    · obtain ⟨absolute, names', hnode⟩ := hlink
      rw [walk_link hname hnode] at hwalk ⊢
      rw [← List.append_assoc]
      exact hfollow _ _ hwalk
    · rw [walk_down hname hlink] at hwalk ⊢
      exact ih hwalk

/-- **Below a place that has been reached** the names are added to it. -/
theorem realpath_below {links : Nat} {names : List String} {target : Path}
    (hstraight : fs.Straight target names) (hreal : fs.realpath links path rest = some target) :
    fs.realpath links path (rest ++ names) = some (target ++ names) := by
  induction links generalizing path rest with
  | zero => exact walk_below hstraight (fun _ _ hnone => by cases hnone) hreal
  | succ links ih => exact walk_below hstraight (fun _ _ => ih) hreal

/-! ### Links stay -/

def SameLinks (fs fs' : FileSystem Data) : Prop :=
  ∀ path absolute names,
    fs.node path = some (.link absolute names) ↔ fs'.node path = some (.link absolute names)

theorem walk_congr {follow follow' : Path → List String → Option Path} (h : SameLinks fs fs')
    (hfollow : ∀ path rest, follow path rest = follow' path rest) (path : Path)
    (rest : List String) : fs.walk follow path rest = fs'.walk follow' path rest := by
  induction rest generalizing path with
  | nil => rfl
  | cons name rest ih =>
    rcases name_cases name with hstay | rfl | hname
    · rw [walk_stay hstay, walk_stay hstay, ih]
    · rw [walk_up, walk_up, ih]
    by_cases hlink : fs.has_link (path ++ [name])
    · obtain ⟨absolute, names, hnode⟩ := hlink
      rw [walk_link hname hnode, walk_link hname ((h _ _ _).mp hnode), hfollow]
    · have hlink' : ¬ fs'.has_link (path ++ [name]) :=
        fun ⟨absolute, names, hnode⟩ => hlink ⟨absolute, names, (h _ _ _).mpr hnode⟩
      rw [walk_down hname hlink, walk_down hname hlink', ih]

/-- Resolution depends on the links alone. -/
theorem realpath_congr (h : SameLinks fs fs') (links : Nat) (path : Path) (rest : List String) :
    fs.realpath links path rest = fs'.realpath links path rest := by
  induction links generalizing path rest with
  | zero => exact walk_congr h (fun _ _ => rfl) path rest
  | succ links ih => exact walk_congr h ih path rest

theorem Canonical.congr (h : SameLinks fs fs') (hc : fs.Canonical path) : fs'.Canonical path where
  plain := hc.plain
  linkless before hbefore := fun ⟨absolute, names, hlink⟩ =>
    hc.linkless before hbefore ⟨absolute, names, (h _ _ _).mpr hlink⟩

/-! ### One change -/

def is_dir (fs : FileSystem Data) (path : Path) : Bool :=
  match fs.node path with
  | some .dir => true
  | _ => false

def is_file (fs : FileSystem Data) (path : Path) : Bool :=
  match fs.node path with
  | some (.file _) => true
  | _ => false

theorem is_dir_iff : fs.is_dir path = true ↔ fs.node path = some .dir := by
  unfold is_dir
  split
  · next h => simp [h]
  · next h => simp only [Bool.false_eq_true, false_iff]; exact h

/-- There is a directory to put it in, and no directory in its place. -/
structure Free (fs : FileSystem Data) (path : Path) : Prop where
  below : path ≠ []
  parent : fs.is_dir path.dropLast = true
  vacant : fs.is_dir path = false

instance : Decidable (fs.Free path) :=
  decidable_of_iff (path ≠ [] ∧ fs.is_dir path.dropLast = true ∧ fs.is_dir path = false)
    ⟨fun ⟨hbelow, hparent, hvacant⟩ => ⟨hbelow, hparent, hvacant⟩,
      fun h => ⟨h.below, h.parent, h.vacant⟩⟩

/-- Put in its place, or taken away. -/
def put (fs : FileSystem Data) (path : Path) (new : Option (Node Data)) (h : fs.Free path) :
    FileSystem Data where
  node path' := if path' = path then new else fs.node path'
  root := by rw [if_neg (Ne.symm h.below), fs.root]
  above := by
    intro path' name hsome
    have hvacant : fs.node path ≠ some .dir := by
      intro hdir
      have hvacant := h.vacant
      rw [is_dir_iff.mpr hdir] at hvacant
      cases hvacant
    by_cases hself : path' ++ [name] = path
    · subst hself
      have hparent := is_dir_iff.mp h.parent
      rw [List.dropLast_concat] at hparent
      have hne : path' ≠ path' ++ [name] := fun heq => by simpa using congrArg List.length heq
      rw [if_neg hne, hparent]
    · rw [if_neg hself] at hsome
      have hdir := fs.above path' name hsome
      have hne : path' ≠ path := fun heq => hvacant (heq ▸ hdir)
      rw [if_neg hne, hdir]

@[simp] theorem node_put_self {new : Option (Node Data)} (h : fs.Free path) :
    (fs.put path new h).node path = new := if_pos rfl

theorem node_put_ne {new : Option (Node Data)} (h : fs.Free path) (hne : path' ≠ path) :
    (fs.put path new h).node path' = fs.node path' := if_neg hne

/-- Everything on the way to something is a directory. -/
theorem dir_above (hnode : fs.node path ≠ none) (hp : path' <+: path) (hne : path' ≠ path) :
    fs.node path' = some .dir := by
  obtain ⟨rest, rfl⟩ := hp
  induction rest using List.reverseRecOn with
  | nil => exact absurd (List.append_nil path').symm hne
  | append_singleton rest name ih =>
    rw [← List.append_assoc] at hnode
    have hdir := fs.above _ _ hnode
    by_cases hrest : rest = []
    · rw [hrest, List.append_nil] at hdir
      exact hdir
    · refine ih (by rw [hdir]; exact nofun) fun heq => hrest ?_
      simpa using heq.symm

/-- Why there is nothing there. -/
def lookup_error (fs : FileSystem Data) (path : Path) : OsError :=
  if path.inits.any fs.is_file then .not_a_directory else .file_not_found

/-- The directories that are missing on the way down, from `made` on. -/
def make_dirs : FileSystem Data → Path → List String → Except OsError (FileSystem Data)
  | fs, _, [] => .ok fs
  | fs, made, name :: rest =>
      match fs.node (made ++ [name]) with
      | some .dir => fs.make_dirs (made ++ [name]) rest
      | some _ => .error (if rest.isEmpty then .file_exists else .not_a_directory)
      | none =>
          if h : fs.Free (made ++ [name]) then
            (fs.put (made ++ [name]) (some .dir) h).make_dirs (made ++ [name]) rest
          else .error .file_not_found

/-- Nothing but directories has been added. -/
def DirsAdded (fs fs' : FileSystem Data) : Prop :=
  ∀ path, fs'.node path = fs.node path ∨ (fs.node path = none ∧ fs'.node path = some .dir)

theorem DirsAdded.trans {fs'' : FileSystem Data} (h : DirsAdded fs fs') (h' : DirsAdded fs' fs'') :
    DirsAdded fs fs'' := by
  intro path
  rcases h' path with hsame | ⟨hnone, hdir⟩
  · rw [hsame]
    exact h path
  · rcases h path with hsame' | ⟨_, hdir'⟩
    · exact .inr ⟨hsame' ▸ hnone, hdir⟩
    · rw [hdir'] at hnone
      cases hnone

theorem DirsAdded.same_links (h : DirsAdded fs fs') : SameLinks fs fs' := by
  intro path absolute names
  rcases h path with hsame | ⟨hnone, hdir⟩
  · rw [hsame]
  · rw [hnone, hdir]
    exact ⟨nofun, nofun⟩

theorem put_dir_added (h : fs.Free path) (hnone : fs.node path = none) :
    DirsAdded fs (fs.put path (some .dir) h) := by
  intro path'
  by_cases heq : path' = path
  · subst heq
    exact .inr ⟨hnone, node_put_self h⟩
  · exact .inl (node_put_ne h heq)

theorem make_dirs_added {made : Path} (h : fs.make_dirs made rest = .ok fs') :
    DirsAdded fs fs' := by
  induction rest generalizing fs made with
  | nil =>
    cases h
    exact fun _ => .inl rfl
  | cons name rest ih =>
    unfold make_dirs at h
    split at h
    · exact ih h
    · cases h
    · next hnone =>
      split at h
      · next hfree => exact (put_dir_added hfree hnone).trans (ih h)
      · cases h

/-- They come about on the way down. -/
theorem make_dirs_way {made : Path} (h : fs.make_dirs made rest = .ok fs')
    (hout : ¬ path <+: made ++ rest) : fs'.node path = fs.node path := by
  induction rest generalizing fs made with
  | nil =>
    cases h
    rfl
  | cons name rest ih =>
    have hdown : made ++ name :: rest = made ++ [name] ++ rest := List.append_cons made name rest
    rw [hdown] at hout
    have hne : path ≠ made ++ [name] := by
      rintro rfl
      exact hout (List.prefix_append _ _)
    unfold make_dirs at h
    split at h
    · exact ih h hout
    · cases h
    · split at h
      · next hfree => rw [ih h hout, node_put_ne hfree hne]
      · cases h

/-- **Nothing in the way.** With directories or nothing on the way down, there are
    directories all the way afterwards. -/
theorem make_dirs_clear {made : Path} (hmade : fs.node made = some .dir)
    (hclear : ∀ before, before <+: rest → fs.node (made ++ before) = none ∨
      fs.node (made ++ before) = some .dir) :
    ∃ fs', fs.make_dirs made rest = .ok fs' ∧ fs'.node (made ++ rest) = some .dir := by
  induction rest generalizing fs made with
  | nil =>
    refine ⟨fs, rfl, ?_⟩
    rw [List.append_nil]
    exact hmade
  | cons name rest ih =>
    have hnext : ∀ before, before <+: rest → name :: before <+: name :: rest :=
      fun before hbefore => List.cons_prefix_cons.mpr ⟨rfl, hbefore⟩
    have hsplit : ∀ before : List String, made ++ name :: before = made ++ [name] ++ before :=
      fun before => List.append_cons made name before
    rw [hsplit rest]
    unfold make_dirs
    -- the next name is vacant and is made, or is a directory and is passed
    rcases hclear [name] (hnext [] List.nil_prefix) with hnone | hdir
    · have hvacant : fs.is_dir (made ++ [name]) = false := by
        unfold is_dir
        rw [hnone]
      have hfree : fs.Free (made ++ [name]) :=
        ⟨by simp, by rw [List.dropLast_concat]; exact is_dir_iff.mpr hmade, hvacant⟩
      rw [hnone]
      simp only [hfree, dite_true]
      have hbelow : ∀ before, before <+: rest →
          (fs.put (made ++ [name]) (some .dir) hfree).node (made ++ [name] ++ before) = none ∨
          (fs.put (made ++ [name]) (some .dir) hfree).node (made ++ [name] ++ before) =
            some .dir := by
        intro before hbefore
        by_cases hself : before = []
        · subst hself
          rw [List.append_nil]
          exact .inr (node_put_self hfree)
        · rw [node_put_ne hfree fun heq => hself (by simpa using heq), ← hsplit]
          exact hclear _ (hnext before hbefore)
      exact ih (node_put_self hfree) hbelow
    · rw [hdir]
      refine ih hdir fun before hbefore => ?_
      rw [← hsplit]
      exact hclear _ (hnext before hbefore)

end FileSystem

/-! ### Operations on paths -/

/-- The file system, and what has been opened or removed in it, latest first. -/
structure Disk (Data : Type) where
  fs : FileSystem Data
  opened : List Path

namespace Disk

variable {d d' : Disk Data}

/-- `mkdir(parents=True, exist_ok=True)` -/
def make_dirs (links : Nat) (path : Path) (d : Disk Data) : Except OsError Unit × Disk Data :=
  match d.fs.realpath links [] path with
  | none => (.error .symlink_loop, d)
  | some target =>
      match d.fs.make_dirs [] target with
      | .error e => (.error e, d)
      | .ok fs => (.ok (), { d with fs := fs })

def read_bytes (links : Nat) (path : Path) (d : Disk Data) : Except OsError Data × Disk Data :=
  match d.fs.realpath links [] path with
  | none => (.error .symlink_loop, d)
  | some target =>
      (match d.fs.node target with
        | some (.file data) => .ok data
        | some .dir => .error .is_a_directory
        | some (.link _ _) => .error .symlink_loop
        | none => .error (d.fs.lookup_error target),
       { d with opened := target :: d.opened })

def write_bytes (links : Nat) (path : Path) (data : Data) (d : Disk Data) :
    Except OsError Unit × Disk Data :=
  match d.fs.realpath links [] path with
  | none => (.error .symlink_loop, d)
  | some target =>
      if h : d.fs.Free target then
        (.ok (), ⟨d.fs.put target (some (.file data)) h, target :: d.opened⟩)
      else
        (.error (if d.fs.is_dir target then .is_a_directory else d.fs.lookup_error target),
         { d with opened := target :: d.opened })

/-- `unlink(missing_ok=True)`: a link in the last place is removed, not followed. -/
def unlink (links : Nat) (path : Path) (d : Disk Data) : Except OsError Unit × Disk Data :=
  match d.fs.realpath links [] path.dropLast with
  | none => (.error .symlink_loop, d)
  | some directory =>
      let target := directory ++ path.getLast?.toList
      let d := { d with opened := target :: d.opened }
      match d.fs.node target with
      | none =>
          (if d.fs.lookup_error target = .file_not_found then .ok () else .error .not_a_directory, d)
      | some _ =>
          if h : d.fs.Free target then (.ok (), { d with fs := d.fs.put target none h })
          else (.error .is_a_directory, d)

/-! ### What an operation leaves alone -/

/-- From `d` to `d'` no file has been opened or removed outside of `root`, and nothing has
    come about there except directories that were missing on the way to it. -/
structure Within (root : Path) (d d' : Disk Data) : Prop where
  opened : ∃ added, d'.opened = added ++ d.opened ∧ ∀ path ∈ added, root <+: path
  nodes : ∀ path, ¬ root <+: path → d'.fs.node path = d.fs.node path ∨
    (path <+: root ∧ d.fs.node path = none ∧ d'.fs.node path = some .dir)
  links : d.fs.SameLinks d'.fs

theorem Within.refl (root : Path) (d : Disk Data) : Within root d d where
  opened := ⟨[], rfl, fun _ hpath => absurd hpath List.not_mem_nil⟩
  nodes _ _ := .inl rfl
  links _ _ _ := Iff.rfl

theorem Within.trans {root : Path} {d'' : Disk Data} (h : Within root d d')
    (h' : Within root d' d'') : Within root d d'' where
  opened := by
    obtain ⟨added, hopened, hall⟩ := h.opened
    obtain ⟨added', hopened', hall'⟩ := h'.opened
    refine ⟨added' ++ added, by rw [hopened', hopened, List.append_assoc], fun path hpath => ?_⟩
    rcases List.mem_append.mp hpath with hlater | hearlier
    · exact hall' path hlater
    · exact hall path hearlier
  nodes path hout := by
    rcases h'.nodes path hout with hsame | ⟨hway, hnone, hdir⟩
    · rw [hsame]
      exact h.nodes path hout
    · rcases h.nodes path hout with hsame' | ⟨_, _, hdir'⟩
      · exact .inr ⟨hway, hsame' ▸ hnone, hdir⟩
      · rw [hdir'] at hnone
        cases hnone
  links path absolute names := (h.links path absolute names).trans (h'.links path absolute names)

/-- One file below the root is opened. -/
theorem within_opened {root : Path} {fs' : FileSystem Data} (hp : root <+: path)
    (hnodes : ∀ path', path' ≠ path → fs'.node path' = d.fs.node path')
    (hlinks : d.fs.SameLinks fs') : Within root d ⟨fs', path :: d.opened⟩ where
  opened := ⟨[path], rfl, fun _ hpath => List.mem_singleton.mp hpath ▸ hp⟩
  nodes path' hout := .inl (hnodes path' fun heq => hout (heq ▸ hp))
  links := hlinks

theorem same_links_put {fs : FileSystem Data} {new : Option (Node Data)} (h : fs.Free path)
    (hold : ¬ fs.has_link path) (hnew : ∀ absolute names, new ≠ some (.link absolute names)) :
    fs.SameLinks (fs.put path new h) := by
  intro path' absolute names
  by_cases heq : path' = path
  · subst heq
    rw [FileSystem.node_put_self]
    exact ⟨fun hlink => absurd ⟨absolute, names, hlink⟩ hold, fun hlink => absurd hlink (hnew _ _)⟩
  · rw [FileSystem.node_put_ne h heq]

section canonical
variable {root : Path}

/-- The operations act on a canonical path itself. -/
theorem make_dirs_within (links : Nat) (hc : d.fs.Canonical path) (hp : root <+: path) :
    Within root d (d.make_dirs links path.dropLast).2 := by
  unfold make_dirs
  rw [FileSystem.realpath_self (hc.of_prefix (List.dropLast_prefix path))]
  dsimp only
  split
  · exact .refl root d
  next fs' hok =>
  have hadded := FileSystem.make_dirs_added hok
  refine ⟨⟨[], rfl, fun _ hpath => absurd hpath List.not_mem_nil⟩, fun path' hout => ?_,
    hadded.same_links⟩
  rcases hadded path' with hsame | hmade
  · exact .inl hsame
  -- it is on the way to the parent, and so above the root
  · by_cases hway : path' <+: path.dropLast
    · have hdown := List.prefix_or_prefix_of_prefix (hway.trans (List.dropLast_prefix path)) hp
      exact .inr ⟨hdown.resolve_right hout, hmade⟩
    · exact .inl (FileSystem.make_dirs_way hok hway)

theorem read_bytes_within (links : Nat) (hc : d.fs.Canonical path) (hp : root <+: path) :
    Within root d (d.read_bytes links path).2 := by
  unfold read_bytes
  rw [FileSystem.realpath_self hc]
  exact within_opened hp (fun _ _ => rfl) fun _ _ _ => Iff.rfl

theorem write_bytes_within (links : Nat) (data : Data) (hc : d.fs.Canonical path) (hp : root <+: path) :
    Within root d (d.write_bytes links path data).2 := by
  have hplain := hc.linkless path (List.prefix_refl _)
  unfold write_bytes
  rw [FileSystem.realpath_self hc]
  dsimp only
  split
  · next hfree =>
    exact within_opened hp (fun _ hne => FileSystem.node_put_ne hfree hne)
      (same_links_put hfree hplain nofun)
  · exact within_opened hp (fun _ _ => rfl) fun _ _ _ => Iff.rfl

/-- The last place of a path is found again from the one before. -/
theorem last_place (path : Path) : path.dropLast ++ path.getLast?.toList = path := by
  induction path using List.reverseRecOn with
  | nil => rfl
  | append_singleton rest name _ => rw [List.dropLast_concat, List.getLast?_concat]; rfl

theorem unlink_within (links : Nat) (hc : d.fs.Canonical path) (hp : root <+: path) :
    Within root d (d.unlink links path).2 := by
  have hplain := hc.linkless path (List.prefix_refl _)
  unfold unlink
  rw [FileSystem.realpath_self (hc.of_prefix (List.dropLast_prefix path))]
  dsimp only
  rw [last_place]
  split
  · exact within_opened hp (fun _ _ => rfl) fun _ _ _ => Iff.rfl
  · split
    · next hfree =>
      exact within_opened hp (fun _ hne => FileSystem.node_put_ne hfree hne)
        (same_links_put hfree hplain nofun)
    · exact within_opened hp (fun _ _ => rfl) fun _ _ _ => Iff.rfl

end canonical

end Disk

end Framework
