import StorageAccess.Lib.Walk
/-!
# The operations of a file system library

`createDirectories`, `copy`, `removeAll` and `rename` follow the C++ standard
for the option sets used with them: copying is recursive, skips symbolic links
and either overwrites or skips files that are there. What the device does on
its own is a parameter: a `Fault` stops a series of writes, and `stuck` says
which entries cannot be removed.
-/

namespace Posix

/-- After `after` writes the next one fails; of a file it had begun, `cut` bytes remain. -/
structure Fault where
  after : Nat
  cut : Option Nat
  deriving DecidableEq, Repr

/-- A series of writes in progress. -/
structure Job where
  fs : FS
  fault : Option Fault
  threw : Bool

namespace Job

def start (fs : FS) (fault : Option Fault) : Job := ⟨fs, fault, false⟩

def fail (j : Job) : Job := { j with threw := true }

/-- What is left of a write the device refuses. -/
def torn (fs : FS) (l : Loc) (nd : Node) (cut : Option Nat) : FS :=
  match nd, cut with
  | .file content, some k => fs.set l (.file (content.take k))
  | _, _ => fs

/-- Write one entry. -/
def put (j : Job) (l : Loc) (nd : Node) : Job :=
  match j.fault with
  | none => { j with fs := j.fs.set l nd }
  | some ⟨0, cut⟩ => { j with fs := torn j.fs l nd cut, threw := true }
  | some ⟨k + 1, cut⟩ => { j with fs := j.fs.set l nd, fault := some ⟨k, cut⟩ }

/-- A device that fails at all makes the whole series fail, at the latest after its last write. -/
def finish (j : Job) (fault : Option Fault) : FS × Bool := (j.fs, j.threw || fault.isSome)

/-- `fs::create_directory`. -/
def mkdir (j : Job) (p : List Name) : Job :=
  match j.fs.symlinkStatus p, j.fs.locate .make p with
  | .absent, .ok l => j.put l .dir
  | _, _ => j.fail

/-- `fs::copy_file` for the file `content` at `src`. -/
def copyFile (overwrite : Bool) (content : List UInt8) (src : Loc) (dst : List Name) (j : Job) : Job :=
  match j.fs.status dst with
  | .found l (.file _) => if l = src then j.fail else if overwrite then j.put l (.file content) else j
  | .absent =>
    match j.fs.locate .make dst with
    | .ok l => j.put l (.file content)
    | .error _ => j.fail
  | _ => j.fail

/-- Run a step for each name until one fails. -/
def each (step : Name → Job → Job) : List Name → Job → Job
  | [], j => j
  | n :: ns, j => if j.threw then j else each step ns (step n j)

/-- Whether two paths lead to the same entry. -/
def equivalent (fs : FS) (p q : List Name) : Bool :=
  match fs.status p, fs.status q with
  | .found l _, .found m _ => l = m
  | _, _ => false

/-- `fs::copy` with `recursive | skip_symlinks` and one of `overwrite_existing`,
`skip_existing`. A path may go `depth` directories deeper than `src`. -/
def copy (overwrite : Bool) : Nat → List Name → List Name → Job → Job
  | depth, src, dst, j =>
    match j.fs.symlinkStatus src, j.fs.symlinkStatus dst with
    | .absent, _ | .failed, _ | _, .failed => j.fail
    | .found s nd, t =>
      if equivalent j.fs src dst then j.fail
      else match nd, t with
        | .link _, _ => j
        | .file content, .found _ .dir => j.copyFile overwrite content s (dst ++ [src.getLastD []])
        | .file content, _ => j.copyFile overwrite content s dst
        | .dir, .found _ (.file _) => j.fail
        | .dir, t =>
          match depth with
          | 0 => j.fail
          | depth + 1 =>
            let made := if t = .absent then j.mkdir dst else j
            if made.threw then made
            else each (fun n => copy overwrite depth (src ++ [n]) (dst ++ [n])) (made.fs.children s) made

end Job

namespace FS

/-- `fs::create_directories`: make each missing directory on the way. -/
def mkdirs : List Name → List Name → Job → Job
  | _, [], j => j
  | done, c :: rest, j =>
    match j.fs.status (done ++ [c]) with
    | .found _ .dir => mkdirs (done ++ [c]) rest j
    | .absent =>
      let made := j.mkdir (done ++ [c])
      if made.threw then made else mkdirs (done ++ [c]) rest made
    | _ => j.fail

def createDirectories (fs : FS) (fault : Option Fault) (p : List Name) : FS × Bool :=
  (mkdirs [] p (Job.start fs fault)).finish fault

def copy (fs : FS) (fault : Option Fault) (depth : Nat) (overwrite : Bool) (src dst : List Name) : FS × Bool :=
  (Job.copy overwrite depth src dst (Job.start fs fault)).finish fault

/-- The entries at and below `l`, down to `depth` levels, in the order in which they
are removed: what a directory holds comes before the directory. -/
def postorder (fs : FS) : Nat → Loc → List Loc
  | 0, l => [l]
  | depth + 1, l => (fs.children l).flatMap (fun n => postorder fs depth (l ++ [n])) ++ [l]

/-- What there is to remove, in order: all entries below `l`, and then `l` if `self`. -/
def removals (fs : FS) (self : Bool) (l : Loc) : List Loc :=
  if self then fs.postorder fs.depth l else (fs.postorder fs.depth l).dropLast

/-- The place is one of `ls`, or below one; the root is never removed. -/
def taken (ls : List Loc) (m : Loc) : Bool := ls.any fun l => l ≠ [] && l.isPrefixOf m

/-- Take away the entries `ls`, and with a directory all it holds. -/
def removeEntries (fs : FS) (ls : List Loc) : FS :=
  fs.prune (taken ls) (by simp [taken]) (by
    intro l n h
    simp only [taken, List.any_eq_true, Bool.and_eq_true, List.isPrefixOf_iff_prefix] at h ⊢
    obtain ⟨m, hm, hne, hp⟩ := h
    exact ⟨m, hm, hne, hp.trans (List.prefix_append l [n])⟩)

/-- `fs::remove_all`. It ends at the first entry that is stuck, and it fails when the
path ends in a `.` or `..` that still resolves once the directory was emptied. -/
def removeAll (fs : FS) (stuck : Loc → Bool) (p : List Name) : FS × Bool :=
  match fs.symlinkStatus p with
  | .absent => (fs, false)
  | .failed => (fs, true)
  | .found l _ =>
    let self : Bool := p.getLastD [] ≠ dot ∧ p.getLastD [] ≠ dotdot
    let order := fs.removals self l
    let fs' := fs.removeEntries (order.takeWhile (!stuck ·))
    (fs', order.any stuck || (!self && fs'.exists? p))

/-- `fs::rename`, as the kernel renames: the new name is free, or names an entry
of the same kind, which must be empty if it is a directory. -/
def rename (fs : FS) (refused : Bool) (old new : List Name) : FS × Bool :=
  match fs.symlinkStatus old, fs.locate .follow new.dropLast, new.getLastD [] with
  | .found o nd, .ok parent, last =>
    let n := parent ++ [last]
    if refused || old.getLastD [] = dot || old.getLastD [] = dotdot then (fs, true)
    else if o = n then (fs, false)
    else if ¬ fs.CanMove o n then (fs, true)
    else match fs.get n, nd with
      | none, _ => (fs.move o n, false)
      | some .dir, .dir => (fs.move o n, false)
      | some .dir, _ => (fs, true)
      | some _, .dir => (fs, true)
      | some _, _ => (fs.move o n, false)
  | _, _, _ => (fs, true)

/-- Read a file through a path. -/
def readFile (fs : FS) (p : List Name) : Option (List UInt8) :=
  match fs.status p with
  | .found _ (.file content) => some content
  | _ => none

/-- Open a file for writing and write `content`, of which `cut` bytes arrive. -/
def writeFile (fs : FS) (cut : Option Nat) (p : List Name) (content : List UInt8) : Option FS :=
  let data := (cut.map content.take).getD content
  match fs.status p with
  | .found l (.file _) => some (fs.set l (.file data))
  | .absent =>
    match fs.locate .make p with
    | .ok l => some (fs.set l (.file data))
    | .error _ => none
  | _ => none

end FS

end Posix
