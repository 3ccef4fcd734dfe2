import Covenant.Text.Quoted
import Covenant.World.Content
import Covenant.World.Path

/-!
# The disk

Files and directories by location. A path is followed name by name through directories that are
there; every operation that can fail says at which path and why. Failing operations change
nothing, so each gives either a fault or the new disk; only `makeDirectory` can fail half-way.

What may be read and written is said by modes. What a file holds (`read`) is one thing, and what is
got by opening it (`load`) another: a file can be found and not be readable.

A name has at most `maxNameBytes` bytes and a path fewer than `maxPathBytes`. A zero byte cannot be
part of a path. The disk never runs full.
-/

namespace Covenant

/-- Where a path starts: at the root, or so many directories above the working directory. -/
inductive Base
  | root
  | above (n : Nat)
  deriving DecidableEq, Repr

/-- Where a file or directory is: names from a base. -/
structure Location where
  base : Base
  names : List String
  deriving DecidableEq, Repr

/-- Where the way of a path starts. -/
def Base.ofPath (path : String) : Base := if Path.isRooted path then .root else .above 0

namespace Location

/-- What is called `name` in the directory. -/
def child (l : Location) (name : String) : Location := { l with names := l.names ++ [name] }

/-- The directory of a location. The root is its own. -/
def parent (l : Location) : Location :=
  match l.names, l.base with
  | [], .root => l
  | [], .above n => { l with base := .above (n + 1) }
  | names, _ => { l with names := names.dropLast }

/-- Where the names lead when all directories on the way are there. -/
def follow (l : Location) (names : List String) : Location :=
  names.foldl
    (fun l name => if name = "." then l else if name = ".." then l.parent else l.child name) l

/-- Where a path leads when all directories on its way are there. -/
def ofPath (path : String) : Location := follow ⟨Base.ofPath path, []⟩ (Path.names path)

/-- The most bytes that a name can have. -/
def maxNameBytes : Nat := 255

/-- Whether the last name is too long for any directory. -/
def isTooLong (l : Location) : Bool :=
  match l.names.getLast? with
  | some name => maxNameBytes < name.utf8ByteSize
  | none => false

end Location

/-- What can be at a location. -/
inductive Node
  | file (content : Content)
  | directory
  deriving DecidableEq, Repr

structure Rights where
  read : Bool := true
  write : Bool := true
  deriving DecidableEq, Repr

/-- What the one who runs the program is to a file or directory. -/
inductive Standing
  | superuser
  | owner
  | group
  | others
  deriving DecidableEq, Repr

/-- The rights of each standing, and the standing that counts. -/
structure Mode where
  standing : Standing := .owner
  owner : Rights := {}
  group : Rights := {}
  others : Rights := {}
  deriving DecidableEq, Repr

namespace Mode

def rights (m : Mode) : Rights :=
  match m.standing with
  | .superuser => {}
  | .owner => m.owner
  | .group => m.group
  | .others => m.others

/-- Whether the rights may be changed. -/
def isOwn (m : Mode) : Bool := m.standing = .superuser || m.standing = .owner

/-- The mode with the rights of another one. -/
def withRightsOf (m other : Mode) : Mode := { other with standing := m.standing }

end Mode

/-- Why an operation on the disk failed. -/
inductive DiskFault
  | missing (path : String)
  | isDirectory (path : String)
  | notDirectory (path : String)
  | occupied (path : String)
  | sameFile (source target : String)
  | noDirectory (path : String)
  | tooLong (path : String)
  | denied (path : String)
  /-- Only the owner may do this. -/
  | notOwner (path : String)
  /-- A path has a zero byte. -/
  | zeroByte
  /-- Too many directories of a path are missing. -/
  | tooDeep
  deriving DecidableEq, Repr

def DiskFault.message : DiskFault → String
  | .missing p => "[Errno 2] No such file or directory: " ++ Text.quoted p
  | .isDirectory p => "[Errno 21] Is a directory: " ++ Text.quoted p
  | .notDirectory p => "[Errno 20] Not a directory: " ++ Text.quoted p
  | .occupied p => "[Errno 17] File exists: " ++ Text.quoted p
  | .sameFile a b => Text.quoted a ++ " and " ++ Text.quoted b ++ " are the same file"
  | .noDirectory p => "Directory does not exist: " ++ p
  | .tooLong p => "[Errno 36] File name too long: " ++ Text.quoted p
  | .denied p => "[Errno 13] Permission denied: " ++ Text.quoted p
  | .notOwner p => "[Errno 1] Operation not permitted: " ++ Text.quoted p
  | .zeroByte => "embedded null byte"
  | .tooDeep => "maximum recursion depth exceeded"

/-- The files and directories; the root, the working directory and those above it are always
there. -/
structure Disk where
  nodes : List (Location × Node)
  /-- How what is at a location, or is made there, can be used, where it is not in every way. -/
  modes : List (Location × Mode) := []
  /-- The directories that no path can lead through. -/
  shut : List Location := []
  deriving DecidableEq, Repr

namespace Disk

def node? (d : Disk) (l : Location) : Option Node :=
  if l.names.isEmpty then some .directory else d.nodes.lookup l

def put (d : Disk) (l : Location) (n : Node) : Disk :=
  { d with nodes := (l, n) :: d.nodes.filter fun e => e.1 != l }

theorem lookup_filter_ne {l m : Location} (h : m ≠ l) (es : List (Location × Node)) :
    (es.filter fun e => e.1 != l).lookup m = es.lookup m := by
  induction es with
  | nil => rfl
  | cons e es ih =>
    obtain ⟨k, n⟩ := e
    by_cases hk : k = l
    · have hm : (m == l) = false := by simpa using h
      simp [List.filter, List.lookup_cons, hk, hm, ih]
    · have hl : (k != l) = true := by simpa using hk
      simp [List.filter, List.lookup_cons, hl, ih]

/-- What has been put at a location is there. -/
theorem node?_put (d : Disk) {l : Location} (n : Node) (h : l.names ≠ []) :
    (d.put l n).node? l = some n := by
  simp [node?, put, h]

/-- The other locations are as before. -/
theorem node?_put_of_ne (d : Disk) {l m : Location} (n : Node) (h : m ≠ l) :
    (d.put l n).node? m = d.node? m := by
  have hm : (m == l) = false := by simpa using h
  simp [node?, put, List.lookup_cons, hm, lookup_filter_ne h]

def mode (d : Disk) (l : Location) : Mode := (d.modes.lookup l).getD {}

def rights (d : Disk) (l : Location) : Rights := (d.mode l).rights

def setMode (d : Disk) (l : Location) (m : Mode) : Disk := { d with modes := (l, m) :: d.modes }

/-- What stops a walk along a path. -/
inductive Obstacle
  | missing
  | notDirectory
  | tooLong
  | denied
  | zeroByte
  deriving DecidableEq, Repr

/-- The fault for an obstacle on the way of `path`. -/
def Obstacle.fault (path : String) : Obstacle → DiskFault
  | .missing => .missing path
  | .notDirectory => .notDirectory path
  | .tooLong => .tooLong path
  | .denied => .denied path
  | .zeroByte => .zeroByte

/-- Follows the names; all but the last have to be directories, and none of these may be shut. -/
def walk (d : Disk) : Location → List String → Except Obstacle Location
  | here, [] => .ok here
  | here, name :: rest =>
    if d.shut.elem here then .error .denied
    else if name = "." then walk d here rest
    else if name = ".." then walk d here.parent rest
    else if rest.isEmpty then .ok (here.child name)
    else if (here.child name).isTooLong then .error .tooLong
    else
      match d.node? (here.child name) with
      | some .directory => walk d (here.child name) rest
      | some (.file _) => .error .notDirectory
      | none => .error .missing

/-- A path has fewer bytes than this. -/
def maxPathBytes : Nat := 4096

def hasZeroByte (path : String) : Bool := path.toList.elem '\x00'

def locate (d : Disk) (path : String) : Except Obstacle Location :=
  if hasZeroByte path then .error .zeroByte
  else if path = "" then .error .missing
  else if maxPathBytes ≤ path.utf8ByteSize then .error .tooLong
  else walk d ⟨Base.ofPath path, []⟩ (Path.names path)

/-- What is at a path. -/
def lookup (d : Disk) (path : String) : Except Obstacle (Option Node) :=
  match d.locate path with
  | .error o => .error o
  | .ok l =>
    match d.node? l with
    | some (.file c) => if Path.endsInSlash path then .error .notDirectory else .ok (some (.file c))
    | some .directory => .ok (some .directory)
    | none => if l.isTooLong then .error .tooLong else .ok none

def has (d : Disk) (path : String) : Bool :=
  match d.lookup path with
  | .ok (some _) => true
  | _ => false

def hasFile (d : Disk) (path : String) : Bool :=
  match d.lookup path with
  | .ok (some (.file _)) => true
  | _ => false

def hasDirectory (d : Disk) (path : String) : Bool :=
  match d.lookup path with
  | .ok (some .directory) => true
  | _ => false

/-- What the file at the path holds. -/
def read (d : Disk) (path : String) : Except DiskFault Content :=
  match d.lookup path with
  | .error o => .error (o.fault path)
  | .ok none => .error (.missing path)
  | .ok (some .directory) => .error (.isDirectory path)
  | .ok (some (.file c)) => .ok c

/-- Whether what is at the path, if there is something, may be read. -/
def mayRead (d : Disk) (path : String) : Bool :=
  match d.locate path with
  | .ok l => !d.has path || (d.rights l).read
  | .error _ => true

/-- The content of the file at the path for one who opens it. -/
def load (d : Disk) (path : String) : Except DiskFault Content :=
  if d.mayRead path then d.read path else .error (.denied path)

/-- Whether the files of a directory can be listed and reached. -/
def isListed (d : Disk) (l : Location) : Bool := (d.rights l).read && !d.shut.elem l

/-- The contents of the files below a directory that can be found and read. -/
def contentsBelow (d : Disk) (l : Location) : List Content :=
  let isFound := fun (m : Location) =>
    m.base = l.base && l.names.isPrefixOf m.names && (d.rights m).read &&
      (List.range m.names.length).all fun k =>
        k < l.names.length || d.isListed { l with names := m.names.take k }
  d.nodes.filterMap fun e =>
    match e.2 with
    | .file c => if isFound e.1 then some c else none
    | .directory => none

/-- Whether a file can be written at the location: the one that is there, or else a new one. -/
def mayWrite (d : Disk) (l : Location) : Bool :=
  if (d.node? l).isSome then (d.rights l).write else (d.rights l.parent).write

/-- Where a file that is written at the path goes. -/
def target (d : Disk) (path : String) : Except DiskFault Location :=
  match d.locate path with
  | .error o => .error (o.fault path)
  | .ok l =>
    if Path.endsInSlash path || d.node? l == some .directory then .error (.isDirectory path)
    else if l.isTooLong then .error (.tooLong path)
    else if d.mayWrite l then .ok l
    else .error (.denied path)

/-- Writes the file at the path anew. -/
def write (d : Disk) (path : String) (c : Content) : Except DiskFault Disk :=
  (d.target path).map fun l => d.put l (.file c)

/-- Writes a text at the end of the file at the path, which need not be there. -/
def append (d : Disk) (path : String) (t : String) : Except DiskFault Disk :=
  (d.target path).map fun l =>
    match d.node? l with
    | some (.file c) => d.put l (.file (c.append t))
    | _ => d.put l (.file (.text t))

/-- The disk with a text at the end of the file at the location, if there is one. -/
def extend (d : Disk) (l : Location) (t : String) : Disk :=
  match d.node? l with
  | some (.file c) => d.put l (.file (c.append t))
  | _ => d

/-- Whether the two paths lead to one file or directory. -/
def areSame (d : Disk) (a b : String) : Bool :=
  match d.locate a, d.locate b with
  | .ok la, .ok lb => la == lb && d.has a && d.has b
  | _, _ => false

/-- Copies a file onto the file at the path `target`. -/
def copyOnto (d : Disk) (source target : String) : Except DiskFault Disk :=
  if hasZeroByte source || hasZeroByte target then .error .zeroByte
  else if d.areSame source target then .error (.sameFile source target)
  else
    match d.load source with
    | .error e => .error e
    | .ok c =>
      match d.write target c with
      | .error (.isDirectory p) =>
        if d.has target then .error (.isDirectory p) else .error (.noDirectory p)
      | r => r

/-- Gives the file at the path `target` the rights of the one at `source`. -/
def copyRights (d : Disk) (source target : String) : Except DiskFault Disk :=
  match d.locate source, d.locate target with
  | .error o, _ => .error (o.fault source)
  | _, .error o => .error (o.fault target)
  | .ok l, .ok m =>
    if (d.mode m).isOwn then .ok (d.setMode m ((d.mode m).withRightsOf (d.mode l)))
    else .error (.notOwner target)

/-- The path that a copy to `target` goes to: into the directory, if there is one at the path. -/
def copyTarget (d : Disk) (source target : String) : String :=
  if d.hasDirectory target then Path.join target (Path.base source) else target

/-- Makes the directory at the path, unless it is there. -/
def makeOne (d : Disk) (path : String) : Except DiskFault Disk :=
  match d.locate path with
  | .error o => .error (o.fault path)
  | .ok l =>
    match d.node? l with
    | some .directory => .ok d
    | some (.file _) => .error (.occupied path)
    | none =>
      if l.isTooLong then .error (.tooLong path)
      else if d.mayWrite l then .ok (d.put l .directory)
      else .error (.denied path)

/-- The path of the directory that holds what is at the path, and the name in it; a slash at the
end of the path does not count. -/
def splitPath (path : String) : String × String :=
  if Path.endsInSlash path then
    (Path.directory (Path.directory path), Path.base (Path.directory path))
  else (Path.directory path, Path.base path)

/-- The outcome of an operation that changes nothing when it fails. -/
def orUnchanged (d : Disk) : Except DiskFault Disk → Disk × Option DiskFault
  | .ok new => (new, none)
  | .error f => (d, some f)

/-- Makes the directory at the path and those on the way to it, at most `n` in all. Those that were
made before a fault stay. -/
def makeUpTo (d : Disk) : Nat → String → Disk × Option DiskFault
  | 0, _ => (d, some .tooDeep)
  | n + 1, path =>
    let (above, name) := splitPath path
    if above == "" || name == "" || d.has above then d.orUnchanged (d.makeOne path)
    else
      match d.makeUpTo n above with
      | (d, none) | (d, some (.occupied _)) =>
        if name == "." then (d, none) else d.orUnchanged (d.makeOne path)
      | (d, some f) => (d, some f)

/-- The most directories that can be made at once. -/
def maxMade : Nat := 990

/-- Makes the directory at the path and those on the way to it. -/
def makeDirectory (d : Disk) (path : String) : Disk × Option DiskFault := d.makeUpTo maxMade path

/-- The disk with the directory at the location, if nothing is there. -/
def ensureDirectory (d : Disk) (l : Location) : Disk :=
  if (d.node? l).isSome then d else d.put l .directory

/-- The disk with the file at the path, and with every directory that the path goes through, also
one that it leaves again. -/
def provide (d : Disk) (path : String) (c : Content) : Disk :=
  let names := Path.names path
  let onTheWay := (List.range names.length).map fun k =>
    Location.follow ⟨Base.ofPath path, []⟩ (names.take k)
  (onTheWay.foldl ensureDirectory d).put (Location.ofPath path) (.file c)

end Disk

end Covenant
