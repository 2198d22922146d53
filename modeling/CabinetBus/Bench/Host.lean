-- SUMMARY: The host on which a bench opens ports by name: its files, and how paths lead there.
import CabinetBus.Link.Port

/-! # Bench host

A link takes the answers of its host as they come. A bench that opens ports by name has to give
them, and gives those of a Unix machine with its usual files and no serial line: the faults of
opening a file, and of finding out that it is no terminal. Symbolic links, permissions, mounts and
files that come and go are left out.

A path is walked part by part, from the root or from the working directory, and each part is
looked up in the directory that the walk has come to. The first part that cannot be taken decides
what the host says, so a name that is too long is noticed only where it is looked up. -/

namespace CabinetBus

namespace Bench

/-! ## Faults -/

/-- Why a file is not opened as a port. -/
inductive FileFault where
  | invalid
  | nameTooLong
  | notFound
  | notDirectory
  | isDirectory
  | notTerminal
  | noDevice
  deriving DecidableEq, Repr

def FileFault.message : FileFault → String
  | invalid => "Invalid argument"
  | nameTooLong => "File name too long"
  | notFound => "No such file or directory"
  | notDirectory => "Not a directory"
  | isDirectory => "Is a directory"
  | notTerminal => "Not a typewriter"
  | noDevice => "No such device or address"

/-! ## Files -/

inductive FileKind where
  /-- A directory, with the bytes of the longest name it looks up, if there is a longest. -/
  | directory (longest : Option Nat)
  | port
  /-- A file that is no port, with what comes of opening it as one. -/
  | other (fault : FileFault)
  deriving DecidableEq, Repr

/-- The names on the way from the root to a file. -/
abbrev Place : Type := List String

/-- The bytes of the longest name in a directory that keeps its files on disk or in memory. -/
def fileNameLimit : Nat := 255

/-- The bytes of a path, with the one that ends it. -/
def pathLimit : Nat := 4096

/-- The files of a machine. -/
structure Files where
  /-- All files but the root. -/
  files : List (Place × FileKind)
  /-- Where a path begins that does not begin at the root. -/
  working : Place
  deriving DecidableEq, Repr

namespace Files

/-- What is at a place. -/
def kind? (f : Files) (place : Place) : Option FileKind :=
  if place.isEmpty then some (.directory (some fileNameLimit)) else f.files.lookup place

/-! ## Walks -/

/-- Takes one part of a path. The directory above the root is the root. -/
def step (f : Files) (place : Place) (part : String) : Except FileFault Place :=
  match f.kind? place with
  | none => .error .notFound
  | some .port | some (.other _) => .error .notDirectory
  | some (.directory longest) =>
      if part = "" ∨ part = "." then .ok place
      else if part = ".." then .ok place.dropLast
      else if longest.any (· < part.utf8ByteSize) then .error .nameTooLong
      else if (f.kind? (place ++ [part])).isSome then .ok (place ++ [part])
      else .error .notFound

/-- Takes the parts of a path in order. -/
def walk (f : Files) : Place → List String → Except FileFault Place
  | place, [] => .ok place
  | place, part :: rest =>
      match f.step place part with
      | .error fault => .error fault
      | .ok next => f.walk next rest

/-- The place that a path leads to. A path that is too long, or that holds the character
which ends a path, is not walked at all. -/
def find (f : Files) (path : String) : Except FileFault Place :=
  if path.toList.contains (Char.ofNat 0) then .error .invalid
  else if pathLimit ≤ path.utf8ByteSize then .error .nameTooLong
  else if path.isEmpty then .error .notFound
  else f.walk (if path.startsWith "/" then [] else f.working) (path.splitOn "/")

/-- Opens the port at a path. -/
def openPort (f : Files) (path : String) : Except FileFault Unit :=
  match f.find path with
  | .error fault => .error fault
  | .ok place =>
      match f.kind? place with
      | none => .error .notFound
      | some .port => .ok ()
      | some (.directory _) => .error .isDirectory
      | some (.other fault) => .error fault

/-! ## A machine without serial lines -/

/-- The place of a path from the root. -/
def placeOf (path : String) : Place := (path.splitOn "/").filter (!·.isEmpty)

def commonDirectories : List String :=
  ["/bin", "/boot", "/dev", "/dev/pts", "/dev/shm", "/etc", "/home", "/lib", "/lib64", "/media",
   "/mnt", "/opt", "/root", "/run", "/sbin", "/srv", "/tmp", "/usr", "/usr/bin", "/usr/include",
   "/usr/lib", "/usr/local", "/usr/local/bin", "/usr/local/lib", "/usr/sbin", "/usr/share",
   "/usr/src", "/var", "/var/cache", "/var/lib", "/var/log", "/var/tmp"]

/-- The directories of the running system, whose names are made up as they are looked up. -/
def systemDirectories : List String := ["/proc", "/proc/self", "/sys", "/sys/class"]

/-- Files that are no terminals. -/
def commonFiles : List String :=
  ["/dev/null", "/dev/zero", "/dev/full", "/dev/stdin", "/dev/stdout", "/dev/stderr",
   "/etc/group", "/etc/hostname", "/etc/hosts", "/etc/passwd", "/etc/resolv.conf",
   "/proc/cpuinfo", "/proc/meminfo", "/proc/version"]

/-- The files that every machine has, seen from a directory of its own below the root. -/
def common : Files :=
  let all (kind : FileKind) (paths : List String) := paths.map fun path => (placeOf path, kind)
  { files :=
      all (.directory (some fileNameLimit)) ("/work" :: commonDirectories)
        ++ all (.directory none) systemDirectories
        ++ all (.other .notTerminal) commonFiles
        ++ all (.other .invalid) ["/dev/random", "/dev/urandom"]
        ++ all (.other .noDevice) ["/dev/tty"]
        ++ all .port ["/dev/ptmx"]
    working := ["work"] }

end Files

end Bench

/-- The host that such a machine is. A port that it does open takes every parameter. -/
def Host.common : Host where
  answer name _ :=
    match Bench.Files.common.openPort name with
    | .error fault => .error fault.message
    | .ok () => .ok fun _ => none

end CabinetBus
