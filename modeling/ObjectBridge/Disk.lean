import ObjectBridge.NameMap

/-! A directory tree as its reader sees it: paths lead to files, to directories or nowhere. -/
namespace ObjectBridge

/-- Why a path gives no bytes. -/
inductive ReadError where
  | notFound
  | notADirectory
  | isADirectory
  | nameTooLong
  | nulInName
  /-- Any other reason, as the system gives it. -/
  | other (reason : String)
  deriving DecidableEq

def ReadError.message : ReadError → String
  | .notFound => "No such file or directory (os error 2)"
  | .notADirectory => "Not a directory (os error 20)"
  | .isADirectory => "Is a directory (os error 21)"
  | .nameTooLong => "File name too long (os error 36)"
  | .nulInName => "file name contained an unexpected NUL byte"
  | .other reason => reason

/-- The bytes behind a path, or why there are none. -/
abbrev FileReader := String → Except ReadError ByteArray

/-- Files by their places, and the directories known beside those that hold files. A place is a
list of components from the top of the tree; `home` is the place of the working directory. -/
structure Disk where
  files : List (List String × ByteArray) := []
  directories : List (List String) := []
  home : List String := []

namespace Disk

/-- The directories that every system has. -/
def systemDirectories : List (List String) :=
  [[], ["bin"], ["boot"], ["dev"], ["dev", "shm"], ["etc"], ["home"], ["lib"], ["lib64"],
    ["media"], ["mnt"], ["opt"], ["proc"], ["proc", "self"], ["root"], ["run"], ["sbin"], ["srv"],
    ["sys"], ["tmp"], ["usr"], ["usr", "bin"], ["usr", "include"], ["usr", "lib"],
    ["usr", "local"], ["usr", "sbin"], ["usr", "share"], ["usr", "src"], ["var"],
    ["var", "cache"], ["var", "lib"], ["var", "log"], ["var", "tmp"]]

/-- The files that every system has. Reading from the null device ends at once. -/
def systemFiles : List (List String × ByteArray) :=
  [(["dev", "null"], .empty),
    (["etc", "passwd"], "root:x:0:0:root:/root:/bin/sh\n".toUTF8),
    (["etc", "group"], "root:x:0:\n".toUTF8),
    (["etc", "hosts"], "127.0.0.1 localhost\n".toUTF8),
    (["etc", "hostname"], "localhost\n".toUTF8)]

/-- Where the working directory is. -/
def workplace : List String := ["tmp", "work"]

/-- A disk that holds the given files, named relative to the working directory. -/
def ofFiles (files : List (String × ByteArray)) : Disk where
  files := files.map (fun (name, bytes) =>
    (workplace ++ (name.splitOn "/").filter (· != ""), bytes)) ++ systemFiles
  directories := systemDirectories
  home := workplace

/-- What stands at a place. -/
inductive Entry where
  | file (bytes : ByteArray)
  | directory
  | nothing

def entry (disk : Disk) (place : List String) : Entry :=
  match disk.files.find? (·.1 == place) with
  | some (_, bytes) => .file bytes
  | none =>
    if place ∈ disk.directories ∨ place <+: disk.home ∨
        disk.files.any (place.isPrefixOf ·.1) then
      .directory
    else .nothing

/-- Follow components from a place; only a directory has anything below it. -/
def follow (disk : Disk) : List String → List String → Except ReadError Entry
  | place, [] => .ok (disk.entry place)
  | place, component :: rest =>
    match disk.entry place with
    | .nothing => .error .notFound
    | .file _ => .error .notADirectory
    | .directory =>
      if component = "" ∨ component = "." then disk.follow place rest
      else if component = ".." then disk.follow place.dropLast rest
      else if 255 < component.utf8ByteSize then .error .nameTooLong
      else disk.follow (place ++ [component]) rest

def read (disk : Disk) : FileReader := fun path =>
  if path.toList.contains '\x00' then .error .nulInName
  else if path = "" then .error .notFound
  else if 4095 < path.utf8ByteSize then .error .nameTooLong
  else
    let start := if path.toList.head? = some '/' then [] else disk.home
    match disk.follow start (path.splitOn "/") with
    | .error e => .error e
    | .ok (.file bytes) => .ok bytes
    | .ok .directory => .error .isADirectory
    | .ok .nothing => .error .notFound

end Disk
end ObjectBridge
