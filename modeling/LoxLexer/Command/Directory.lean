import LoxLexer.Diagnostic

/-!
# Directories held in memory

A directory tree as a list of its files and directories, each with its path from the top. `read`
follows a path a name at a time: a dot or no name at all stays, two dots go up, and both need a
directory to stand in, as does every further name.

The tree stands among the temporary files of a system, of which little is known: some directories,
the null device, and the devices through which the standard input can be read like a file.
-/

namespace LoxLexer

/-- A directory tree: paths from the top, given name by name, and what is there. -/
structure Directory where
  files : List (List String × ByteArray)
  directories : List (List String)
  /-- The standard input of the system around the tree. -/
  input : ByteArray

namespace Directory

/-- A place that a path leads to. -/
inductive Place where
  /-- A directory of the tree, by its path from the top. -/
  | directory (names : List String)
  /-- A directory of the system around the tree, by its path from the root. -/
  | system (names : List String)
  | file (content : ByteArray)

/-- The longest path of the system, in bytes. -/
def longestPath : Nat := 4095

/-- The longest name of the system, in bytes. -/
def longestName : Nat := 255

/-- The directories that are known of the system. -/
def systemDirectories : List (List String) :=
  [["bin"], ["dev"], ["dev", "fd"], ["etc"], ["home"], ["lib"], ["opt"], ["proc"], ["proc", "self"],
    ["proc", "self", "fd"], ["root"], ["run"], ["sys"], ["tmp"], ["usr"], ["usr", "bin"],
    ["usr", "lib"], ["var"]]

/-- The files that are known of the system. -/
def systemFiles (input : ByteArray) : List (List String × ByteArray) :=
  [(["dev", "null"], ByteArray.empty), (["dev", "stdin"], input), (["dev", "fd", "0"], input),
    (["proc", "self", "fd", "0"], input)]

def names (path : String) : List String := (path.toList.splitOn '/').map String.ofList

def find (there : List String) (files : List (List String × ByteArray))
    (directories : List (List String)) (directory : List String → Place) : Except ReadFault Place :=
  if there.any (longestName < ·.utf8ByteSize) then .error .nameTooLong
  else
    match files.lookup there with
    | some content => .ok (.file content)
    | none => if there ∈ directories then .ok (directory there) else .error .notFound

def step (tree : Directory) (place : Place) (name : String) : Except ReadFault Place :=
  match place with
  | .file _ => .error .notADirectory
  | .directory here =>
    if name = "" ∨ name = "." then .ok place
    else if name = ".." then
      if here = [] then .ok (.system ["tmp"]) else .ok (.directory here.dropLast)
    else find (here ++ [name]) tree.files tree.directories .directory
  | .system here =>
    if name = "" ∨ name = "." then .ok place
    else if name = ".." then .ok (.system here.dropLast)
    else find (here ++ [name]) (systemFiles tree.input) systemDirectories .system

/-- Where the names of a path begin: at the top, or at the root if the path begins with a slash. -/
def origin (path : String) : Place :=
  if path.toList.head? = some '/' then .system [] else .directory []

def read (tree : Directory) (path : String) : Except ReadFault ByteArray :=
  if longestPath < path.utf8ByteSize then .error .nameTooLong
  else
    match (names path).foldlM tree.step (origin path) with
    | .error fault => .error fault
    | .ok (.file content) => .ok content
    | .ok _ => .error .isDirectory

def ofPaths (files : List (String × ByteArray)) (directories : List String) (input : ByteArray) :
    Directory :=
  { files := files.map fun (path, content) => ((names path).filter (· ≠ ""), content)
    directories := directories.map fun path => (names path).filter (· ≠ "")
    input }

end Directory

end LoxLexer
