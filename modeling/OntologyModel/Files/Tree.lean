/-
Files and directories.

A tree holds the files under a working directory.  A path is walked part by part
from there; nothing is known of what lies outside, except that the working
directory is in a directory.  A file can be written where its directory exists
and no directory has its name.
-/
import OntologyModel.Files.Path

namespace OntologyModel

inductive FileError where
  | notFound
  | notDirectory
  | isDirectory
  | nameTooLong
  /-- A cause that has a text of its own. -/
  | other (text : String)
deriving DecidableEq, Repr

namespace FileError

def message : FileError → String
  | .notFound => "No such file or directory (os error 2)"
  | .notDirectory => "Not a directory (os error 20)"
  | .isDirectory => "Is a directory (os error 21)"
  | .nameTooLong => "File name too long (os error 36)"
  | .other text => text

end FileError

inductive Entry where
  | directory
  | file (text : String)
deriving DecidableEq, Repr

structure Files where
  entry : String → Except FileError Entry
  /-- Whether a file can be written. -/
  writing : String → Except FileError Unit

namespace Files

def hasEntry (f : Files) (path : String) : Bool := (f.entry path).isOk

def hasFile (f : Files) (path : String) : Bool :=
  match f.entry path with
  | .ok (.file _) => true
  | _ => false

def read (f : Files) (path : String) : Except FileError String :=
  match f.entry path with
  | .ok (.file text) => .ok text
  | .ok .directory => .error .isDirectory
  | .error e => .error e

def ofList (known : List (String × Except FileError Entry)) : Files where
  entry path := (known.lookup path).getD (.error .notFound)
  writing _ := .ok ()

end Files

/-- The entries under a working directory, by the names on the way to them. -/
abbrev FileTree := List (List String × Entry)

namespace FileTree

inductive Place where
  | inside (names : List String)
  | outside
deriving DecidableEq, Repr

def entryAt? (t : FileTree) : Place → Option Entry
  | .inside [] => some .directory
  | .inside names => t.lookup names
  | .outside => some .directory

/-- The greatest length of a name in UTF-8 bytes. -/
def maxName : Nat := 255

def step (t : FileTree) (place : Place) (part : String) : Except FileError Place :=
  match t.entryAt? place with
  | some .directory =>
    if Path.isIdle part then .ok place
    else if maxName < part.utf8ByteSize then .error .nameTooLong
    else
      match place with
      | .outside => if part = ".." then .ok .outside else .error .notFound
      | .inside names =>
        if part = ".." then .ok (if names.isEmpty then .outside else .inside names.dropLast)
        else if (t.entryAt? (.inside (names ++ [part]))).isSome then
          .ok (.inside (names ++ [part]))
        else .error .notFound
  | some (.file _) => .error .notDirectory
  | none => .error .notFound

def walk (t : FileTree) (place : Place) : List String → Except FileError Place
  | [] => .ok place
  | part :: rest =>
    match t.step place part with
    | .ok place' => walk t place' rest
    | .error e => .error e

def start (parts : List String) : Place :=
  match parts with
  | "" :: _ :: _ => .outside
  | _ => .inside []

/-- What stands at a path; nothing stands at the empty path. -/
def entry (t : FileTree) (path : String) : Except FileError Entry :=
  if path = "" then .error .notFound
  else
    let parts := Path.parts path
    match t.walk (start parts) parts with
    | .ok place =>
      match t.entryAt? place with
      | some e => .ok e
      | none => .error .notFound
    | .error e => .error e

/-- Whether a file can be written to a path.  A path that ends in a slash or in
dots means a directory, whether there is one or not. -/
def writing (t : FileTree) (path : String) : Except FileError Unit :=
  let parts := Path.parts path
  match parts.reverse.dropWhile (· = "") with
  | [] => .error (if path = "" then .notFound else .isDirectory)
  | name :: before =>
    match t.walk (start parts) before.reverse with
    | .error e => .error e
    | .ok place =>
      match t.entryAt? place with
      | some .directory =>
        if parts.getLast? = some "" || name = "." || name = ".." then .error .isDirectory
        else
          match t.step place name with
          | .ok place' =>
            if t.entryAt? place' = some .directory then .error .isDirectory else .ok ()
          | .error .nameTooLong => .error .nameTooLong
          | .error _ => if place = .outside then .error .notFound else .ok ()
      | some (.file _) => .error .notDirectory
      | none => .error .notFound

/-- The beginnings of a list of names that are neither empty nor all of it. -/
def parents : List String → List (List String)
  | [] => []
  | [_] => []
  | name :: rest => [name] :: (parents rest).map (name :: ·)

/-- Adds an entry and the directories on the way to it. -/
def insert (t : FileTree) (names : List String) (e : Entry) : FileTree :=
  (names, e) :: (t ++ (parents names).map fun p => (p, .directory))

/-- The tree of some files.  A name that ends in a slash is the name of a
directory. -/
def ofList (files : List (String × String)) : FileTree :=
  files.foldl (fun t f =>
    let names := (Path.parts f.1).filter fun part => !Path.isIdle part
    t.insert names (if f.1.endsWith "/" then .directory else .file f.2)) []

def files (t : FileTree) : Files := ⟨t.entry, t.writing⟩

end FileTree
end OntologyModel
