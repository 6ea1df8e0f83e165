import ComponentBundle.FilePath
import ComponentBundle.ReadError
import ComponentBundle.SortedMap

/-!
# File trees in memory

A tree of directories and files below one working directory, from which style sheets are read as a
file system would: step by step, where every step but the last must be a directory. The
directories above the working directory hold nothing else.
-/

namespace ComponentBundle

/-- What stands at a place of a tree. -/
inductive FileEntry where
  | directory
  | file (bytes : ByteArray)

/-- A tree, by the names that lead to each entry. The working directory is always there. -/
structure FileTree where
  entries : SortedMap (List String) FileEntry := ∅

namespace FileTree

instance : EmptyCollection FileTree := ⟨{}⟩

def namesOf (p : FilePath) : List String :=
  p.components.filterMap fun
    | .name text => some text
    | _ => none

def entryAt? (tree : FileTree) (place : List String) : Option FileEntry :=
  if place = [] then some .directory else tree.entries.get? place

/-- Puts an entry at a path, with the directories that lead to it. -/
def put (tree : FileTree) (p : FilePath) (entry : FileEntry) : FileTree :=
  let names := namesOf p
  let parents := (List.range names.length).drop 1
  ⟨(parents.foldl (fun m n => m.insertIfNew (names.take n) .directory) tree.entries).insert
    names entry⟩

/-- Removes the entry at a path and all below it. -/
def remove (tree : FileTree) (p : FilePath) : FileTree :=
  ⟨tree.entries.eraseWhere fun place => (namesOf p).isPrefixOf place⟩

/-- The longest name of a file, in bytes. -/
def maxNameSize : Nat := 255

/-- The longest path, in bytes. -/
def maxPathSize : Nat := 4095

/-- Where a walk stands. -/
inductive Place where
  /-- The place that names lead to from the working directory. -/
  | inside (names : List String)
  /-- A directory above the working directory. -/
  | above

def entryOf? (tree : FileTree) : Place → Option FileEntry
  | .inside names => tree.entryAt? names
  | .above => some .directory

def Place.parent : Place → Place
  | .inside [] => .above
  | .inside names => .inside names.dropLast
  | .above => .above

/-- The place that the components of a path lead to. A name that is too long is refused wherever
it is looked up. -/
def walk (tree : FileTree) : Place → List PathComponent → Except ReadError Place
  | place, [] => .ok place
  | place, step :: rest =>
    match tree.entryOf? place with
    | none => .error .notFound
    | some (.file _) => .error .notDirectory
    | some .directory =>
      match step with
      | .root => walk tree .above rest
      | .here => walk tree place rest
      | .up => walk tree place.parent rest
      | .name text =>
        if maxNameSize < text.utf8ByteSize then .error .nameTooLong
        else
          match place with
          | .inside names => walk tree (.inside (names ++ [text])) rest
          | .above => .error .notFound

/-- The text of the file at a path. -/
def read (tree : FileTree) (p : FilePath) : Except ReadError String :=
  if p.text.toList.contains '\x00' then .error .nullInPath
  else if maxPathSize < p.text.utf8ByteSize then .error .nameTooLong
  else
    match tree.walk (.inside []) p.components with
    | .error e => .error e
    | .ok place =>
      match tree.entryOf? place with
      | none => .error .notFound
      | some .directory => .error .isDirectory
      | some (.file bytes) =>
        match String.fromUTF8? bytes with
        | some text => .ok text
        | none => .error .notText

end FileTree

end ComponentBundle
