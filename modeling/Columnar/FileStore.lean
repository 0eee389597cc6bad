import Columnar.ColumnFile

namespace Columnar

inductive FileContent
  | text (content : String)
  | columns (file : ColumnFile)
  | bytes (content : OffsetTree.Bytes)
  | directory

def FileContent.text? : FileContent → Option String
  | .text content => some content
  | .columns _ | .bytes _ | .directory => none

abbrev FileStore : Type := String → Except ReadFault FileContent

/-! ### Paths -/

namespace FilePath

def names (path : String) : List String := path.splitOn "/"

def stays (name : String) : Bool := name = "" || name = "."

/-- The path with an ending added to its last name, if it has one. -/
def withEnding? (ending path : String) : Option String :=
  match (names path).reverse.dropWhile stays with
  | [] => none
  | last :: before =>
    if last = ".." then none else some ("/".intercalate (before.reverse ++ [last ++ ending]))

def longestName : Nat := 255

/-- Follows names from a directory, given by the names that lead to it, through files that are given by such
names. -/
def walk (files : List (List String × FileContent)) (directory : List String) :
    List String → Except ReadFault FileContent
  | [] => .ok .directory
  | name :: rest =>
    if stays name then walk files directory rest
    else if name = ".." && directory.isEmpty then
      if rest.all stays then .ok .directory else .error .missingFile
    else if longestName < name.utf8ByteSize then .error .longName
    else
      let path := if name = ".." then directory.dropLast else directory ++ [name]
      match files.lookup path with
      | some content => if rest.isEmpty then .ok content else .error .notDirectory
      | none =>
        if files.any fun file => path.isPrefixOf file.1 then walk files path rest
        else .error .missingFile

end FilePath

/-- The files of a directory. Nothing is found by an empty path, or outside of the directory. -/
def FileStore.ofList (files : List (String × FileContent)) : FileStore := fun path =>
  if path.toList.contains '\x00' then .error .invalidName
  else if path = "" || path.toList.head? = some '/' then .error .missingFile
  else
    FilePath.walk (files.map fun (name, content) =>
      ((FilePath.names name).filter fun n => !FilePath.stays n, content)) [] (FilePath.names path)

def readColumn (files : FileStore) (path column : String) : Except Failure ColumnChunks :=
  match files path with
  | .error fault => .error (.io fault)
  | .ok (.columns file) => file.readColumn path column
  | .ok (.text content) => ColumnFile.readColumnOfBytes content.toUTF8.data path column
  | .ok (.bytes content) => ColumnFile.readColumnOfBytes content path column
  | .ok .directory => .error (.format .directory)

end Columnar
