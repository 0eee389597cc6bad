import Columnar.Session

namespace Columnar.Main

def usage : String := "Usage: columnar [--config <FILE>] <unique|value-counts|dictionary-encode|merge> " ++
  "--file <FILE>... --column <NAME>"

/-- What a file holds; a name that cannot be read stands for no file. -/
def fileContent (path : String) : IO (Except ReadFault FileContent) := do
  try
    let bytes ← IO.FS.readBinFile path
    return .ok (match String.fromUTF8? bytes with
      | some text => .text text
      | none => .bytes bytes.data)
  catch _ => return .error .missingFile

def fileStore (names : List String) : IO FileStore := do
  let found ← names.mapM fun name => return (name, ← fileContent name)
  return fun name => (found.lookup name).getD (.error .missingFile)

def entryParts? (entry : String) : Option (String × String) :=
  match entry.splitOn "=" with
  | name :: value :: more => some (name, "=".intercalate (value :: more))
  | _ => none

/-- All variables of the environment, where the system lists them in a file. -/
def environment : IO (List (String × String)) := do
  match ← fileContent "/proc/self/environ" with
  | .ok (.text listing) => return (listing.splitOn "\x00").filterMap entryParts?
  | _ => return []

def isAnswer : Arguments.Fault → Bool
  | .help | .version => true
  | _ => false

end Columnar.Main

open Columnar in
def main (words : List String) : IO UInt32 := do
  let _ : Memory := .of47Bits
  let names := match Arguments.parse words with
    | .ok arguments => arguments.fileNames
    | .error _ => []
  match session words (← Main.fileStore names) (← Main.environment) with
  | .ok output =>
    IO.println output
    return 0
  | .error (.failure failure) =>
    IO.eprintln ("Error: " ++ failure.message)
    return 1
  | .error (.arguments fault) =>
    IO.eprintln Main.usage
    return if Main.isAnswer fault then 0 else 2
