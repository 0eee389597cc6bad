import Columnar.Arguments
import Columnar.Config
import Columnar.Distinct
import Columnar.FileStore
import Columnar.Merge
import Columnar.Table

namespace Columnar

namespace Session

variable [Memory] (config : Config) (files : FileStore)

def unique (file column : String) : Except Failure String := do
  let source ← readColumn files file column
  let distinct ← uniqueChunked source.type source.chunks config.hash.memoCapacity
  return (← Table.ofChunks column [distinct]).text

def valueCounts (file column : String) : Except Failure String := do
  let source ← readColumn files file column
  let counts ← valueCountsChunked source.type source.chunks config.hash.memoCapacity
  return (← Table.ofColumns counts.named).text

/-- The dictionary and below it the keys; nothing at all for a file without batches. -/
def dictionaryEncode (file column : String) : Except Failure String := do
  let source ← readColumn files file column
  let encoded ← dictionaryEncodeChunked source.type source.chunks config.hash.memoCapacity
  match encoded with
  | [] => return ""
  | first :: _ =>
    let dictionary ← Table.ofChunks column [first.dictionary]
    let keys ← Table.ofChunks "index" (encoded.map fun e => ⟨.int32, e.keys⟩)
    return dictionary.text ++ "\n" ++ keys.text

/-- Every batch of every file is a column of its own. -/
def merge (paths : List String) (column : String) : Except Failure String := do
  let sources ← paths.mapM fun path => readColumn files path column
  let chunks := (sources.map (·.chunks)).flatten
  let positions ← Merge.sortedPositions chunks
  let places ← Position.toStruct positions
  let values ← Position.take chunks positions
  return (← Table.ofColumns (places.named ++ [(column, values)])).text

def run : Command → Except Failure String
  | .unique file column => unique config files file column
  | .valueCounts file column => valueCounts config files file column
  | .dictionaryEncode file column => dictionaryEncode config files file column
  | .merge paths column => merge files paths column

end Session

inductive SessionFault
  | arguments (fault : Arguments.Fault)
  | failure (failure : Failure)
  deriving DecidableEq, Repr

/-- The ending that the name of a configuration file may leave out. -/
def configEnding : String := ".toml"

/-- The text of a configuration file, which is the file at that path or else the one with the ending. -/
def configText? (files : FileStore) (path : String) : Option String :=
  match files path with
  | .ok .directory | .error _ =>
    (FilePath.withEnding? configEnding path).bind fun path => (files path).toOption.bind (·.text?)
  | .ok content => content.text?

def loadConfig (files : FileStore) (path : Option String) (environment : List (String × String)) :
    Except Failure Config :=
  Config.load (path.map (configText? files)) environment

def Arguments.fileNames (arguments : Arguments) : List String :=
  (arguments.config.toList.map fun path =>
    path :: (FilePath.withEnding? configEnding path).toList).flatten ++ arguments.command.files

def session [Memory] (words : List String) (files : FileStore) (environment : List (String × String)) :
    Except SessionFault String := do
  let arguments ← (Arguments.parse words).mapError .arguments
  let config ← (loadConfig files arguments.config environment).mapError .failure
  (Session.run config files arguments.command).mapError .failure

end Columnar
