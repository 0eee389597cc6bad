import Columnar.Arguments.Switch
import Columnar.Text.Quoted

namespace Columnar

inductive Subcommand
  | unique | valueCounts | dictionaryEncode | merge
  deriving DecidableEq, Repr

namespace Subcommand

def name : Subcommand → String
  | .unique => "unique"
  | .valueCounts => "value-counts"
  | .dictionaryEncode => "dictionary-encode"
  | .merge => "merge"

def all : List Subcommand := [.unique, .valueCounts, .dictionaryEncode, .merge]

def ofName? (s : String) : Option Subcommand := all.find? (·.name = s)

end Subcommand

inductive Command
  | unique (file column : String)
  | valueCounts (file column : String)
  | dictionaryEncode (file column : String)
  | merge (files : List String) (column : String)
  deriving DecidableEq, Repr

namespace Command

def subcommand : Command → Subcommand
  | .unique .. => .unique
  | .valueCounts .. => .valueCounts
  | .dictionaryEncode .. => .dictionaryEncode
  | .merge .. => .merge

def files : Command → List String
  | .unique file _ | .valueCounts file _ | .dictionaryEncode file _ => [file]
  | .merge files _ => files

/-- The command with these files, of which all but a merge take one. -/
def make? (subcommand : Subcommand) (files : List String) (column : String) : Option Command :=
  match subcommand, files with
  | .unique, [file] => some (.unique file column)
  | .valueCounts, [file] => some (.valueCounts file column)
  | .dictionaryEncode, [file] => some (.dictionaryEncode file column)
  | .merge, file :: files => some (.merge (file :: files) column)
  | _, _ => none

def column : Command → String
  | .unique _ column | .valueCounts _ column | .dictionaryEncode _ column | .merge _ column => column

def text (command : Command) : String :=
  let one (variant file column : String) : String :=
    variant ++ "(" ++
      Text.record "HashArgs" [("file", Text.quoted file), ("column", Text.quoted column)] ++ ")"
  match command with
  | .unique file column => one "Unique" file column
  | .valueCounts file column => one "ValueCounts" file column
  | .dictionaryEncode file column => one "DictionaryEncode" file column
  | .merge files column =>
    let list := Text.listed (files.map Text.quoted)
    "Merge(" ++ Text.record "MergeArgs" [("file", list), ("column", Text.quoted column)] ++ ")"

end Command

structure Arguments where
  config : Option String
  command : Command
  deriving DecidableEq, Repr

namespace Arguments

def text (arguments : Arguments) : String :=
  let config := match arguments.config with
    | none => "None"
    | some path => "Some(" ++ Text.quoted path ++ ")"
  Text.record "CliArgs" [("config", config), ("command", arguments.command.text)]

def helpName : String := "help"

def helpSwitch : Switch := ⟨"help", some 'h', .help⟩

def versionSwitch : Switch := ⟨"version", some 'V', .version⟩

def configSwitch : Switch := ⟨"config", some 'c', .single⟩

def columnSwitch : Switch := ⟨"column", none, .single⟩

def fileSwitch : Subcommand → Switch
  | .merge => ⟨"file", some 'f', .several⟩
  | _ => ⟨"file", some 'f', .single⟩

def topLevel : Level :=
  ⟨[configSwitch, helpSwitch, versionSwitch], Subcommand.all.map Subcommand.name ++ [helpName]⟩

def level (subcommand : Subcommand) : Level :=
  ⟨[fileSwitch subcommand, columnSwitch, helpSwitch], []⟩

/-- Help on a subcommand, which has none of its own. -/
def helpOn : List String → Fault
  | [] => .help
  | [word] => if topLevel.subcommands.contains word then .help else .invalidSubcommand
  | _ => .invalidSubcommand

def parseCommand (subcommand : Subcommand) (words : List String) : Except Fault Command := do
  let (scan, _) ← Scan.words (level subcommand) .start words
  let scan ← scan.resolve
  match scan.values (fileSwitch subcommand).long, scan.values columnSwitch.long with
  | files, [column] =>
    match Command.make? subcommand files column with
    | some command => return command
    | none => throw .missingRequired
  | _, _ => throw .missingRequired

/-- The words of a command line. A fault of the subcommand comes before one of the switches in front. -/
def parse (words : List String) : Except Fault Arguments := do
  let (scan, found) ← Scan.words topLevel .start words
  match found with
  | none =>
    let scan ← scan.resolve
    throw (if scan.given.isEmpty then .helpOnMissing else .missingSubcommand)
  | some (name, rest) =>
    match Subcommand.ofName? name with
    | none => throw (helpOn rest)
    | some subcommand =>
      let command ← parseCommand subcommand rest
      let scan ← scan.resolve
      return { config := (scan.values configSwitch.long).head?, command }

end Arguments

end Columnar
