import Haystack.Command.Basic

/-
  This file defines the command line: a command, its flags,
  and the file that it reads.

  Key definitions include:
    * `Invocation`
    * `Invocation.ofArguments`
    * `usage`
-/

namespace Haystack

/- What is to be done, and the file to read, if any. -/
inductive Invocation where
| check (filter : String)
| query (options : QueryOptions) (file : Option String)
| convert (options : ConvertOptions) (file : Option String)
deriving DecidableEq, Repr

namespace Invocation

/- The flags of all commands, and the words between them. -/
structure Arguments where
  words : List String
  file : Option String
  json : Bool
  pretty : Bool
  fillLabels : Bool
  fromJson : Bool
deriving DecidableEq, Repr

/- No flag and no word. -/
def Arguments.empty : Arguments :=
  ⟨[], none, false, false, false, false⟩

/- Read flags from left to right. -/
def readFlags
    (a : Arguments) : List String → Option Arguments
| [] => some a
| "-v" :: rest => readFlags a rest
| "--verbose" :: rest => readFlags a rest
| "--json" :: rest => readFlags { a with json := true } rest
| "-p" :: rest => readFlags { a with pretty := true } rest
| "--pretty" :: rest =>
    readFlags { a with pretty := true } rest
| "--fill-dis" :: rest =>
    readFlags { a with fillLabels := true } rest
| "--from-json" :: rest =>
    readFlags { a with fromJson := true } rest
| "-i" :: file :: rest =>
    readFlags { a with file := some file } rest
| "--input" :: file :: rest =>
    readFlags { a with file := some file } rest
| word :: rest =>
    if word.startsWith "-" then none
    else readFlags { a with words := a.words ++ [word] } rest

/- What the arguments ask for, if anything. -/
def ofArguments
    (arguments : List String) : Option Invocation :=
  match readFlags .empty arguments with
  | none => none
  | some a =>
      match a.words with
      | ["check", filter] => some (.check filter)
      | ["query", filter] =>
          some
            (.query
              ⟨filter, .ofFlags a.json a.pretty, a.fillLabels⟩
              a.file)
      | ["convert"] =>
          some (.convert ⟨a.fromJson, a.pretty⟩ a.file)
      | _ => none

end Invocation

/- How the program is called. -/
def usage : String :=
  "Usage: zinc check <FILTER>\n" ++
    "       zinc query <FILTER> [--input <FILE>] " ++
    "[--json] [--pretty] [--fill-dis]\n" ++
    "       zinc convert [--input <FILE>] " ++
    "[--from-json] [--pretty]"

end Haystack
