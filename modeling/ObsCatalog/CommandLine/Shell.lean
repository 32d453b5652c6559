/-! Completion of commands in shells.

A shell reads a script from which it learns the words that can follow the name of the
program.
-/

set_option autoImplicit false

namespace ObsCatalog.CommandLine

def programName : String := "hera-db"

inductive Shell where
  | bash
  | elvish
  | fish
  | powershell
  | zsh
  deriving DecidableEq, Repr

namespace Shell

def all : List Shell := [.bash, .elvish, .fish, .powershell, .zsh]

def name : Shell → String
  | .bash => "bash"
  | .elvish => "elvish"
  | .fish => "fish"
  | .powershell => "powershell"
  | .zsh => "zsh"

def ofName? (name : String) : Option Shell := all.find? (·.name = name)

def script (words : List String) : Shell → String
  | .bash => "complete -W '" ++ " ".intercalate words ++ "' " ++ programName ++ "\n"
  | .elvish =>
    "set edit:completion:arg-completer[" ++ programName ++ "] = \x7b|@words| put " ++
      " ".intercalate words ++ " \x7d\n"
  | .fish =>
    "complete -c " ++ programName ++ " -f -a '" ++ " ".intercalate words ++ "'\n"
  | .powershell =>
    "Register-ArgumentCompleter -Native -CommandName " ++ programName ++
      " -ScriptBlock \x7b param($word) '" ++ "', '".intercalate words ++
      "' | Where-Object \x7b $_ -like \"$word*\" \x7d \x7d\n"
  | .zsh =>
    "#compdef " ++ programName ++ "\n_arguments '1:command:(" ++ " ".intercalate words ++ ")'\n"

end Shell

end ObsCatalog.CommandLine
