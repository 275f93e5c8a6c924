import Runbook.Text.Basic

/-!
Options among the words of a command. A word with one dash gives a letter to each option, a word with two dashes names
one; a value is the rest of the word or the word after it. Two dashes alone end the options.
-/
namespace Runbook

/-- Why the words of a command cannot be read. -/
inductive UsageFault
  | unknownOption (name : Text)
  | surplusValue (name : Text)
  | missingValue (word : Text)
  | missingOption (name : Text)
  | missingOperand
  | surplusOperand (word : Text)
  | missingCommand
  | unknownCommand (name : Text)
  | invalidChoice (word : Text)
  | missingFile (path : Text)
  | directory (path : Text)
  deriving DecidableEq, Repr

def UsageFault.message : UsageFault → Text
  | .unknownOption name => "No such option: " ++ name
  | .surplusValue name => "Option takes no value: " ++ name
  | .missingValue word => "Option requires a value: " ++ word
  | .missingOption name => "Missing option: " ++ name
  | .missingOperand => "Missing file"
  | .surplusOperand word => "Unexpected argument: " ++ word
  | .missingCommand => "Missing command"
  | .unknownCommand name => "No such command: " ++ name
  | .invalidChoice word => "Not one of the choices: " ++ word
  | .missingFile path => "File does not exist: " ++ path
  | .directory path => "File is a directory: " ++ path

/-- What an option changes, by itself or with its value. -/
inductive OptionEffect (σ : Type)
  | switch (change : σ → σ)
  | setting (change : Text → σ → σ)

/-- Options under their spellings, dashes included. -/
abbrev OptionTable (σ : Type) := List (Text × OptionEffect σ)

namespace OptionTable

variable {σ : Type} (table : OptionTable σ)

def effect? (name : Text) : Option (OptionEffect σ) := (table.find? (·.1 = name)).map (·.2)

/-- Options read from one word, and the one at its end that still waits for its value. -/
abbrev Reading (σ : Type) := Except UsageFault (σ × Option (Text → σ → σ))

/-- One option for each letter; one with a value takes the rest of the word. -/
def letters : Text → σ → Reading σ
  | [], s => .ok (s, none)
  | c :: t, s =>
    match table.effect? ['-', c] with
    | none => .error (.unknownOption ['-', c])
    | some (.switch f) => letters t (f s)
    | some (.setting f) => .ok (if t.isEmpty then (s, some f) else (f t s, none))

/-- One option by its name, with the value after an equals sign. -/
def named (word : Text) (s : σ) : Reading σ :=
  let (name, value) := word.cut '='
  match table.effect? name, value with
  | none, _ => .error (.unknownOption name)
  | some (.switch f), none => .ok (f s, none)
  | some (.switch _), some _ => .error (.surplusValue name)
  | some (.setting f), none => .ok (s, some f)
  | some (.setting f), some v => .ok (f v s, none)

def word (t : Text) (s : σ) : Reading σ :=
  if t.startsWith "--" then table.named t s else table.letters (t.drop 1) s

/-- A dash alone is an operand. -/
def isOption (t : Text) : Bool := t.startsWith "-" && t ≠ ['-']

/-- The options of all words and the operands that are left. Options after the first operand are read only when `mixed`
says so. The last of several options wins. -/
def read (mixed : Bool) : List Text → σ → Except UsageFault (σ × List Text)
  | [], s => .ok (s, [])
  | t :: rest, s =>
    if t = "--" then .ok (s, rest)
    else if isOption t then
      match table.word t s with
      | .error f => .error f
      | .ok (s, none) => read mixed rest s
      | .ok (s, some f) =>
        match rest with
        | [] => .error (.missingValue t)
        | value :: rest => read mixed rest (f value s)
    else if mixed then
      (read mixed rest s).map fun (s, operands) => (s, t :: operands)
    else .ok (s, t :: rest)

end OptionTable
end Runbook
