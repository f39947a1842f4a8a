import Deployment.Data.Keyed

/-! # Options on a command line

A command line is a list of words. Options begin with two hyphens; what an option takes stands in
the next word, or in the same word behind an equals sign.

* **`OptionSpec`** — an option that may be given.
* **`LineStop`** — why a command line asks for nothing to be done.
* **`readOptions`** — the options at the front of a command line. -/

namespace Deployment

/-- What an option takes. -/
inductive OptionArgument where
  | nothing
  | text
  /-- A path, which is not empty. -/
  | path
  deriving DecidableEq, Repr

/-- An option that may be given, at most once. -/
structure OptionSpec where
  name : String
  argument : OptionArgument := .text
  required : Bool := false
  deriving DecidableEq, Repr

/-- Why a command line asks for nothing to be done. -/
inductive LineStop where
  | help
  | version
  /-- The command line is not understood. -/
  | misuse
  deriving DecidableEq, Repr

/-- The options that were given, with what they took. -/
abbrev Chosen := Keyed String String

/-- A word of a command line. -/
inductive LineWord where
  /-- Two hyphens alone: what follows are no options. -/
  | separator
  | long (name : String) (value : Option String)
  | short (letter : Char)
  | plain (word : String)
  deriving DecidableEq, Repr

/-- What a word is. -/
def LineWord.of (word : String) : LineWord :=
  match word.toList with
  | ['-', '-'] => .separator
  | '-' :: '-' :: cs =>
    let name := String.ofList (cs.takeWhile (· ≠ '='))
    match cs.dropWhile (· ≠ '=') with
    | _ :: value => .long name (some (String.ofList value))
    | [] => .long name none
  | '-' :: c :: _ => .short c
  | _ => .plain word

/-- A word that an option can take when it stands alone: it begins with no hyphen, or is one. -/
def isLoneValue (word : String) : Bool :=
  match LineWord.of word with
  | .plain _ => true
  | _ => false

/-- Choose an option, which was not chosen before. -/
def choose (spec : OptionSpec) (value : String) (chosen : Chosen) : Except LineStop Chosen :=
  if chosen.contains spec.name then .error .misuse
  else if spec.argument = .path && value.isEmpty then .error .misuse
  else .ok (chosen.put spec.name value)

/-- The options at the front of a command line, and the words from the first plain one on. -/
def readOptions (specs : List OptionSpec) (versioned : Bool) :
    List String → Chosen → Except LineStop (Chosen × List String)
  | [], chosen => .ok (chosen, [])
  | word :: rest, chosen =>
    match LineWord.of word with
    | .plain _ => .ok (chosen, word :: rest)
    | .separator => if rest.isEmpty then .ok (chosen, []) else .error .misuse
    | .short c =>
      if c = 'h' then .error .help
      else if c = 'V' && versioned then .error .version
      else .error .misuse
    | .long name value =>
      if name = "help" && value.isNone then .error .help
      else if name = "version" && versioned && value.isNone then .error .version
      else match specs.find? (·.name = name) with
        | none => .error .misuse
        | some spec =>
          if spec.argument = .nothing then
            if value.isSome then .error .misuse
            else match choose spec "" chosen with
              | .ok chosen => readOptions specs versioned rest chosen
              | .error stop => .error stop
          else match value with
            | some v => match choose spec v chosen with
              | .ok chosen => readOptions specs versioned rest chosen
              | .error stop => .error stop
            | none => match rest with
              | [] => .error .misuse
              | v :: rest =>
                if !isLoneValue v then .error .misuse
                else match choose spec v chosen with
                  | .ok chosen => readOptions specs versioned rest chosen
                  | .error stop => .error stop

/-- All options that have to be given were given. -/
def hasRequired (specs : List OptionSpec) (chosen : Chosen) : Bool :=
  specs.all fun s => !s.required || chosen.contains s.name

end Deployment
