import VoiceIntents.File.Path

/-!
# Command-line arguments

What the arguments of the command line ask for. Options come first, before the name of the
command; after the name, options and arguments may be mixed.
-/

namespace VoiceIntents.Command

inductive Opt where
  | help
  | version
  | verbose
  | output
  | manifest
  | check
  | strict
  deriving DecidableEq, Repr

/-- Options with a value; the others are switches. -/
def Opt.takesValue : Opt → Bool
  | .output | .manifest => true
  | .help | .version | .verbose | .check | .strict => false

/-- The options that a command knows: long names with two dashes, and letters with one. -/
structure Spelling where
  long : List (String × Opt)
  short : List (Char × Opt)
  deriving Repr

namespace Spelling

def long? (s : Spelling) (name : String) : Option Opt :=
  (s.long.find? fun entry => entry.1 = name).map (·.2)

def short? (s : Spelling) (letter : Char) : Option Opt :=
  (s.short.find? fun entry => entry.1 = letter).map (·.2)

/-- The options before the command's name. -/
def program : Spelling :=
  ⟨[("--version", .version), ("--verbose", .verbose), ("--help", .help)], [('v', .verbose)]⟩

def generate : Spelling :=
  ⟨[("--output", .output), ("--manifest", .manifest), ("--check", .check), ("--help", .help)],
    [('o', .output), ('m', .manifest)]⟩

def validate : Spelling := ⟨[("--strict", .strict), ("--help", .help)], []⟩

end Spelling

/-- An option as it was given; a switch has no value. -/
structure Given where
  opt : Opt
  value : Option String
  deriving DecidableEq, Repr

/-- The options that were given, in order, and the other arguments. -/
structure Parsed where
  options : List Given
  arguments : List String
  deriving DecidableEq, Repr

namespace Parsed

/-- The value of an option; the last one counts. -/
def value? (p : Parsed) (opt : Opt) : Option String :=
  (p.options.reverse.find? fun g => g.opt = opt).bind (·.value)

def has (p : Parsed) (opt : Opt) : Bool := p.options.any fun g => g.opt = opt

/-- The first option that answers by itself: the help or the version. -/
def eager? (p : Parsed) : Option Opt :=
  (p.options.find? fun g => g.opt = .help || g.opt = .version).map (·.opt)

end Parsed

/-- The text before the first equals sign and the one after it. -/
def splitEquals (text : String) : String × Option String :=
  let name := text.toList.takeWhile (· ≠ '=')
  match text.toList.drop name.length with
  | _ :: value => (String.ofList name, some (String.ofList value))
  | [] => (text, none)

/-- One word with a long option. `next` is the word after it. Gives the option and whether
that word is its value. -/
def longOption? (s : Spelling) (word : String) (next : Option String) :
    Option (Given × Bool) := do
  let (name, attached) := splitEquals word
  let opt ← s.long? name
  match opt.takesValue, attached with
  | true, some value => return (⟨opt, some value⟩, false)
  | true, none => return (⟨opt, some (← next)⟩, true)
  | false, none => return (⟨opt, none⟩, false)
  | false, some _ => none

/-- Letters after one dash. The rest of the word is the value of the first option that takes
one; where nothing is left, the next word is. -/
def shortOptions? (s : Spelling) (next : Option String) : List Char → Option (List Given × Bool)
  | [] => some ([], false)
  | letter :: rest => do
      let opt ← s.short? letter
      if opt.takesValue then
        if rest.isEmpty then return ([⟨opt, some (← next)⟩], true)
        else return ([⟨opt, some (String.ofList rest)⟩], false)
      else do
        let (more, used) ← shortOptions? s next rest
        return (⟨opt, none⟩ :: more, used)

/-- The options in one word, and whether the next word is the value of the last one. -/
def wordOptions? (s : Spelling) (word : String) (next : Option String) :
    Option (List Given × Bool) :=
  match word.toList with
  | '-' :: '-' :: _ => (longOption? s word next).map fun (g, used) => ([g], used)
  | '-' :: letters => shortOptions? s next letters
  | _ => none

/-- Words that start with a dash and do not end there are options. -/
def isOption (word : String) : Bool :=
  match word.toList with
  | '-' :: _ :: _ => true
  | _ => false

/-- Reads the words of a command. Two dashes end the options. Where arguments and options are
not mixed, the first argument ends them too. The value of an option is skipped. -/
def parse? (s : Spelling) (mixed skip : Bool) : List String → Option Parsed
  | [] => some ⟨[], []⟩
  | word :: rest =>
      if skip then parse? s mixed false rest
      else if word = "--" then some ⟨[], rest⟩
      else if isOption word then do
        let (given, used) ← wordOptions? s word rest.head?
        let p ← parse? s mixed used rest
        return ⟨given ++ p.options, p.arguments⟩
      else if mixed then do
        let p ← parse? s mixed false rest
        return ⟨p.options, word :: p.arguments⟩
      else some ⟨[], word :: rest⟩

structure GenerateOptions where
  context : Option Path
  output : Option Path
  manifest : Option Path
  check : Bool
  deriving DecidableEq, Repr

structure ValidateOptions where
  context : Path
  strict : Bool
  deriving DecidableEq, Repr

/-- What a command line asks for. -/
inductive Request where
  | usage
  | help
  | version
  | generate (verbose : Bool) (options : GenerateOptions)
  | validate (verbose : Bool) (options : ValidateOptions)
  deriving DecidableEq, Repr

namespace Request

/-- No path has a null character. -/
def isBadPath (text : Option String) : Bool := text.any fun t => t.toList.contains '\x00'

def ofGenerate (verbose : Bool) (words : List String) : Request :=
  match parse? .generate true false words with
  | none => .usage
  | some p =>
      if p.has .help then .help
      else
        let context := p.arguments.head?
        let output := p.value? .output
        let manifest := p.value? .manifest
        if isBadPath context || isBadPath output || isBadPath manifest then .usage
        else if 1 < p.arguments.length then .usage
        else .generate verbose
          ⟨context.map Path.ofText, output.map Path.ofText, manifest.map Path.ofText,
            p.has .check⟩

def ofValidate (verbose : Bool) (words : List String) : Request :=
  match parse? .validate true false words with
  | none => .usage
  | some p =>
      if p.has .help then .help
      else match p.arguments with
      | [context] =>
          if isBadPath (some context) then .usage
          else .validate verbose ⟨Path.ofText context, p.has .strict⟩
      | _ => .usage

/-- The answer to options that need no command. -/
def ofEager : Opt → Request
  | .version => .version
  | _ => .help

/-- A name that no command has. Two dashes may have kept it from being read as an option; then
it and the words after it may still ask for the help or the version. -/
def ofUnknown (words : List String) : Request :=
  match (parse? .program false false words).bind Parsed.eager? with
  | some opt => ofEager opt
  | none => .usage

/-- What the words of a command line ask for. -/
def ofWords (words : List String) : Request :=
  match parse? .program false false words with
  | none => .usage
  | some p =>
      match p.eager?, p.arguments with
      | some opt, _ => ofEager opt
      | none, [] => .usage
      | none, name :: rest =>
          if name = "generate" then ofGenerate (p.has .verbose) rest
          else if name = "validate" then ofValidate (p.has .verbose) rest
          else ofUnknown (name :: rest)

end Request

end VoiceIntents.Command
