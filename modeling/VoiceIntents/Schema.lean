import VoiceIntents.Grammar.Basic
import VoiceIntents.TypedModule.Basic
import VoiceIntents.Value.Basic

/-!
# Declarations as data

Grammars and module declarations that are spelled out as values.
-/

/-!
## Validated reading

Reading typed data from document values. All problems of a value are found, each with the
path to the place where it stands.
-/

namespace VoiceIntents.Schema

/-- One step of a path into a value. -/
inductive Step where
  | field (name : String)
  | item (place : Nat)
  deriving DecidableEq, Repr

inductive ProblemKind where
  | missing
  | notText
  | notList
  | notObject
  | notTruth
  | unclearTruth
  | unequalLengths
  deriving DecidableEq, Repr

structure Problem where
  path : List Step
  kind : ProblemKind
  deriving DecidableEq, Repr

/-- A value that was read, or the problems that were found instead. -/
inductive Validated (α : Type) where
  | valid (a : α)
  | invalid (problems : List Problem)

namespace Validated

variable {α β : Type}

def map (f : α → β) : Validated α → Validated β
  | .valid a => .valid (f a)
  | .invalid problems => .invalid problems

/-- Both are read, and the problems of both are kept. -/
def seq : Validated (α → β) → Validated α → Validated β
  | .valid f, .valid a => .valid (f a)
  | .valid _, .invalid problems => .invalid problems
  | .invalid problems, .valid _ => .invalid problems
  | .invalid first, .invalid second => .invalid (first ++ second)

instance : Applicative Validated where
  map := map
  pure := .valid
  seq f a := seq f (a ())

/-- The problems of a part, seen from the whole. -/
def under (step : Step) : Validated α → Validated α
  | .valid a => .valid a
  | .invalid problems => .invalid (problems.map fun p => { p with path := step :: p.path })

end Validated

variable {α : Type}

def problem (kind : ProblemKind) : Validated α := .invalid [⟨[], kind⟩]

def text : Value → Validated String
  | .scalar (.text s) => .valid s
  | _ => problem .notText

/-- A text, or null for none. -/
def optionalText : Value → Validated (Option String)
  | .scalar .null => .valid none
  | v => (text v).map some

/-- Numbers that stand for a truth value are read in sixty-four bits with a sign. -/
def numberLimit : Int := 9223372036854775808

/-- The truth value that a number stands for. -/
def truthOfInt (n : Int) : Validated Bool :=
  if n = 1 then .valid true else if n = 0 then .valid false else problem .unclearTruth

/-- A truth value, or a number or word that stands for one. -/
def truth : Value → Validated Bool
  | .scalar (.bool b) => .valid b
  | .scalar (.text s) =>
      let word := String.ofList (s.toList.map Char.toLower)
      if ["1", "on", "t", "true", "y", "yes"].contains word then .valid true
      else if ["0", "off", "f", "false", "n", "no"].contains word then .valid false
      else problem .unclearTruth
  | .scalar (.int n) =>
      if -numberLimit ≤ n && n < numberLimit then truthOfInt n else problem .notTruth
  | .scalar (.float x) =>
      match x.toInt? with
      | some n => if -numberLimit < n && n < numberLimit then truthOfInt n else problem .notTruth
      | none => problem .notTruth
  | _ => problem .notTruth

/-- Items one after another, from a place on. -/
def itemsFrom (read : Value → Validated α) : Nat → List Value → Validated (List α)
  | _, [] => .valid []
  | place, v :: rest =>
      List.cons <$> (read v).under (.item place) <*> itemsFrom read (place + 1) rest

def list (read : Value → Validated α) : Value → Validated (List α)
  | .list items => itemsFrom read 0 items
  | _ => problem .notList

/-- An object, read from its entries; entries that are not asked for are passed over. -/
def object (read : List (Scalar × Value) → Validated α) : Value → Validated α
  | .map entries => read entries
  | _ => problem .notObject

/-- A field that must be there. -/
def field (entries : List (Scalar × Value)) (name : String) (read : Value → Validated α) :
    Validated α :=
  match lookup entries name with
  | none => .invalid [⟨[.field name], .missing⟩]
  | some v => (read v).under (.field name)

/-- A field that has a default. -/
def fieldOr (entries : List (Scalar × Value)) (name : String) (default : α)
    (read : Value → Validated α) : Validated α :=
  match lookup entries name with
  | none => .valid default
  | some v => (read v).under (.field name)

end VoiceIntents.Schema

/-!
## Grammars as data

Reads a grammar from a value that spells it out. Only its form is checked, not its names.
-/

namespace VoiceIntents.Schema

/-- Elements and raw elements of a slot go in pairs. -/
def pairElements (name : String) (names words : List String) : Validated Slot :=
  if names.length = words.length then
    .valid ⟨name, (names.zip words).map fun (n, w) => ⟨n, w⟩⟩
  else problem .unequalLengths

def slot : Value → Validated Slot :=
  object fun entries =>
    let parts := (fun name names words => (name, names, words))
      <$> field entries "name" text
      <*> fieldOr entries "elements" [] (list text)
      <*> fieldOr entries "raw_elements" [] (list text)
    match parts with
    | .invalid problems => .invalid problems
    | .valid (name, names, words) => pairElements name names words

def slotVariable : Value → Validated Variable :=
  object fun entries =>
    Variable.mk
      <$> field entries "name" text
      <*> field entries "raw_name" text
      <*> field entries "slot" slot
      <*> fieldOr entries "required" true truth

def intent : Value → Validated Intent :=
  object fun entries =>
    Intent.mk
      <$> field entries "name" text
      <*> fieldOr entries "variables" [] (list slotVariable)
      <*> fieldOr entries "expressions" [] (list text)

def grammar : Value → Validated Grammar :=
  object fun entries =>
    Grammar.mk
      <$> fieldOr entries "intents" [] (list intent)
      <*> fieldOr entries "slots" [] (list slot)
      <*> fieldOr entries "source" none optionalText

end VoiceIntents.Schema

/-!
## Module declarations as data

Reads module declarations from a value that spells them out.
-/

namespace VoiceIntents.Schema

def variantField : Value → Validated Field :=
  object fun entries =>
    Field.mk
      <$> field entries "name" text
      <*> field entries "type_name" text
      <*> fieldOr entries "optional" false truth

def variant : Value → Validated Variant :=
  object fun entries =>
    Variant.mk
      <$> field entries "name" text
      <*> fieldOr entries "fields" [] (list variantField)

def sumType : Value → Validated SumType :=
  object fun entries =>
    SumType.mk
      <$> fieldOr entries "name" TypedModule.sumTypeName text
      <*> fieldOr entries "sentinel" ⟨TypedModule.sentinelName, []⟩ variant
      <*> fieldOr entries "variants" [] (list variant)

def enumMember : Value → Validated EnumMember :=
  object fun entries =>
    EnumMember.mk <$> field entries "name" text <*> field entries "value" text

def enumType : Value → Validated EnumType :=
  object fun entries =>
    EnumType.mk
      <$> field entries "name" text
      <*> fieldOr entries "members" [] (list enumMember)

def argument : Value → Validated Argument :=
  object fun entries =>
    Argument.mk
      <$> field entries "field" text
      <*> field entries "key" text
      <*> fieldOr entries "aliases" [] (list text)
      <*> field entries "enum_name" text
      <*> field entries "required" truth

def decoderCase : Value → Validated Case :=
  object fun entries =>
    Case.mk
      <$> field entries "intent_name" text
      <*> field entries "variant" text
      <*> fieldOr entries "args" [] (list argument)

def decoder : Value → Validated Decoder :=
  object fun entries =>
    Decoder.mk
      <$> fieldOr entries "name" TypedModule.decoderName text
      <*> fieldOr entries "sum_type" TypedModule.sumTypeName text
      <*> fieldOr entries "sentinel" TypedModule.sentinelName text
      <*> fieldOr entries "cases" [] (list decoderCase)

def typedModule : Value → Validated TypedModule :=
  object fun entries =>
    TypedModule.mk
      <$> fieldOr entries "source" none optionalText
      <*> fieldOr entries "project" none optionalText
      <*> field entries "sum_type" sumType
      <*> fieldOr entries "enums" [] (list enumType)
      <*> field entries "decoder" decoder

end VoiceIntents.Schema
