import VoiceIntents.Grammar.Basic

/-!
# Module declarations

What a generated module declares: a closed type of intents with a variant for each, an
enumeration for each slot, and a decoder from inferences to intents. A grammar is lowered to
these declarations before any text is written.
-/

namespace VoiceIntents

/-- A field of a variant, typed by an enumeration. -/
structure Field where
  name : String
  typeName : String
  optional : Bool
  deriving DecidableEq, Repr

/-- The type of a field as it is written. -/
def Field.annotation (f : Field) : String :=
  if f.optional then f.typeName ++ " | None" else f.typeName

structure Variant where
  name : String
  fields : List Field
  deriving DecidableEq, Repr

/-- The closed type of intents: a sentinel for what was not understood, and the variants. -/
structure SumType where
  name : String
  sentinel : Variant
  variants : List Variant
  deriving DecidableEq, Repr

structure EnumMember where
  name : String
  value : String
  deriving DecidableEq, Repr

structure EnumType where
  name : String
  members : List EnumMember
  deriving DecidableEq, Repr

/-- How the decoder fills a field: from the value under the key, else under an alias. -/
structure Argument where
  field : String
  key : String
  aliases : List String
  enumName : String
  required : Bool
  deriving DecidableEq, Repr

/-- The keys under which a value is looked up, in order. -/
def Argument.lookupKeys (a : Argument) : List String := a.key :: a.aliases

/-- One case of the decoder: an intent's name, its variant and how its fields are filled. -/
structure Case where
  intentName : String
  variant : String
  arguments : List Argument
  deriving DecidableEq, Repr

structure Decoder where
  name : String
  sumType : String
  sentinel : String
  cases : List Case
  deriving DecidableEq, Repr

/-- All that a generated module declares, in the order of its text. -/
structure TypedModule where
  source : Option String
  project : Option String
  sumType : SumType
  enums : List EnumType
  decoder : Decoder
  deriving DecidableEq, Repr

namespace TypedModule

/-- The name of the type of intents. -/
def sumTypeName : String := "Intent"

/-- The name of the variant for what was not understood. -/
def sentinelName : String := "NotUnderstood"

def decoderName : String := "decode"

/-- The names that a module binds, in the order of its text. -/
def names (m : TypedModule) : List String :=
  ["annotations", "builtins", "Mapping", "dataclass", "Enum", "Any", "InferenceError",
    "UnknownIntentKind", "MissingRequiredSlot", "InvalidSlotValue", m.sumType.name,
    m.sumType.sentinel.name] ++ m.sumType.variants.map (·.name) ++ m.enums.map (·.name)
    ++ [m.decoder.name, "from_inference", "_" ++ m.decoder.name, "_optional_slot",
      "_required_slot"]

end TypedModule

namespace Variable

def toField (v : Variable) : Field :=
  { name := v.name, typeName := v.slot.name, optional := !v.required }

/-- A value is reported under the raw name; the escaped one is an alias where it differs. -/
def toArgument (v : Variable) : Argument :=
  { field := v.name
    key := v.rawName
    aliases := if v.name = v.rawName then [] else [v.name]
    enumName := v.slot.name
    required := v.required }

end Variable

namespace Intent

def toVariant (i : Intent) : Variant := ⟨i.name, i.vars.map Variable.toField⟩

def toCase (i : Intent) : Case := ⟨i.name, i.name, i.vars.map Variable.toArgument⟩

end Intent

def Slot.toEnum (s : Slot) : EnumType := ⟨s.name, s.elements.map fun e => ⟨e.name, e.raw⟩⟩

/-- The declarations of a grammar, for a project if one is named. -/
def Grammar.toModule (g : Grammar) (project : Option String) : TypedModule :=
  { source := g.source
    project
    sumType :=
      { name := TypedModule.sumTypeName
        sentinel := ⟨TypedModule.sentinelName, []⟩
        variants := g.intents.map Intent.toVariant }
    enums := g.slots.map Slot.toEnum
    decoder :=
      { name := TypedModule.decoderName
        sumType := TypedModule.sumTypeName
        sentinel := TypedModule.sentinelName
        cases := g.intents.map Intent.toCase } }

end VoiceIntents
