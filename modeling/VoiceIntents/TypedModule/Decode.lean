import VoiceIntents.Host
import VoiceIntents.Identifier
import VoiceIntents.TypedModule.Render
import VoiceIntents.Value.Display

/-!
# Decoding inferences

The decoder that a module declares, as a function: from an inference, which tells whether an
utterance was understood, its intent and the values of its slots, to an intent of the module.
Inferences come from outside, so their parts may be any values. Names are those that the host
takes the names of the text for. A module decodes nothing unless it loads: its text must be
readable, its classes must be ones that can be declared, and no declaration may take the name of
another.
-/

namespace VoiceIntents

variable [Host]

/-- Whether a class can be declared for a variant. A field whose name every class has already
counts as one with a default, and no field without a default comes after it. -/
def Variant.isDeclarable (v : Variant) : Bool :=
  let named (f : Field) : Bool := Identifier.classNames.contains (Host.fold f.name)
  (v.fields.dropWhile fun f => !named f).all named

/-- Whether a class can be declared for an enumeration: no two members have one name, and none
has a name that is refused. -/
def EnumType.isDeclarable (e : EnumType) : Bool :=
  let names := e.members.map fun member => Host.fold member.name
  names.Nodup && names.all fun name => !Identifier.refusedMembers.contains name

namespace TypedModule

/-- Whether the text of a module can be read and its classes can be declared. -/
def isImportable (m : TypedModule) : Bool :=
  (m.sumType.sentinel :: m.sumType.variants).all Variant.isDeclarable
    && m.enums.all EnumType.isDeclarable && !m.render.toList.contains '\x00'

/-- Whether a module loads as it is declared: besides, every name keeps its declaration. -/
def loads (m : TypedModule) : Bool := m.isImportable && (m.names.map Host.fold).Nodup

end TypedModule

/-- A member of an enumeration. -/
structure EnumValue where
  enumName : String
  member : String
  value : String
  deriving DecidableEq, Repr

/-- An intent of a module: its variant and the values of its fields, in order. -/
structure TypedIntent where
  variant : String
  fields : List (String × Option EnumValue)
  deriving DecidableEq, Repr

/-- Why an inference is not decoded. The first three are errors of the module; in the others
the slots are no map, an enumeration is not declared or has no members to ask for, the variant
does not have the fields of the case, or a value has no text. -/
inductive DecodeError where
  | unknownIntent (intent : Value)
  | missingSlot (intent : Value) (key : String)
  | invalidValue (intent : Value) (enumName key : String) (given : Value)
  | slotsNotMap
  | undeclared
  | noMembers
  | wrongFields
  | unprintable (cause : DisplayFault)

namespace DecodeError

/-- What an error of the module says is wrong. -/
def reason : DecodeError → Except DisplayFault String
  | .unknownIntent intent => do
      return "Intent " ++ (← intent.display) ++ " is not a legal intent kind"
  | .missingSlot _ key =>
      return "Variable " ++ key ++ " is required by all expressions, but is not present"
  | .invalidValue _ enumName key given => do
      return "Slot " ++ enumName ++ " does not have element " ++ (← given.display)
        ++ " given for variable " ++ key
  | .unprintable cause => throw cause
  | .slotsNotMap | .undeclared | .noMembers | .wrongFields => return ""

/-- The message of an error with the given reason. -/
def message (reason : String) : String :=
  "Illegal inference, reason: '" ++ reason
    ++ "'. Make sure the .rhn file is created from the same context as this module."

/-- An error of the module needs the text of the values that it names. -/
def raise {α : Type} (e : DecodeError) : Except DecodeError α :=
  match e.reason with
  | .ok _ => .error e
  | .error cause => .error (.unprintable cause)

end DecodeError

/-- The member of an enumeration with a value. -/
def EnumType.member? (e : EnumType) : Value → Option EnumValue
  | .scalar (.text word) =>
      (e.members.find? (·.value = word)).map fun member =>
        ⟨Host.fold e.name, Host.fold member.name, member.value⟩
  | _ => none

namespace TypedModule

/-- The value under the first of some keys that has one other than null. -/
def firstValue (slots : List (Scalar × Value)) (keys : List String) : Option Value :=
  keys.findSome? fun key =>
    match lookup slots key with
    | none | some (.scalar .null) => none
    | some v => some v

/-- An enumeration by its name. Of two declarations of one name the later counts. -/
def enum? (m : TypedModule) (name : String) : Option EnumType :=
  m.enums.reverse.find? fun e => Host.fold e.name = Host.fold name

/-- The member that a value stands for, which is asked of the enumeration of an argument. -/
def readMember (m : TypedModule) (intent : Value) (a : Argument) (given : Value) :
    Except DecodeError EnumValue :=
  match m.enum? a.enumName with
  | none => .error .undeclared
  | some e =>
      if e.members.isEmpty && !Host.asksEmptyEnums then .error .noMembers
      else
        match e.member? given with
        | some v => .ok v
        | none => DecodeError.raise (.invalidValue intent (Host.fold e.name) a.key given)

/-- The value of one field. -/
def readArgument (m : TypedModule) (intent slots : Value) (a : Argument) :
    Except DecodeError (Option EnumValue) :=
  match slots with
  | .map entries =>
      match firstValue entries a.lookupKeys with
      | none => if a.required then .error (.missingSlot intent a.key) else .ok none
      | some given => (m.readMember intent a given).map some
  | _ => .error .slotsNotMap

/-- The values of the fields of a case; the first that fails is the error. -/
def readArguments (m : TypedModule) (intent slots : Value) :
    List Argument → Except DecodeError (List (String × Option EnumValue))
  | [] => .ok []
  | a :: rest => do
      let v ← m.readArgument intent slots a
      return (Host.fold a.field, v) :: (← m.readArguments intent slots rest)

/-- A variant by its name. Of two declarations of one name the later counts, and enumerations
are declared after the variants. -/
def variant? (m : TypedModule) (name : String) : Option Variant :=
  if (m.enum? name).isSome then none
  else
    (m.sumType.sentinel :: m.sumType.variants).reverse.find? fun v =>
      Host.fold v.name = Host.fold name

/-- An intent of a variant, which sets exactly the fields of the variant. -/
def construct (m : TypedModule) (name : String) (given : List (String × Option EnumValue)) :
    Except DecodeError TypedIntent :=
  match m.variant? name with
  | none => .error .wrongFields
  | some v =>
      if v.fields.length = given.length then
        let names := v.fields.map fun f => Host.fold f.name
        match names.mapM fun name => (given.lookup name).map fun value => (name, value) with
        | some fields => .ok ⟨Host.fold v.name, fields⟩
        | none => .error .wrongFields
      else .error .wrongFields

/-- The case of an intent. -/
def case? (m : TypedModule) : Value → Option Case
  | .scalar (.text name) => m.decoder.cases.find? (·.intentName = name)
  | _ => none

/-- Decodes an inference by its parts. -/
def decode (m : TypedModule) (understood intent slots : Value) : Except DecodeError TypedIntent :=
  if understood.isEmpty then m.construct m.decoder.sentinel []
  else
    match m.case? intent with
    | none => DecodeError.raise (.unknownIntent intent)
    | some c => do m.construct c.variant (← m.readArguments intent slots c.arguments)

/-- Decodes an inference whose slots may be absent. -/
def fromInference (m : TypedModule) (understood intent slots : Value) :
    Except DecodeError TypedIntent :=
  m.decode understood intent (if slots.isEmpty then .map [] else slots)

end TypedModule

end VoiceIntents
