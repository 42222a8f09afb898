import VoiceIntents.Text.Literal
import VoiceIntents.TypedModule.Basic

/-!
# The text of a module

Renders module declarations as the text of a self-contained Python module: the decoding
errors, the intent classes, an enumeration for each slot, the decoder and its adapter.
-/

namespace VoiceIntents

/-- Lines of a text, each with its line feed. -/
def unlines (lines : List String) : String := String.join (lines.map (· ++ "\n"))

namespace TypedModule

/-- A part of the heading that is left out when its name is absent or empty. -/
def headingPart (label : String) (name : Option String) : String :=
  match name.filter (· ≠ "") with
  | none => ""
  | some name => label ++ "'" ++ Text.docstring name ++ "'"

/-- The first line of the module's docstring, up to the names in it. -/
def headingStart : String := "\"\"\"\nTyped intents for the Rhino context"

/-- What follows the names of the heading, to the end of the docstring. -/
def headingEnd : String :=
  unlines
    [".",
    "",
    "Turn inference results into intents with decode() or from_inference().",
    "\"\"\""]

def heading (m : TypedModule) : String :=
  headingStart ++ headingPart " " m.source ++ headingPart " of project " m.project ++ headingEnd

def importsText : String :=
  unlines
    ["",
    "from __future__ import annotations",
    "",
    "import builtins",
    "from collections.abc import Mapping",
    "from dataclasses import dataclass",
    "from enum import Enum",
    "from typing import Any"]

def errorsText : String :=
  unlines
    ["",
    "",
    "class InferenceError(Exception):",
    "    \"\"\"",
    "    An inference result that does not fit the intents of this module.",
    "",
    "    Make sure the .rhn file is created from the same context as this module.",
    "    \"\"\"",
    "",
    "    def __init__(",
    "        self,",
    "        reason: str,",
    "        intent: str | None = None,",
    "        variable: str | None = None,",
    "        value: str | None = None,",
    "    ) -> None:",
    "        self.reason = reason",
    "        self.intent = intent",
    "        self.variable = variable",
    "        self.value = value",
    "        builtins.super(InferenceError, self).__init__(",
    "            f\"Illegal inference, reason: '\x7breason\x7d'. \"",
    "            \"Make sure the .rhn file is created from the same context as this module.\"",
    "        )",
    "",
    "",
    "class UnknownIntentKind(InferenceError):",
    "    \"\"\"The inferred intent is not declared in the context.\"\"\"",
    "",
    "",
    "class MissingRequiredSlot(InferenceError):",
    "    \"\"\"A variable that every expression binds is missing from the inference.\"\"\"",
    "",
    "",
    "class InvalidSlotValue(InferenceError):",
    "    \"\"\"A slot value is not an element of its slot.\"\"\""]

def baseText (s : SumType) : String :=
  unlines
    ["",
    "",
    "class " ++ s.name ++ ":",
    "    \"\"\"Base class of every intent of this context.\"\"\"",
    "",
    "    __slots__ = ()"]

/-- The head of a variant's class. -/
def classHead (base name : String) : String :=
  unlines ["", "", "@dataclass(frozen=True)", "class " ++ name ++ "(" ++ base ++ "):"]

def sentinelText (s : SumType) : String := classHead s.name s.sentinel.name ++ "    pass\n"

def fieldText (f : Field) : String := "    " ++ f.name ++ ": " ++ f.annotation ++ "\n"

def variantText (base : String) (v : Variant) : String :=
  classHead base v.name
    ++ (if v.fields.isEmpty then "    pass\n" else String.join (v.fields.map fieldText))

def memberText (m : EnumMember) : String :=
  "    " ++ m.name ++ " = " ++ Text.quote m.value ++ "\n"

def enumText (e : EnumType) : String :=
  "\n\nclass " ++ e.name ++ "(Enum):\n"
    ++ (if e.members.isEmpty then "    pass\n" else String.join (e.members.map memberText))

def decoderText (d : Decoder) : String :=
  unlines
    ["",
    "",
    "def " ++ d.name ++ "(",
    "    understood: bool, intent: str, slots: Mapping[str, str]",
    ") -> " ++ d.sumType ++ ":",
    "    \"\"\"",
    "    Decode an inference result into an intent.",
    "",
    "    Args:",
    "        understood: Whether the engine understood the utterance",
    "        intent: Name of the inferred intent",
    "        slots: Slot values by variable name, as written in the context or",
    "            in its escaped spelling",
    "",
    "    Raises:",
    "        UnknownIntentKind: If the intent is not declared in the context",
    "        MissingRequiredSlot: If a required variable has no value",
    "        InvalidSlotValue: If a value is not an element of its slot",
    "    \"\"\"",
    "    return _" ++ d.name ++ "(understood, intent, slots)"]

def adapterText (d : Decoder) : String :=
  unlines
    ["",
    "",
    "def from_inference(inference: Any) -> " ++ d.sumType ++ ":",
    "    \"\"\"Decode a Picovoice inference (is_understood, intent, slots).\"\"\"",
    "    return " ++ d.name ++ "(",
    "        inference.is_understood, inference.intent, inference.slots or \x7b\x7d",
    "    )"]

def argumentText (a : Argument) : String :=
  let reader := if a.required then "_required_slot" else "_optional_slot"
  "                " ++ a.field ++ "=" ++ reader ++ "(_slots, _intent, " ++ a.enumName ++ ", "
    ++ ", ".intercalate (a.lookupKeys.map Text.quote) ++ "),\n"

def caseText (c : Case) : String :=
  "        case " ++ Text.quote c.intentName ++ ":\n            return " ++ c.variant ++ "("
    ++ (if c.arguments.isEmpty then ")\n"
        else "\n" ++ String.join (c.arguments.map argumentText) ++ "            )\n")

/-- The decoder's body before its cases. -/
def matchStart (d : Decoder) : String :=
  unlines
    ["",
    "",
    "# Intents and slots are module-level names; only underscore names may be local here.",
    "def _" ++ d.name ++ "(",
    "    _understood: bool, _intent: str, _slots: Mapping[str, str]",
    ") -> " ++ d.sumType ++ ":",
    "    if not _understood:",
    "        return " ++ d.sentinel ++ "()",
    "    match _intent:"]

def matchEnd : String :=
  unlines
    ["        case _:",
    "            raise UnknownIntentKind(",
    "                f\"Intent \x7b_intent\x7d is not a legal intent kind\", intent=_intent",
    "            )"]

def readersText : String :=
  unlines
    ["",
    "",
    "def _optional_slot(",
    "    slots: Mapping[str, str], intent: str, slot_type: Any, variable: str, *aliases: str",
    ") -> Any:",
    "    for key in (variable, *aliases):",
    "        raw = slots.get(key)",
    "        if raw is not None:",
    "            break",
    "    else:",
    "        return None",
    "    try:",
    "        return slot_type(raw)",
    "    except builtins.ValueError:",
    "        raise InvalidSlotValue(",
    "            f\"Slot \x7bslot_type.__name__\x7d does not have element \x7braw\x7d \"",
    "            f\"given for variable \x7bvariable\x7d\",",
    "            intent=intent,",
    "            variable=variable,",
    "            value=raw,",
    "        ) from None",
    "",
    "",
    "def _required_slot(",
    "    slots: Mapping[str, str], intent: str, slot_type: Any, variable: str, *aliases: str",
    ") -> Any:",
    "    value = _optional_slot(slots, intent, slot_type, variable, *aliases)",
    "    if value is None:",
    "        raise MissingRequiredSlot(",
    "            f\"Variable \x7bvariable\x7d is required by all expressions, but is not present\",",
    "            intent=intent,",
    "            variable=variable,",
    "        )",
    "    return value"]

/-- The text of a module. -/
def render (m : TypedModule) : String :=
  m.heading ++ importsText ++ errorsText ++ baseText m.sumType ++ sentinelText m.sumType
    ++ String.join (m.sumType.variants.map (variantText m.sumType.name))
    ++ String.join (m.enums.map enumText)
    ++ decoderText m.decoder ++ adapterText m.decoder
    ++ matchStart m.decoder ++ String.join (m.decoder.cases.map caseText) ++ matchEnd
    ++ readersText

end TypedModule

/-- Why no text is written. -/
inductive EmitError where
  | noModule
  deriving DecidableEq, Repr

def EmitError.message : EmitError → String
  | .noModule => "Rendering the intents module failed: 'None' has no attribute 'source'"

/-- The text of declarations that may be absent. -/
def emit : Option TypedModule → Except EmitError String
  | none => .error .noModule
  | some m => .ok m.render

end VoiceIntents
