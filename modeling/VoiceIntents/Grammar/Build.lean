import VoiceIntents.Grammar.Basic
import VoiceIntents.Grammar.Error
import VoiceIntents.Identifier

/-!
# Building grammars

From a document value to a grammar. The document maps `context` to a map of `slots`, whose
entries list elements, and `expressions`, whose entries list phrases. The first fault in the
order of declaration is reported: slots first, then intents, then clashes between names.
-/

namespace VoiceIntents.Grammar

abbrev Build := Except BuildError

/-- The document as a whole, as a place for faults. -/
def inSource (source : Option String) : Location := ⟨source, none, none⟩

def inIntent (source : Option String) (intent : String) : Location := ⟨source, some intent, none⟩

def inPhrase (source : Option String) (intent phrase : String) : Location :=
  ⟨source, some intent, some phrase⟩

/-- A step that may be at fault, at its location. -/
def locate {α : Type} (location : Location) : Except Fault α → Build α
  | .ok a => .ok a
  | .error fault => .error (.invalid fault location)

/-- A text, if the value has one. -/
def printed {α : Type} : Except DisplayFault α → Build α
  | .ok a => .ok a
  | .error cause => .error (.unprintable cause)

/-- The map under `context`; null stands for an empty one. -/
def contextEntries (document : Value) : Except Fault (List (Scalar × Value)) :=
  match document with
  | .map entries =>
      match lookup entries "context" with
      | none => .error .noRoot
      | some (.map context) => .ok context
      | some (.scalar .null) => .ok []
      | some _ => .error .contextNotMap
  | _ => .error .noRoot

/-- Nulls, lists and maps are no plain values. -/
def isPlain : Value → Bool
  | .scalar .null | .list _ | .map _ | .again .list _ | .again .map _ => false
  | _ => true

/-- The text of a plain value. -/
def plainText (location : Location) (owner : Owner) (item : Value) : Build String := do
  if isPlain item then printed item.display
  else
    let shown ← printed item.inspect
    throw (.invalid (.notPlain owner shown) location)

/-- A list of plain values as texts; null stands for an empty list. -/
def plainTexts (location : Location) (owner : Owner) : Value → Build (List String)
  | .scalar .null => return []
  | .list items => items.mapM (plainText location owner)
  | _ => throw (.invalid (.notList owner) location)

/-- One more element of a slot, after those before it. -/
def readElement (slot : String) (before : List Element) (raw : String) : Except Fault Element :=
  let name := Identifier.escape raw
  match Identifier.problem? name with
  | some problem => .error (.badElement slot name problem)
  | none =>
      if Identifier.refusedMembers.contains name then .error (.refusedElement slot name)
      else if before.any (·.name = name) then .error (.repeatedElement slot name)
      else .ok ⟨name, raw⟩

def readElements (slot : String) : List Element → List String → Except Fault (List Element)
  | before, [] => .ok before
  | before, raw :: rest => do
      let element ← readElement slot before raw
      readElements slot (before ++ [element]) rest

/-- One more slot, after those before it. -/
def readSlot (location : Location) (before : List Slot) (key : Scalar) (entry : Value) :
    Build Slot := do
  let name := Identifier.escape (← printed key.display)
  match Identifier.problem? name with
  | some problem => throw (.invalid (.badSlot name problem) location)
  | none =>
      if before.any (·.name = name) then throw (.invalid (.repeatedSlot name) location)
      let words ← plainTexts location (.slot name) entry
      return ⟨name, ← locate location (readElements name [] words)⟩

def readSlots (location : Location) : List Slot → List (Scalar × Value) → Build (List Slot)
  | before, [] => return before
  | before, (key, entry) :: rest => do
      let slot ← readSlot location before key entry
      readSlots location (before ++ [slot]) rest

/-- The slots of a context. -/
def slotsOf (location : Location) : Option Value → Build (List Slot)
  | none | some (.scalar .null) => return []
  | some (.map entries) => readSlots location [] entries
  | some _ => throw (.invalid .slotsNotMap location)

/-- A variable that a phrase binds: its identifier, its name as written and its slot. -/
structure Binding where
  name : String
  rawName : String
  slot : Slot
  deriving DecidableEq, Repr

/-- The binding of one reference, after those of the same phrase before it. -/
def bind (slots : List Slot) (before : List Binding) (r : Reference) : Except Fault Binding :=
  let name := Identifier.escape r.name
  if before.any (·.name = name) then .error (.repeatedVariable r.name)
  else
    match slots.find? (·.name = Identifier.escape r.slot) with
    | none => .error (.unknownSlot r.name r.slot)
    | some slot =>
        match Identifier.problem? name with
        | some problem => .error (.badVariable name problem)
        | none => .ok ⟨name, r.name, slot⟩

def bindAll (slots : List Slot) : List Binding → List Reference → Except Fault (List Binding)
  | before, [] => .ok before
  | before, r :: rest => do
      let binding ← bind slots before r
      bindAll slots (before ++ [binding]) rest

/-- The variables that a phrase binds, in order. -/
def bindings (slots : List Slot) (phrase : String) : Except Fault (List Binding) :=
  bindAll slots [] (references phrase)

/-- The first binding of a variable counts; a later one must agree on the slot. -/
def merge (known : List Binding) (binding : Binding) : Except Fault (List Binding) :=
  match known.find? (·.name = binding.name) with
  | none => .ok (known ++ [binding])
  | some first =>
      if first.slot.name = binding.slot.name then .ok known
      else .error (.slotMismatch binding.name binding.slot.name first.slot.name)

def mergeAll : List Binding → List Binding → Except Fault (List Binding)
  | known, [] => .ok known
  | known, binding :: rest => do mergeAll (← merge known binding) rest

/-- The variables of an intent, over phrases with their bindings. -/
def unite (locationOf : String → Location) :
    List Binding → List (String × List Binding) → Build (List Binding)
  | known, [] => return known
  | known, (phrase, bound) :: rest => do
      let known ← locate (locationOf phrase) (mergeAll known bound)
      unite locationOf known rest

/-- Every phrase binds the variable. -/
def inAll (bound : List (List Binding)) (name : String) : Bool :=
  bound.all fun bindings => bindings.any (·.name = name)

def readIntent (source : Option String) (slots : List Slot) (key : Scalar) (entry : Value) :
    Build Intent := do
  let name ← printed key.display
  let location := inIntent source name
  match Identifier.problem? name with
  | some problem => throw (.invalid (.badIntent name problem) location)
  | none =>
      let phrases ← plainTexts location (.intent name) entry
      if phrases.isEmpty then throw (.invalid (.noPhrases name) location)
      let bound ← phrases.mapM fun phrase =>
        locate (inPhrase source name phrase) (bindings slots phrase)
      let united ← unite (inPhrase source name) [] (phrases.zip bound)
      let vars := united.map fun b =>
        { name := b.name, rawName := b.rawName, slot := b.slot, required := inAll bound b.name }
      return ⟨name, vars, phrases⟩

/-- The entries under `expressions`, of which there is at least one. -/
def expressionEntries : Option Value → Except Fault (List (Scalar × Value))
  | none => .error .noExpressions
  | some v =>
      if v.isEmpty then .error .noExpressions
      else
        match v with
        | .map entries => .ok entries
        | _ => .error .expressionsNotMap

/-- Slots and intents share one set of names with the generated module. -/
def checkSlotName (location : Location) (slot : Slot) : Build Unit :=
  if Identifier.moduleNames.contains slot.name then
    throw (.invalid (.slotShadowsModule slot.name) location)
  else return

def checkIntentName (source : Option String) (slots : List Slot) (intent : Intent) : Build Unit :=
  let location := inIntent source intent.name
  if Identifier.moduleNames.contains intent.name then
    throw (.invalid (.intentShadowsModule intent.name) location)
  else if slots.any (·.name = intent.name) then
    throw (.invalid (.intentIsSlot intent.name) location)
  else return

/-- The grammar that a document declares. -/
def ofValue (source : Option String) (document : Value) : Build Grammar := do
  let location := inSource source
  let context ← locate location (contextEntries document)
  let slots ← slotsOf location (lookup context "slots")
  let entries ← locate location (expressionEntries (lookup context "expressions"))
  let intents ← entries.mapM fun entry => readIntent source slots entry.1 entry.2
  slots.forM (checkSlotName location)
  intents.forM (checkIntentName source slots)
  return ⟨intents, slots, source⟩

end VoiceIntents.Grammar
