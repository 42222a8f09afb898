import VoiceIntents.Proofs.Delimited

/-!
# Free text in a docstring

The docstring of a module names its source and its project, which may be any texts. The docstring
is read here as any triple-quoted literal is, piece by piece up to the first three quotes of which
none stands behind a backslash. Whatever the names are, the literal ends at the quotes that the
module puts there, every piece of the module's own text stays a piece of its own, and the pieces of
the names stand for their characters.
-/

namespace VoiceIntents

namespace Text.Docstring

/-- A character as it is written in a literal: by itself or behind a backslash. -/
inductive Piece where
  | plain (c : Char)
  | escaped (c : Char)
  deriving DecidableEq, Repr

/-- A quote that counts towards the end of a literal. -/
def quotePiece : Piece := .plain '"'

namespace Piece

def text : Piece → List Char
  | .plain c => [c]
  | .escaped c => ['\\', c]

/-- The character that a piece stands for. Behind a backslash these are the backslash and the
quote; other escapes have meanings that are of no use here. -/
def value? : Piece → Option Char
  | .plain c => some c
  | .escaped c => if c = '\\' ∨ c = '"' then some c else none

end Piece

/-- The pieces that are read and the text behind the closing quotes, with more pieces in front. -/
def inFront (pieces : List Piece) (found : Option (List Piece × List Char)) :
    Option (List Piece × List Char) :=
  found.map fun r => (pieces ++ r.1, r.2)

/-- Reads a literal behind its opening quotes. The first three quotes in a row that are no escapes
end it; a text that stops before is no literal. -/
def readLiteral : List Char → Option (List Piece × List Char)
  | '"' :: '"' :: '"' :: rest => some ([], rest)
  | '\\' :: c :: rest => inFront [.escaped c] (readLiteral rest)
  | c :: rest => if c = '\\' then none else inFront [.plain c] (readLiteral rest)
  | [] => none

/-- Reads the literal that a text begins with. -/
def readDocstring : List Char → Option (List Piece × List Char)
  | '"' :: '"' :: '"' :: body => readLiteral body
  | _ => none

/-- The pieces of a text that is set in a docstring. -/
def pieces : List Char → List Piece
  | '"' :: '"' :: '"' :: rest => .escaped '"' :: .escaped '"' :: .escaped '"' :: pieces rest
  | c :: rest => (if c = '\\' then .escaped c else .plain c) :: pieces rest
  | [] => []

section Reading
variable {text rest : List Char} {found : Option (List Piece × List Char)} {ps qs : List Piece}

@[simp] theorem inFront_nil : inFront [] found = found := by
  cases found <;> rfl

theorem inFront_inFront : inFront ps (inFront qs found) = inFront (ps ++ qs) found := by
  cases found with
  | none => rfl
  | some r => simp [inFront]

theorem inFront_eq_some_iff :
    inFront ps found = some (qs, rest) ↔
      ∃ more, found = some (more, rest) ∧ qs = ps ++ more := by
  cases found with
  | none => simp [inFront]
  | some r => simp [inFront, Prod.ext_iff, eq_comm, and_comm]

theorem readLiteral_cons {c : Char} (hbackslash : c ≠ '\\')
    (hquotes : c = '"' → ¬['"', '"'] <+: rest) :
    readLiteral (c :: rest) = inFront [.plain c] (readLiteral rest) := by
  rw [readLiteral.eq_def]
  split
  · next heq =>
      obtain ⟨rfl, rfl⟩ := List.cons.inj heq
      exact absurd (List.prefix_append ['"', '"'] _) (hquotes rfl)
  · next heq => simp_all
  · next heq =>
      obtain ⟨rfl, rfl⟩ := List.cons.inj heq
      rw [if_neg hbackslash]
  · next heq => cases heq

/-- Text without quotes and backslashes is read as it is. -/
theorem readLiteral_plain (h : ∀ c ∈ text, c ≠ '\\' ∧ c ≠ '"') (rest : List Char) :
    readLiteral (text ++ rest) = inFront (text.map .plain) (readLiteral rest) := by
  induction text with
  | nil => simp
  | cons c text ih =>
      obtain ⟨⟨hbackslash, hquote⟩, htext⟩ := List.forall_mem_cons.mp h
      rw [List.cons_append, readLiteral_cons hbackslash fun hc => absurd hc hquote, ih htext,
        inFront_inFront, List.map_cons, List.singleton_append]

/-- A text that is set in a docstring is read as its pieces, up to the character behind it. -/
theorem readLiteral_encode (text rest : List Char) :
    readLiteral (encode text ++ '\'' :: rest) =
      inFront (pieces text) (readLiteral ('\'' :: rest)) := by
  fun_induction encode text with
  | case1 text ih =>
      rw [pieces]
      change inFront _ (inFront _ (inFront _ (readLiteral (encode text ++ '\'' :: rest)))) = _
      rw [ih, inFront_inFront, inFront_inFront, inFront_inFront]
      rfl
  | case2 text hquotes ih =>
      rw [pieces.eq_2 _ _ hquotes, if_pos rfl]
      change inFront _ (readLiteral (encode text ++ '\'' :: rest)) = _
      rw [ih, inFront_inFront]
      rfl
  | case3 c text hquotes hbackslash ih =>
      rw [pieces.eq_2 _ _ hquotes, if_neg hbackslash, List.cons_append,
        readLiteral_cons hbackslash, ih, inFront_inFront]
      · rfl
      · intro hc hfront
        obtain ⟨more, rfl⟩ := quotes_of_encode hfront
        exact hquotes more hc rfl
  | case4 => simp [pieces]

/-- The pieces of a text stand for its characters. -/
theorem mapM_value_pieces (text : List Char) : (pieces text).mapM Piece.value? = some text := by
  fun_induction pieces text with
  | case1 text ih => simp [Piece.value?, ih]
  | case2 c text hquotes ih =>
      by_cases hc : c = '\\'
      · simp [hc, Piece.value?, ih]
      · simp [hc, Piece.value?, ih]
  | case3 => rfl

end Reading

section Literals
variable {text rest : List Char} {ps : List Piece}

/-- What is read is the text of the pieces, then the closing quotes, then the rest. -/
theorem eq_of_readLiteral (h : readLiteral text = some (ps, rest)) :
    text = ps.flatMap Piece.text ++ '"' :: '"' :: '"' :: rest := by
  fun_induction readLiteral text generalizing ps with
  | case1 after =>
      cases h
      rfl
  | case2 c after ih =>
      obtain ⟨more, hmore, rfl⟩ := inFront_eq_some_iff.mp h
      rw [ih hmore]
      rfl
  | case3 after => cases h
  | case4 c after hquotes hescape hbackslash ih =>
      obtain ⟨more, hmore, rfl⟩ := inFront_eq_some_iff.mp h
      rw [ih hmore]
      rfl
  | case5 => cases h

/-- A literal whose pieces and closing quotes begin with two quotes does so in its text. -/
theorem quotes_prefix_of_readLiteral (h : readLiteral text = some (ps, rest))
    (hfront : [quotePiece, quotePiece] <+: ps ++ [quotePiece, quotePiece]) :
    ['"', '"'] <+: text := by
  obtain ⟨later, hlater⟩ := hfront
  have htext : ['"', '"'] ++ later.flatMap Piece.text = ps.flatMap Piece.text ++ ['"', '"'] := by
    simpa [quotePiece, Piece.text] using congrArg (List.flatMap Piece.text) hlater
  refine ⟨later.flatMap Piece.text ++ '"' :: rest, ?_⟩
  rw [eq_of_readLiteral h, ← List.append_assoc, htext, List.append_assoc]
  rfl

/-- There are no three quotes in a row among the pieces of a literal, nor do the quotes at the end
of the pieces make three with the first two of those that close it. -/
theorem quotes_not_infix_of_readLiteral (h : readLiteral text = some (ps, rest)) :
    ¬[quotePiece, quotePiece, quotePiece] <:+: ps ++ [quotePiece, quotePiece] := by
  fun_induction readLiteral text generalizing ps with
  | case1 after =>
      cases h
      decide
  | case2 c after ih =>
      obtain ⟨more, hmore, rfl⟩ := inFront_eq_some_iff.mp h
      rw [List.append_assoc, List.singleton_append, List.infix_cons_iff]
      rintro (hfront | hlater)
      · exact absurd (List.cons_prefix_cons.mp hfront).1 (by simp [quotePiece])
      · exact ih hmore hlater
  | case3 after => cases h
  | case4 c after hquotes hescape hbackslash ih =>
      obtain ⟨more, hmore, rfl⟩ := inFront_eq_some_iff.mp h
      rw [List.append_assoc, List.singleton_append, List.infix_cons_iff]
      rintro (hfront | hlater)
      · -- The text would go on with two quotes, and the literal would have ended here.
        obtain ⟨hc, hmoreFront⟩ := List.cons_prefix_cons.mp hfront
        obtain ⟨later, hlater⟩ := quotes_prefix_of_readLiteral hmore hmoreFront
        exact hquotes later (Piece.plain.inj hc).symm hlater.symm
      · exact ih hmore hlater
  | case5 => cases h

/-- The text behind a literal is what stands after its end. -/
theorem afterEnd_of_readLiteral (h : readLiteral text = some (ps, rest)) :
    afterEnd text = rest := by
  fun_induction readLiteral text generalizing ps with
  | case1 after =>
      cases h
      rfl
  | case2 c after ih =>
      obtain ⟨more, hmore, _⟩ := inFront_eq_some_iff.mp h
      exact ih hmore
  | case3 after => cases h
  | case4 c after hquotes hescape hbackslash ih =>
      obtain ⟨more, hmore, _⟩ := inFront_eq_some_iff.mp h
      rw [afterEnd_cons hbackslash, ih hmore]
      rintro hc ⟨later, hlater⟩
      exact hquotes later hc hlater.symm
  | case5 => cases h

theorem exists_of_readDocstring (h : readDocstring text = some (ps, rest)) :
    ∃ body, text = '"' :: '"' :: '"' :: body ∧ readLiteral body = some (ps, rest) := by
  rw [readDocstring.eq_def] at h
  split at h
  · next body => exact ⟨body, rfl, h⟩
  · cases h

end Literals

end Text.Docstring

namespace TypedModule
open Text.Docstring

/-- Pieces of a text that is written as it is. -/
def plainPieces (text : String) : List Piece := text.toList.map .plain

/-- The pieces of a name in the heading, with its label and between single quotes. There are none
if the name is absent or empty. -/
def namePieces (label : String) (name : Option String) (inserted : List Piece) : List Piece :=
  if name.getD "" = "" then []
  else plainPieces label ++ plainPieces "'" ++ inserted ++ plainPieces "'"

/-- The pieces of the docstring of a module, with those of its source and of its project. All
other pieces are the same for every module. -/
def docstringPieces (m : TypedModule) (source project : List Piece) : List Piece :=
  plainPieces "\nTyped intents for the Rhino context" ++ namePieces " " m.source source
    ++ namePieces " of project " m.project project
    ++ plainPieces
      ".\n\nTurn inference results into intents with decode() or from_inference().\n"

theorem headingPart_eq_empty {label : String} {name : Option String} (h : name.getD "" = "") :
    headingPart label name = "" := by
  cases name with
  | none => rfl
  | some text =>
      rw [show text = "" from h]
      rfl

theorem toList_headingPart_of_ne {label : String} {name : Option String}
    (h : name.getD "" ≠ "") :
    (headingPart label name).toList =
      label.toList ++ '\'' :: (encode (name.getD "").toList ++ ['\'']) := by
  cases name with
  | none => exact absurd rfl h
  | some text => simp_all [headingPart, Option.filter, Text.docstring]

theorem readLiteral_headingPart {label : String}
    (hlabel : ∀ c ∈ label.toList, c ≠ '\\' ∧ c ≠ '"') (name : Option String) (rest : List Char) :
    readLiteral ((headingPart label name).toList ++ rest) =
      inFront (namePieces label name (pieces (name.getD "").toList)) (readLiteral rest) := by
  by_cases hname : name.getD "" = ""
  · rw [headingPart_eq_empty hname, namePieces, if_pos hname, inFront_nil]
    rfl
  · rw [toList_headingPart_of_ne hname, namePieces, if_neg hname, List.append_assoc,
      readLiteral_plain hlabel, List.cons_append, readLiteral_cons (by decide) (by simp),
      List.append_assoc, List.singleton_append, readLiteral_encode,
      readLiteral_cons (by decide) (by simp)]
    simp only [inFront_inFront, plainPieces, List.append_assoc]
    rfl

theorem readDocstring_render (m : TypedModule) :
    readDocstring m.render.toList =
      some (m.docstringPieces (pieces (m.source.getD "").toList)
        (pieces (m.project.getD "").toList), '\n' :: m.code.toList) := by
  have hstart : headingStart.toList =
      '"' :: '"' :: '"' :: "\nTyped intents for the Rhino context".toList := by decide
  have hend : headingEnd =
      ".\n\nTurn inference results into intents with decode() or from_inference().\n"
        ++ "\"\"\"\n" := by decide
  rw [render_eq_heading_append_code, heading, hend]
  generalize m.code = code
  simp only [String.toList_append, List.append_assoc, List.cons_append, hstart]
  rw [readDocstring, readLiteral_plain (by simp), readLiteral_headingPart (by simp),
    readLiteral_headingPart (by simp), readLiteral_plain (by simp)]
  change inFront _ (inFront _ (inFront _ (inFront _ (some ([], '\n' :: code.toList))))) = _
  simp only [inFront_inFront, docstringPieces, plainPieces, List.append_assoc]
  simp [inFront]

/-- The docstring of a module ends where it is meant to, whatever names it holds. -/
theorem exists_toList_render (m : TypedModule) :
    ∃ body, m.render.toList = '"' :: '"' :: '"' :: body ∧
    afterEnd body = '\n' :: m.code.toList := by
  obtain ⟨body, hrender, hbody⟩ := exists_of_readDocstring (readDocstring_render m)
  exact ⟨body, hrender, afterEnd_of_readLiteral hbody⟩

/-- Whatever names a module has, its docstring is read as the module's own text with the pieces of
the names in their places, it ends at the quotes that the module closes it with, and the names can
be read off their pieces. No quotes in it come in threes, and the text behind it is that of the
module without its names. -/
theorem docstring_contained (m : TypedModule) :
    ∃ source project : List Piece,
      readDocstring m.render.toList =
          some (m.docstringPieces source project, '\n' :: m.code.toList) ∧
        readDocstring { m with source := none, project := none }.render.toList =
          some ({ m with source := none, project := none }.docstringPieces [] [],
            '\n' :: m.code.toList) ∧
        source.mapM Piece.value? = some (m.source.getD "").toList ∧
        project.mapM Piece.value? = some (m.project.getD "").toList ∧
        m.render.toList =
          "\"\"\"".toList ++ (m.docstringPieces source project).flatMap Piece.text
            ++ "\"\"\"\n".toList ++ m.code.toList ∧
        ¬[quotePiece, quotePiece, quotePiece] <:+:
          m.docstringPieces source project ++ [quotePiece, quotePiece] := by
  have hread := readDocstring_render m
  obtain ⟨body, hrender, hbody⟩ := exists_of_readDocstring hread
  refine ⟨_, _, hread, readDocstring_render { m with source := none, project := none },
    mapM_value_pieces _, mapM_value_pieces _, ?_, quotes_not_infix_of_readLiteral hbody⟩
  rw [hrender, eq_of_readLiteral hbody]
  simp

end TypedModule

end VoiceIntents
