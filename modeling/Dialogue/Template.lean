import Dialogue.Path

/-! # Templates

Texts with placeholders. A placeholder is a pair of braces around at least one character, none of
them a brace. One that cannot be resolved stays as it is, and what is put in for one is not looked
at again. -/

namespace Dialogue.Template

/-- A part of a template. -/
inductive Piece where
  | text (cs : List Char)
  /-- What stands between the braces. -/
  | placeholder (cs : List Char)
deriving DecidableEq, Repr

/-- The piece as it is written. -/
def Piece.source : Piece → List Char
  | .text cs => cs
  | .placeholder cs => '\x7b' :: (cs ++ ['\x7d'])

/-- The pieces of the rest of a template; `opened` holds the characters, last first, behind an
opening brace that may begin a placeholder. -/
def piecesFrom : Option (List Char) → List Char → List Piece
  | none, [] => []
  | some met, [] => [.text ('\x7b' :: met.reverse)]
  | none, c :: cs =>
    if c = '\x7b' then piecesFrom (some []) cs else .text [c] :: piecesFrom none cs
  | some met, c :: cs =>
    if c = '\x7b' then .text ('\x7b' :: met.reverse) :: piecesFrom (some []) cs
    else if c = '\x7d' then
      (if met.isEmpty then Piece.text ['\x7b', '\x7d'] else .placeholder met.reverse) ::
        piecesFrom none cs
    else piecesFrom (some (c :: met)) cs

/-- The pieces of a template. -/
def pieces (cs : List Char) : List Piece := piecesFrom none cs

/-- The piece with its placeholder resolved. -/
def Piece.fill (resolve : String → Option String) : Piece → List Char
  | .text cs => cs
  | .placeholder cs =>
    match resolve (String.ofList (Text.trimChars cs)) with
    | some s => s.toList
    | none => Piece.source (.placeholder cs)

/-- The template with its placeholders resolved. -/
def fill (resolve : String → Option String) (text : String) : String :=
  String.ofList ((pieces text.toList).flatMap (Piece.fill resolve))

/-- The text for a placeholder: the value under its name, or else the value at its path. -/
def resolve (root : Json) (path : String) : Option String :=
  match root.member? path with
  | some v => v.shown?
  | none => (root.lookup? path).bind Json.shown?

/-- The text with values put in for its placeholders. -/
def interpolate (root : Json) (text : String) : String := fill (resolve root) text

mutual

/-- The value with all texts in it filled. -/
def interpolateJson (root : Json) : Json → Json
  | .str s => .str (interpolate root s)
  | .arr items => .arr (interpolateItems root items)
  | .obj fs => .obj (interpolateFields root fs)
  | v => v
termination_by structural v => v

/-- The items with all texts in them filled. -/
def interpolateItems (root : Json) : List Json → List Json
  | [] => []
  | v :: rest => interpolateJson root v :: interpolateItems root rest
termination_by structural v => v

/-- The members with all texts in their values filled. -/
def interpolateFields (root : Json) : List (String × Json) → List (String × Json)
  | [] => []
  | (name, v) :: rest => (name, interpolateJson root v) :: interpolateFields root rest
termination_by structural v => v

end

/-! ### Lemmas -/

/-- Nothing of a template is lost in its pieces. -/
theorem source_piecesFrom (opened : Option (List Char)) (cs : List Char) :
    (piecesFrom opened cs).flatMap Piece.source =
      (opened.elim [] fun met => '\x7b' :: met.reverse) ++ cs := by
  induction cs generalizing opened with
  | nil => cases opened <;> simp [piecesFrom, Piece.source]
  | cons c cs ih =>
    cases opened with
    | none =>
      by_cases h : c = '\x7b' <;> simp [piecesFrom, h, ih, Piece.source]
    | some met =>
      by_cases h : c = '\x7b'
      · simp [piecesFrom, h, ih, Piece.source]
      · by_cases h' : c = '\x7d'
        · cases met <;> simp [piecesFrom, h', ih, Piece.source]
        · simp [piecesFrom, h, h', ih]

end Dialogue.Template
