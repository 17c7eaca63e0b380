namespace PlanarExpr.Text

/-!
# Slices and lines of a text

A slice is given by two offsets that count characters. An offset below zero
counts from the end of the text, and an offset outside the text is moved to
its nearer end.

Two notions of line live side by side. Positions in a document count line
feeds only, so a document is cut by `feedLines`. The line shown below a
diagnostic comes from `displayLines`, which ends a line at every character
that ends a line on a display, and takes a carriage return followed by a line
feed for one break.
-/

/-! ## Slices -/

/-- The place in a text of the given length that an offset names. -/
def clampOffset
    (length : Nat)
    (offset : Int) :
    Nat :=
  if offset < 0 then (offset + length).toNat else min offset.toNat length

/-- The characters from one offset up to, and without, another. -/
def slice
    (text : List Char)
    (start stop : Int) :
    List Char :=
  let first := clampOffset text.length start
  let last := clampOffset text.length stop
  (text.drop first).take (last - first)

/-! ## Lines -/

/-- The pieces of a text between its line feeds; there is always at least one. -/
def feedLines : List Char → List (List Char)
  | [] => [[]]
  | c :: rest =>
      if c = '\n' then
        [] :: feedLines rest
      else
        match feedLines rest with
        | [] => [[c]]
        | line :: later => (c :: line) :: later

/-- Whether a character ends a displayed line. -/
def isLineBreak (c : Char) : Bool :=
  (0x0A ≤ c.toNat && c.toNat ≤ 0x0D) || (0x1C ≤ c.toNat && c.toNat ≤ 0x1E) ||
    c.toNat == 0x85 || c.toNat == 0x2028 || c.toNat == 0x2029

/--
The displayed lines of a text, given the characters of the current line read
so far, last one first. A break at the very end opens no further line.
-/
def displayLinesFrom
    (current : List Char) :
    List Char →
    List (List Char)
  | [] => if current.isEmpty then [] else [current.reverse]
  | '\r' :: '\n' :: rest => current.reverse :: displayLinesFrom [] rest
  | c :: rest =>
      if isLineBreak c then
        current.reverse :: displayLinesFrom [] rest
      else
        displayLinesFrom (c :: current) rest

/-- The lines of a text as a display shows them. -/
def displayLines (text : List Char) : List (List Char) :=
  displayLinesFrom [] text

/-- The displayed line with the given number, counted from one. -/
def displayLine?
    (text : List Char)
    (number : Nat) :
    Option (List Char) :=
  if number = 0 then none else (displayLines text)[number - 1]?

/-- A text always has a first piece before its first line feed. -/
theorem feedLines_ne_nil (text : List Char) : feedLines text ≠ [] := by
  cases text with
  | nil =>
      simp [feedLines]
  | cons c rest =>
      unfold feedLines
      split
      · simp
      · split <;> simp

end PlanarExpr.Text
