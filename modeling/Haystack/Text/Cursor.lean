/-
  This file defines a place in a text: what is left to read,
  and the line that the place is on.

  Key definitions include:
    * `Cursor`
    * `Cursor.ofText`
    * `Cursor.current?`
    * `Cursor.next?`
    * `Cursor.atEnd`
    * `Cursor.advance`
    * `Cursor.skip`
-/

namespace Haystack

/-
  A cursor stands before the characters `rest`. Its line is
  one more than the number of newlines behind it.
-/
structure Cursor where
  rest : List Char
  line : Nat
deriving DecidableEq, Repr

namespace Cursor

/- The start of a text is on line one. -/
def ofText (text : String) : Cursor :=
  ⟨text.toList, 1⟩

/- The character to read, absent at the end. -/
def current? (c : Cursor) : Option Char :=
  c.rest.head?

/- The character after the one to read. -/
def next? (c : Cursor) : Option Char :=
  c.rest.tail.head?

/- Nothing is left to read. -/
def atEnd (c : Cursor) : Bool :=
  c.rest.isEmpty

/- Step over `taken`, which must be the next characters. -/
def skip
    (c : Cursor)
    (taken : List Char) : Cursor :=
  ⟨c.rest.drop taken.length, c.line + taken.count '\n'⟩

/- Step over one character; at the end, stay. -/
def advance (c : Cursor) : Cursor :=
  c.skip (c.rest.take 1)

------------------------------------------------------------
-- Reading Through the Fields
------------------------------------------------------------

@[simp]
theorem current?_mk
    (x : Char)
    (xs : List Char)
    (n : Nat) :
    (Cursor.mk (x :: xs) n).current? = some x :=
  rfl

@[simp]
theorem current?_mk_nil (n : Nat) :
    (Cursor.mk [] n).current? = none :=
  rfl

@[simp]
theorem next?_mk
    (x : Char)
    (xs : List Char)
    (n : Nat) :
    (Cursor.mk (x :: xs) n).next? = xs.head? :=
  rfl

@[simp]
theorem advance_mk_nil (n : Nat) :
    (Cursor.mk [] n).advance = ⟨[], n⟩ :=
  rfl

/- Away from newlines a step keeps the line. -/
theorem advance_mk
    {x : Char}
    (hx : x ≠ '\n')
    (xs : List Char)
    (n : Nat) :
    (Cursor.mk (x :: xs) n).advance = ⟨xs, n⟩ := by
  simp [advance, skip, hx]

/- A step over a newline moves to the next line. -/
theorem advance_mk_newline
    (xs : List Char)
    (n : Nat) :
    (Cursor.mk ('\n' :: xs) n).advance = ⟨xs, n + 1⟩ := by
  simp [advance, skip]

end Cursor

end Haystack
