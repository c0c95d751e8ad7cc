/-!
# Characters of a TOML document

Which characters may stand where, and the small readers that everything else is
made of. A reader takes the characters that are left and yields what it read
together with what follows it, or `none` where the text is not what it reads.
-/

namespace Interception

namespace Toml

/-- The quotation mark of literal strings. -/
def apostrophe : Char :=
  '\x27'

/-- Blank and tab. -/
def isSpace (c : Char) : Bool :=
  c = ' ' || c = '\t'

/-- A decimal digit. -/
def isDigit (c : Char) : Bool :=
  decide ('0' ≤ c ∧ c ≤ '9')

/-- A hexadecimal digit of either case. -/
def isHexDigit (c : Char) : Bool :=
  isDigit c || decide ('a' ≤ c ∧ c ≤ 'f') || decide ('A' ≤ c ∧ c ≤ 'F')

/-- A character of a bare key. -/
def isBareKeyChar (c : Char) : Bool :=
  isDigit c || decide ('a' ≤ c ∧ c ≤ 'z') || decide ('A' ≤ c ∧ c ≤ 'Z') || c = '_' || c = '-'

/-- A character of a line: a tab, or anything that is no control character of
ASCII. -/
def isPlain (c : Char) : Bool :=
  c = '\t' || decide (' ' ≤ c ∧ c ≠ '\x7f')

/-- Skips blanks and tabs. -/
def skipSpace (cs : List Char) : List Char :=
  cs.dropWhile isSpace

/-- Takes a line break, if one is there. -/
def newline? : List Char → Option (List Char)
  | '\n' :: rest => some rest
  | '\r' :: '\n' :: rest => some rest
  | _ => none

/-- Skips a comment, if one is there; it reaches to the end of its line. -/
def skipComment : List Char → List Char
  | '#' :: rest => rest.dropWhile isPlain
  | cs => cs

/-- What may follow on a line: spaces, a comment, and then the end of the line or
of the document. -/
def endOfLine? (cs : List Char) : Option (List Char) :=
  match skipComment (skipSpace cs) with
  | [] => some []
  | cs => newline? cs

/-- Skips spaces, comments and line breaks, at most `limit` of them. -/
def skipLines : Nat → List Char → List Char
  | 0, cs => cs
  | limit + 1, cs =>
    let cs := skipComment (skipSpace cs)
    match newline? cs with
    | some rest => skipLines limit rest
    | none => cs

/-- The value of the hexadecimal digits of a number. -/
def radixValue (radix : Nat) (digits : List Char) : Nat :=
  digits.foldl
    (fun n c =>
      radix * n +
        (if isDigit c then c.toNat - '0'.toNat
        else if 'a' ≤ c then c.toNat - 'a'.toNat + 10
        else c.toNat - 'A'.toNat + 10))
    0

end Toml

end Interception
