import Interception.Toml.Characters

/-!
# Quoted strings of a TOML document

There are four kinds: basic strings, in which a backslash starts an escape, and
literal strings, in which it does not; each on one line or, between three
quotation marks, over several.

* `Quoted.basic?`, `Quoted.literal?` – the rest of a string on one line.
* `Quoted.lines?` – the rest of a string over several lines, of either kind. One or
  two quotation marks may stand inside, also right before the closing three. A line
  break directly after the opening marks is not part of the string, and every line
  break in it counts as a single line feed.
* `Quoted.line?`, `Quoted.any?` – a string from its opening mark on: one that fits a
  key, and one of any kind.
-/

namespace Interception

namespace Toml

namespace Quoted

/-! ### Escapes -/

/-- The character with a given number, if it is one. -/
def scalar? (n : Nat) : Option Char :=
  if n.isValidChar then some (Char.ofNat n) else none

/-- The character that `count` hexadecimal digits stand for. -/
def hexEscape? (count : Nat) (cs : List Char) : Option (Char × List Char) :=
  let digits := cs.take count
  if digits.length = count ∧ digits.all isHexDigit then
    (scalar? (radixValue 16 digits)).map fun c => (c, cs.drop count)
  else none

/-- An escape, behind its backslash. -/
def escape? : List Char → Option (Char × List Char)
  | [] => none
  | c :: rest =>
    if c = 'b' then some ('\x08', rest)
    else if c = 't' then some ('\t', rest)
    else if c = 'n' then some ('\n', rest)
    else if c = 'f' then some ('\x0c', rest)
    else if c = 'r' then some ('\r', rest)
    else if c = '"' then some ('"', rest)
    else if c = '\\' then some ('\\', rest)
    else if c = 'u' then hexEscape? 4 rest
    else if c = 'U' then hexEscape? 8 rest
    else none

/-- A backslash at the end of a line takes the line break with it and every blank
and line break that follows. -/
def lineContinuation? (cs : List Char) : Option (List Char) :=
  match newline? (skipSpace cs) with
  | some rest => some (skipBlankLines rest.length rest)
  | none => none
where
  /-- Skips spaces and line breaks, at most `limit` of them. -/
  skipBlankLines : Nat → List Char → List Char
    | 0, cs => cs
    | limit + 1, cs =>
      let cs := skipSpace cs
      match newline? cs with
      | some rest => skipBlankLines limit rest
      | none => cs

/-! ### Strings on one line -/

/-- The characters of a basic string, at most `limit` of them, and what follows
its closing mark. -/
def basicUpTo : Nat → List Char → Option (List Char × List Char)
  | _, '"' :: rest => some ([], rest)
  | limit + 1, '\\' :: cs => do
    let (c, cs) ← escape? cs
    let (s, rest) ← basicUpTo limit cs
    some (c :: s, rest)
  | limit + 1, c :: cs =>
    if isPlain c then do
      let (s, rest) ← basicUpTo limit cs
      some (c :: s, rest)
    else none
  | _, _ => none

/-- The rest of a basic string. -/
def basic? (cs : List Char) : Option (List Char × List Char) :=
  basicUpTo cs.length cs

/-- The rest of a literal string. -/
def literal? : List Char → Option (List Char × List Char)
  | [] => none
  | c :: cs =>
    if c = apostrophe then some ([], cs)
    else if isPlain c then do
      let (s, rest) ← literal? cs
      some (c :: s, rest)
    else none

/-! ### Strings over several lines -/

/-- What a run of quotation marks means inside a string over several lines: fewer
than three belong to the string, and from three on the string ends, with up to two
marks before the closing three. The outcome is how many marks belong to the
string, and whether it ends. -/
def quoteRun? (count : Nat) : Option (Nat × Bool) :=
  if count < 3 then some (count, false)
  else if count < 6 then some (count - 3, true)
  else none

/-- The characters of a string over several lines, at most `limit` pieces, and
what follows its closing marks. -/
def linesUpTo (mark : Char) (escapes : Bool) : Nat → List Char → Option (List Char × List Char)
  | 0, _ => none
  | _ + 1, [] => none
  | limit + 1, c :: cs =>
    if c = mark then do
      let marks := (c :: cs).takeWhile (· = mark)
      let rest := (c :: cs).dropWhile (· = mark)
      let (inside, ends) ← quoteRun? marks.length
      if ends then some (List.replicate inside mark, rest)
      else do
        let (s, rest) ← linesUpTo mark escapes limit rest
        some (List.replicate inside mark ++ s, rest)
    else if escapes && c = '\\' then
      match lineContinuation? cs with
      | some cs => linesUpTo mark escapes limit cs
      | none => do
        let (e, cs) ← escape? cs
        let (s, rest) ← linesUpTo mark escapes limit cs
        some (e :: s, rest)
    else if isPlain c then do
      let (s, rest) ← linesUpTo mark escapes limit cs
      some (c :: s, rest)
    else do
      let cs ← newline? (c :: cs)
      let (s, rest) ← linesUpTo mark escapes limit cs
      some ('\n' :: s, rest)

/-- The rest of a string over several lines, behind its opening marks. -/
def lines? (mark : Char) (escapes : Bool) (cs : List Char) : Option (List Char × List Char) :=
  let cs := (newline? cs).getD cs
  linesUpTo mark escapes (cs.length + 1) cs

/-! ### All kinds -/

/-- **A string of one line**, with its opening mark. -/
def line? : List Char → Option (List Char × List Char)
  | [] => none
  | c :: cs =>
    if c = '"' then basic? cs
    else if c = apostrophe then literal? cs
    else none

/-- **A string of any kind**, with its opening marks. -/
def any? : List Char → Option (List Char × List Char)
  | a :: b :: c :: cs =>
    if a = '"' ∧ b = '"' ∧ c = '"' then lines? '"' true cs
    else if a = apostrophe ∧ b = apostrophe ∧ c = apostrophe then lines? apostrophe false cs
    else line? (a :: b :: c :: cs)
  | cs => line? cs

end Quoted

end Toml

end Interception
