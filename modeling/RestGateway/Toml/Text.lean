import RestGateway.Bytes
import RestGateway.Toml.Value

/-!
# Texts in TOML

A text stands between quotes. Between double quotes a backslash starts an escape, between single
quotes all characters stand for themselves. Three quotes enclose a text of several lines, and a line
end right behind them does not count.

Readers give what they read and what is left, and nothing where a text breaks the rules.
-/

namespace RestGateway.Toml

/-- Characters that may stand in texts and comments: no controls except the tab. -/
def isPlain (c : Char) : Bool := c = '\t' || (0x20 ≤ c.toNat && c.toNat ≠ 0x7F)

/-- What is left behind the end of a line, if the text starts with one. -/
def lineEnd? : List Char → Option (List Char)
  | '\n' :: s => some s
  | '\x0d' :: '\n' :: s => some s
  | _ => none

/-- Blanks within a line. -/
def isSpace (c : Char) : Bool := c = ' ' || c = '\t'

/-- The value of hexadecimal digits. -/
def hexNumber? (digits : List Char) : Option Nat :=
  digits.foldl (fun n c => do
    let n ← n
    if 128 ≤ c.toNat then none
    return n * 16 + (← Ascii.hexValue? (UInt8.ofNat c.toNat))) (some 0)

/-- The character that `count` hexadecimal digits stand for. -/
def readCode (count : Nat) (s : List Char) : Option (Char × List Char) := do
  let digits := s.take count
  if digits.length ≠ count then none
  let n ← hexNumber? digits
  if n < 0xD800 || (0xDFFF < n && n ≤ 0x10FFFF) then some (Char.ofNat n, s.drop count) else none

/-- The character that an escape stands for, behind its backslash. -/
def readEscape : List Char → Option (Char × List Char)
  | 'b' :: s => some ('\x08', s)
  | 't' :: s => some ('\t', s)
  | 'n' :: s => some ('\n', s)
  | 'f' :: s => some ('\x0c', s)
  | 'r' :: s => some ('\x0d', s)
  | 'e' :: s => some ('\x1b', s)
  | '"' :: s => some ('"', s)
  | '\\' :: s => some ('\\', s)
  | 'x' :: s => readCode 2 s
  | 'u' :: s => readCode 4 s
  | 'U' :: s => readCode 8 s
  | _ => none

/-- Skips blanks and line ends. -/
def skipLines : List Char → List Char
  | [] => []
  | '\x0d' :: '\n' :: s => skipLines s
  | c :: s => if isSpace c || c = '\n' then skipLines s else c :: s

/-- A backslash at the end of a line drops the line end and all blanks behind it. -/
def joinLines? (s : List Char) : Option (List Char) :=
  (lineEnd? (s.dropWhile isSpace)).map skipLines

/-- Reads a text of one line behind its opening quote. The characters read so far are kept in
reverse; the fuel is at least the length of what is left. -/
def readLine (escapes : Bool) (quote : Char) (done : List Char) :
    Nat → List Char → Option (String × List Char)
  | 0, _ => none
  | _, [] => none
  | fuel + 1, c :: s =>
    if c = quote then some (String.ofList done.reverse, s)
    else if escapes && c = '\\' then
      match readEscape s with
      | some (d, s) => readLine escapes quote (d :: done) fuel s
      | none => none
    else if isPlain c then readLine escapes quote (c :: done) fuel s
    else none

/-- Reads a text of several lines behind its opening quotes. Three quotes end it; one or two quotes
in front of them belong to the text. Line ends are kept as they are written. -/
def readLines (escapes : Bool) (quote : Char) (done : List Char) :
    Nat → List Char → Option (String × List Char)
  | 0, _ => none
  | _, [] => none
  | fuel + 1, c :: s =>
    let quotes := ((c :: s).takeWhile (· = quote)).length
    if 3 ≤ quotes then
      if 5 < quotes then none
      else some (String.ofList (List.replicate (quotes - 3) quote ++ done).reverse,
        (c :: s).drop quotes)
    else if escapes && c = '\\' then
      match readEscape s with
      | some (d, s) => readLines escapes quote (d :: done) fuel s
      | none =>
        match joinLines? s with
        | some s => readLines escapes quote done fuel s
        | none => none
    else if isPlain c || (lineEnd? (c :: s)).isSome then
      readLines escapes quote (c :: done) fuel s
    else none

/-- Reads a text of one line. -/
def readQuoted : List Char → Option (String × List Char)
  | '"' :: s => readLine true '"' [] (s.length + 1) s
  | '\'' :: s => readLine false '\'' [] (s.length + 1) s
  | _ => none

/-- Reads a text of one or several lines. -/
def readText (s : List Char) : Option (String × List Char) :=
  match s with
  | '"' :: '"' :: '"' :: s =>
    let s := (lineEnd? s).getD s
    readLines true '"' [] (s.length + 1) s
  | '\'' :: '\'' :: '\'' :: s =>
    let s := (lineEnd? s).getD s
    readLines false '\'' [] (s.length + 1) s
  | s => readQuoted s

end RestGateway.Toml
