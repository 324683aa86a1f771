import ChatRelay.Toml.DateTime

/-!
# TOML scalars

The strings and words of TOML. Each reader takes the text at which a value begins and gives the
value with the text after it. A truth value, a number or a date is first taken as one word and then
judged as a whole. A string of several lines keeps its line ends as they are written.
-/

namespace ChatRelay.Toml

/-- A value and the text after it. -/
abbrev Reading (α : Type) := Option (α × List Char)

/-- The blanks inside a line. -/
def isBlank (c : Char) : Bool :=
  c = ' ' || c = '\t'

/-- The text after the blanks inside a line. -/
def skipBlanks (s : List Char) : List Char :=
  s.dropWhile isBlank

/-- The characters that no line may hold. -/
def isControl (c : Char) : Bool :=
  (c.toNat < 0x20 && c != '\t') || c.toNat = 0x7F

/-- The text after a line end, if it begins with one. -/
def afterLineEnd? : List Char → Option (List Char)
  | '\n' :: rest => some rest
  | '\r' :: '\n' :: rest => some rest
  | _ => none

/-- The character with a code point. -/
def charOf? (n : Nat) : Option Char :=
  if h : n.isValidChar then some (Char.ofNatAux n h) else none

/-- The character that hexadecimal digits stand for. -/
def charOfDigits? (digits : List Char) : Option Char := do
  let ds ← digits.mapM Text.hexValue?
  charOf? (ds.foldl (fun n d => n * 16 + d) 0)

/-- The character that an escape of one letter stands for. -/
def escape? : Char → Option Char
  | 'b' => some '\x08'
  | 't' => some '\t'
  | 'n' => some '\n'
  | 'f' => some '\x0c'
  | 'r' => some '\r'
  | 'e' => some '\x1b'
  | '"' => some '"'
  | '\\' => some '\\'
  | _ => none

/-- The character of an escape whose backslash has been read, and the text after it. -/
def readEscape : List Char → Reading Char
  | 'x' :: rest => (charOfDigits? (rest.take 2)).bind fun c =>
    if rest.length < 2 then none else some (c, rest.drop 2)
  | 'u' :: rest => (charOfDigits? (rest.take 4)).bind fun c =>
    if rest.length < 4 then none else some (c, rest.drop 4)
  | 'U' :: rest => (charOfDigits? (rest.take 8)).bind fun c =>
    if rest.length < 8 then none else some (c, rest.drop 8)
  | c :: rest => (escape? c).map (·, rest)
  | [] => none

/-- The text after blanks and line ends. -/
def skipSpace : List Char → List Char
  | '\r' :: '\n' :: rest => skipSpace rest
  | c :: rest => if isBlank c || c = '\n' then skipSpace rest else c :: rest
  | [] => []

/-- The number of quotes at the beginning of a text. -/
def leading (q : Char) (s : List Char) : Nat :=
  (s.takeWhile (· == q)).length

/-- The rest of a basic string, after its opening quotes. At most `fuel` characters are read. -/
def readBasic (multiline : Bool) : Nat → List Char → List Char → Reading String
  | 0, _, _ => none
  | fuel + 1, acc, s =>
    match s with
    | [] => none
    | '\\' :: rest =>
      match afterLineEnd? (skipBlanks rest) with
      | some next =>
        if multiline then readBasic multiline fuel acc (skipSpace next) else none
      | none => (readEscape rest).bind fun (c, next) => readBasic multiline fuel (c :: acc) next
    | '"' :: rest =>
      if multiline then
        let n := min (leading '"' s) 5
        if n < 3 then readBasic multiline fuel ('"' :: acc) rest
        else
          some (String.ofList (acc.reverse ++ List.replicate (n - 3) '"'), s.drop n)
      else some (String.ofList acc.reverse, rest)
    | '\r' :: '\n' :: rest =>
      if multiline then readBasic multiline fuel ('\n' :: '\r' :: acc) rest else none
    | '\n' :: rest => if multiline then readBasic multiline fuel ('\n' :: acc) rest else none
    | c :: rest => if isControl c then none else readBasic multiline fuel (c :: acc) rest

/-- The rest of a literal string, after its opening quotes. -/
def readLiteral (multiline : Bool) : Nat → List Char → List Char → Reading String
  | 0, _, _ => none
  | fuel + 1, acc, s =>
    match s with
    | [] => none
    | '\'' :: rest =>
      if multiline then
        let n := min (leading '\'' s) 5
        if n < 3 then readLiteral multiline fuel ('\'' :: acc) rest
        else
          some (String.ofList (acc.reverse ++ List.replicate (n - 3) '\''), s.drop n)
      else some (String.ofList acc.reverse, rest)
    | '\r' :: '\n' :: rest =>
      if multiline then readLiteral multiline fuel ('\n' :: '\r' :: acc) rest else none
    | '\n' :: rest => if multiline then readLiteral multiline fuel ('\n' :: acc) rest else none
    | c :: rest => if isControl c then none else readLiteral multiline fuel (c :: acc) rest

/-- A string of one line, as keys may be. -/
def readLineString (s : List Char) : Reading String :=
  match s with
  | '"' :: rest => readBasic false (rest.length + 1) [] rest
  | '\'' :: rest => readLiteral false (rest.length + 1) [] rest
  | _ => none

/-- A string of any form. A line end right after three opening quotes does not count. -/
def readString (s : List Char) : Reading String :=
  let fuel := s.length + 1
  let body (rest : List Char) : List Char := (afterLineEnd? rest).getD rest
  match s with
  | '"' :: '"' :: '"' :: rest => readBasic true fuel [] (body rest)
  | '\'' :: '\'' :: '\'' :: rest => readLiteral true fuel [] (body rest)
  | _ => readLineString s

/-! ### Words -/

/-- Whether a character may be part of a word. -/
def isWordChar (c : Char) : Bool :=
  !(",[]\x7b\x7d=# \t\r\n".toList.contains c)

/-- The word at the beginning of a text; a date and a time may have one blank between them. -/
def takeWord (s : List Char) : List Char × List Char :=
  let word := s.takeWhile isWordChar
  let rest := s.dropWhile isWordChar
  match rest with
  | ' ' :: c :: _ =>
    if isDate word && isDigit c then
      let more := rest.drop 1
      (word ++ ' ' :: more.takeWhile isWordChar, more.dropWhile isWordChar)
    else (word, rest)
  | _ => (word, rest)

/-- Whether a word can only be a date or a time: after its first digits comes a hyphen or a colon.
-/
def looksLikeDateTime (s : List Char) : Bool :=
  match s.dropWhile isDigit with
  | '-' :: _ | ':' :: _ => (s.head?.any isDigit : Bool)
  | _ => false

/-- The value of a word. -/
def wordValue? (s : List Char) : Option Value :=
  if s = "true".toList then some (.bool true)
  else if s = "false".toList then some (.bool false)
  else if looksLikeDateTime s then if isDateTime s then some (.dateTime s) else none
  else number? s

end ChatRelay.Toml
