import ChatRelay.Toml.Document
import ChatRelay.Toml.Scalar

/-!
# Reading TOML

A document is a list of lines, each with a header, a key and its value, or nothing. Arrays and
inline tables hold values inside each other, and between their items and around the equals signs in
them there may be line ends and comments. How deep values are nested and how many parts a key has is
limited; `fuel` only bounds the length of the text.
-/

namespace ChatRelay.Toml

/-- How deep arrays and inline tables may be nested, and how many parts a key may have. -/
def maxDepth : Nat := 80

/-- The text after blanks, line ends and comments. -/
def skipFiller (inComment : Bool) : List Char → Option (List Char)
  | [] => some []
  | '\n' :: rest => skipFiller false rest
  | '\r' :: rest => if rest.head? = some '\n' then skipFiller inComment rest else none
  | c :: rest =>
    if inComment then if isControl c then none else skipFiller true rest
    else if c = '#' then skipFiller true rest
    else if isBlank c then skipFiller false rest
    else some (c :: rest)

/-- The text after the end of a line that holds nothing more but a comment. -/
def endLine (s : List Char) : Option (List Char) :=
  match skipBlanks s with
  | [] => some []
  | '#' :: rest =>
    let comment := rest.takeWhile fun c => c != '\n' && c != '\r'
    let rest := rest.dropWhile fun c => c != '\n' && c != '\r'
    if comment.any isControl then none
    else if rest.isEmpty then some []
    else afterLineEnd? rest
  | rest => afterLineEnd? rest

/-- Whether a character may be part of a key without quotes. -/
def isKeyChar (c : Char) : Bool :=
  c.isAlphanum || c = '_' || c = '-'

/-- One part of a dotted key. -/
def readKeyPart (s : List Char) : Reading String :=
  match s with
  | '"' :: _ | '\'' :: _ => readLineString s
  | _ =>
    let word := s.takeWhile isKeyChar
    if word.isEmpty then none else some (String.ofList word, s.dropWhile isKeyChar)

/-- The parts of a dotted key, with blanks allowed around each. -/
def readKeyParts : Nat → List Char → Option (List String × List Char)
  | 0, _ => none
  | fuel + 1, s => do
    let (part, rest) ← readKeyPart (skipBlanks s)
    match skipBlanks rest with
    | '.' :: more =>
      let (parts, rest) ← readKeyParts fuel more
      return (part :: parts, rest)
    | rest => return ([part], rest)

/-- A dotted key. -/
def readKey (s : List Char) : Option (List String × List Char) :=
  (readKeyParts s.length s).filter fun key => key.1.length ≤ maxDepth

mutual

/-- A value, inside which arrays and inline tables may be nested only so deep. -/
def readValue : Nat → Nat → List Char → Option (Value × List Char)
  | 0, _, _ => none
  | fuel + 1, depth, s =>
    match s, depth with
    | '"' :: _, _ | '\'' :: _, _ => (readString s).map fun (t, rest) => (.string t, rest)
    | '[' :: _, 0 | '\x7b' :: _, 0 => none
    | '[' :: rest, depth + 1 => readItems fuel depth [] rest
    | '\x7b' :: rest, depth + 1 => readInline fuel depth [] rest
    | _, _ =>
      let (word, rest) := takeWord s
      (wordValue? word).map (·, rest)

/-- The rest of an array, after its items so far, newest first. -/
def readItems : Nat → Nat → List Value → List Char → Option (Value × List Char)
  | 0, _, _, _ => none
  | fuel + 1, depth, items, s => do
    match ← skipFiller false s with
    | ']' :: rest => return (.array items.reverse, rest)
    | s =>
      let (v, rest) ← readValue fuel depth s
      match ← skipFiller false rest with
      | ',' :: rest => readItems fuel depth (v :: items) rest
      | ']' :: rest => return (.array (v :: items).reverse, rest)
      | _ => none

/-- The rest of an inline table, after its members so far. -/
def readInline : Nat → Nat → Members → List Char → Option (Value × List Char)
  | 0, _, _, _ => none
  | fuel + 1, depth, members, s => do
    match ← skipFiller false s with
    | '\x7d' :: rest => return ((Node.table .dotted members).toValue, rest)
    | s =>
      let (key, rest) ← readKey s
      match ← skipFiller false rest with
      | '=' :: rest =>
        let (v, rest) ← readValue fuel depth (← skipFiller false rest)
        let members ← addValue v key members
        match ← skipFiller false rest with
        | ',' :: rest => readInline fuel depth members rest
        | '\x7d' :: rest => return ((Node.table .dotted members).toValue, rest)
        | _ => none
      | _ => none

end

/-- The rest of a document, under the header that was read last. -/
def readLines : Nat → List String → Members → List Char → Option Members
  | 0, _, _, _ => none
  | fuel + 1, header, document, s => do
    match skipBlanks s with
    | [] => return document
    | '[' :: '[' :: rest =>
      let (path, rest) ← readKey rest
      match rest with
      | ']' :: ']' :: rest => readLines fuel path (← addToArray path document) (← endLine rest)
      | _ => none
    | '[' :: rest =>
      let (path, rest) ← readKey rest
      match rest with
      | ']' :: rest => readLines fuel path (← addTable path document) (← endLine rest)
      | _ => none
    | s =>
      match endLine s with
      | some rest => readLines fuel header document rest
      | none =>
        let (key, rest) ← readKey s
        match rest with
        | '=' :: rest =>
          let (v, rest) ← readValue (rest.length + 1) maxDepth (skipBlanks rest)
          readLines fuel header (← addValueUnder v key header document) (← endLine rest)
        | _ => none

/-- The value of a TOML document, if the text is one. A byte order mark before it does not count. -/
def parse? (text : List Char) : Option Value :=
  let text := if text.head? = some '\uFEFF' then text.drop 1 else text
  (readLines (text.length + 1) [] [] text).map fun ms => (Node.table .headed ms).toValue

end ChatRelay.Toml
