import Simplex.Toml.Scalar

/-!
Reading documents of TOML: strings, keys, values, headers and lines. A header in double brackets is
refused, as no value of a problem file is a list of tables.
-/
namespace Simplex.Toml

/-- A blank within a line. -/
def isSpace (c : Char) : Bool := c == ' ' || c == '\t'

/-- A character that may stand in a comment or a string. -/
def isTextChar (c : Char) : Bool := c == '\t' || (decide (' ' ≤ c) && c != '\x7f')

/-- What follows the blanks at the start. -/
def skipSpaces (cs : List Char) : List Char := cs.dropWhile isSpace

/-- What follows the line end at the start. -/
def skipNewline? : List Char → Option (List Char)
  | '\n' :: rest => some rest
  | '\r' :: '\n' :: rest => some rest
  | _ => none

/-- What follows the comment at the start, if there is one. -/
def skipComment : List Char → List Char
  | '#' :: rest => rest.dropWhile isTextChar
  | cs => cs

/-- What follows the blanks, comments and line ends at the start; a comment ends with its line. -/
def skipLines : (fuel : Nat) → List Char → List Char
  | 0, cs => cs
  | fuel + 1, cs =>
    let cs := skipSpaces cs
    match skipNewline? (skipComment cs) with
    | some rest => skipLines fuel rest
    | none => cs

/-! ## Strings -/

/-- The character that a letter stands for behind a backslash. -/
def escape? : Char → Option Char
  | 'b' => some '\x08'
  | 't' => some '\t'
  | 'n' => some '\n'
  | 'f' => some '\x0c'
  | 'r' => some '\r'
  | '"' => some '"'
  | '\\' => some '\\'
  | _ => none

/-- The character with a code point in hexadecimal digits. -/
def codePoint? (digits : List Char) : Option Char :=
  let code := runValue 16 digits
  if digits.all (isDigitOf 16) && code.isValidChar then some (Char.ofNat code) else none

/-- The character of the escape behind a backslash, and what follows. -/
def readEscape? : List Char → Option (Char × List Char)
  | 'u' :: rest =>
    if rest.length < 4 then none else (codePoint? (rest.take 4)).map (·, rest.drop 4)
  | 'U' :: rest =>
    if rest.length < 8 then none else (codePoint? (rest.take 8)).map (·, rest.drop 8)
  | c :: rest => (escape? c).map (·, rest)
  | [] => none

/-- Characters up to the closing quote of a string in one line, and what follows; escapes are read
    between double quotes only. -/
def readLine (quote : Char) : (fuel : Nat) → List Char → Option (List Char × List Char)
  | 0, _ => none
  | _ + 1, [] => none
  | fuel + 1, c :: rest =>
    if c = quote then some ([], rest)
    else if c = '\\' && quote = '"' then do
      let (escaped, rest) ← readEscape? rest
      let (cs, rest) ← readLine quote fuel rest
      pure (escaped :: cs, rest)
    else if isTextChar c then (readLine quote fuel rest).map fun (cs, rest) => (c :: cs, rest)
    else none

/-- What follows a backslash that ends its line, less the blanks and line ends that it takes away. -/
def skipContinuation? (cs : List Char) : Option (List Char) :=
  (skipNewline? (skipSpaces cs)).map fun rest => blankLines rest.length rest
where
  blankLines : Nat → List Char → List Char
    | 0, cs => cs
    | fuel + 1, cs =>
      match skipNewline? (skipSpaces cs) with
      | some rest => blankLines fuel rest
      | none => skipSpaces cs

/-- Characters up to the three closing quotes of a string over lines, and what follows. Up to two
    quotes may stand before the closing ones. -/
def readLines (quote : Char) : (fuel : Nat) → List Char → Option (List Char × List Char)
  | 0, _ => none
  | fuel + 1, cs =>
    match skipNewline? cs, cs with
    | some rest, _ => (readLines quote fuel rest).map fun (cs, rest) => ('\n' :: cs, rest)
    | none, [] => none
    | none, c :: rest =>
      if c = quote then
        let quotes := (c :: rest).takeWhile (· == quote)
        let after := (c :: rest).dropWhile (· == quote)
        if quotes.length < 3 then
          (readLines quote fuel after).map fun (cs, rest) => (quotes ++ cs, rest)
        else if quotes.length < 6 then some (quotes.drop 3, after)
        else none
      else if c = '\\' && quote = '"' then
        match skipContinuation? rest with
        | some rest => readLines quote fuel rest
        | none => do
          let (escaped, rest) ← readEscape? rest
          let (cs, rest) ← readLines quote fuel rest
          pure (escaped :: cs, rest)
      else if isTextChar c then (readLines quote fuel rest).map fun (cs, rest) => (c :: cs, rest)
      else none

/-- A string of one line behind its opening quote, and what follows. -/
def readShort? (quote : Char) (cs : List Char) : Option (String × List Char) :=
  (readLine quote (cs.length + 1) cs).map fun (cs, rest) => (String.ofList cs, rest)

/-- A string over lines behind its opening quotes, and what follows; a line end right behind the
    opening quotes does not count. -/
def readLong? (quote : Char) (cs : List Char) : Option (String × List Char) :=
  let cs := (skipNewline? cs).getD cs
  (readLines quote (cs.length + 1) cs).map fun (cs, rest) => (String.ofList cs, rest)

/-! ## Keys and values -/

/-- A character of a key without quotes. -/
def isKeyChar (c : Char) : Bool := c.isAlphanum || c == '_' || c == '-'

/-- A key without dots, and what follows. -/
def readSimpleKey? : List Char → Option (String × List Char)
  | '"' :: rest => readShort? '"' rest
  | '\'' :: rest => readShort? '\'' rest
  | cs =>
    let key := cs.takeWhile isKeyChar
    if key.isEmpty then none else some (String.ofList key, cs.dropWhile isKeyChar)

/-- The greatest depth: arrays and inline tables are nested, and keys dotted, to no greater one. -/
def maxDepth : Nat := 79

/-- The keys of a dotted key, of which there may be as many as its depth, and what follows with its
    blanks skipped. -/
def readKey? : (depth : Nat) → List Char → Option (List String × List Char)
  | 0, _ => none
  | depth + 1, cs => do
    let (key, rest) ← readSimpleKey? (skipSpaces cs)
    match skipSpaces rest with
    | '.' :: rest => (readKey? depth rest).map fun (keys, rest) => (key :: keys, rest)
    | rest => pure ([key], rest)

/-- A dotted key and the sign of equality, and what follows. -/
def readKeyOf? (cs : List Char) : Option (List String × List Char) :=
  match readKey? maxDepth cs with
  | some (keys, '=' :: rest) => some (keys, skipSpaces rest)
  | _ => none

/-- Defines a dotted key in a table. -/
def defineKey (t : Table) (keys : List String) (value : Value) : Option Table :=
  keys.getLast?.bind fun key => t.define keys.dropLast key value

mutual

/-- A value, and what follows; arrays and inline tables may be nested to a depth. -/
def readValue? : (fuel depth : Nat) → List Char → Option (Value × List Char)
  | 0, _, _ => none
  | _, _, '"' :: '"' :: '"' :: rest => (readLong? '"' rest).map fun (s, rest) => (.string s, rest)
  | _, _, '"' :: rest => (readShort? '"' rest).map fun (s, rest) => (.string s, rest)
  | _, _, '\'' :: '\'' :: '\'' :: rest =>
    (readLong? '\'' rest).map fun (s, rest) => (.string s, rest)
  | _, _, '\'' :: rest => (readShort? '\'' rest).map fun (s, rest) => (.string s, rest)
  | fuel + 1, depth + 1, '[' :: rest =>
    (readItems? fuel depth rest).map fun (items, rest) => (.array items, rest)
  | fuel + 1, depth + 1, '{' :: rest =>
    match skipSpaces rest with
    | '}' :: rest => some (.table .inline [], rest)
    | rest => (readPairs? fuel depth [] rest).map fun (t, rest) => (.table .inline t, rest)
  | _, _, cs =>
    let (word, rest) := spanWord cs
    (readWord? word).map (·, rest)

/-- The items of an array up to its closing bracket, and what follows. -/
def readItems? : (fuel depth : Nat) → List Char → Option (List Value × List Char)
  | 0, _, _ => none
  | fuel + 1, depth, cs =>
    match skipLines cs.length cs with
    | ']' :: rest => some ([], rest)
    | cs => do
      let (item, rest) ← readValue? fuel depth cs
      match skipLines rest.length rest with
      | ']' :: rest => pure ([item], rest)
      | ',' :: rest =>
        let (items, rest) ← readItems? fuel depth rest
        pure (item :: items, rest)
      | _ => none

/-- The keys and values of an inline table up to its closing brace, and what follows. -/
def readPairs? : (fuel depth : Nat) → Table → List Char → Option (Table × List Char)
  | 0, _, _, _ => none
  | fuel + 1, depth, t, cs => do
    let (keys, rest) ← readKeyOf? cs
    let (value, rest) ← readValue? fuel depth rest
    let t ← defineKey t keys value
    match skipSpaces rest with
    | '}' :: rest => pure (t, rest)
    | ',' :: rest => readPairs? fuel depth t rest
    | _ => none

end

/-! ## Documents -/

/-- The rest of a line must be blank or a comment; gives what follows its end. -/
def endLine? (cs : List Char) : Option (List Char) :=
  match skipComment (skipSpaces cs) with
  | [] => some []
  | rest => skipNewline? rest

/-- Reads the lines of a document into a table; the header opened last takes the keys. -/
def readDocument : (fuel : Nat) → Table → (header : List String) → List Char → Option Table
  | 0, _, _, _ => none
  | fuel + 1, t, header, cs =>
    match skipLines cs.length cs with
    | [] => some t
    | '#' :: rest => if (rest.dropWhile isTextChar).isEmpty then some t else none
    | '[' :: rest => do
      let (path, rest) ← readKey? maxDepth rest
      match rest with
      | ']' :: rest =>
        let rest ← endLine? rest
        let t ← t.openHeader path
        readDocument fuel t path rest
      | _ => none
    | cs => do
      let (keys, rest) ← readKeyOf? cs
      let (value, rest) ← readValue? (2 * rest.length + 2) maxDepth rest
      let rest ← endLine? rest
      let t ← Table.modifyAt (defineKey · keys value) t header
      readDocument fuel t header rest

/-- The table that a text defines, a byte order mark at its start passed over. -/
def read? (text : String) : Option Table :=
  let cs := match text.toList with
    | '\uFEFF' :: rest => rest
    | cs => cs
  readDocument (cs.length + 1) [] [] cs

end Simplex.Toml
