import ObsCatalog.Sql.Arithmetic
import ObsCatalog.Sql.Collation

/-! Tokens of conditions.

A condition is cut from the left into tokens, the longest first. Blanks and comments
stand between tokens. Characters that begin no token make a stray token, and nothing
after it is read; a zero character ends the text.
-/

set_option autoImplicit false

namespace ObsCatalog.Sql

open Text

/-- How a parameter is named: by its place, by a number, or by a name. -/
inductive Placeholder where
  | anonymous
  | numbered (n : Nat)
  | named (name : String)
  deriving DecidableEq, Repr

/-- The words between a text and what it is matched with. -/
inductive Matching where
  | like
  | glob
  | regexp
  | match
  deriving DecidableEq, Repr

inductive Keyword where
  | and
  | or
  | not
  | null
  | is
  | isNull
  | notNull
  | distinct
  | from
  | in
  | matching (m : Matching)
  | escape
  | between
  | collate
  | case
  | when
  | then
  | else
  | end
  | cast
  | as
  | exists
  | all
  /-- A word that stands for the current time or date. -/
  | clock
  | raise
  /-- A word that begins a query and is no name. -/
  | select
  /-- A word that begins a query and is a name where no query can begin. -/
  | with
  /-- A word that is no name and has no place in conditions. -/
  | reserved
  deriving DecidableEq, Repr

/-- Some words are names wherever they cannot have their own meaning. -/
def Keyword.isName : Keyword → Bool
  | .matching _ | .end | .cast | .clock | .raise | .with => true
  | _ => false

inductive Token where
  | keyword (k : Keyword)
  | name (s : String)
  /-- A name in quotes; one in double quotes may turn out to be text. -/
  | quotedName (s : String) (double : Bool)
  | text (s : String)
  | number (l : Real.Literal)
  | hexNumber (n : Nat)
  | blob (bytes : List UInt8)
  /-- A parameter and the index that it has been given. -/
  | parameter (p : Placeholder) (index : Nat)
  | comparison (c : Comparison)
  | arithmetic (a : Arithmetic)
  | concat
  /-- An arrow that leads into a document, to a document or to a value. -/
  | arrow (toValue : Bool)
  | tilde
  | leftParen
  | rightParen
  | comma
  | dot
  | semicolon
  | other
  | stray

structure Lexeme where
  token : Token
  spelling : String
  offset : Nat

namespace Token

def isSpace (c : Char) : Bool :=
  c == ' ' || c == '\t' || c == '\n' || c == '\x0c' || c == '\r'

/-- The vertical tab is blank as well, but only after another blank. -/
def isFurtherSpace (c : Char) : Bool := isSpace c || c == '\x0b'

def isNameStart (c : Char) : Bool := c.isAlpha || c == '_' || 128 ≤ c.toNat

def isNameChar (c : Char) : Bool := isNameStart c || c.isDigit || c == '$'

def lowercase (cs : List Char) : String := String.ofList (cs.map Char.toLower)

/-- Words that cannot be names, apart from those with a meaning of their own. -/
def reservedWords : List String :=
  ["add", "alter", "autoincrement", "check", "commit", "constraint", "create", "default",
    "deferrable", "delete", "drop", "except", "foreign", "group", "having", "index", "insert",
    "intersect", "into", "join", "limit", "nothing", "on", "order", "primary", "references",
    "returning", "set", "table", "to", "transaction", "union", "unique", "update", "using",
    "where"]

def keyword? (word : String) : Option Keyword :=
  match word with
  | "and" => some .and
  | "or" => some .or
  | "not" => some .not
  | "null" => some .null
  | "is" => some .is
  | "isnull" => some .isNull
  | "notnull" => some .notNull
  | "distinct" => some .distinct
  | "from" => some .from
  | "in" => some .in
  | "like" => some (.matching .like)
  | "glob" => some (.matching .glob)
  | "regexp" => some (.matching .regexp)
  | "match" => some (.matching .match)
  | "escape" => some .escape
  | "between" => some .between
  | "collate" => some .collate
  | "case" => some .case
  | "when" => some .when
  | "then" => some .then
  | "else" => some .else
  | "end" => some .end
  | "cast" => some .cast
  | "as" => some .as
  | "exists" => some .exists
  | "all" => some .all
  | "current_date" | "current_time" | "current_timestamp" => some .clock
  | "raise" => some .raise
  | "select" | "values" => some .select
  | "with" => some .with
  | word => if reservedWords.contains word then some .reserved else none

def ofWord (cs : List Char) : Token :=
  match keyword? (lowercase cs) with
  | some k => .keyword k
  | none => .name (String.ofList cs)

/-- The content of a text that ends with a quote, and the count of characters up to
the end of the closing quote. A quote that is written twice stands for itself. -/
def quotedBody (quote : Char) : List Char → Option (List Char × Nat)
  | [] => none
  | [c] => if c = quote then some ([], 1) else none
  | c :: d :: rest =>
    if c = quote then
      if d = quote then
        (quotedBody quote rest).map fun (content, n) => (quote :: content, n + 2)
      else some ([], 1)
    else (quotedBody quote (d :: rest)).map fun (content, n) => (c :: content, n + 1)

def bracketBody : List Char → Option (List Char × Nat)
  | [] => none
  | c :: rest =>
    if c = ']' then some ([], 1)
    else (bracketBody rest).map fun (content, n) => (c :: content, n + 1)

/-- A token that a closing character ends, or a stray one that extends to the end. -/
def closed (make : String → Token) (rest : List Char) :
    Option (List Char × Nat) → Token × Nat
  | some (content, n) => (make (String.ofList content), n + 1)
  | none => (.stray, rest.length + 1)

/-- The count of characters of the name of a parameter, and of those that belong to
names. Pairs of colons may stand in between. -/
def parameterName : List Char → Nat × Nat
  | ':' :: ':' :: rest =>
    let (n, proper) := parameterName rest
    (n + 2, proper)
  | c :: rest =>
    if isNameChar c then
      let (n, proper) := parameterName rest
      (n + 1, proper + 1)
    else (0, 0)
  | [] => (0, 0)

def namedParameter (mark : Char) (rest : List Char) : Token × Nat :=
  let (n, proper) := parameterName rest
  if proper = 0 then (.stray, n + 1)
  else if mark = '#' ∧ (rest.head?.elim false Char.isDigit) then (.other, n + 1)
  else (.parameter (.named (String.ofList (mark :: rest.take n))) 0, n + 1)

def isHexDigit (c : Char) : Bool :=
  c.isDigit || ['a', 'b', 'c', 'd', 'e', 'f'].contains c.toLower

def hexValue (digits : List Char) : Nat :=
  digits.foldl (fun n c => 16 * n + if c.isDigit then c.toNat - 48 else c.toLower.toNat - 87) 0

def hexBytes : List Char → List UInt8
  | high :: low :: rest => UInt8.ofNat (hexValue [high, low]) :: hexBytes rest
  | _ => []

def hexLength : List Char → Nat
  | '0' :: x :: rest =>
    let run := (rest.takeWhile fun c => isHexDigit c || c == '_').length
    if x.toLower = 'x' && run != 0 then run + 2 else 0
  | _ => 0

/-- The count of characters of a decimal number, where underscores count as digits. -/
def decimalLength (cs : List Char) : Nat :=
  cs.length - (Real.Literal.scan (cs.map fun c => if c = '_' then '0' else c)).2.length

def separates (isDigit : Char → Bool) : List Char → Bool
  | c :: '_' :: rest =>
    isDigit c && rest.head?.any isDigit && separates isDigit ('_' :: rest)
  | _ :: rest => separates isDigit rest
  | [] => true

/-- A number of some characters, unless a name goes on from there. -/
def numeralOf (isDigit : Char → Bool) (read : List Char → Token) (n : Nat) (cs : List Char) :
    Token × Nat :=
  let extra := ((cs.drop n).takeWhile isNameChar).length
  if extra = 0 && separates isDigit (cs.take n) then (read ((cs.take n).filter (· != '_')), n)
  else (.stray, n + extra)

def numeral (cs : List Char) : Token × Nat :=
  match hexLength cs with
  | 0 => numeralOf Char.isDigit (fun cs => .number (Real.Literal.scan cs).1) (decimalLength cs) cs
  | n => numeralOf isHexDigit (fun cs => .hexNumber (hexValue (cs.drop 2))) n cs

def beginsBlob (c : Char) (rest : List Char) : Bool := c.toLower = 'x' && rest.head? = some '\''

def blobLiteral (cs : List Char) : Token × Nat :=
  let body := (cs.drop 1).takeWhile (· != '\'')
  if body.length + 1 < cs.length then
    if body.all isHexDigit && body.length % 2 == 0 then (.blob (hexBytes body), body.length + 3)
    else (.stray, body.length + 3)
  else (.stray, body.length + 2)

def first (c : Char) (rest : List Char) : Token × Nat :=
  if beginsBlob c rest then blobLiteral rest
  else if isNameStart c then
    let word := c :: rest.takeWhile isNameChar
    (ofWord word, word.length)
  else if c.isDigit then numeral (c :: rest)
  else
    match c, rest with
    | '\'', _ => closed .text rest (quotedBody '\'' rest)
    | '"', _ => closed (.quotedName · true) rest (quotedBody '"' rest)
    | '`', _ => closed (.quotedName · false) rest (quotedBody '`' rest)
    | '[', _ => closed (.quotedName · false) rest (bracketBody rest)
    | '?', _ =>
      let digits := rest.takeWhile Char.isDigit
      if digits.isEmpty then (.parameter .anonymous 0, 1)
      else (.parameter (.numbered (Text.number digits)) 0, digits.length + 1)
    | ':', _ => namedParameter ':' rest
    | '@', _ => namedParameter '@' rest
    | '$', _ => namedParameter '$' rest
    | '#', _ => namedParameter '#' rest
    | '.', d :: _ => if d.isDigit then numeral (c :: rest) else (.dot, 1)
    | '.', [] => (.dot, 1)
    | '=', '=' :: _ => (.comparison .equal, 2)
    | '=', _ => (.comparison .equal, 1)
    | '!', '=' :: _ => (.comparison .notEqual, 2)
    | '<', '>' :: _ => (.comparison .notEqual, 2)
    | '<', '=' :: _ => (.comparison .lessEqual, 2)
    | '<', '<' :: _ => (.arithmetic .shiftLeft, 2)
    | '<', _ => (.comparison .less, 1)
    | '>', '=' :: _ => (.comparison .greaterEqual, 2)
    | '>', '>' :: _ => (.arithmetic .shiftRight, 2)
    | '>', _ => (.comparison .greater, 1)
    | '|', '|' :: _ => (.concat, 2)
    | '-', '>' :: '>' :: _ => (.arrow true, 3)
    | '-', '>' :: _ => (.arrow false, 2)
    | '-', _ => (.arithmetic .subtract, 1)
    | '(', _ => (.leftParen, 1)
    | ')', _ => (.rightParen, 1)
    | ',', _ => (.comma, 1)
    | ';', _ => (.semicolon, 1)
    | '+', _ => (.arithmetic .add, 1)
    | '*', _ => (.arithmetic .multiply, 1)
    | '/', _ => (.arithmetic .divide, 1)
    | '%', _ => (.arithmetic .remainder, 1)
    | '&', _ => (.arithmetic .bitAnd, 1)
    | '|', _ => (.arithmetic .bitOr, 1)
    | '~', _ => (.tilde, 1)
    | _, _ => (.stray, 1)

def afterComment : List Char → List Char
  | [] => []
  | '*' :: '/' :: rest => rest
  | _ :: rest => afterComment rest

/-- The count of characters of the blank or the comment at the start of a text. -/
def gap : List Char → Nat
  | '-' :: '-' :: rest => 2 + (rest.takeWhile (· != '\n')).length
  | '/' :: '*' :: c :: rest => 3 + rest.length - (afterComment (c :: rest)).length
  | c :: rest =>
    if isSpace c then 1 + (rest.takeWhile isFurtherSpace).length
    else if c = '\uFEFF' then 1
    else 0
  | [] => 0

def byteCount (cs : List Char) : Nat := cs.foldl (fun n c => n + c.utf8Size) 0

/-- The tokens of a text that begins at an offset. Each step consumes characters, so
their count bounds the steps. -/
def scan : Nat → Nat → List Char → List Lexeme
  | 0, _, _ => []
  | steps + 1, offset, cs =>
    match cs with
    | [] => []
    | c :: rest =>
      match gap (c :: rest) with
      | 0 =>
        let (token, n) := first c rest
        let spelling := (c :: rest).take n
        let lexeme : Lexeme := ⟨token, String.ofList spelling, offset⟩
        match token with
        | .stray => [lexeme]
        | _ => lexeme :: scan steps (offset + byteCount spelling) ((c :: rest).drop n)
      | n => scan steps (offset + byteCount ((c :: rest).take n)) ((c :: rest).drop n)

end Token

def lexemes (condition : String) : List Lexeme :=
  let cs := condition.toList.takeWhile (· != '\x00')
  Token.scan cs.length 0 cs

/-- The greatest index given so far, and the names that have been given one. -/
structure Numbering where
  count : Nat
  names : List (String × Nat)

namespace Numbering

def empty : Numbering := ⟨0, []⟩

def assign (s : Numbering) : Placeholder → Nat × Numbering
  | .anonymous => (s.count + 1, { s with count := s.count + 1 })
  | .numbered n => (n, { s with count := max s.count n })
  | .named name =>
    match s.names.find? (·.1 = name) with
    | some (_, index) => (index, s)
    | none => (s.count + 1, ⟨s.count + 1, (name, s.count + 1) :: s.names⟩)

def apply : Numbering → List Lexeme → List Lexeme
  | _, [] => []
  | s, t :: rest =>
    match t.token with
    | .parameter p _ =>
      let (index, s) := s.assign p
      { t with token := .parameter p index } :: s.apply rest
    | _ => t :: s.apply rest

end Numbering

end ObsCatalog.Sql
