import ObsCatalog.Proofs.Json.Grammar

/-! Texts that are well formed as JSON.

Here nothing is asked of a text but its form: the escapes of a string need not make up
characters, a number may have any size, and values may be nested to any depth.
-/

set_option autoImplicit false

namespace ObsCatalog.Json

inductive Separated {α : Type} (spells : α → List Char → Prop) : List α → List Char → Prop
  | none {gap : List Char} (blank : IsGap gap) : Separated spells [] gap
  | one {before after cs : List Char} {item : α} (hb : IsGap before) (spelled : spells item cs)
      (ha : IsGap after) : Separated spells [item] (before ++ cs ++ after)
  | more {before after cs others : List Char} {item next : α} {rest : List α}
      (hb : IsGap before) (spelled : spells item cs) (ha : IsGap after)
      (tail : Separated spells (next :: rest) others) :
      Separated spells (item :: next :: rest) (before ++ cs ++ after ++ ',' :: others)

/-- The texts of a name and of a value, with a colon and gaps between them. -/
inductive SpellsEntry : List Char × List Char → List Char → Prop
  | named {title value before after : List Char} (hb : IsGap before) (ha : IsGap after) :
      SpellsEntry (title, value) (title ++ before ++ ':' :: (after ++ value))

/-- A character, an escape of one letter, or one of four digits, which may be half of a pair
that has no other half. -/
inductive IsPiece : List Char → Prop
  | plain {c : Char} (shown : 32 ≤ c.toNat) (noQuote : c ≠ '"') (noSlash : c ≠ '\\') :
      IsPiece [c]
  | letter {name c : Char} (known : (name, c) ∈ letterEscapes) : IsPiece ['\\', name]
  | unit {n : Nat} {digits : List Char} (spelled : SpellsUnit n digits) :
      IsPiece ('\\' :: 'u' :: digits)

inductive IsContent : List Char → Prop
  | nil : IsContent []
  | cons {cs more : List Char} (first : IsPiece cs) (others : IsContent more) :
      IsContent (cs ++ more)

inductive IsString : List Char → Prop
  | quoted {cs : List Char} (content : IsContent cs) : IsString ('"' :: cs ++ ['"'])

theorem SpellsChar.isContent {c : Char} {cs : List Char} (spelled : SpellsChar c cs) :
    IsContent cs := by
  have single {cs : List Char} (piece : IsPiece cs) : IsContent cs := by
    simpa using IsContent.cons piece .nil
  cases spelled with
  | plain shown noQuote noSlash => exact single (.plain shown noQuote noSlash)
  | letter known => exact single (.letter known)
  | unit spelled => exact single (.unit spelled)
  | pair _ first second => exact .cons (.unit first) (single (.unit second))

theorem IsContent.append {cs more : List Char} (first : IsContent cs) (second : IsContent more) :
    IsContent (cs ++ more) := by
  induction first with
  | nil => exact second
  | cons piece _ ih =>
    rw [List.append_assoc]
    exact .cons piece ih

theorem SpellsChars.isContent {content cs : List Char} (spelled : SpellsChars content cs) :
    IsContent cs := by
  induction spelled with
  | nil => exact .nil
  | cons first _ ih => exact first.isContent.append ih

theorem SpellsString.isString {s : String} {cs : List Char} (spelled : SpellsString s cs) :
    IsString cs := by
  cases spelled with | quoted content => exact .quoted content.isContent

inductive IsDigits : List Char → Prop
  | digits {c : Char} {cs : List Char} (decimal : ∀ d ∈ c :: cs, d.isDigit) : IsDigits (c :: cs)

/-- Only zero begins with the digit zero. -/
inductive IsWhole : List Char → Prop
  | zero : IsWhole ['0']
  | digits {c : Char} {cs : List Char} (decimal : ∀ d ∈ c :: cs, d.isDigit) (leading : c ≠ '0') :
      IsWhole (c :: cs)

inductive IsFraction : List Char → Prop
  | none : IsFraction []
  | point {cs : List Char} (decimal : IsDigits cs) : IsFraction ('.' :: cs)

inductive IsExponent : List Char → Prop
  | none : IsExponent []
  | unsigned {letter : Char} {cs : List Char} (mark : letter = 'e' ∨ letter = 'E')
      (decimal : IsDigits cs) : IsExponent (letter :: cs)
  | signed {letter sign : Char} {cs : List Char} (mark : letter = 'e' ∨ letter = 'E')
      (kind : sign = '+' ∨ sign = '-') (decimal : IsDigits cs) : IsExponent (letter :: sign :: cs)

inductive IsMagnitude : List Char → Prop
  | parts {whole fraction exponent : List Char} (hw : IsWhole whole) (hf : IsFraction fraction)
      (he : IsExponent exponent) : IsMagnitude (whole ++ (fraction ++ exponent))

inductive IsNumber : List Char → Prop
  | positive {cs : List Char} (magnitude : IsMagnitude cs) : IsNumber cs
  | negative {cs : List Char} (magnitude : IsMagnitude cs) : IsNumber ('-' :: cs)

inductive IsValue : List Char → Prop
  | null : IsValue ['n', 'u', 'l', 'l']
  | yes : IsValue ['t', 'r', 'u', 'e']
  | no : IsValue ['f', 'a', 'l', 's', 'e']
  | number {cs : List Char} (number : IsNumber cs) : IsValue cs
  | text {cs : List Char} (string : IsString cs) : IsValue cs
  | array {items : List (List Char)} {cs : List Char} (values : ∀ item ∈ items, IsValue item)
      (laid : Separated Eq items cs) : IsValue ('[' :: cs ++ [']'])
  | object {entries : List (List Char × List Char)} {cs : List Char}
      (names : ∀ e ∈ entries, IsString e.1) (values : ∀ e ∈ entries, IsValue e.2)
      (laid : Separated SpellsEntry entries cs) : IsValue ('{' :: cs ++ ['}'])

/-- The text between the brackets of an object with these names and values. -/
structure IsBody (entries : List (List Char × List Char)) (cs : List Char) : Prop where
  names : ∀ e ∈ entries, IsString e.1
  values : ∀ e ∈ entries, IsValue e.2
  laid : Separated SpellsEntry entries cs

def startsValue (c : Char) : Bool :=
  c = 'n' || c = 't' || c = 'f' || c = '-' || c.isDigit || c = '"' || c = '[' || c = '{'

theorem IsWhole.starts {cs : List Char} (whole : IsWhole cs) (tail : List Char) :
    ∃ c more, cs ++ tail = c :: more ∧ c.isDigit := by
  cases whole with
  | zero => exact ⟨_, _, rfl, rfl⟩
  | digits decimal => exact ⟨_, _, rfl, decimal _ List.mem_cons_self⟩

theorem IsMagnitude.starts {cs : List Char} (magnitude : IsMagnitude cs) :
    ∃ c more, cs = c :: more ∧ c.isDigit := by
  cases magnitude with | parts hw => exact hw.starts _

theorem IsNumber.starts {cs : List Char} (number : IsNumber cs) :
    ∃ c more, cs = c :: more ∧ (c = '-' ∨ c.isDigit) := by
  cases number with
  | negative => exact ⟨_, _, rfl, .inl rfl⟩
  | positive magnitude =>
    obtain ⟨c, more, shape, digit⟩ := magnitude.starts
    exact ⟨c, more, shape, .inr digit⟩

theorem IsValue.starts {cs : List Char} (value : IsValue cs) :
    ∃ c more, cs = c :: more ∧ startsValue c := by
  cases value with
  | null => exact ⟨_, _, rfl, by decide⟩
  | yes => exact ⟨_, _, rfl, by decide⟩
  | no => exact ⟨_, _, rfl, by decide⟩
  | number number =>
    obtain ⟨c, more, rfl, kind⟩ := number.starts
    rcases kind with rfl | digit
    · exact ⟨_, _, rfl, by decide⟩
    · exact ⟨_, _, rfl, by simp [startsValue, digit]⟩
  | text string =>
    cases string
    exact ⟨_, _, rfl, by decide⟩
  | array => exact ⟨_, _, rfl, by decide⟩
  | object => exact ⟨_, _, rfl, by decide⟩

structure Head (c : Char) (more : List Char) : Prop where
  null : c = 'n' → more = ['u', 'l', 'l']
  yes : c = 't' → more = ['r', 'u', 'e']
  no : c = 'f' → more = ['a', 'l', 's', 'e']
  text : c = '"' → ∃ cs, IsContent cs ∧ more = cs ++ ['"']
  array : c = '[' → ∃ items cs, (∀ item ∈ items, IsValue item) ∧ Separated Eq items cs ∧
    more = cs ++ [']']
  object : c = '{' → ∃ entries cs, IsBody entries cs ∧ more = cs ++ ['}']

theorem IsValue.head {c : Char} {more : List Char} (value : IsValue (c :: more)) :
    Head c more := by
  generalize shape : c :: more = cs at value
  cases value with
  | number number =>
    obtain ⟨d, rest, rfl, kind⟩ := number.starts
    cases shape
    constructor <;> (rintro rfl; exact absurd kind (by decide))
  | text string =>
    cases string with | quoted content =>
    cases shape
    constructor <;> intro same
    case text => exact ⟨_, content, rfl⟩
    all_goals cases same
  | array values laid =>
    cases shape
    constructor <;> intro same
    case array => exact ⟨_, _, values, laid, rfl⟩
    all_goals cases same
  | object names values laid =>
    cases shape
    constructor <;> intro same
    case object => exact ⟨_, _, ⟨names, values, laid⟩, rfl⟩
    all_goals cases same
  | _ =>
    cases shape
    constructor <;> simp

end ObsCatalog.Json
