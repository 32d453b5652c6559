import Mathlib.Tactic.IntervalCases
import ObsCatalog.Json.Typed
import ObsCatalog.Proofs.Json.Grammar

/-! Values read from their spellings.

A reader takes a value when it consumes every spelling of it, after any gap and before
whatever may follow a value. A reader of objects is determined by what it does with
each member.
-/

set_option autoImplicit false

namespace ObsCatalog.Json

open Text

namespace Reader

theorem bind_ok {α β : Type} {first : Reader α} {next : α → Reader β} {before after : Cursor}
    {a : α} (read : first before = .ok (a, after)) : (first >>= next) before = next a after := by
  show (first before >>= fun (a, after) => next a after) = next a after
  rw [read]
  rfl

theorem map_ok {α β : Type} {r : Reader α} {before after : Cursor} {a : α}
    (read : r before = .ok (a, after)) (f : α → β) : (f <$> r) before = .ok (f a, after) := by
  show (r before >>= fun (a, after) => Except.ok (f a, after)) = _
  rw [read]
  rfl

/-- The characters of a text before the symbols that follow it. -/
def chars (cs : List Char) (rest : List Symbol) : List Symbol := cs.map .char ++ rest

@[simp] theorem chars_nil (rest : List Symbol) : chars [] rest = rest := rfl

@[simp] theorem chars_cons (c : Char) (cs : List Char) (rest : List Symbol) :
    chars (c :: cs) rest = .char c :: chars cs rest := rfl

@[simp] theorem chars_append (cs more : List Char) (rest : List Symbol) :
    chars (cs ++ more) rest = chars cs (chars more rest) := by
  simp [chars]

theorem dropWhile_gap {gap : List Char} (blank : IsGap gap) (rest : List Symbol) :
    (chars gap rest).dropWhile isBlank = rest.dropWhile isBlank := by
  induction gap with
  | nil => rfl
  | cons c more ih =>
    have first : isBlank (.char c) = true := by
      have kind := blank c List.mem_cons_self
      simpa [isBlank, or_assoc] using kind
    rw [chars_cons, List.dropWhile_cons_of_pos first]
    exact ih fun d member => blank d (List.mem_cons_of_mem c member)

theorem blanks_gap {gap : List Char} (blank : IsGap gap) {s : Symbol}
    (solid : isBlank s = false) (rest : List Symbol) (p : Bool) :
    blanks ⟨chars gap (s :: rest), p⟩ = .ok (some s, ⟨s :: rest, true⟩) := by
  have stop : (s :: rest).dropWhile isBlank = s :: rest := by simp [solid]
  simp only [blanks, dropWhile_gap blank, stop]
  rfl

theorem blanks_gap_nil {gap : List Char} (blank : IsGap gap) (p : Bool) :
    blanks ⟨chars gap [], p⟩ = .ok (none, ⟨[], false⟩) := by
  simp only [blanks, dropWhile_gap blank]
  rfl

/-- What may stand after a value: nothing, a blank, or the mark after an item or a member. -/
def Ends (rest : List Symbol) : Prop :=
  ∀ s, rest.head? = some s →
    isBlank s = true ∨ s = .char ',' ∨ s = .char '}' ∨ s = .char ']'

theorem ends_mark {c : Char} (mark : c = ',' ∨ c = '}' ∨ c = ']') (rest : List Symbol) :
    Ends (.char c :: rest) := by
  intro s first
  cases first
  rcases mark with rfl | rfl | rfl <;> simp

theorem ends_gap {gap : List Char} (blank : IsGap gap) {rest : List Symbol} (ends : Ends rest) :
    Ends (chars gap rest) := by
  cases gap with
  | nil => exact ends
  | cons c more =>
    intro s first
    cases first
    have kind := blank c List.mem_cons_self
    exact .inl (by simpa [isBlank, or_assoc] using kind)

theorem ends_nil : Ends [] := by
  intro s first
  cases first

/-- The reader consumes the text and yields the value, whatever follows that ends it. -/
def Takes {α : Type} (r : Reader α) (cs : List Char) (a : α) : Prop :=
  ∀ (p : Bool) (rest : List Symbol), Ends rest →
    ∃ q, r ⟨chars cs rest, p⟩ = .ok (a, ⟨rest, q⟩)

/-- The reader takes every spelling of a value. -/
def Accepts {α : Type} (r : Reader α) (j : Json) (a : α) : Prop :=
  ∀ gap cs, IsGap gap → Spells j cs → Takes r (gap ++ cs) a

theorem Takes.bind {α β : Type} {r : Reader α} {cs : List Char} {a : α} (takes : Takes r cs a)
    {next : α → Reader β} {b : β} (pure : ∀ c, next a c = .ok (b, c)) :
    Takes (r >>= next) cs b := by
  intro p rest ends
  obtain ⟨q, read⟩ := takes p rest ends
  exact ⟨q, by rw [bind_ok read, pure]⟩

theorem Accepts.bind {α β : Type} {r : Reader α} {j : Json} {a : α} (accepts : Accepts r j a)
    {next : α → Reader β} {b : β} (pure : ∀ c, next a c = .ok (b, c)) :
    Accepts (r >>= next) j b :=
  fun gap cs blank spelled => (accepts gap cs blank spelled).bind pure

theorem advance_cons (s : Symbol) (rest : List Symbol) (p : Bool) :
    advance ⟨s :: rest, p⟩ = .ok ((), ⟨rest, false⟩) := rfl

theorem valueStart_gap {gap : List Char} (blank : IsGap gap) {c : Char}
    (solid : isBlank (.char c) = false) (rest : List Symbol) (p : Bool) :
    valueStart ⟨chars gap (.char c :: rest), p⟩ = .ok (.char c, ⟨.char c :: rest, true⟩) := by
  rw [valueStart, bind_ok (blanks_gap blank solid rest p)]
  rfl

theorem colon_gap {gap : List Char} (blank : IsGap gap) (rest : List Symbol) (p : Bool) :
    colon ⟨chars gap (.char ':' :: rest), p⟩ = .ok ((), ⟨rest, false⟩) := by
  rw [colon, bind_ok (blanks_gap blank (by decide) rest p)]
  rfl

theorem word_chars (cs : List Char) (rest : List Symbol) (p : Bool) :
    ∃ q, word cs ⟨chars cs rest, p⟩ = .ok ((), ⟨rest, q⟩) := by
  induction cs generalizing p with
  | nil => exact ⟨p, rfl⟩
  | cons c more ih =>
    obtain ⟨q, read⟩ := ih false
    refine ⟨q, ?_⟩
    rw [← read, word, bind_ok rfl]
    simp only [chars_cons, List.head?_cons, ↓reduceIte]
    rfl

theorem word_pure {α : Type} (c : Char) (cs : List Char) (a : α) (rest : List Symbol) (p : Bool) :
    ∃ q, (do advance; word cs; pure a : Reader α) ⟨.char c :: chars cs rest, p⟩ =
      .ok (a, ⟨rest, q⟩) := by
  obtain ⟨q, read⟩ := word_chars cs rest false
  refine ⟨q, ?_⟩
  rw [bind_ok (advance_cons _ _ _), bind_ok read]
  rfl

theorem bool_accepts (b : Bool) : Accepts bool (.bool b) b := by
  intro gap cs blank spelled p rest _
  cases spelled with
  | yes =>
    obtain ⟨q, read⟩ := word_pure 't' ['r', 'u', 'e'] true rest true
    refine ⟨q, ?_⟩
    rw [chars_append, chars_cons, bool, bind_ok (valueStart_gap blank (by decide) _ p)]
    exact read
  | no =>
    obtain ⟨q, read⟩ := word_pure 'f' ['a', 'l', 's', 'e'] false rest true
    refine ⟨q, ?_⟩
    rw [chars_append, chars_cons, bool, bind_ok (valueStart_gap blank (by decide) _ p)]
    exact read

theorem null_accepts (expected : String) : Accepts (null expected) .null () := by
  intro gap cs blank spelled p rest _
  cases spelled
  obtain ⟨q, read⟩ := word_chars ['u', 'l', 'l'] rest false
  refine ⟨q, ?_⟩
  rw [chars_append, chars_cons, null, bind_ok (valueStart_gap blank (by decide) _ p)]
  exact read

theorem optional_null {α : Type} (r : Reader α) : Accepts (optional r) .null none := by
  intro gap cs blank spelled p rest _
  cases spelled
  obtain ⟨q, read⟩ := word_pure 'n' ['u', 'l', 'l'] (none : Option α) rest true
  refine ⟨q, ?_⟩
  rw [chars_append, chars_cons, optional, bind_ok (blanks_gap blank (by decide) _ p)]
  exact read

theorem hexValue?_digit {value : Nat} {c : Char} (digit : IsHexDigit value c) :
    hexValue? (.char c) = some value ∧ (Symbol.char c).bytes.length = 1 := by
  obtain ⟨small, lower | upper⟩ := digit
  · subst lower
    interval_cases value <;> decide
  · subst upper
    interval_cases value <;> decide

theorem hexNumber?_unit {n : Nat} {digits : List Char} (spelled : SpellsUnit n digits) :
    hexNumber? (digits.map .char) = some n := by
  cases spelled with
  | digits ha hb hc hd =>
    simp [hexNumber?, (hexValue?_digit ha).1, (hexValue?_digit hb).1, (hexValue?_digit hc).1,
      (hexValue?_digit hd).1]
    omega

theorem body_hex {n : Nat} {digits : List Char} (spelled : SpellsUnit n digits)
    (skipped : Bool) (high : Option Nat) (content rest : List Symbol) :
    body skipped (.hex high []) content (chars digits rest) =
      if skipped then body skipped .plain content rest
      else match afterHex high n with
        | .error slip => .error ⟨.malformed slip, rest.length, 0⟩
        | .ok (mode, none) => body skipped mode content rest
        | .ok (mode, some c) => body skipped mode (c :: content) rest := by
  have number := hexNumber?_unit spelled
  cases spelled with
  | @digits a b c d first second third fourth ha hb hc hd =>
    have la := (hexValue?_digit ha).2
    have lb := (hexValue?_digit hb).2
    have lc := (hexValue?_digit hc).2
    have ld := (hexValue?_digit hd).2
    simp only [List.map_cons, List.map_nil] at number
    simp only [chars_cons, chars_nil, body, List.nil_append, List.cons_append, byteLength,
      List.flatMap_cons, List.flatMap_nil, List.length_append, List.length_nil, la, lb, lc, ld,
      number]
    rfl

theorem body_unit {n : Nat} {digits : List Char} (spelled : SpellsUnit n digits)
    (high : Option Nat) (content rest : List Symbol) {mode : Mode} {found : Option Symbol}
    (next : afterHex high n = .ok (mode, found)) :
    body false (.hex high []) content (chars digits rest) =
      body false mode (found.toList ++ content) rest := by
  rw [body_hex spelled, next]
  cases found <;> rfl

/-- Each spelling of a character adds this character to what has been read. -/
theorem body_char {c : Char} {cs : List Char} (spelled : SpellsChar c cs)
    (content rest : List Symbol) :
    body false .plain content (chars cs rest) = body false .plain (.char c :: content) rest := by
  cases spelled with
  | plain shown noQuote noSlash =>
    have visible : ¬ c.toNat < 32 := by omega
    simp [body, noQuote, noSlash, visible]
  | @letter name _ known =>
    simp only [letterEscapes, List.mem_cons, Prod.mk.injEq, List.not_mem_nil, or_false] at known
    rcases known with ⟨rfl, rfl⟩ | ⟨rfl, rfl⟩ | ⟨rfl, rfl⟩ | ⟨rfl, rfl⟩ | ⟨rfl, rfl⟩ |
      ⟨rfl, rfl⟩ | ⟨rfl, rfl⟩ | ⟨rfl, rfl⟩ <;> rfl
  | @unit _ digits spelled =>
    -- A character is no half of a pair, so that one unit spells it by itself.
    have lone : ¬ (0xDC00 ≤ c.toNat ∧ c.toNat ≤ 0xDFFF) ∧
        ¬ (0xD800 ≤ c.toNat ∧ c.toNat ≤ 0xDBFF) := by
      have valid := c.valid
      change c.toNat.isValidChar at valid
      unfold Nat.isValidChar at valid
      omega
    have next : afterHex none c.toNat = .ok (.plain, some (.char c)) := by
      simp only [afterHex, if_neg lone.1, if_neg lone.2, Char.ofNat_toNat]
    have start : body false .plain content (chars ('\\' :: 'u' :: digits) rest) =
        body false (.hex none []) content (chars digits rest) := by
      simp [body]
    rw [start, body_unit spelled none content rest next]
    rfl
  | @pair _ offset high low far first second =>
    have valid : c.toNat < 0x110000 := by
      have valid := c.valid
      change c.toNat.isValidChar at valid
      unfold Nat.isValidChar at valid
      omega
    -- The first unit waits for the second, and both give the character back.
    have opens : afterHex none (0xD800 + offset / 0x400) =
        .ok (.pairSlash (0xD800 + offset / 0x400), none) := by
      simp only [afterHex]
      rw [if_neg (by omega), if_pos (by omega)]
    have value : 0x10000 + (0xD800 + offset / 0x400 - 0xD800) * 0x400 +
        (0xDC00 + offset % 0x400 - 0xDC00) = c.toNat := by omega
    have closes : afterHex (some (0xD800 + offset / 0x400)) (0xDC00 + offset % 0x400) =
        .ok (.plain, some (.char c)) := by
      simp only [afterHex]
      rw [if_pos (by omega), value, Char.ofNat_toNat]
    have start : body false .plain content
        (chars ('\\' :: 'u' :: high ++ '\\' :: 'u' :: low) rest) =
        body false (.hex none []) content (chars high (chars ('\\' :: 'u' :: low) rest)) := by
      simp [body]
    have middle (h : Nat) : body false (.pairSlash h) content (chars ('\\' :: 'u' :: low) rest) =
        body false (.hex (some h) []) content (chars low rest) := by
      simp [body]
    rw [start, body_unit first none content _ opens]
    show body false (.pairSlash _) content _ = _
    rw [middle, body_unit second _ content rest closes]
    rfl

theorem body_chars {text cs : List Char} (spelled : SpellsChars text cs)
    (content rest : List Symbol) :
    body false .plain content (chars cs (.char '"' :: rest)) =
      .ok (content.reverse ++ text.map .char, rest) := by
  induction spelled generalizing content with
  | nil => simp [body]
  | cons first others ih =>
    rw [chars_append, body_char first, ih]
    simp

theorem string_chars {s : String} {cs : List Char} (spelled : SpellsChars s.toList cs)
    (rest : List Symbol) (p : Bool) :
    string ⟨chars cs (.char '"' :: rest), p⟩ = .ok (s, ⟨rest, false⟩) := by
  have whole : exactly? (s.toList.map .char) = some s := exactly?_symbols s
  simp only [string, body_chars spelled, List.reverse_nil, List.nil_append, whole]

theorem text_quote (expected : String) {gap : List Char} (blank : IsGap gap) (rest : List Symbol)
    (p : Bool) : text expected ⟨chars gap (.char '"' :: rest), p⟩ = string ⟨rest, false⟩ := by
  rw [text, bind_ok (valueStart_gap blank (by decide) _ p)]
  show (advance >>= fun _ => string) _ = _
  rw [bind_ok (advance_cons _ _ _)]

theorem text_spelled (expected : String) {gap cs : List Char} (blank : IsGap gap) {s : String}
    (spelled : SpellsString s cs) (rest : List Symbol) (p : Bool) :
    text expected ⟨chars gap (chars cs rest), p⟩ = .ok (s, ⟨rest, false⟩) := by
  cases spelled with | quoted content =>
  rw [List.cons_append, chars_cons, chars_append, text_quote expected blank]
  exact string_chars content rest false

theorem spellsString_unique {s t : String} {cs : List Char} (first : SpellsString s cs)
    (second : SpellsString t cs) : s = t := by
  have read := text_spelled "" isGap_nil first [] false
  rw [text_spelled "" isGap_nil second [] false] at read
  cases read
  rfl

theorem text_accepts (expected s : String) : Accepts (text expected) (.text s) s := by
  intro gap cs blank spelled p rest _
  cases spelled with | text spelled =>
  exact ⟨false, by rw [chars_append, text_spelled expected blank spelled]⟩

/-- A string is not null, so a reader of optional values reads it as a value. -/
theorem optional_text {α : Type} {r : Reader α} {s : String} {a : α}
    (accepts : Accepts r (.text s) a) : Accepts (optional r) (.text s) (some a) := by
  intro gap cs blank spelled p rest ends
  obtain ⟨q, read⟩ := accepts [] cs isGap_nil spelled true rest ends
  refine ⟨q, ?_⟩
  rw [List.nil_append] at read
  cases spelled with | text spelled =>
  cases spelled with | quoted content =>
  rw [chars_append, List.cons_append, chars_cons, optional,
    bind_ok (blanks_gap blank (by decide) _ p)]
  exact map_ok read some

end Reader

end ObsCatalog.Json
