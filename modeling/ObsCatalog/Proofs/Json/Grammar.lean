import Mathlib.Tactic.SplitIfs
import ObsCatalog.Json.Value

/-! The grammar of JSON.

A value has many spellings. Gaps may stand around its parts, and a character of a
string stands for itself or for an escape of one letter, of four hexadecimal digits or
of a pair of these. The written forms are two of the spellings.
-/

set_option autoImplicit false

namespace ObsCatalog.Json

open Text

def IsGap (cs : List Char) : Prop := ∀ c ∈ cs, c = ' ' ∨ c = '\n' ∨ c = '\t' ∨ c = '\r'

theorem isGap_nil : IsGap [] := by
  intro c member
  cases member

theorem IsGap.append {cs more : List Char} (first : IsGap cs) (second : IsGap more) :
    IsGap (cs ++ more) := by
  intro c member
  exact (List.mem_append.1 member).elim (first c) (second c)

theorem isGap_space : IsGap [' '] := by
  intro c member
  exact .inl (List.mem_singleton.1 member)

theorem isGap_lineBreak (level : Nat) : IsGap (lineBreak level) := by
  intro c member
  rcases List.mem_cons.1 member with first | filler
  · exact .inr (.inl first)
  · exact .inl (List.eq_of_mem_replicate filler)

/-- Hexadecimal digits of either case. -/
def IsHexDigit (value : Nat) (c : Char) : Prop :=
  value < 16 ∧ (c = hexDigit value ∨ c = (hexDigit value).toUpper)

theorem isHexDigit_hexDigit {value : Nat} (small : value < 16) :
    IsHexDigit value (hexDigit value) :=
  ⟨small, .inl rfl⟩

inductive SpellsUnit : Nat → List Char → Prop
  | digits {a b c d : Nat} {first second third fourth : Char} (ha : IsHexDigit a first)
      (hb : IsHexDigit b second) (hc : IsHexDigit c third) (hd : IsHexDigit d fourth) :
      SpellsUnit (((a * 16 + b) * 16 + c) * 16 + d) [first, second, third, fourth]

/-- The letter after a backslash and the character that both stand for. -/
def letterEscapes : List (Char × Char) :=
  [('"', '"'), ('\\', '\\'), ('/', '/'), ('b', '\x08'), ('f', '\x0c'), ('n', '\n'),
    ('r', '\r'), ('t', '\t')]

/-- A character from 0x10000 on is the pair of numbers `0xD800 + offset / 0x400` and
`0xDC00 + offset % 0x400`, its offset being counted from 0x10000. -/
inductive SpellsChar : Char → List Char → Prop
  | plain {c : Char} (shown : 32 ≤ c.toNat) (noQuote : c ≠ '"') (noSlash : c ≠ '\\') :
      SpellsChar c [c]
  | letter {name c : Char} (known : (name, c) ∈ letterEscapes) : SpellsChar c ['\\', name]
  | unit {c : Char} {digits : List Char} (spelled : SpellsUnit c.toNat digits) :
      SpellsChar c ('\\' :: 'u' :: digits)
  | pair {c : Char} {offset : Nat} {high low : List Char} (far : c.toNat = 0x10000 + offset)
      (first : SpellsUnit (0xD800 + offset / 0x400) high)
      (second : SpellsUnit (0xDC00 + offset % 0x400) low) :
      SpellsChar c ('\\' :: 'u' :: high ++ '\\' :: 'u' :: low)

inductive SpellsChars : List Char → List Char → Prop
  | nil : SpellsChars [] []
  | cons {c : Char} {content cs more : List Char} (first : SpellsChar c cs)
      (others : SpellsChars content more) : SpellsChars (c :: content) (cs ++ more)

inductive SpellsString (s : String) : List Char → Prop
  | quoted {cs : List Char} (content : SpellsChars s.toList cs) :
      SpellsString s ('"' :: cs ++ ['"'])

mutual

/-- Numbers are spelled in their written form only. -/
inductive Spells : Json → List Char → Prop
  | null : Spells .null ['n', 'u', 'l', 'l']
  | yes : Spells (.bool true) ['t', 'r', 'u', 'e']
  | no : Spells (.bool false) ['f', 'a', 'l', 's', 'e']
  | integer (n : Int) : Spells (.integer n) (integerChars n)
  | real (x : Float) : Spells (.real x) (realText x)
  | text {s : String} {cs : List Char} (spelled : SpellsString s cs) : Spells (.text s) cs
  | array {items : List Json} {cs : List Char} (spelled : SpellsItems items cs) :
      Spells (.array items) ('[' :: cs ++ [']'])
  | object {members : List (String × Json)} {cs : List Char}
      (spelled : SpellsMembers members cs) : Spells (.object members) ('{' :: cs ++ ['}'])

inductive SpellsItems : List Json → List Char → Prop
  | none {gap : List Char} (blank : IsGap gap) : SpellsItems [] gap
  | one {before after cs : List Char} {item : Json} (hb : IsGap before)
      (spelled : Spells item cs) (ha : IsGap after) :
      SpellsItems [item] (before ++ cs ++ after)
  | more {before after cs others : List Char} {item next : Json} {rest : List Json}
      (hb : IsGap before) (spelled : Spells item cs) (ha : IsGap after)
      (tail : SpellsItems (next :: rest) others) :
      SpellsItems (item :: next :: rest) (before ++ cs ++ after ++ ',' :: others)

/-- Names, colons and values with gaps around each of them and commas between them. -/
inductive SpellsMembers : List (String × Json) → List Char → Prop
  | none {gap : List Char} (blank : IsGap gap) : SpellsMembers [] gap
  | one {before after cs : List Char} {member : String × Json} (hb : IsGap before)
      (spelled : SpellsMember member cs) (ha : IsGap after) :
      SpellsMembers [member] (before ++ cs ++ after)
  | more {before after cs others : List Char} {member next : String × Json}
      {rest : List (String × Json)} (hb : IsGap before) (spelled : SpellsMember member cs)
      (ha : IsGap after) (tail : SpellsMembers (next :: rest) others) :
      SpellsMembers (member :: next :: rest) (before ++ cs ++ after ++ ',' :: others)

inductive SpellsMember : String × Json → List Char → Prop
  | named {name : String} {value : Json} {before after title cs : List Char}
      (key : SpellsString name title) (hb : IsGap before) (ha : IsGap after)
      (spelled : Spells value cs) :
      SpellsMember (name, value) (title ++ before ++ ':' :: (after ++ cs))

end

/-- A text that holds one value. -/
def IsDocument (j : Json) (s : String) : Prop :=
  ∃ before cs after, IsGap before ∧ Spells j cs ∧ IsGap after ∧
    s.toList = before ++ cs ++ after

theorem spellsChar_escapeChar (c : Char) : SpellsChar c (escapeChar c) := by
  have known (name d : Char) (listed : (name, d) ∈ letterEscapes) (same : c = d) :
      SpellsChar c ['\\', name] := same ▸ .letter listed
  unfold escapeChar
  split_ifs with quote slash back feed line carriage tab control
  · exact known _ _ (by decide) quote
  · exact known _ _ (by decide) slash
  · exact known _ _ (by decide) back
  · exact known _ _ (by decide) feed
  · exact known _ _ (by decide) line
  · exact known _ _ (by decide) carriage
  · exact known _ _ (by decide) tab
  · have digits := SpellsUnit.digits (isHexDigit_hexDigit (show 0 < 16 by decide))
      (isHexDigit_hexDigit (show 0 < 16 by decide))
      (isHexDigit_hexDigit (show c.toNat / 16 < 16 by omega))
      (isHexDigit_hexDigit (show c.toNat % 16 < 16 by omega))
    have value : ((0 * 16 + 0) * 16 + c.toNat / 16) * 16 + c.toNat % 16 = c.toNat := by omega
    rw [value] at digits
    exact .unit digits
  · exact .plain (Nat.le_of_not_lt control) quote slash

theorem spellsString_stringText (s : String) : SpellsString s (stringText s) := by
  refine .quoted ?_
  induction s.toList with
  | nil => exact .nil
  | cons c rest ih => exact .cons (spellsChar_escapeChar c) ih

mutual

theorem spells_compactChars : (j : Json) → Spells j (compactChars j)
  | .null => .null
  | .bool true => .yes
  | .bool false => .no
  | .integer n => .integer n
  | .real x => .real x
  | .text s => .text (spellsString_stringText s)
  | .array items => .array (spellsItems_compactItems items)
  | .object members => .object (spellsMembers_compactMembers members)

theorem spellsItems_compactItems : (items : List Json) → SpellsItems items (compactItems items)
  | [] => .none isGap_nil
  | [item] => by
    have single := SpellsItems.one isGap_nil (spells_compactChars item) isGap_nil
    simpa [compactItems] using single
  | item :: next :: rest => by
    have several := SpellsItems.more isGap_nil (spells_compactChars item) isGap_nil
      (spellsItems_compactItems (next :: rest))
    simpa [compactItems] using several

theorem spellsMembers_compactMembers :
    (members : List (String × Json)) → SpellsMembers members (compactMembers members)
  | [] => .none isGap_nil
  | [(name, value)] => by
    have single := SpellsMembers.one isGap_nil (.named (spellsString_stringText name) isGap_nil
      isGap_nil (spells_compactChars value)) isGap_nil
    simpa [compactMembers] using single
  | (name, value) :: next :: rest => by
    have several := SpellsMembers.more isGap_nil (.named (spellsString_stringText name)
      isGap_nil isGap_nil (spells_compactChars value)) isGap_nil
      (spellsMembers_compactMembers (next :: rest))
    simpa [compactMembers] using several

end

mutual

theorem spells_prettyChars : (j : Json) → (level : Nat) → Spells j (prettyChars level j)
  | .null, _ => .null
  | .bool true, _ => .yes
  | .bool false, _ => .no
  | .integer n, _ => .integer n
  | .real x, _ => .real x
  | .text s, _ => .text (spellsString_stringText s)
  | .array [], _ => .array (.none isGap_nil)
  | .array (item :: rest), level =>
    .array (spellsItems_prettyItems (item :: rest) (level + 1) (isGap_lineBreak level))
  | .object [], _ => .object (.none isGap_nil)
  | .object (member :: rest), level =>
    .object (spellsMembers_prettyMembers (member :: rest) (level + 1) (isGap_lineBreak level))

theorem spellsItems_prettyItems : (items : List Json) → (level : Nat) → {gap : List Char} →
    IsGap gap → SpellsItems items (prettyItems level items ++ gap)
  | [], _, _, blank => .none blank
  | [item], level, _, blank => .one (isGap_lineBreak level) (spells_prettyChars item level) blank
  | item :: next :: rest, level, gap, blank => by
    have several := SpellsItems.more (isGap_lineBreak level) (spells_prettyChars item level)
      isGap_nil (spellsItems_prettyItems (next :: rest) level blank)
    simpa [prettyItems] using several

theorem spellsMembers_prettyMembers : (members : List (String × Json)) → (level : Nat) →
    {gap : List Char} → IsGap gap → SpellsMembers members (prettyMembers level members ++ gap)
  | [], _, _, blank => .none blank
  | [(name, value)], level, gap, blank => by
    have single := SpellsMembers.one (isGap_lineBreak level)
      (.named (spellsString_stringText name) isGap_nil isGap_space
        (spells_prettyChars value level)) blank
    simpa [prettyMembers] using single
  | (name, value) :: next :: rest, level, gap, blank => by
    have several := SpellsMembers.more (isGap_lineBreak level)
      (.named (spellsString_stringText name) isGap_nil isGap_space
        (spells_prettyChars value level)) isGap_nil
      (spellsMembers_prettyMembers (next :: rest) level blank)
    simpa [prettyMembers] using several

end

theorem isDocument_compact (j : Json) : IsDocument j j.compact :=
  ⟨[], compactChars j, [], isGap_nil, spells_compactChars j, isGap_nil, by simp [compact]⟩

theorem isDocument_pretty (j : Json) : IsDocument j j.pretty :=
  ⟨[], prettyChars 0 j, [], isGap_nil, spells_prettyChars j 0, isGap_nil, by simp [pretty]⟩

end ObsCatalog.Json
