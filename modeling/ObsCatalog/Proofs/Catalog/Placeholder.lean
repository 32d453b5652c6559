import ObsCatalog.Catalog.Filter
import ObsCatalog.Proofs.Sql.Conjunction

/-! Placeholders outside of quotes.

The clause of a filter is read from the left with the quote that is open, and only characters
outside of quotes count. Each of them is taken with the one that follows it, because that tells
a placeholder with a number or a name from others. A text that leaves no quote open has the same
marks wherever a closing parenthesis comes right after it, only at other places.
-/

set_option autoImplicit false

namespace ObsCatalog.Filter

open Sql.Condition (joined)

def quoteAfter : Option Char → Char → Option Char
  | some quote, c => if c = quote then none else some quote
  | none, c => if c = '\'' ∨ c = '"' then some c else none

def quoteLeft (quote : Option Char) (cs : List Char) : Option Char := cs.foldl quoteAfter quote

theorem quoteLeft_append (quote : Option Char) (cs ds : List Char) :
    quoteLeft quote (cs ++ ds) = quoteLeft (quoteLeft quote cs) ds := List.foldl_append

variable {cs : List Char}

def isQuote (c : Char) : Bool := c = '\'' || c = '"'

theorem quoteAfter_of_isQuote {c : Char} (quote : isQuote c) : quoteAfter none c = some c := by
  simp only [isQuote, Bool.or_eq_true, decide_eq_true_eq] at quote
  exact if_pos quote

theorem quoteAfter_of_not_isQuote {c : Char} (other : isQuote c = false) :
    quoteAfter none c = none := by
  simp_all [isQuote, quoteAfter]

theorem quoteLeft_of_not_isQuote (others : ∀ c ∈ cs, isQuote c = false) :
    quoteLeft none cs = none := by
  induction cs with
  | nil => rfl
  | cons c rest ih =>
    obtain ⟨first, others⟩ := List.forall_mem_cons.1 others
    rw [quoteLeft, List.foldl_cons, quoteAfter_of_not_isQuote first]
    exact ih others

/-- A character outside of quotes, with its place and what follows it. -/
structure Mark where
  place : Nat
  char : Char
  next : Option Char
  deriving DecidableEq

namespace Mark

def isPositional (m : Mark) : Bool := m.next.elim false (beginsPositional m.char)

def isAnonymous (m : Mark) : Bool := m.char = '?' && m.next.elim true fun c => !c.isDigit

def shift (count : Nat) (m : Mark) : Mark := { m with place := m.place + count }

def before (next : Option Char) (m : Mark) : Mark := { m with next := m.next.or next }

def isPlain (c : Char) : Bool := !(['?', ':', '@', '$', '\'', '"'].contains c)

/-- A kind of mark that does not depend on its place, and for which the end of a text is as good
as a closing parenthesis after it. -/
structure IsKind (kind : Mark → Bool) : Prop where
  shift : ∀ count m, kind (m.shift count) = kind m
  close : ∀ m, kind (m.before (some ')')) = kind m
  plain : ∀ m, isPlain m.char → kind m = false

theorem isKind_isPositional : IsKind isPositional where
  shift _ _ := rfl
  close m := by
    obtain ⟨place, char, next⟩ := m
    cases next with
    | some c => rfl
    | none =>
      have digit : Char.isDigit ')' = false := rfl
      have letter : Char.isAlpha ')' = false := rfl
      simp [isPositional, before, beginsPositional, digit, letter]
  plain m plain := by
    obtain ⟨place, char, next⟩ := m
    cases next with
    | none => rfl
    | some c =>
      simp only [isPlain, List.contains_cons, Bool.not_eq_true', Bool.or_eq_false_iff] at plain
      simp_all [isPositional, beginsPositional]

theorem isKind_isAnonymous : IsKind isAnonymous where
  shift _ _ := rfl
  close m := by
    obtain ⟨place, char, next⟩ := m
    cases next <;> rfl
  plain m plain := by
    simp only [isPlain, List.contains_cons, Bool.not_eq_true', Bool.or_eq_false_iff] at plain
    simp_all [isAnonymous]

end Mark

/-- The characters of a text outside of quotes. The first one stands at a place. -/
def marks : Option Char → Nat → List Char → List Mark
  | _, _, [] => []
  | quote, place, c :: rest =>
    let others := marks (quoteAfter quote c) (place + 1) rest
    if quote = none ∧ quoteAfter quote c = none then ⟨place, c, rest.head?⟩ :: others else others

theorem positionalFrom_eq (quote : Option Char) (place : Nat) (cs : List Char) :
    positionalFrom quote cs = (marks quote place cs).any Mark.isPositional := by
  induction cs generalizing quote place with
  | nil => cases quote <;> rfl
  | cons c rest ih =>
    have others (quote : Option Char) := ih quote (place + 1)
    cases quote with
    | some quote => simp [positionalFrom, marks, quoteAfter, others]
    | none =>
      by_cases opens : c = '\'' ∨ c = '"'
      · simp [positionalFrom, marks, quoteAfter, opens, others]
      · simp [positionalFrom, marks, quoteAfter, opens, others, Mark.isPositional]

theorem marks_shift (quote : Option Char) (place count : Nat) (cs : List Char) :
    marks quote (place + count) cs = (marks quote place cs).map (Mark.shift count) := by
  induction cs generalizing quote place with
  | nil => rfl
  | cons c rest ih =>
    have others := ih (quoteAfter quote c) (place + 1)
    rw [Nat.add_right_comm] at others
    simp only [marks, others]
    split <;> rfl

theorem marks_append (quote : Option Char) (place : Nat) (cs ds : List Char) :
    marks quote place (cs ++ ds) = (marks quote place cs).map (Mark.before ds.head?) ++
      marks (quoteLeft quote cs) (place + cs.length) ds := by
  induction cs generalizing quote place with
  | nil => rfl
  | cons c rest ih =>
    have others := ih (quoteAfter quote c) (place + 1)
    rw [Nat.add_right_comm, Nat.add_assoc, ← List.length_cons (a := c)] at others
    have next : (rest ++ ds).head? = rest.head?.or ds.head? := List.head?_append
    simp only [List.cons_append, marks, others, next]
    split <;> rfl

def places (kind : Mark → Bool) (quote : Option Char) (place : Nat) (cs : List Char) : List Nat :=
  ((marks quote place cs).filter kind).map (·.place)

variable {kind : Mark → Bool}

theorem not_isQuote_of_isPlain {c : Char} (plain : Mark.isPlain c) : isQuote c = false := by
  simp only [Mark.isPlain, List.contains_cons, Bool.not_eq_true', Bool.or_eq_false_iff] at plain
  simp_all [isQuote]

theorem places_plain (known : Mark.IsKind kind) (place : Nat) {c : Char} (plain : Mark.isPlain c)
    (rest : List Char) :
    places kind none place (c :: rest) = places kind none (place + 1) rest := by
  have unquoted := quoteAfter_of_not_isQuote (not_isQuote_of_isPlain plain)
  simp [places, marks, unquoted, known.plain ⟨place, c, rest.head?⟩ plain]

theorem places_plain_append (known : Mark.IsKind kind) (place : Nat) {cs : List Char}
    (plain : ∀ c ∈ cs, Mark.isPlain c) (rest : List Char) :
    places kind none place (cs ++ rest) = places kind none (place + cs.length) rest := by
  induction cs generalizing place with
  | nil => rfl
  | cons c cs ih =>
    obtain ⟨first, others⟩ := List.forall_mem_cons.1 plain
    rw [List.cons_append, places_plain known place first, ih (place + 1) others, Nat.add_assoc,
      Nat.add_comm 1, List.length_cons]

theorem places_append (known : Mark.IsKind kind) (quote : Option Char) (place : Nat)
    (cs rest : List Char) :
    places kind quote place (cs ++ ')' :: rest) = places kind quote place cs ++
      places kind (quoteLeft quote cs) (place + cs.length) (')' :: rest) := by
  have same : kind ∘ Mark.before (some ')') = kind := funext known.close
  simp only [places, marks_append, List.filter_append, List.map_append, List.head?_cons,
    List.filter_map, List.map_map, same]
  rfl

theorem places_shift (known : Mark.IsKind kind) (quote : Option Char) (place : Nat)
    (cs : List Char) :
    places kind quote place cs = (places kind quote 0 cs).map (· + place) := by
  have shifted := marks_shift quote 0 place cs
  rw [Nat.zero_add] at shifted
  have same : kind ∘ Mark.shift place = kind := funext (known.shift place)
  simp only [places, shifted, List.filter_map, List.map_map, same]
  rfl

theorem places_close (known : Mark.IsKind kind) (place : Nat) {cs : List Char}
    (closed : quoteLeft none cs = none) (rest : List Char) :
    places kind none place (cs ++ ')' :: rest) = (places kind none 0 cs).map (· + place) ++
      places kind none (place + cs.length + 1) rest := by
  rw [places_append known, closed, places_shift known, places_plain known _ (by decide)]

def IsClosed (clause : String) : Prop := quoteLeft none clause.toList = none

def placeholders (clause : String) : List Nat := places Mark.isAnonymous none 0 clause.toList

theorem hasPositional_eq_false_iff {clause : String} :
    hasPositional clause = false ↔ places Mark.isPositional none 0 clause.toList = [] := by
  rw [hasPositional, positionalFrom_eq none 0]
  simp [places]

theorem toList_joined (a b : String) : (joined a b).toList = '(' :: (a.toList ++
    ')' :: ' ' :: 'A' :: 'N' :: 'D' :: ' ' :: '(' :: (b.toList ++ [')'])) := by
  simp [joined]

variable {a b : String}

theorem IsClosed.joined (left : IsClosed a) (right : IsClosed b) : IsClosed (joined a b) := by
  simp only [IsClosed, quoteLeft] at left right
  simp [IsClosed, quoteLeft, toList_joined, List.foldl_append, quoteAfter, left, right]

theorem places_joined (known : Mark.IsKind kind) (left : IsClosed a) (right : IsClosed b) :
    places kind none 0 (joined a b).toList =
      (places kind none 0 a.toList).map (· + 1) ++
        (places kind none 0 b.toList).map (· + (a.length + 8)) := by
  have second : 0 + 1 + a.toList.length + 1 + 6 = a.length + 8 := by
    rw [String.length_toList]
    omega
  rw [toList_joined, places_plain known _ (by decide), places_close known _ left]
  repeat rw [places_plain known _ (by decide)]
  rw [places_close known _ right, second]
  exact congrArg (_ ++ ·) (List.append_nil _)

end ObsCatalog.Filter
