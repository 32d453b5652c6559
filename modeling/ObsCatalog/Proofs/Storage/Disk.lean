import ObsCatalog.Storage.Disk

/-! Places on a disk that changes.

A path that leads to a place goes through directories alone. It leads to the same place as
long as no directory goes away, whatever is made or written elsewhere.
-/

set_option autoImplicit false

namespace ObsCatalog.Disk

variable {δ : Type} {d e : Disk δ} {place : Place} {path : String}

/-- The disk with the same working directory and at least the same directories. -/
structure Keeps (d e : Disk δ) : Prop where
  home : e.home = d.home
  directory : ∀ place, d.get? place = some .directory → e.get? place = some .directory

structure Extends (d e : Disk δ) : Prop where
  home : e.home = d.home
  entry : ∀ place entry, d.get? place = some entry → e.get? place = some entry

theorem Extends.keeps (grown : Extends d e) : Keeps d e :=
  ⟨grown.home, fun place found => grown.entry place _ found⟩

theorem Extends.refl (d : Disk δ) : Extends d d := ⟨rfl, fun _ _ => id⟩

theorem Extends.trans {f : Disk δ} (first : Extends d e) (second : Extends e f) : Extends d f :=
  ⟨second.home.trans first.home, fun place entry found =>
    second.entry place entry (first.entry place entry found)⟩

theorem Keeps.walk (kept : Keeps d e) {here : Place} {names : List String}
    (reached : d.walk here names = .ok place) : e.walk here names = .ok place := by
  induction names generalizing here with
  | nil => exact reached
  | cons name rest ih =>
    -- The walk only goes on through a directory, which is still one.
    rw [Disk.walk] at reached ⊢
    cases found : d.get? here with
    | none => simp [found] at reached
    | some entry =>
      cases entry with
      | text content => simp [found] at reached
      | database data => simp [found] at reached
      | directory =>
        rw [kept.directory here found]
        simp only [found] at reached ⊢
        split at reached
        · next same =>
          rw [if_pos same]
          exact ih reached
        next differs =>
          rw [if_neg differs]
          split at reached
          · next up =>
            rw [if_pos up]
            exact ih reached
          next down =>
            rw [if_neg down]
            split at reached
            · cases reached
            next short =>
              rw [if_neg short]
              exact ih reached

theorem locate_eq_ok_iff : d.locate path = .ok place ↔
    path ≠ "" ∧ path.toList.contains '\x00' = false ∧ path.utf8ByteSize < 4096 ∧
      d.walk (if Path.isAbsolute path then [] else d.home) (Path.names path) = .ok place := by
  unfold Disk.locate
  by_cases empty : path = ""
  · simp [empty]
  by_cases zero : path.toList.contains '\x00'
  · have member : '\x00' ∈ path.toList := by simpa using zero
    simp [member, empty]
  by_cases long : 4096 ≤ path.utf8ByteSize
  · simp only [if_neg empty, if_neg zero, if_pos long]
    simp
    omega
  · simp only [if_neg empty, if_neg zero, if_neg long]
    simp only [Bool.not_eq_true] at zero
    simp only [ne_eq, empty, not_false_eq_true, zero, Nat.not_le.1 long, true_and]

theorem locate_name {name : String} (home : d.get? d.home = some .directory)
    (single : Path.names name = [name]) (ordinary : name ≠ "" ∧ name ≠ "." ∧ name ≠ "..")
    (relative : Path.isAbsolute name = false) (clean : name.toList.contains '\x00' = false)
    (short : name.utf8ByteSize ≤ 255) : d.locate name = .ok (d.home ++ [name]) := by
  refine locate_eq_ok_iff.2 ⟨ordinary.1, clean, by omega, ?_⟩
  have still : ¬ (name = "" ∨ name = ".") := not_or.2 ⟨ordinary.1, ordinary.2.1⟩
  rw [relative, single]
  simp only [Bool.false_eq_true, if_false, Disk.walk, home, if_neg still, if_neg ordinary.2.2,
    if_neg (Nat.not_lt.2 short)]

theorem Keeps.locate (kept : Keeps d e) (reached : d.locate path = .ok place) :
    e.locate path = .ok place := by
  obtain ⟨named, clean, short, walked⟩ := locate_eq_ok_iff.1 reached
  refine locate_eq_ok_iff.2 ⟨named, clean, short, ?_⟩
  rw [kept.home]
  exact kept.walk walked

theorem get?_root (d : Disk δ) : d.get? [] = some .directory := rfl

theorem below_of_get?_ne (other : d.get? place ≠ some .directory) : place ≠ [] := by
  rintro rfl
  exact other d.get?_root

theorem keeps_put (other : d.get? place ≠ some .directory) (entry : Entry δ) :
    Keeps d (d.put place entry) where
  home := rfl
  directory := fun there found => by
    have elsewhere : there ≠ place := fun same => other (by rw [← same, found])
    rw [d.get?_put_other elsewhere entry, found]

theorem extends_put (absent : d.get? place = none) (entry : Entry δ) :
    Extends d (d.put place entry) where
  home := rfl
  entry := fun there known found => by
    have elsewhere : there ≠ place := fun same => by simp [← same, found] at absent
    rw [d.get?_put_other elsewhere entry, found]

theorem extends_put_same {entry : Entry δ} (below : place ≠ [])
    (found : d.get? place = some entry) : Extends d (d.put place entry) where
  home := rfl
  entry := fun there known foundThere => by
    by_cases same : there = place
    · subst same
      rw [d.get?_put_self below, ← found, foundThere]
    · rw [d.get?_put_other same, foundThere]

theorem writeDatabase_eq (reached : d.locate path = .ok place) (data : δ) :
    d.writeDatabase path data = d.put place (.database data) := by
  simp only [writeDatabase, reached]

theorem find_eq (reached : d.locate path = .ok place) :
    d.find path =
      match d.get? place with
      | some entry => .ok (place, entry)
      | none => .error .notFound := by
  simp only [Disk.find, reached, bind, Except.bind]
  cases d.get? place <;> rfl

theorem database?_eq (reached : d.locate path = .ok place) {data : δ}
    (found : d.get? place = some (.database data)) : d.database? path = some data := by
  simp only [database?, find_eq reached, found]

theorem makeDirectory_eq (made : d.makeDirectory path = .ok e) :
    ∃ place, d.get? place = none ∧ e = d.put place .directory := by
  unfold makeDirectory at made
  simp only [bind, Except.bind] at made
  split at made
  · cases made
  next place reached =>
    split at made
    · cases made
    next absent =>
      cases made
      exact ⟨place, absent, rfl⟩

/-- What holds from one disk to the next whenever a directory is made holds from the first to
the last when a directory is made with those above it. -/
theorem makeDirectoriesFrom_induction {related : Disk δ → Disk δ → Prop}
    (refl : ∀ d, related d d)
    (trans : ∀ {d e f}, related d e → related e f → related d f)
    (one : ∀ {d e path}, d.makeDirectory path = .ok e → related d e) {steps : Nat}
    (made : d.makeDirectoriesFrom steps path = .ok e) : related d e := by
  -- Each step makes one directory, perhaps after the one that it lies in.
  induction steps generalizing d e path with
  | zero =>
    unfold makeDirectoriesFrom at made
    split at made
    · cases made
      exact refl d
    split at made
    · next once =>
      cases made
      exact one once
    · cases made
    · split at made
      · cases made
        exact refl d
      · cases made
  | succ steps ih =>
    unfold makeDirectoriesFrom at made
    split at made
    · cases made
      exact refl d
    split at made
    · next once =>
      cases made
      exact one once
    · split at made
      · next left parent count _ =>
        obtain rfl : steps = left := by simpa using count
        split at made
        · cases made
        next above =>
          split at made
          · next last =>
            cases made
            exact trans (ih above) (one last)
          · split at made
            · cases made
              exact ih above
            · cases made
      · cases made
    · split at made
      · cases made
        exact refl d
      · cases made

theorem extends_makeDirectory (made : d.makeDirectory path = .ok e) : Extends d e := by
  obtain ⟨place, absent, rfl⟩ := makeDirectory_eq made
  exact extends_put absent .directory

theorem extends_makeDirectoriesFrom {steps : Nat}
    (made : d.makeDirectoriesFrom steps path = .ok e) : Extends d e :=
  makeDirectoriesFrom_induction .refl .trans extends_makeDirectory made

/-- Whatever is there and is no directory was there before. -/
def AddsDirectories (d e : Disk δ) : Prop :=
  ∀ place entry, e.get? place = some entry → d.get? place = some entry ∨ entry = .directory

theorem addsDirectories_makeDirectory (made : d.makeDirectory path = .ok e) :
    AddsDirectories d e := by
  obtain ⟨there, absent, rfl⟩ := makeDirectory_eq made
  intro place entry found
  by_cases same : place = there
  · subst same
    have other : d.get? place ≠ some .directory := by simp [absent]
    rw [d.get?_put_self (below_of_get?_ne other)] at found
    exact .inr (Option.some.inj found).symm
  · rw [d.get?_put_other same] at found
    exact .inl found

theorem addsDirectories_makeDirectoriesFrom {steps : Nat}
    (made : d.makeDirectoriesFrom steps path = .ok e) : AddsDirectories d e := by
  refine makeDirectoriesFrom_induction (fun _ _ _ => .inl) (fun early late place entry found => ?_)
    addsDirectories_makeDirectory made
  exact (late place entry found).elim (early place entry) .inr

def databaseAt (d : Disk δ) (place : Place) : Option δ :=
  match d.get? place with
  | some (.database data) => some data
  | _ => none

theorem databaseAt_eq_some_iff {data : δ} :
    d.databaseAt place = some data ↔ d.get? place = some (.database data) := by
  unfold databaseAt
  split
  · next found => simp [found]
  · next other =>
    constructor
    · nofun
    · exact fun found => absurd found (other data)

theorem database?_eq_databaseAt (reached : d.locate path = .ok place) :
    d.database? path = d.databaseAt place := by
  simp only [database?, find_eq reached, databaseAt]
  cases d.get? place with
  | none => rfl
  | some entry => cases entry <;> rfl

theorem exists_of_database? {data : δ} (known : d.database? path = some data) :
    ∃ place, d.locate path = .ok place ∧ d.get? place = some (.database data) := by
  cases reached : d.locate path with
  | error fault => simp [database?, Disk.find, reached, bind, Except.bind] at known
  | ok place =>
    rw [database?_eq_databaseAt reached, databaseAt_eq_some_iff] at known
    exact ⟨place, rfl, known⟩

theorem databaseAt_eq_none (none : ∀ there data, (there, .database data) ∉ d.entries)
    (place : Place) : d.databaseAt place = .none := by
  refine Option.eq_none_iff_forall_ne_some.2 fun data found => ?_
  rw [databaseAt_eq_some_iff, get?] at found
  split at found
  · cases found
  · obtain ⟨⟨there, entry⟩, known, same⟩ := Option.map_eq_some_iff.1 found
    obtain rfl : entry = .database data := same
    exact none there data (List.mem_of_find?_eq_some known)

theorem databaseAt_of_extends (grown : Extends d e)
    (old : ∀ place data, e.get? place = some (.database data) →
      d.get? place = some (.database data)) : e.databaseAt = d.databaseAt := by
  funext place
  refine Option.ext fun data => ?_
  rw [databaseAt_eq_some_iff, databaseAt_eq_some_iff]
  exact ⟨old place data, grown.entry place _⟩

theorem databaseAt_put_self (below : place ≠ []) (data : δ) :
    (d.put place (.database data)).databaseAt place = some data :=
  databaseAt_eq_some_iff.2 (d.get?_put_self below _)

theorem databaseAt_put_other {other : Place} (differs : other ≠ place) (entry : Entry δ) :
    (d.put place entry).databaseAt other = d.databaseAt other := by
  simp only [databaseAt, d.get?_put_other differs]

theorem databaseAt_put_text (absent : d.get? place = none) (content : List Text.Symbol) :
    (d.put place (.text content)).databaseAt = d.databaseAt := by
  refine databaseAt_of_extends (extends_put absent _) fun there data found => ?_
  have other : d.get? place ≠ some .directory := by simp [absent]
  by_cases same : there = place
  · subst same
    simp [d.get?_put_self (below_of_get?_ne other)] at found
  · rwa [d.get?_put_other same] at found

theorem databaseAt_of_addsDirectories (grown : Extends d e) (adds : AddsDirectories d e) :
    e.databaseAt = d.databaseAt :=
  databaseAt_of_extends grown fun place data found =>
    (adds place _ found).resolve_right (by simp)

theorem databaseAt_put_same {data : δ} (found : d.get? place = some (.database data)) :
    (d.put place (.database data)).databaseAt = d.databaseAt := by
  have other : d.get? place ≠ some .directory := by simp [found]
  funext there
  by_cases same : there = place
  · subst same
    rw [databaseAt_put_self (below_of_get?_ne other), databaseAt_eq_some_iff.2 found]
  · exact databaseAt_put_other same _

end ObsCatalog.Disk
