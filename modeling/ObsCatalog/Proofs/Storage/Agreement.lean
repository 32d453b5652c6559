import ObsCatalog.Proofs.Storage.Disk

/-! Disks with the same entries.

Two disks agree if they have the same entry at every place, however they list them. Nothing that is
read from a disk, written to it or made on it tells such disks apart.
-/

set_option autoImplicit false

namespace ObsCatalog.Disk

variable {δ ε : Type} {d e : Disk δ}

structure Agree (d e : Disk δ) : Prop where
  home : d.home = e.home
  get? : d.get? = e.get?

theorem Agree.refl (d : Disk δ) : Agree d d := ⟨rfl, rfl⟩

theorem Agree.symm (agree : Agree d e) : Agree e d := ⟨agree.home.symm, agree.get?.symm⟩

theorem Agree.trans {f : Disk δ} (first : Agree d e) (second : Agree e f) : Agree d f :=
  ⟨first.home.trans second.home, first.get?.trans second.get?⟩

inductive AgreeOutcome : Except ε (Disk δ) → Except ε (Disk δ) → Prop
  | ok {d e : Disk δ} : Agree d e → AgreeOutcome (.ok d) (.ok e)
  | error (fault : ε) : AgreeOutcome (.error fault) (.error fault)

theorem Agree.walk (agree : Agree d e) (here : Place) (names : List String) :
    d.walk here names = e.walk here names := by
  induction names generalizing here with
  | nil => rfl
  | cons name rest ih =>
    rw [Disk.walk, Disk.walk, agree.get?, ih, ih, ih]

theorem Agree.locate (agree : Agree d e) (path : String) : d.locate path = e.locate path := by
  unfold Disk.locate
  rw [agree.home, agree.walk]

theorem Agree.find (agree : Agree d e) (path : String) : d.find path = e.find path := by
  unfold Disk.find
  rw [agree.locate, agree.get?]

theorem Agree.database? (agree : Agree d e) (path : String) :
    d.database? path = e.database? path := by
  unfold Disk.database?
  rw [agree.find]

theorem Agree.hasDirectory (agree : Agree d e) (path : String) :
    d.hasDirectory path = e.hasDirectory path := by
  unfold Disk.hasDirectory
  rw [agree.find]

theorem get?_put (d : Disk δ) (place there : Place) (entry : Entry δ) :
    (d.put place entry).get? there =
      if there = [] then some .directory
      else if there = place then some entry else d.get? there := by
  by_cases root : there = []
  · rw [if_pos root, root, get?_root]
  by_cases same : there = place
  · subst same
    rw [if_neg root, if_pos rfl, d.get?_put_self root]
  · rw [if_neg root, if_neg same, d.get?_put_other same]

theorem Agree.put (agree : Agree d e) (place : Place) (entry : Entry δ) :
    Agree (d.put place entry) (e.put place entry) where
  home := agree.home
  get? := by
    funext there
    rw [get?_put, get?_put, agree.get?]

theorem agree_put_same {place : Place} {entry : Entry δ} (found : d.get? place = some entry)
    (below : place ≠ []) : Agree d (d.put place entry) where
  home := rfl
  get? := by
    funext there
    by_cases same : there = place
    · subst same
      rw [d.get?_put_self below, found]
    · rw [d.get?_put_other same]

theorem Agree.writeDatabase (agree : Agree d e) (path : String) (data : δ) :
    Agree (d.writeDatabase path data) (e.writeDatabase path data) := by
  unfold Disk.writeDatabase
  rw [agree.locate]
  cases e.locate path with
  | ok place => exact agree.put place (.database data)
  | error fault => exact agree

theorem Agree.makeDirectory (agree : Agree d e) (path : String) :
    AgreeOutcome (d.makeDirectory path) (e.makeDirectory path) := by
  unfold Disk.makeDirectory
  simp only [bind, Except.bind, agree.locate, agree.get?]
  split
  · exact .error _
  · next place reached =>
    cases e.get? place with
    | some entry => exact .error _
    | none => exact .ok (agree.put place .directory)

theorem Agree.makeDirectory_or_has (agree : Agree d e) (path : String) :
    AgreeOutcome
      (match d.makeDirectory path with
        | .ok d => .ok d
        | .error fault => if d.hasDirectory path then .ok d else .error fault)
      (match e.makeDirectory path with
        | .ok e => .ok e
        | .error fault => if e.hasDirectory path then .ok e else .error fault) := by
  have once := agree.makeDirectory path
  rw [agree.hasDirectory]
  generalize d.makeDirectory path = made, e.makeDirectory path = other at once
  cases once with
  | ok agreeMade => exact .ok agreeMade
  | error fault =>
    cases e.hasDirectory path with
    | true => exact .ok agree
    | false => exact .error fault

theorem Agree.makeDirectory_or_above (agree : Agree d e) (path : String)
    {above other : Except DiskFault (Disk δ)} (outcome : AgreeOutcome above other) :
    AgreeOutcome
      (match d.makeDirectory path with
        | .ok d => .ok d
        | .error .notFound => above
        | .error fault => if d.hasDirectory path then .ok d else .error fault)
      (match e.makeDirectory path with
        | .ok e => .ok e
        | .error .notFound => other
        | .error fault => if e.hasDirectory path then .ok e else .error fault) := by
  have once := agree.makeDirectory_or_has path
  have made := agree.makeDirectory path
  generalize d.makeDirectory path = left, e.makeDirectory path = right at once made
  cases made with
  | ok agreeMade => exact .ok agreeMade
  | error fault =>
    cases fault with
    | notFound => exact outcome
    | _ => exact once

theorem Agree.makeDirectoriesFrom (agree : Agree d e) (steps : Nat) (path : String) :
    AgreeOutcome (d.makeDirectoriesFrom steps path) (e.makeDirectoriesFrom steps path) := by
  induction steps generalizing d e path with
  | zero =>
    unfold Disk.makeDirectoriesFrom
    split
    · exact .ok agree
    · exact agree.makeDirectory_or_above path (.error _)
  | succ steps ih =>
    unfold Disk.makeDirectoriesFrom
    split
    · exact .ok agree
    refine agree.makeDirectory_or_above path ?_
    cases Path.parent? path with
    | none => exact .error _
    | some parent =>
      have above := ih agree parent
      simp only
      generalize d.makeDirectoriesFrom steps parent = left,
        e.makeDirectoriesFrom steps parent = right at above
      cases above with
      | ok agreeAbove => exact agreeAbove.makeDirectory_or_has path
      | error fault => exact .error fault

theorem Agree.makeDirectories (agree : Agree d e) (path : String) :
    AgreeOutcome (d.makeDirectories path) (e.makeDirectories path) :=
  agree.makeDirectoriesFrom path.length path

end ObsCatalog.Disk
