import ObsCatalog.Proofs.Catalog.Session
import Mathlib.Data.Finmap

/-! Stores.

A store is a catalog as a caller may think of it: sources under their ids and observations
under theirs. What a handle answers is what the store allows, whatever the operations and
their order, so nothing of tables, columns and encodings shows. Entries are only added, each
under an id that was free.
-/

set_option autoImplicit false

namespace ObsCatalog

structure Store where
  sources : Finmap fun _ : Int64 => Source
  observations : Finmap fun _ : Int64 => Observation

namespace Store

def empty : Store := ⟨∅, ∅⟩

def rows (store : Store) : Table → Multiset Row
  | .source => store.sources.entries.map (·.2.row)
  | .observation => store.observations.entries.map (·.2.row)

def row? (store : Store) (id : Int64) : Table → Option Row
  | .source => (store.sources.lookup id).map Source.row
  | .observation => (store.observations.lookup id).map Observation.row

/-- What becomes of inserting a source: it is kept under a new id with its time cut to the
second. -/
inductive TakesSource (store : Store) (s : Source) : Except CatalogFault Int64 → Store → Prop where
  | kept {id : Int64} {time : Calendar.Instant} : id ∉ store.sources →
      s.createTime.IsCut time →
      TakesSource store s (.ok id) { store with
        sources := store.sources.insert id { s with id, createTime := time } }
  | full : Int64.maxValue ∈ store.sources → TakesSource store s (.error (.query .full)) store

/-- The fields of an observation under an id; reals are equal as numbers. -/
structure IsEntry (o : Observation) (id : Int64) (entry : Observation) : Prop where
  id : entry.id = id
  sourceId : entry.sourceId = o.sourceId
  julianDate : (entry.julianDate == o.julianDate) = true
  polarization : entry.polarization = o.polarization
  lengthDays : (entry.lengthDays == o.lengthDays) = true

inductive Refuses (store : Store) (o : Observation) : IdPolicy → CatalogFault → Prop where
  | missingId : o.id ≤ 0 → Refuses store o .assigned .missingId
  | usedId : o.id ∈ store.observations →
      Refuses store o .assigned (.query (.duplicateKey Table.observation.name "id"))
  | full : Int64.maxValue ∈ store.observations → Refuses store o .generated (.query .full)
  | noJulianDate {policy : IdPolicy} : o.julianDate.isNaN →
      Refuses store o policy (.query (.required Table.observation.name "julian_date"))
  | noLength {policy : IdPolicy} : o.lengthDays.isNaN →
      Refuses store o policy (.query (.required Table.observation.name "length_days"))
  | unknownSource {policy : IdPolicy} : o.sourceId ∉ store.sources →
      Refuses store o policy (.query .reference)

/-- What becomes of inserting an observation: unless it is refused it is kept, under its own
id or a new one. -/
inductive TakesObservation (store : Store) (o : Observation) (policy : IdPolicy) :
    Except CatalogFault Int64 → Store → Prop where
  | kept {id : Int64} {entry : Observation} : id ∉ store.observations →
      o.sourceId ∈ store.sources → (policy = .assigned → 0 < o.id ∧ id = o.id) →
      IsEntry o id entry →
      TakesObservation store o policy (.ok id) { store with
        observations := store.observations.insert id entry }
  | refused {fault : CatalogFault} : store.Refuses o policy fault →
      TakesObservation store o policy (.error fault) store

/-- What a store allows as the answer to an operation, and what it is afterwards. What is
found under a filter is left open. -/
def Allows (d : Deployment) (store : Store) :
    (op : Operation) → Except CatalogFault op.Result → Store → Prop
  | .insertSource s _, result, after => store.TakesSource s result after
  | .insertObservation o policy _, result, after => store.TakesObservation o policy result after
  | .getSource id, result, after => result = .ok (store.sources.lookup id) ∧ after = store
  | .getObservation id, result, after =>
    result = .ok (store.observations.lookup id) ∧ after = store
  | .findSource _, _, after => after = store
  | .listSources none _, result, after =>
    (∃ list : List Source, result = .ok list ∧ ↑list = store.sources.entries.map (·.2)) ∧
      after = store
  | .listSources (some _) _, _, after => after = store
  | .listObservations none _, result, after =>
    (∃ list : List Observation, result = .ok list ∧
      ↑list = store.observations.entries.map (·.2)) ∧ after = store
  | .listObservations (some _) _, _, after => after = store
  | .enumerate t none _, result, after =>
    (∃ list : List Row, result = .ok list ∧ ↑list = store.rows t) ∧ after = store
  | .enumerate _ (some _) _, _, after => after = store
  | .lookup t id, result, after => result = .ok (store.row? id t) ∧ after = store
  | .statistics, result, after =>
    (∃ fileBytes, result = .ok ⟨d, store.sources.keys.card, store.observations.keys.card,
      fileBytes⟩) ∧ after = store

abbrev Answer := (op : Operation) × Except CatalogFault op.Result

/-- A store that starts as one and ends as another allows the answers, one after the other. -/
inductive Explains (d : Deployment) : Store → List Answer → Store → Prop where
  | nil (store : Store) : Explains d store [] store
  | cons {before after final : Store} {op : Operation} {result : Except CatalogFault op.Result}
      {answers : List Answer} : before.Allows d op result after →
      Explains d after answers final → Explains d before (⟨op, result⟩ :: answers) final

/-- A store has every entry of another as it is there. -/
structure Retains (before after : Store) : Prop where
  sources : ∀ {id : Int64} {s : Source},
    before.sources.lookup id = some s → after.sources.lookup id = some s
  observations : ∀ {id : Int64} {o : Observation},
    before.observations.lookup id = some o → after.observations.lookup id = some o

variable {d : Deployment} {before after store : Store}

theorem Retains.refl (store : Store) : store.Retains store := ⟨id, id⟩

theorem Retains.trans {final : Store} (early : before.Retains after)
    (late : after.Retains final) : before.Retains final :=
  ⟨late.sources ∘ early.sources, late.observations ∘ early.observations⟩

theorem lookup_insert_of_free {α : Type} {entries : Finmap fun _ : Int64 => α} {new id : Int64}
    {a entry : α} (free : new ∉ entries) (found : entries.lookup id = some a) :
    (entries.insert new entry).lookup id = some a := by
  have differs : id ≠ new := by
    rintro rfl
    exact free (Finmap.mem_of_lookup_eq_some found)
  rw [Finmap.lookup_insert_of_ne _ differs, found]

/-- Whatever is answered, no entry is changed or removed. -/
theorem Allows.retains {op : Operation} {result : Except CatalogFault op.Result}
    (allows : before.Allows d op result after) : before.Retains after := by
  cases op with
  | insertSource s draws =>
    cases allows with
    | kept free _ => exact ⟨lookup_insert_of_free free, id⟩
    | full => exact .refl _
  | insertObservation o policy draws =>
    cases allows with
    | kept free => exact ⟨id, lookup_insert_of_free free⟩
    | refused => exact .refl _
  | getSource id => exact allows.2 ▸ .refl _
  | getObservation id => exact allows.2 ▸ .refl _
  | findSource authenticator => exact (show after = before from allows) ▸ .refl _
  | listSources filter engine =>
    cases filter with
    | none => exact allows.2 ▸ .refl _
    | some filter => exact (show after = before from allows) ▸ .refl _
  | listObservations filter engine =>
    cases filter with
    | none => exact allows.2 ▸ .refl _
    | some filter => exact (show after = before from allows) ▸ .refl _
  | enumerate t filter engine =>
    cases filter with
    | none => exact allows.2 ▸ .refl _
    | some filter => exact (show after = before from allows) ▸ .refl _
  | lookup t id => exact allows.2 ▸ .refl _
  | statistics => exact allows.2 ▸ .refl _

/-- A part of the answers is explained by a store whose entries are there at the end. -/
theorem Explains.take {answers : List Answer} (explains : Explains d before answers after)
    (n : Nat) :
    ∃ middle, Explains d before (answers.take n) middle ∧ middle.Retains after := by
  have retains {store final : Store} {rest : List Answer} (explains : Explains d store rest final) :
      store.Retains final := by
    induction explains with
    | nil store => exact .refl store
    | cons allows _ ih => exact allows.retains.trans ih
  induction explains generalizing n with
  | nil store =>
    rw [List.take_nil]
    exact ⟨store, .nil store, .refl store⟩
  | @cons before _ _ op result answers allows explains ih =>
    cases n with
    | zero => exact ⟨before, .nil before, retains (.cons allows explains)⟩
    | succ n =>
      obtain ⟨middle, early, late⟩ := ih n
      exact ⟨middle, .cons allows early, late⟩

end Store

namespace Shelf

open Kept

variable {α : Type} [Kept α] {s : Shelf α} {entries : Finmap fun _ : Int64 => α}

def entry (a : α) : (_ : Int64) × α := ⟨key a, a⟩

/-- A map has the entries of the shelf under their ids. -/
def Maps (s : Shelf α) (entries : Finmap fun _ : Int64 => α) : Prop :=
  entries.entries = ↑(s.entries.map entry)

theorem maps_empty : (empty : Shelf α).Maps ∅ := rfl

theorem Maps.lookup (maps : s.Maps entries) (sound : s.Sound) (id : Int64) :
    entries.lookup id = s.get? id := by
  refine Option.ext fun a => ?_
  rw [sound.get?_eq_some_iff, ← Option.mem_def, Finmap.mem_lookup_iff, maps, Multiset.mem_coe,
    List.mem_map]
  constructor
  · rintro ⟨b, member, same⟩
    cases same
    exact ⟨member, rfl⟩
  · rintro ⟨member, rfl⟩
    exact ⟨a, member, rfl⟩

theorem Maps.notMem_iff (maps : s.Maps entries) (sound : s.Sound) {id : Int64} :
    id ∉ entries ↔ s.get? id = none := by
  rw [← Finmap.lookup_eq_none, maps.lookup sound]

theorem Maps.mem_iff (maps : s.Maps entries) (sound : s.Sound) {id : Int64} :
    id ∈ entries ↔ (s.get? id).isSome := by
  rw [← Finmap.lookup_isSome, maps.lookup sound]

theorem Maps.add (maps : s.Maps entries) {a : α} (free : key a ∉ entries) :
    (s.add a).Maps (entries.insert (key a) a) := by
  rw [Maps, Finmap.entries_insert_of_notMem free, maps, Multiset.cons_coe, Multiset.coe_eq_coe]
  exact ((s.entries_add a).map entry).symm

theorem Maps.values (maps : s.Maps entries) {β : Type} (f : α → β) :
    entries.entries.map (fun entry => f entry.2) = ↑(s.entries.map f) := by
  rw [maps, Multiset.map_coe, List.map_map]
  rfl

theorem Maps.card_keys (maps : s.Maps entries) : entries.keys.card = s.entries.length := by
  show Multiset.card (entries.entries.map Sigma.fst) = _
  rw [Multiset.card_map, maps, Multiset.coe_card, List.length_map]

/-- The greatest id that has been given is still in use, if any has been given. -/
def Tight (s : Shelf α) : Prop := s.last = 0 ∨ (s.get? s.last).isSome

theorem tight_empty : (empty : Shelf α).Tight := .inl rfl

theorem Tight.add (tight : s.Tight) (a : α) : (s.add a).Tight := by
  have member {b : α} : b ∈ (s.add a).entries ↔ b = a ∨ b ∈ s.entries := by
    rw [(s.entries_add a).mem_iff, List.mem_cons]
  -- Either the new entry has the greatest id or the one that had it still does.
  by_cases later : s.last < key a
  · have last : (s.add a).last = key a := if_pos later
    exact .inr (isSome_get?_iff.2 ⟨a, member.2 (.inl rfl), last.symm⟩)
  · have last : (s.add a).last = s.last := if_neg later
    refine tight.imp last.trans fun used => ?_
    obtain ⟨b, entry, same⟩ := isSome_get?_iff.1 used
    exact isSome_get?_iff.2 ⟨b, member.2 (.inr entry), same.trans last.symm⟩

theorem Tight.isSome_get? (tight : s.Tight) (full : s.last = Int64.maxValue) :
    (s.get? Int64.maxValue).isSome := by
  rcases tight with none | used
  · exact absurd (none.symm.trans full) (by decide)
  · exact full ▸ used

end Shelf

namespace Store

variable {store : Store} {l next : Ledger}

/-- The store has what is in the ledger of a database where nothing has been deleted. -/
structure Shows (store : Store) (l : Ledger) : Prop where
  sources : l.sources.Maps store.sources
  observations : l.observations.Maps store.observations
  tightSources : l.sources.Tight
  tightObservations : l.observations.Tight

theorem shows_new (d : Deployment) (now : Calendar.Instant) : empty.Shows (.new d now) :=
  ⟨Shelf.maps_empty, Shelf.maps_empty, Shelf.tight_empty, Shelf.tight_empty⟩

theorem Shows.takesSource (shown : store.Shows l) (sound : l.Sound) {s : Source}
    {result : Except CatalogFault Int64} (meets : l.Meets (l.insertSource s) result next) :
    ∃ after, store.TakesSource s result after ∧ after.Shows next := by
  unfold Ledger.insertSource at meets
  by_cases full : l.sources.last = Int64.maxValue
  · rw [if_pos full] at meets
    obtain ⟨rfl, rfl⟩ := meets
    have used := shown.tightSources.isSome_get? full
    exact ⟨store, .full ((shown.sources.mem_iff sound.sources).2 used), shown⟩
  · rw [if_neg full] at meets
    obtain ⟨rfl, rfl⟩ := meets
    have free := (shown.sources.notMem_iff sound.sources).2 (sound.sources.get?_next full)
    exact ⟨_, .kept free s.createTime.isCut_kept, shown.sources.add free, shown.observations,
      shown.tightSources.add _, shown.tightObservations⟩

theorem isEntry_kept {o : Observation} (id : Int64) (julian : o.julianDate.isNaN = false)
    (length : o.lengthDays.isNaN = false) : IsEntry o id (o.kept id) :=
  ⟨rfl, rfl, Real.plainZero_beq julian, rfl, Real.plainZero_beq length⟩

/-- The next id of an observation is free, and there is one until the greatest is in use. -/
theorem Shows.nextId (shown : store.Shows l) (sound : l.Sound) (draws : Sql.Draws) :
    match l.observationTable.nextId draws with
    | .ok id => l.observations.get? id = none
    | .error fault => fault = .full ∧ Int64.maxValue ∈ store.observations := by
  rw [shown.observations.mem_iff sound.observations]
  have next := sound.nextId draws
  cases given : l.observationTable.nextId draws with
  | ok id =>
    rw [given] at next
    exact next.1
  | error fault =>
    rw [given] at next
    obtain ⟨full, sequenced, unsequenced⟩ := next
    -- A table with a sequence looks at the greatest id that was given, and one without looks
    -- at its rows. Here both come to the same.
    refine ⟨full, ?_⟩
    cases policy : l.deployment.idPolicy with
    | generated => exact shown.tightObservations.isSome_get? (sequenced policy)
    | assigned => exact unsequenced policy

theorem Shows.observationId (shown : store.Shows l) (sound : l.Sound) (o : Observation)
    (policy : IdPolicy) (draws : Sql.Draws) :
    match l.observationId o policy draws with
    | .ok id => (policy = .assigned → 0 < o.id ∧ id = o.id) ∧
        (policy = .generated → l.observations.get? id = none)
    | .error fault => store.Refuses o policy fault := by
  cases policy with
  | assigned =>
    unfold Ledger.observationId
    by_cases missing : o.id ≤ 0
    · rw [if_pos missing]
      exact .missingId missing
    · rw [if_neg missing]
      exact ⟨fun _ => ⟨Int64.not_le.1 missing, rfl⟩, nofun⟩
  | generated =>
    have next := shown.nextId sound draws
    unfold Ledger.observationId
    cases given : l.observationTable.nextId draws with
    | ok id =>
      rw [given] at next
      exact ⟨nofun, fun _ => next⟩
    | error fault =>
      rw [given] at next
      obtain ⟨rfl, used⟩ := next
      exact .full used

theorem Shows.refuses (shown : store.Shows l) (sound : l.Sound) {o : Observation} {id : Int64}
    {policy : IdPolicy} {draws : Sql.Draws} {fault : Sql.Fault}
    (given : l.observationId o policy draws = .ok id)
    (refused : l.refusal o id = some fault) : store.Refuses o policy (.query fault) := by
  have known := shown.observationId sound o policy draws
  rw [given] at known
  unfold Ledger.refusal at refused
  split at refused
  · next julian =>
    cases refused
    exact .noJulianDate julian
  split at refused
  · next length =>
    cases refused
    exact .noLength length
  split at refused
  · next used =>
    cases refused
    -- An id that was generated is free, so this one is the observation's own.
    cases policy with
    | assigned =>
      obtain rfl := (known.1 rfl).2
      exact .usedId ((shown.observations.mem_iff sound.observations).2 used)
    | generated => simp [known.2 rfl] at used
  split at refused
  · next unknown =>
    cases refused
    exact .unknownSource ((shown.sources.notMem_iff sound.sources).2
      (Option.isNone_iff_eq_none.1 unknown))
  · cases refused

theorem Shows.takesObservation (shown : store.Shows l) (sound : l.Sound) {o : Observation}
    {policy : IdPolicy} {draws : Sql.Draws} {result : Except CatalogFault Int64}
    (meets : l.Meets (l.insertObservation o policy draws) result next) :
    ∃ after, store.TakesObservation o policy result after ∧ after.Shows next := by
  have known := shown.observationId sound o policy draws
  unfold Ledger.insertObservation at meets
  -- It fails before an id is given, or its row is refused, and the store stays as it is.
  cases given : l.observationId o policy draws with
  | error fault =>
    simp only [given] at meets known
    obtain ⟨rfl, rfl⟩ := meets
    exact ⟨store, .refused known, shown⟩
  | ok id =>
    simp only [given] at meets known
    unfold Ledger.keep at meets
    cases refused : l.refusal o id with
    | some fault =>
      simp only [refused] at meets
      obtain ⟨rfl, rfl⟩ := meets
      exact ⟨store, .refused (shown.refuses sound given refused), shown⟩
    | none =>
      simp only [refused] at meets
      obtain ⟨rfl, rfl⟩ := meets
      obtain ⟨julian, length, unused, source⟩ := Ledger.refusal_eq_none_iff.1 refused
      have free := (shown.observations.notMem_iff sound.observations).2 unused
      exact ⟨_, .kept free ((shown.sources.mem_iff sound.sources).2 source) known.1
        (isEntry_kept id julian length), shown.sources, shown.observations.add free,
        shown.tightSources, shown.tightObservations.add _⟩

/-- The store allows what is answered from the ledger. -/
theorem Shows.allows (shown : store.Shows l) (sound : l.Sound) {op : Operation}
    {result : Except CatalogFault op.Result} (answers : l.Answers op result next) :
    ∃ after, store.Allows l.deployment op result after ∧ after.Shows next := by
  cases op with
  | insertSource s draws => exact shown.takesSource sound answers
  | insertObservation o policy draws => exact shown.takesObservation sound answers
  | getSource id =>
    obtain ⟨rfl, rfl⟩ := answers
    exact ⟨store, ⟨by rw [shown.sources.lookup sound.sources], rfl⟩, shown⟩
  | getObservation id =>
    obtain ⟨rfl, rfl⟩ := answers
    exact ⟨store, ⟨by rw [shown.observations.lookup sound.observations], rfl⟩, shown⟩
  -- What a search or a filter finds is left open, but the store does not change.
  | findSource authenticator => exact ⟨store, rfl, (show next = l from answers) ▸ shown⟩
  | listSources filter engine =>
    cases filter with
    | none =>
      obtain ⟨rfl, rfl⟩ := answers
      have values := shown.sources.values id
      rw [List.map_id] at values
      exact ⟨store, ⟨⟨_, rfl, values.symm⟩, rfl⟩, shown⟩
    | some filter => exact ⟨store, rfl, (show next = l from answers) ▸ shown⟩
  | listObservations filter engine =>
    cases filter with
    | none =>
      obtain ⟨rfl, rfl⟩ := answers
      have values := shown.observations.values id
      rw [List.map_id] at values
      exact ⟨store, ⟨⟨_, rfl, values.symm⟩, rfl⟩, shown⟩
    | some filter => exact ⟨store, rfl, (show next = l from answers) ▸ shown⟩
  | enumerate t filter engine =>
    cases filter with
    | none =>
      obtain ⟨rfl, rfl⟩ := answers
      have values : store.rows t = ↑(next.rows t) := by
        cases t with
        | source => exact shown.sources.values Source.row
        | observation => exact shown.observations.values Observation.row
      exact ⟨store, ⟨⟨_, rfl, values.symm⟩, rfl⟩, shown⟩
    | some filter => exact ⟨store, rfl, (show next = l from answers) ▸ shown⟩
  | lookup t id =>
    obtain ⟨rfl, rfl⟩ := answers
    have row : store.row? id t = next.row? id t := by
      cases t with
      | source => exact congrArg (·.map Source.row) (shown.sources.lookup sound.sources id)
      | observation =>
        exact congrArg (·.map Observation.row) (shown.observations.lookup sound.observations id)
    exact ⟨store, ⟨by rw [row], rfl⟩, shown⟩
  | statistics =>
    obtain ⟨⟨fileBytes, rfl⟩, rfl⟩ := answers
    exact ⟨store, ⟨⟨fileBytes, by rw [shown.sources.card_keys, shown.observations.card_keys]⟩,
      rfl⟩, shown⟩

end Store

namespace Handle

def answers (h : Handle) (disk : CatalogDisk) : List Operation → List Store.Answer
  | [] => []
  | op :: rest =>
    let (result, after, written) := h.perform (op.action disk) disk
    ⟨op, result⟩ :: answers after written rest

theorem answers_take (h : Handle) (disk : CatalogDisk) (ops : List Operation) (n : Nat) :
    h.answers disk (ops.take n) = (h.answers disk ops).take n := by
  induction ops generalizing h disk n with
  | nil => simp [answers]
  | cons op rest ih =>
    cases n with
    | zero => rfl
    | succ n => simp only [List.take_succ_cons, answers, ih]

theorem Serves.explained {h : Handle} {disk : CatalogDisk} {l : Ledger} {home : Home}
    {store : Store} (serves : h.Serves disk l home) (sound : l.Sound)
    (healthy : h.isPoisoned = false) (shown : store.Shows l) (ops : List Operation) :
    ∃ final, Store.Explains l.deployment store (h.answers disk ops) final := by
  induction ops generalizing h disk l store with
  | nil => exact ⟨store, .nil store⟩
  | cons op rest ih =>
    -- The store shows the ledger of the handle before each operation and after it.
    obtain ⟨holds, follows⟩ := serves.refreshed
    obtain ⟨next, advances, answers⟩ := holds.advances sound disk op
    have answered := answers (follows.isPoisoned.trans healthy)
    obtain ⟨after, allows, shownAfter⟩ := shown.allows sound answered
    obtain ⟨servesAfter, followsAfter⟩ := serves.perform advances
    obtain ⟨final, explains⟩ :=
      ih servesAfter advances.sound (followsAfter.isPoisoned.trans healthy) shownAfter
    rw [advances.moves.deployment] at explains
    exact ⟨final, .cons allows explains⟩

end Handle

/-- Whatever operations are issued on a database that has just been made, one after the other,
the answers are those of a store that is empty at first. What is in the store at some point
is in it at the end. -/
theorem Session.Fresh.answers_explained {d : Deployment} {home : Home} {h : Handle}
    {disk : CatalogDisk} (fresh : Session.Fresh d home ⟨[h], disk⟩) (ops : List Operation) :
    ∃ final, Store.Explains d .empty (h.answers disk ops) final ∧
      ∀ n, ∃ middle, Store.Explains d .empty (h.answers disk (ops.take n)) middle ∧
        middle.Retains final := by
  obtain ⟨now, keeps, healthy⟩ := fresh.keeps
  obtain ⟨final, explains⟩ := (keeps.serves h List.mem_cons_self).explained keeps.sound
    (healthy h List.mem_cons_self) (Store.shows_new d now) ops
  refine ⟨final, explains, fun n => ?_⟩
  rw [h.answers_take]
  exact explains.take n

/-- An empty file becomes a database, and a store explains what is answered from it. -/
theorem Session.answers_explained_emptyFile :
    ∃ (h : Handle) (place : Place) (disk : CatalogDisk) (s : Source) (final : Store),
      Session.Fresh .librarian (.file place) ⟨[h], disk⟩ ∧
      Store.Explains .librarian .empty
        (h.answers disk [.insertSource s, .getSource 1, .statistics]) final := by
  let locations : Locations := ⟨some "", "hl.db", "mc.db", false⟩
  let now : Calendar.Instant := ⟨0, 0, by decide, by decide, by decide, by decide⟩
  let disk : CatalogDisk := ⟨[], [(["hl.db"], .text [])]⟩
  have named : locations.filePath none .librarian = .ok "hl.db" := by cbv
  have shown : Handle.isPrivatePath "hl.db" = false := by decide
  have prepares : Handle.prepareDirectory disk "hl.db" locations.createIfMissing = .ok disk := rfl
  have reached : disk.locate "hl.db" = .ok ["hl.db"] := by
    have names : Path.names "hl.db" = ["hl.db"] := by decide +kernel
    have root : disk.get? [] = some .directory := rfl
    refine Disk.locate_eq_ok_iff.2 ⟨by decide, by decide, by decide +kernel, ?_⟩
    rw [ite_self, names]
    simp only [Disk.walk, root, List.nil_append]
    decide +kernel
  have found := disk.find_eq reached
  have absent : disk.database? "hl.db" = none := by
    simp only [Disk.database?, found]
    rfl
  have content : Handle.fileContent disk "hl.db" false = .ok (.database .empty) := by
    have clean : "hl.db".toList.contains '\x00' = false := by decide
    simp only [Handle.fileContent, clean, found]
    rfl
  have opened := (Handle.openFile_eq named prepares now).trans
    (Handle.openPath_empty ((if_neg (by simp [shown])).trans content) now)
  have fresh := Session.Fresh.file named shown prepares reached absent opened
  obtain ⟨final, explains, -⟩ := Session.Fresh.answers_explained fresh
    [.insertSource ⟨0, "A", "key", now⟩, .getSource 1, .statistics]
  exact ⟨_, _, _, _, final, fresh, explains⟩

end ObsCatalog
