import TraceLint.Proofs.Analysis.Search

/-! Which analyses pass validation. The search from the roots accepts them exactly if everything
that is reached exists, is well formed and has a name of its own, and nothing that is reached
requires itself. -/
namespace TraceLint

/-- A letter or an underscore, and then letters, underscores and digits. -/
def Analysis.Identifier (name : Text) : Prop :=
  ∃ c rest, Utf8.chars name = c :: rest ∧ (c = '_' ∨ Unicode.isLetter c = true) ∧
    ∀ d ∈ rest, d = '_' ∨ Unicode.isLetter d = true ∨ Unicode.isDigit d = true

/-- An analysis without flaws of its own. -/
structure Analysis.WellFormed (a : Analysis) : Prop where
  named : Identifier a.name
  documented : a.doc ≠ []
  runnable : a.run ≠ none

/-- The entries that are met from some roots through requirements, whether or not they name an
analysis. -/
inductive Catalog.Reached (catalog : Catalog) (roots : List (Option Analysis.Id)) :
    Option Analysis.Id → Prop where
  | root {ref : Option Analysis.Id} : ref ∈ roots → Reached catalog roots ref
  | required {id : Analysis.Id} {a : Analysis} {ref : Option Analysis.Id} :
    Reached catalog roots (some id) →
      catalog[id]? = some a → ref ∈ a.requires → Reached catalog roots ref

/-- All that is met from some roots can be run together. -/
structure Catalog.Valid (catalog : Catalog) (roots : List (Option Analysis.Id)) : Prop where
  present : ∀ ref, catalog.Reached roots ref → ∃ id a, ref = some id ∧ catalog[id]? = some a
  wellFormed : ∀ id a, catalog.Reached roots (some id) → catalog[id]? = some a → a.WellFormed
  names : ∀ id id' a a', catalog.Reached roots (some id) → catalog.Reached roots (some id') →
    catalog[id]? = some a → catalog[id']? = some a' → id ≠ id' → a.name ≠ a'.name
  acyclic : ∀ id, catalog.Reached roots (some id) → ¬ Relation.TransGen catalog.Requires id id

namespace Analysis

variable {catalog : Catalog} {roots : List (Option Id)} {id r : Id} {a : Analysis}

theorem isIdentifier_iff {name : Text} : isIdentifier name = true ↔ Identifier name := by
  unfold isIdentifier Identifier
  cases Utf8.chars name with
  | nil => simp
  | cons c rest => simp [or_assoc]

theorem ownFlaw_eq_none_iff {names : List Text} :
    ownFlaw a names = none ↔ a.WellFormed ∧ a.name ∉ names := by
  constructor
  · intro own
    unfold ownFlaw at own
    split at own
    · contradiction
    rename_i named
    split at own
    · contradiction
    rename_i unique
    split at own
    · contradiction
    rename_i documented
    split at own
    · contradiction
    rename_i runnable
    refine ⟨⟨isIdentifier_iff.mp (by simpa using named), documented, ?_⟩, ?_⟩
    · simpa using runnable
    · simpa using unique
  · rintro ⟨⟨named, documented, runnable⟩, unique⟩
    simp [ownFlaw, isIdentifier_iff.mpr named, documented, runnable, unique]

theorem nameOf_eq (found : catalog[id]? = some a) : catalog.nameOf id = a.name := by
  simp [Catalog.nameOf, found]

/-- Analyses without flaws in an order in which each comes before those that it is required by, the
latest first. -/
inductive Cleared (catalog : Catalog) : List Id → Prop where
  | nil : Cleared catalog []
  | cons {ids : List Id} {id : Id} {a : Analysis} :
    Cleared catalog ids → catalog[id]? = some a → a.WellFormed →
      id ∉ ids → (∀ ref ∈ a.requires, ∃ r ∈ ids, ref = some r) → Cleared catalog (id :: ids)

namespace Cleared

variable {ids : List Id}

theorem analysis (cleared : Cleared catalog ids) (member : id ∈ ids) :
    ∃ a, catalog[id]? = some a ∧ a.WellFormed ∧ ∀ ref ∈ a.requires, ∃ r ∈ ids, ref = some r := by
  induction cleared with
  | nil => contradiction
  | @cons ids last a _ found wellFormed _ required ih =>
    have widen {ref : Option Id} (there : ∃ r ∈ ids, ref = some r) :
        ∃ r ∈ last :: ids, ref = some r := by
      obtain ⟨r, inside, same⟩ := there
      exact ⟨r, List.mem_cons_of_mem _ inside, same⟩
    rcases List.mem_cons.mp member with rfl | earlier
    · exact ⟨a, found, wellFormed, fun ref listed => widen (required ref listed)⟩
    · obtain ⟨b, found, wellFormed, required⟩ := ih earlier
      exact ⟨b, found, wellFormed, fun ref listed => widen (required ref listed)⟩

theorem closed (cleared : Cleared catalog ids) (member : id ∈ ids)
    (required : catalog.Requires id r) :
    r ∈ ids := by
  obtain ⟨a, found, listed⟩ := Catalog.requires_iff.mp required
  obtain ⟨b, found', _, inside⟩ := cleared.analysis member
  obtain rfl := Option.some.inj (found.symm.trans found')
  obtain ⟨r', member', same⟩ := inside _ listed
  exact Option.some.inj same ▸ member'

theorem closed_path (cleared : Cleared catalog ids) (member : id ∈ ids)
    (path : Relation.ReflTransGen catalog.Requires id r) : r ∈ ids := by
  induction path with
  | refl => exact member
  | tail _ required ih => exact cleared.closed ih required

/-- A requirement is cleared before, so no path leads back. -/
theorem acyclic (cleared : Cleared catalog ids) (member : id ∈ ids) :
    ¬ Relation.TransGen catalog.Requires id id := by
  induction cleared with
  | nil => contradiction
  | @cons ids last a before found _ new required ih =>
    rcases List.mem_cons.mp member with rfl | earlier
    · intro cycle
      obtain ⟨next, first, rest⟩ := Relation.TransGen.head'_iff.mp cycle
      obtain ⟨b, found', listed⟩ := Catalog.requires_iff.mp first
      obtain rfl := Option.some.inj (found.symm.trans found')
      obtain ⟨r, inside, same⟩ := required _ listed
      obtain rfl := Option.some.inj same
      exact new (before.closed_path inside rest)
    · exact ih earlier

theorem reached (cleared : Cleared catalog ids) (start : ∀ ref ∈ roots, ∃ id ∈ ids, ref = some id)
    {ref : Option Id} (reached : catalog.Reached roots ref) : ∃ id ∈ ids, ref = some id := by
  induction reached with
  | root listed => exact start _ listed
  | @required id a ref _ found listed ih =>
    obtain ⟨id', member, same⟩ := ih
    obtain rfl := Option.some.inj same
    obtain ⟨b, found', _, inside⟩ := cleared.analysis member
    obtain rfl := Option.some.inj (found.symm.trans found')
    exact inside ref listed

/-- Once the roots are cleared and the names differ, all that is reached is valid. -/
theorem valid (cleared : Cleared catalog ids) (distinct : (ids.map catalog.nameOf).Nodup)
    (start : ∀ ref ∈ roots, ∃ id ∈ ids, ref = some id) : catalog.Valid roots := by
  have inside {id : Id} (reached : catalog.Reached roots (some id)) : id ∈ ids := by
    obtain ⟨id', member, same⟩ := cleared.reached start reached
    exact Option.some.inj same ▸ member
  constructor
  · intro ref reached
    obtain ⟨id, member, rfl⟩ := cleared.reached start reached
    obtain ⟨a, found, _⟩ := cleared.analysis member
    exact ⟨id, a, rfl, found⟩
  · intro id a reached found
    obtain ⟨b, found', wellFormed, _⟩ := cleared.analysis (inside reached)
    obtain rfl := Option.some.inj (found.symm.trans found')
    exact wellFormed
  · intro id id' a a' reached reached' found found' differ same
    apply differ
    apply List.inj_on_of_nodup_map distinct (inside reached) (inside reached')
    rw [nameOf_eq found, nameOf_eq found', same]
  · intro id reached
    exact cleared.acyclic (inside reached)

end Cleared

/-- What a survey knows: all that it has entered or cleared is met from the roots, under names that
differ. -/
structure Survey.Faithful (catalog : Catalog) (roots : List (Option Id)) (s : Survey) : Prop where
  order : Cleared catalog s.cleared
  names : s.names.Perm ((s.entered ++ s.cleared).map catalog.nameOf)
  distinct : s.names.Nodup
  reached : ∀ id ∈ s.entered ++ s.cleared, catalog.Reached roots (some id)

variable {s s' : Survey} {refs : List (Option Id)} {v : Verdict}

namespace Survey.Faithful

theorem initial (catalog : Catalog) (roots : List (Option Id)) : Faithful catalog roots {} :=
  ⟨.nil, .nil, .nil, by simp⟩

theorem enter (faithful : s.Faithful catalog roots) (found : catalog[id]? = some a)
    (own : ownFlaw a s.names = none) (reached : catalog.Reached roots (some id)) :
    (s.enter id a).Faithful catalog roots := by
  refine ⟨faithful.order, ?_, ?_, ?_⟩
  · rw [Survey.enter, List.cons_append, List.map_cons, nameOf_eq found]
    exact faithful.names.cons _
  · exact List.nodup_cons.mpr ⟨(ownFlaw_eq_none_iff.mp own).2, faithful.distinct⟩
  · intro other member
    rcases List.mem_cons.mp member with rfl | before
    · exact reached
    · exact faithful.reached other before

/-- The analysis that was entered last is cleared once all that it requires is. -/
theorem leave (faithful : s.Faithful catalog roots) {before : List Id}
    (entered : s.entered = id :: before) (found : catalog[id]? = some a) (wellFormed : a.WellFormed)
    (required : ∀ ref ∈ a.requires, ∃ r ∈ s.cleared, ref = some r) :
    (s.leave id).Faithful catalog roots := by
  have moved : (s.entered ++ s.cleared).Perm ((s.leave id).entered ++ (s.leave id).cleared) := by
    rw [Survey.leave, entered, List.erase_cons_head]
    exact List.perm_middle.symm
  have new : id ∉ s.cleared := by
    have distinct := (faithful.names.nodup_iff.mp faithful.distinct).of_map
    rw [entered] at distinct
    exact fun member => (List.nodup_cons.mp distinct).1 (List.mem_append_right _ member)
  refine ⟨.cons faithful.order found wellFormed new required, ?_, faithful.distinct, ?_⟩
  · exact faithful.names.trans (moved.map _)
  · intro other member
    exact faithful.reached other (moved.mem_iff.mpr member)

theorem name_taken (faithful : s.Faithful catalog roots) {name : Text} (taken : name ∈ s.names) :
    ∃ id ∈ s.entered ++ s.cleared, catalog.nameOf id = name :=
  List.mem_map.mp (faithful.names.mem_iff.mp taken)

theorem cleared_distinct (faithful : s.Faithful catalog roots) :
    (s.cleared.map catalog.nameOf).Nodup := by
  have distinct := faithful.names.nodup_iff.mp faithful.distinct
  rw [List.map_append] at distinct
  exact (List.nodup_append.mp distinct).2.1

end Survey.Faithful

/-- A search that passes stays faithful, and clears all of its entries. -/
theorem Searches.faithful (searches : Searches catalog s refs v) (passed : v = .ok s')
    (faithful : s.Faithful catalog roots) (reached : ∀ ref ∈ refs, catalog.Reached roots ref) :
    s'.Faithful catalog roots ∧ ∀ ref ∈ refs, ∃ id ∈ s'.cleared, ref = some id := by
  induction searches generalizing s' with
  | done =>
    cases passed
    exact ⟨faithful, by simp⟩
  | refused => contradiction
  | faulty => contradiction
  | @known s ref refs v met rest ih =>
    have passed := Verdict.later_eq_ok.mp passed
    obtain ⟨after, cleared⟩ := ih passed faithful fun ref listed =>
      reached ref (List.mem_cons_of_mem _ listed)
    refine ⟨after, List.forall_mem_cons.mpr ⟨?_, cleared⟩⟩
    cases meets_of_look met with
    | @cleared id a found before => exact ⟨id, (rest.keeps passed).2 before, rfl⟩
  | @through s inside ref refs id a v met below rest ihInside ihRest =>
    have passed := Verdict.later_eq_ok.mp passed
    cases meets_of_look met with
    | fresh found unseen own =>
      have here := reached _ List.mem_cons_self
      obtain ⟨within, required⟩ := ihInside rfl (faithful.enter found own here) fun ref listed =>
        .required here found listed
      have left := within.leave (below.keeps rfl).1 found (ownFlaw_eq_none_iff.mp own).1 required
      obtain ⟨after, cleared⟩ := ihRest passed left fun ref listed =>
        reached ref (List.mem_cons_of_mem _ listed)
      refine ⟨after, List.forall_mem_cons.mpr ⟨⟨id, ?_, rfl⟩, cleared⟩⟩
      exact (rest.keeps passed).2 List.mem_cons_self

/-- What is met and refused is no part of a valid set, given that all analyses entered lead here. -/
theorem not_valid_of_refused {ref : Option Id} {flaw : Flaw}
    (met : s.look catalog ref = .error flaw) (faithful : s.Faithful catalog roots)
    (reached : catalog.Reached roots ref)
    (trail : ∀ e ∈ s.entered, ∀ id, ref = some id → Relation.TransGen catalog.Requires e id) :
    ¬ catalog.Valid roots := by
  intro valid
  cases meets_of_look met with
  | absent =>
    obtain ⟨id, a, same, _⟩ := valid.present none reached
    contradiction
  | dangling missing =>
    obtain ⟨id, a, same, found⟩ := valid.present _ reached
    obtain rfl := Option.some.inj same
    rw [missing] at found
    contradiction
  | @cycle id a found entered => exact valid.acyclic id reached (trail id entered id rfl)
  | @flawed id a flaw found unseen own =>
    have wellFormed := valid.wellFormed id a reached found
    by_cases taken : a.name ∈ s.names
    · -- The name belongs to an analysis met before, and that is not this one.
      obtain ⟨other, seen, same⟩ := faithful.name_taken taken
      have reached' := faithful.reached other seen
      obtain ⟨_, b, rfl', found'⟩ := valid.present _ reached'
      obtain rfl := Option.some.inj rfl'
      have differ : other ≠ id := fun equal => unseen (equal ▸ seen)
      exact valid.names other id b a reached' reached found' found differ (nameOf_eq found' ▸ same)
    · rw [ownFlaw_eq_none_iff.mpr ⟨wellFormed, taken⟩] at own
      contradiction

/-- A search that fails has met what no valid set has. -/
theorem Searches.not_valid (searches : Searches catalog s refs v) {fault : Nat × Flaw}
    (failed : v = .error fault) (faithful : s.Faithful catalog roots)
    (reached : ∀ ref ∈ refs, catalog.Reached roots ref)
    (trail : ∀ e ∈ s.entered, ∀ id, some id ∈ refs → Relation.TransGen catalog.Requires e id) :
    ¬ catalog.Valid roots := by
  induction searches generalizing fault with
  | done => contradiction
  | refused met =>
    refine not_valid_of_refused met faithful (reached _ List.mem_cons_self) fun e entered id same =>
      ?_
    exact trail e entered id (same ▸ List.mem_cons_self)
  | @known s ref refs v met rest ih =>
    obtain ⟨fault', failed⟩ := Verdict.later_eq_error.mp ⟨_, failed⟩
    exact ih failed faithful (fun ref listed => reached ref (List.mem_cons_of_mem _ listed))
      fun e entered id listed => trail e entered id (List.mem_cons_of_mem _ listed)
  | @faulty s ref refs id a index flaw met below ih =>
    cases meets_of_look met with
    | fresh found unseen own =>
      have here := reached _ List.mem_cons_self
      refine ih rfl (faithful.enter found own here)
        (fun ref listed => .required here found listed) ?_
      intro e entered r listed
      have step : catalog.Requires id r := Catalog.requires_iff.mpr ⟨a, found, listed⟩
      rcases List.mem_cons.mp entered with rfl | before
      · exact .single step
      · exact (trail e before id List.mem_cons_self).tail step
  | @through s inside ref refs id a v met below rest _ ih =>
    obtain ⟨fault', failed⟩ := Verdict.later_eq_error.mp ⟨_, failed⟩
    cases meets_of_look met with
    | fresh found unseen own =>
      have here := reached _ List.mem_cons_self
      obtain ⟨within, required⟩ :=
        below.faithful rfl (faithful.enter found own here) fun ref listed =>
        .required here found listed
      have left := within.leave (below.keeps rfl).1 found (ownFlaw_eq_none_iff.mp own).1 required
      have entered := entered_leave (below.keeps rfl).1
      refine ih failed left (fun ref listed => reached ref (List.mem_cons_of_mem _ listed)) ?_
      intro e before r listed
      exact trail e (entered ▸ before) r (List.mem_cons_of_mem _ listed)

/-- The search from the roots ends, and validation reports its end. It passes exactly what is
valid. -/
theorem validate_accepts_valid (catalog : Catalog) (roots : List (Option Id)) :
    (∃ v : Verdict, (∀ w, Searches catalog {} roots w ↔ w = v) ∧
      validate catalog roots = (v.mapError Prod.snd).map fun _ => ()) ∧
    (validate catalog roots = .ok () ↔ catalog.Valid roots) := by
  have ends := searches_roots catalog roots
  refine ⟨ends, ?_⟩
  obtain ⟨v, only, reported⟩ := ends
  have searches := (only v).mpr rfl
  have reached (ref : Option Id) (listed : ref ∈ roots) : catalog.Reached roots ref := .root listed
  have start := Survey.Faithful.initial catalog roots
  rw [reported]
  cases ended : v with
  | ok s =>
    obtain ⟨faithful, cleared⟩ := searches.faithful ended start reached
    exact ⟨fun _ => faithful.order.valid faithful.cleared_distinct cleared, fun _ => rfl⟩
  | error fault =>
    have invalid := searches.not_valid ended start reached (by simp)
    exact ⟨fun passed => by contradiction, fun valid => absurd valid invalid⟩

end Analysis

end TraceLint
