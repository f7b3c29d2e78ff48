import TraceLint.Analysis.Validate
import TraceLint.Proofs.Analysis.Requirements

/-! The search through requirements without a bound on its depth, as a relation between a survey,
the entries still to be searched and the end of the search. The bounded search never notices its
bound: each analysis that is entered leaves fewer that can be. -/
namespace TraceLint.Analysis

namespace Survey

variable (s : Survey) (id : Id)

/-- What a search meets at an entry: a flaw, an analysis that it is done with, or one that it
enters. -/
def look (catalog : Catalog) : Option Id → Except Flaw (Option (Id × Analysis))
  | none => .error .missing
  | some id =>
    match catalog[id]? with
    | none => .error .missing
    | some a =>
      if s.cleared.contains id then .ok none
      else if s.entered.contains id then .error (.cycle a.name)
      else match ownFlaw a s.names with
        | some flaw => .error flaw
        | none => .ok (some (id, a))

def enter (a : Analysis) : Survey :=
  { s with entered := id :: s.entered, names := a.name :: s.names }

def leave : Survey := { s with entered := s.entered.erase id, cleared := id :: s.cleared }

end Survey

/-- The end of a search, or the index of the entry at fault and its flaw. -/
abbrev Verdict := Except (Nat × Flaw) Survey

/-- The verdict on some entries, seen from one entry earlier. -/
def Verdict.later (v : Verdict) : Verdict := v.mapError fun fault => (fault.1 + 1, fault.2)

/-- How a search through some entries ends, one after another and each with all that it requires. -/
inductive Searches (catalog : Catalog) : Survey → List (Option Id) → Verdict → Prop where
  | done {s : Survey} : Searches catalog s [] (.ok s)
  | refused {s : Survey} {ref : Option Id} {refs : List (Option Id)} {flaw : Flaw} :
      s.look catalog ref = .error flaw → Searches catalog s (ref :: refs) (.error (0, flaw))
  | known {s : Survey} {ref : Option Id} {refs : List (Option Id)} {v : Verdict} :
      s.look catalog ref = .ok none → Searches catalog s refs v →
        Searches catalog s (ref :: refs) v.later
  | faulty {s : Survey} {ref : Option Id} {refs : List (Option Id)} {id : Id} {a : Analysis}
    {index : Nat}
      {flaw : Flaw} : s.look catalog ref = .ok (some (id, a)) →
      Searches catalog (s.enter id a) a.requires (.error (index, flaw)) →
      Searches catalog s (ref :: refs) (.error (0, .requirement a.name index flaw))
  | through {s inside : Survey} {ref : Option Id} {refs : List (Option Id)} {id : Id} {a : Analysis}
      {v : Verdict} : s.look catalog ref = .ok (some (id, a)) →
      Searches catalog (s.enter id a) a.requires (.ok inside) →
      Searches catalog (inside.leave id) refs v → Searches catalog s (ref :: refs) v.later

variable {catalog : Catalog} {s s' : Survey} {refs : List (Option Id)} {v w : Verdict}

theorem Searches.unique (searches : Searches catalog s refs v)
    (other : Searches catalog s refs w) : v = w := by
  induction searches generalizing w with
  | done =>
    cases other
    rfl
  | refused met =>
    cases other with
    | refused met' => cases met.symm.trans met'; rfl
    | known met' => cases met.symm.trans met'
    | faulty met' => cases met.symm.trans met'
    | through met' => cases met.symm.trans met'
  | known met _ ih =>
    cases other with
    | refused met' => cases met.symm.trans met'
    | known _ rest => rw [ih rest]
    | faulty met' => cases met.symm.trans met'
    | through met' => cases met.symm.trans met'
  | faulty met _ ih =>
    cases other with
    | refused met' => cases met.symm.trans met'
    | known met' => cases met.symm.trans met'
    | faulty met' below => cases met.symm.trans met'; cases ih below; rfl
    | through met' below => cases met.symm.trans met'; cases ih below
  | through met _ _ ihInside ihRest =>
    cases other with
    | refused met' => cases met.symm.trans met'
    | known met' => cases met.symm.trans met'
    | faulty met' below => cases met.symm.trans met'; cases ihInside below
    | through met' below rest => cases met.symm.trans met'; cases ihInside below; rw [ihRest rest]

theorem Verdict.later_eq_ok : v.later = .ok s ↔ v = .ok s := by
  cases v <;> simp [Verdict.later, Except.mapError]

theorem Verdict.later_eq_error : (∃ fault, v.later = .error fault) ↔ ∃ fault, v = .error fault := by
  cases v <;> simp [Verdict.later, Except.mapError]

theorem Verdict.mapError_later {ε : Type} (f : Nat × Flaw → ε) (v : Verdict) :
    v.later.mapError f = v.mapError fun fault => f (fault.1 + 1, fault.2) := by
  cases v <;> rfl

/-- All that a search can meet, with what it then knows of the entry. -/
inductive Meets (catalog : Catalog) (s : Survey) :
    Option Id → Except Flaw (Option (Id × Analysis)) → Prop where
  | absent : Meets catalog s none (.error .missing)
  | dangling {id : Id} : catalog[id]? = none → Meets catalog s (some id) (.error .missing)
  | cleared {id : Id} {a : Analysis} : catalog[id]? = some a → id ∈ s.cleared →
      Meets catalog s (some id) (.ok none)
  | cycle {id : Id} {a : Analysis} : catalog[id]? = some a → id ∈ s.entered →
      Meets catalog s (some id) (.error (.cycle a.name))
  | flawed {id : Id} {a : Analysis} {flaw : Flaw} :
    catalog[id]? = some a → id ∉ s.entered ++ s.cleared →
      ownFlaw a s.names = some flaw → Meets catalog s (some id) (.error flaw)
  | fresh {id : Id} {a : Analysis} : catalog[id]? = some a → id ∉ s.entered ++ s.cleared →
      ownFlaw a s.names = none → Meets catalog s (some id) (.ok (some (id, a)))

theorem meets_look (catalog : Catalog) (s : Survey) (ref : Option Id) :
    Meets catalog s ref (s.look catalog ref) := by
  cases ref with
  | none => exact .absent
  | some id =>
    rw [Survey.look]
    cases found : catalog[id]? with
    | none => exact .dangling found
    | some a =>
      dsimp only
      split
      · rename_i cleared
        exact .cleared found (List.contains_iff_mem.mp cleared)
      rename_i uncleared
      split
      · rename_i entered
        exact .cycle found (List.contains_iff_mem.mp entered)
      rename_i unentered
      have unseen : id ∉ s.entered ++ s.cleared := by
        intro member
        rcases List.mem_append.mp member with entered | cleared
        · exact unentered (List.contains_iff_mem.mpr entered)
        · exact uncleared (List.contains_iff_mem.mpr cleared)
      cases own : ownFlaw a s.names with
      | some flaw => exact .flawed found unseen own
      | none => exact .fresh found unseen own

theorem meets_of_look {ref : Option Id} {met : Except Flaw (Option (Id × Analysis))}
    (looked : s.look catalog ref = met) : Meets catalog s ref met :=
  looked ▸ meets_look catalog s ref

theorem entered_leave {inside : Survey} {id : Id} {a : Analysis}
    (kept : inside.entered = (s.enter id a).entered) :
    (inside.leave id).entered = s.entered := by
  rw [Survey.leave, kept, Survey.enter, List.erase_cons_head]

theorem Searches.keeps (searches : Searches catalog s refs v) (passed : v = .ok s') :
    s'.entered = s.entered ∧ s.cleared ⊆ s'.cleared := by
  induction searches generalizing s' with
  | done =>
    cases passed
    exact ⟨rfl, List.Subset.refl _⟩
  | refused => contradiction
  | known _ _ ih => exact ih (Verdict.later_eq_ok.mp passed)
  | faulty => contradiction
  | @through s inside _ _ id a _ _ _ _ ihInside ihRest =>
    obtain ⟨entered, cleared⟩ := ihInside rfl
    obtain ⟨entered', cleared'⟩ := ihRest (Verdict.later_eq_ok.mp passed)
    constructor
    · exact entered'.trans (entered_leave entered)
    · intro x member
      exact cleared' (List.mem_cons_of_mem _ (cleared member))

/-- The analyses of a catalog that no search has entered. -/
def Survey.unseen (s : Survey) (catalog : Catalog) : Finset Id :=
  (Finset.range catalog.length).filter fun id => id ∉ s.entered ++ s.cleared

theorem unseen_subset (entered : s.entered ++ s.cleared ⊆ s'.entered ++ s'.cleared) :
    s'.unseen catalog ⊆ s.unseen catalog := by
  intro x member
  obtain ⟨inside, unseen⟩ := Finset.mem_filter.mp member
  exact Finset.mem_filter.mpr ⟨inside, fun seen => unseen (entered seen)⟩

theorem card_unseen_enter {id : Id} {a : Analysis} (found : catalog[id]? = some a)
    (fresh : id ∉ s.entered ++ s.cleared) :
    ((s.enter id a).unseen catalog).card < (s.unseen catalog).card := by
  apply Finset.card_lt_card
  refine ⟨unseen_subset (List.subset_cons_self _ _), fun subset => ?_⟩
  have inside : id < catalog.length := (List.getElem?_eq_some_iff.mp found).1
  have itself : id ∈ s.unseen catalog := Finset.mem_filter.mpr ⟨Finset.mem_range.mpr inside, fresh⟩
  exact (Finset.mem_filter.mp (subset itself)).2 List.mem_cons_self

/-- An analysis that has been left is still seen. -/
theorem card_unseen_leave {inside : Survey} {id : Id} {a : Analysis}
    (searches : Searches catalog (s.enter id a) refs (.ok inside)) :
    ((inside.leave id).unseen catalog).card ≤ (s.unseen catalog).card := by
  obtain ⟨entered, cleared⟩ := searches.keeps rfl
  apply Finset.card_le_card
  apply unseen_subset
  intro x member
  rw [entered_leave entered]
  rcases List.mem_append.mp member with before | before
  · exact List.mem_append_left _ before
  · exact List.mem_append_right _ (List.mem_cons_of_mem _ (cleared before))

/-- The entries in turn, each given to a visit. -/
def visitAll (visit : Survey → Option Id → Except Flaw Survey) : Survey → List (Option Id) → Verdict
  | s, [] => .ok s
  | s, ref :: refs =>
    match visit s ref with
    | .error flaw => .error (0, flaw)
    | .ok s' => (visitAll visit s' refs).later

theorem foldlM_eq_visitAll (visit : Survey → Option Id → Except Flaw Survey) (s : Survey)
    (refs : List (Option Id)) :
    refs.foldlM visit s = (visitAll visit s refs).mapError Prod.snd := by
  induction refs generalizing s with
  | nil => rfl
  | cons ref refs ih =>
    rw [List.foldlM_cons, visitAll]
    cases visit s ref with
    | error flaw => rfl
    | ok s' =>
      dsimp only
      rw [Verdict.mapError_later]
      exact ih s'

theorem foldlM_zipIdx_eq_visitAll (visit : Survey → Option Id → Except Flaw Survey)
    (blame : Nat → Flaw → Flaw) (s : Survey) (refs : List (Option Id)) (start : Nat) :
    (refs.zipIdx start).foldlM (fun s entry => (visit s entry.1).mapError (blame entry.2)) s =
      (visitAll visit s refs).mapError fun fault => blame (start + fault.1) fault.2 := by
  induction refs generalizing s start with
  | nil => rfl
  | cons ref refs ih =>
    rw [List.zipIdx_cons, List.foldlM_cons, visitAll]
    dsimp only
    cases visit s ref with
    | error flaw => rfl
    | ok s' =>
      dsimp only
      simp only [Verdict.mapError_later, ← Nat.add_assoc, Nat.add_right_comm start _ 1]
      exact ih s' (start + 1)

/-- One level of the bounded search: what is met decides, and the requirements come one level
deeper. -/
theorem survey_succ (catalog : Catalog) (fuel : Nat) (s : Survey) (ref : Option Id) :
    survey catalog (fuel + 1) s ref =
      match s.look catalog ref with
      | .error flaw => .error flaw
      | .ok none => .ok s
      | .ok (some (id, a)) =>
        ((visitAll (survey catalog fuel) (s.enter id a) a.requires).mapError fun fault =>
          Flaw.requirement a.name fault.1 fault.2).map (Survey.leave · id) := by
  cases ref with
  | none => rfl
  | some id =>
    rw [survey, Survey.look]
    cases catalog[id]? with
    | none => rfl
    | some a =>
      dsimp only
      by_cases cleared : s.cleared.contains id = true
      · rw [if_pos cleared, if_pos cleared]
      rw [if_neg cleared, if_neg cleared]
      by_cases entered : s.entered.contains id = true
      · rw [if_pos entered, if_pos entered]
      rw [if_neg entered, if_neg entered]
      cases ownFlaw a s.names with
      | some flaw => rfl
      | none =>
        have searched := foldlM_zipIdx_eq_visitAll (survey catalog fuel) (Flaw.requirement a.name)
          (s.enter id a) a.requires 0
        simp only [Nat.zero_add] at searched
        exact congrArg (Except.map (Survey.leave · id)) searched

/-- With more levels than there are analyses left to enter, the bounded search ends as the unbounded
one. -/
theorem searches_visitAll {fuel : Nat} (enough : (s.unseen catalog).card < fuel)
    (refs : List (Option Id)) :
    Searches catalog s refs (visitAll (survey catalog fuel) s refs) := by
  -- On the levels first, and on one level along the entries, which find ever fewer analyses unseen.
  induction fuel generalizing s refs with
  | zero => omega
  | succ fuel ih =>
    induction refs generalizing s with
    | nil => exact .done
    | cons ref refs ihRefs =>
      rw [visitAll, survey_succ]
      cases met : s.look catalog ref with
      | error flaw => exact .refused met
      | ok entry =>
        cases entry with
        | none => exact .known met (ihRefs enough)
        | some fresh =>
          obtain ⟨id, a⟩ := fresh
          have fewer : ((s.enter id a).unseen catalog).card < (s.unseen catalog).card := by
            cases meets_of_look met with
            | fresh found unseen _ => exact card_unseen_enter found unseen
          have below := ih (show ((s.enter id a).unseen catalog).card < fuel by omega) a.requires
          dsimp only
          cases ended : visitAll (survey catalog fuel) (s.enter id a) a.requires with
          | error fault =>
            rw [ended] at below
            exact .faulty met below
          | ok inside =>
            rw [ended] at below
            have left := card_unseen_leave below
            exact .through met below (ihRefs (by omega))

/-- The search from some roots has one end, and the bounded search finds it. -/
theorem searches_roots (catalog : Catalog) (roots : List (Option Id)) :
    ∃ v, (∀ w, Searches catalog {} roots w ↔ w = v) ∧
      validate catalog roots = (v.mapError Prod.snd).map fun _ => () := by
  have enough : ((Survey.unseen {} catalog).card) < catalog.length + 1 := by
    have bound := Finset.card_filter_le (Finset.range catalog.length) fun id =>
      id ∉ ([] : List Id) ++ []
    rw [Finset.card_range] at bound
    exact Nat.lt_succ_of_le bound
  have searches := searches_visitAll enough roots
  refine ⟨_, fun w => ⟨fun other => other.unique searches, ?_⟩, ?_⟩
  · rintro rfl
    exact searches
  · rw [validate, foldlM_eq_visitAll]

end TraceLint.Analysis
