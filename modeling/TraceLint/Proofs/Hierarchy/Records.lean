import Mathlib.Data.Finset.Card
import Mathlib.Data.Finset.SDiff
import TraceLint.Proofs.Hierarchy.Program

/-! Hierarchies by the records that they are made of. The last record of a class counts, whatever
the records say together: a class may extend itself, directly or not. A walk up the super links that
stops where it has been before still ends with the right answer. -/
namespace TraceLint.Hierarchy

/-- The platform's classes and then some records, one after another. -/
def ofRecords (records : List (Text × Text)) : Hierarchy :=
  records.foldl (fun h record => h.add record.1 record.2) .initial

/-- The last record of a class says that it extends another. Records with an empty name do not
count. -/
def LastRecord (records : List (Text × Text)) (cls super : Text) : Prop :=
  ∃ front back, records = front ++ (cls, super) :: back ∧ cls ≠ [] ∧ super ≠ [] ∧
    ∀ s, (cls, s) ∈ back → s = []

/-- What a class extends after some records, which may overrule the platform's. -/
def Recorded (records : List (Text × Text)) : Text → Text → Prop := LastRecord (platform ++ records)

section

variable {records : List (Text × Text)} {cls super name above : Text}

theorem lastRecord_snoc : LastRecord (records ++ [(name, above)]) cls super ↔
    if name = cls ∧ name ≠ [] ∧ above ≠ [] then above = super
    else LastRecord records cls super := by
  constructor
  · rintro ⟨front, back, same, named, extended, last⟩
    rcases List.eq_nil_or_concat' back with rfl | ⟨back, final, rfl⟩
    · obtain ⟨rfl, tail⟩ := List.append_inj' same rfl
      obtain ⟨rfl, rfl⟩ : name = cls ∧ above = super := by simpa using tail
      rw [if_pos ⟨rfl, named, extended⟩]
    · rw [← List.cons_append, ← List.append_assoc] at same
      obtain ⟨rfl, tail⟩ := List.append_inj' same rfl
      obtain rfl : (name, above) = final := by simpa using tail
      rw [if_neg]
      · exact ⟨front, back, rfl, named, extended,
          fun s listed => last s (List.mem_append_left _ listed)⟩
      · rintro ⟨rfl, _, entry⟩
        exact entry (last above (by simp))
  · split
    · rename_i entry
      obtain ⟨rfl, named, extended⟩ := entry
      rintro rfl
      exact ⟨records, [], rfl, named, extended, by simp⟩
    · rename_i void
      rintro ⟨front, back, rfl, named, extended, last⟩
      refine ⟨front, back ++ [(name, above)], by simp, named, extended, fun s listed => ?_⟩
      rcases List.mem_append.mp listed with before | final
      · exact last s before
      · obtain ⟨rfl, rfl⟩ : cls = name ∧ s = above := by simpa using final
        by_contra entry
        exact void ⟨rfl, named, entry⟩

/-- Where each class has one record, any record is the last of its class. -/
theorem lastRecord_iff_mem (distinct : (records.map Prod.fst).Nodup)
    (named : ∀ record ∈ records, record.1 ≠ [] ∧ record.2 ≠ []) :
    LastRecord records cls super ↔ (cls, super) ∈ records := by
  constructor
  · rintro ⟨front, back, rfl, _⟩
    simp
  · intro listed
    obtain ⟨front, back, rfl⟩ := List.append_of_mem listed
    refine ⟨front, back, rfl, (named _ listed).1, (named _ listed).2, fun s again => ?_⟩
    rw [List.map_append, List.map_cons] at distinct
    have fresh := (List.nodup_cons.mp (List.nodup_append.mp distinct).2.1).1
    exact absurd (List.mem_map_of_mem again) fresh

theorem lookup_iff_mem (distinct : (records.map Prod.fst).Nodup) :
    records.lookup cls = some super ↔ (cls, super) ∈ records := by
  rw [List.lookup_eq_some_iff]
  constructor
  · rintro ⟨front, back, rfl, _⟩
    simp
  · intro listed
    obtain ⟨front, back, rfl⟩ := List.append_of_mem listed
    refine ⟨front, back, rfl, fun record before => ?_⟩
    rw [List.map_append] at distinct
    have apart :=
      (List.nodup_append.mp distinct).2.2 record.1 (List.mem_map_of_mem before) cls (by simp)
    simpa using apart.symm

theorem platform_distinct : (platform.map Prod.fst).Nodup := by decide +kernel

theorem platform_named : ∀ record ∈ platform, record.1 ≠ [] ∧ record.2 ≠ [] := by decide +kernel

/-- A hierarchy answers from the last record of each class. -/
theorem super?_ofRecords : (ofRecords records).super? cls = some super ↔
    Recorded records cls super := by
  induction records using List.reverseRecOn with
  | nil =>
    rw [Recorded, List.append_nil, lastRecord_iff_mem platform_distinct platform_named]
    exact lookup_iff_mem platform_distinct
  | append_singleton records record ih =>
    obtain ⟨name, above⟩ := record
    rw [Recorded, ← List.append_assoc, lastRecord_snoc, ofRecords, List.foldl_append]
    rw [List.foldl_cons, List.foldl_nil, super?_add]
    split
    · exact Option.some_inj
    · exact ih

theorem extends_ofRecords :
    (ofRecords records).Extends = Relation.ReflTransGen (Recorded records) := by
  unfold Extends
  simp only [super?_ofRecords]

end

/-- No super class is recorded without a name. -/
def Named (h : Hierarchy) : Prop := ∀ cls, h.super? cls ≠ some []

theorem ofRecords_named (records : List (Text × Text)) : (ofRecords records).Named := by
  intro cls link
  obtain ⟨_, _, _, _, extended, _⟩ := super?_ofRecords.mp link
  exact extended rfl

/-- How a walk from a class ends that looks for an ancestor and has met some classes before. It
stops at the first class that it meets again, and above a class that extends nothing. -/
inductive Asks (h : Hierarchy) (ancestor : Text) : List Text → Text → Bool → Prop where
  | nameless {met : List Text} : Asks h ancestor met [] false
  | again {met : List Text} {cls : Text} : cls ≠ [] → cls ∈ met → Asks h ancestor met cls false
  | found {met : List Text} : ancestor ≠ [] → ancestor ∉ met → Asks h ancestor met ancestor true
  | up {met : List Text} {cls : Text} {answer : Bool} : cls ≠ [] → cls ∉ met → cls ≠ ancestor →
      Asks h ancestor (cls :: met) ((h.super? cls).getD []) answer → Asks h ancestor met cls answer

section

variable {h : Hierarchy} {cls ancestor : Text} {met : List Text} {answer other : Bool}

theorem Asks.unique (asks : h.Asks ancestor met cls answer)
    (asks' : h.Asks ancestor met cls other) :
    answer = other := by
  induction asks with
  | nameless => cases asks' <;> simp_all
  | again => cases asks' <;> simp_all
  | found => cases asks' <;> simp_all
  | up named new differs _ ih =>
    cases asks' with
    | nameless => contradiction
    | again _ met => contradiction
    | found => contradiction
    | up _ _ _ further => exact ih further

/-- Each class that a walk leaves behind is one recorded class fewer that it can still leave. -/
theorem Asks.exists_answer (h : Hierarchy) (ancestor : Text) (met : List Text) (cls : Text) :
    ∃ answer, h.Asks ancestor met cls answer := by
  induction left : ((h.links.map Prod.fst).toFinset \ met.toFinset).card
    using Nat.strong_induction_on generalizing met cls with
  | _ _ ih =>
    by_cases nameless : cls = []
    · exact ⟨false, nameless ▸ .nameless⟩
    by_cases again : cls ∈ met
    · exact ⟨false, .again nameless again⟩
    by_cases found : cls = ancestor
    · subst found
      exact ⟨true, .found nameless again⟩
    cases link : h.super? cls with
    | none => exact ⟨false, .up nameless again found (link ▸ .nameless)⟩
    | some super =>
      have recorded : cls ∈ (h.links.map Prod.fst).toFinset \ met.toFinset := by
        obtain ⟨front, back, links, _⟩ := List.lookup_eq_some_iff.mp link
        simp [links, again]
      have fewer := Finset.card_erase_lt_of_mem recorded
      rw [← Finset.sdiff_insert, ← List.toFinset_cons, left] at fewer
      obtain ⟨answer, further⟩ := ih _ fewer (cls :: met) super rfl
      exact ⟨answer, .up nameless again found (by rw [link]; exact further)⟩

theorem Asks.extends (asks : h.Asks ancestor met cls answer) (yes : answer = true) :
    cls ≠ [] ∧ ancestor ≠ [] ∧ h.Extends cls ancestor := by
  induction asks with
  | nameless => contradiction
  | again => contradiction
  | found named _ => exact ⟨named, named, .refl⟩
  | @up met cls answer named _ _ _ ih =>
    obtain ⟨above, known, reached⟩ := ih yes
    refine ⟨named, known, ?_⟩
    cases link : h.super? cls with
    | none =>
      rw [link] at above
      contradiction
    | some super =>
      rw [link] at reached
      exact .head link reached

/-- A walk without repetitions is not stopped before its end. -/
theorem Walk.asks (named : h.Named) {left : List Text} (walk : Walk h left cls ancestor)
    (simple : left.Nodup) (start : cls ≠ []) (apart : ∀ x ∈ left, x ∉ met)
    (unmet : ancestor ∉ met) : h.Asks ancestor met cls true := by
  induction walk generalizing met with
  | here => exact .found start unmet
  | @step cls super ancestor left link walk ih =>
    by_cases found : cls = ancestor
    · subst found
      exact .found start unmet
    obtain ⟨new, simple⟩ := List.nodup_cons.mp simple
    refine .up start (apart cls List.mem_cons_self) found ?_
    rw [link]
    refine ih simple (fun void => named cls (void ▸ link)) (fun x listed => ?_) ?_
    · refine List.not_mem_cons_of_ne_of_not_mem ?_ (apart x (List.mem_cons_of_mem _ listed))
      rintro rfl
      exact new listed
    · exact List.not_mem_cons_of_ne_of_not_mem (Ne.symm found) unmet

theorem Extends.named (named : h.Named) (reached : h.Extends cls ancestor) (start : cls ≠ []) :
    ancestor ≠ [] := by
  induction reached with
  | refl => exact start
  | @tail cls super _ link _ =>
    rintro rfl
    exact named cls link

theorem asks_iff_isSubclass (named : h.Named) :
    h.Asks ancestor [] cls answer ↔ answer = h.isSubclass cls ancestor := by
  have right {b : Bool} (asks : h.Asks ancestor [] cls b) : b = h.isSubclass cls ancestor := by
    rw [Bool.eq_iff_iff, isSubclass_iff]
    constructor
    · intro yes
      obtain ⟨start, _, reached⟩ := asks.extends yes
      exact ⟨start, reached⟩
    · rintro ⟨start, reached⟩
      obtain ⟨left, simple, walk⟩ := reached.exists_simple
      exact asks.unique (walk.asks named simple start (by simp) (by simp))
  constructor
  · exact right
  · rintro rfl
    obtain ⟨b, asks⟩ := Asks.exists_answer h ancestor [] cls
    exact right asks ▸ asks

end

/-- After any records a walk up the super links ends with the answer, which is whether both classes
have a name and the one is reached from the other. A slot holds a throwable if it has a class as its
type, and the throwables are reached from that. -/
theorem subclasses_after_records (records : List (Text × Text)) :
    (∀ cls ancestor,
      (∀ answer, (ofRecords records).Asks ancestor [] cls answer ↔
        answer = (ofRecords records).isSubclass cls ancestor) ∧
      ((ofRecords records).isSubclass cls ancestor = true ↔
        cls ≠ [] ∧ ancestor ≠ [] ∧ Relation.ReflTransGen (Recorded records) cls ancestor)) ∧
    ∀ slot, (ofRecords records).isThrowable slot = true ↔
      ∃ s name, slot = some s ∧ name ≠ [] ∧ s.signature = byte 'L' :: name ++ [byte ';'] ∧
        Relation.ReflTransGen (Recorded records) name throwableClass := by
  have named := ofRecords_named records
  rw [← extends_ofRecords]
  refine ⟨fun cls ancestor => ⟨fun answer => asks_iff_isSubclass named, ?_⟩, fun slot => ?_⟩
  · rw [isSubclass_iff]
    constructor
    · rintro ⟨start, reached⟩
      exact ⟨start, reached.named named start, reached⟩
    · rintro ⟨start, _, reached⟩
      exact ⟨start, reached⟩
  · cases slot with
    | none => simp [isThrowable]
    | some s => simp [isThrowable_iff, HoldsThrowable]

end TraceLint.Hierarchy
