import Mathlib.Data.Finset.Card
import Mathlib.Data.Finset.Filter
import Mathlib.Data.Finset.Range
import Mathlib.Logic.Relation
import TraceLint.Analysis.Basic

/-! Requirements as a relation between analyses. Where none requires itself, the analyses have
ranks: each ranks above those it requires, and no rank exceeds the size of the catalog. -/
namespace TraceLint.Catalog

variable {catalog : Catalog} {id r : Analysis.Id}

/-- An analysis requires another directly. -/
def Requires (catalog : Catalog) (id r : Analysis.Id) : Prop := r ∈ catalog.requirements id

/-- No analysis requires itself, directly or through others. -/
def Acyclic (catalog : Catalog) : Prop := ∀ id, ¬ Relation.TransGen catalog.Requires id id

/-- Nothing that an analysis needs requires itself. What else is in the catalog does not matter. -/
def AcyclicFrom (catalog : Catalog) (id : Analysis.Id) : Prop :=
  ∀ r, Relation.ReflTransGen catalog.Requires id r → ¬ Relation.TransGen catalog.Requires r r

theorem Acyclic.acyclicFrom (acyclic : catalog.Acyclic) (id : Analysis.Id) :
    catalog.AcyclicFrom id :=
  fun r _ => acyclic r

theorem AcyclicFrom.requirement (acyclic : catalog.AcyclicFrom id)
    (required : catalog.Requires id r) :
    catalog.AcyclicFrom r := fun other path => acyclic other (path.head required)

theorem requires_iff : catalog.Requires id r ↔ ∃ a, catalog[id]? = some a ∧
    some r ∈ a.requires := by
  unfold Requires requirements
  cases catalog[id]? with
  | none => simp
  | some a => simp

/-- Only analyses of the catalog require anything. -/
theorem Requires.inside (required : catalog.Requires id r) : id < catalog.length := by
  unfold Requires requirements at required
  split at required
  · rename_i a found
    exact (List.getElem?_eq_some_iff.mp found).1
  · contradiction

/-- A catalog in which every analysis requires only earlier ones has no cycle. -/
theorem acyclic_of_earlier
    (earlier : ∀ id < catalog.length, ∀ r ∈ catalog.requirements id, r < id) :
    catalog.Acyclic := by
  have descends (id r : Analysis.Id) (path : Relation.TransGen catalog.Requires id r) : r < id := by
    induction path with
    | single required => exact earlier _ required.inside _ required
    | tail _ required ih => exact Nat.lt_trans (earlier _ required.inside _ required) ih
  intro id cycle
  exact Nat.lt_irrefl id (descends id id cycle)

open Classical in
/-- The analyses of the catalog that are needed for one, itself included. -/
noncomputable def closure (catalog : Catalog) (id : Analysis.Id) : Finset Analysis.Id :=
  (Finset.range catalog.length).filter (Relation.ReflTransGen catalog.Requires id)

theorem mem_closure {other : Analysis.Id} :
    other ∈ catalog.closure id ↔ other < catalog.length ∧
      Relation.ReflTransGen catalog.Requires id other := by
  simp [closure]

/-- How many analyses of the catalog are needed for one. -/
noncomputable def rank (catalog : Catalog) (id : Analysis.Id) : Nat := (catalog.closure id).card

theorem rank_le (catalog : Catalog) (id : Analysis.Id) : catalog.rank id ≤ catalog.length := by
  have subset : catalog.closure id ⊆ Finset.range catalog.length :=
    fun _ needed => Finset.mem_range.mpr (mem_closure.mp needed).1
  simpa [rank] using Finset.card_le_card subset

/-- Along a requirement the analysis itself drops out of what is needed. -/
theorem AcyclicFrom.rank_lt (acyclic : catalog.AcyclicFrom id) (required : catalog.Requires id r) :
    catalog.rank r < catalog.rank id := by
  apply Finset.card_lt_card
  refine ⟨fun other needed => ?_, fun subset => ?_⟩
  · obtain ⟨inside, path⟩ := mem_closure.mp needed
    exact mem_closure.mpr ⟨inside, path.head required⟩
  · have itself : id ∈ catalog.closure id := mem_closure.mpr ⟨required.inside, .refl⟩
    have back : Relation.ReflTransGen catalog.Requires r id := (mem_closure.mp (subset itself)).2
    exact acyclic id .refl (.head' required back)

theorem Acyclic.rank_lt (acyclic : catalog.Acyclic) (required : catalog.Requires id r) :
    catalog.rank r < catalog.rank id := (acyclic.acyclicFrom id).rank_lt required

theorem rank_le_of_needed (path : Relation.ReflTransGen catalog.Requires id r) :
    catalog.rank r ≤ catalog.rank id := by
  apply Finset.card_le_card
  intro other needed
  obtain ⟨inside, further⟩ := mem_closure.mp needed
  exact mem_closure.mpr ⟨inside, path.trans further⟩

end TraceLint.Catalog
