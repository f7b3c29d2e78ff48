import Mathlib.Data.Prod.Basic
import Mathlib.Order.RelClasses
import TraceLint.Finding

/-! The order of findings is lexicographic in class, method, pc and category, and sorting by it is
stable. So the sorted list depends on the order of arrival only among findings that agree in all
four. -/
namespace TraceLint

namespace Finding

variable {x y : Finding}

/-- What findings are ordered by. -/
def key (f : Finding) : Text × Text × Int64 × Text :=
  (f.pos.cls, f.pos.method, f.pos.pc, f.category)

def Before : (x y : Text × Text × Int64 × Text) → Prop :=
  Prod.Lex (· < ·) (Prod.Lex (· < ·) (Prod.Lex (· < ·) (· < ·)))

instance : IsTrans _ Before := inferInstanceAs (IsTrans _ (Prod.Lex _ _))

instance : Std.Irrefl Before := inferInstanceAs (Std.Irrefl (Prod.Lex _ _))

instance : Std.Trichotomous Before := inferInstanceAs (Std.Trichotomous (Prod.Lex _ _))

theorem less_iff : less x y = true ↔ Before x.key y.key := by
  simp only [Before, key, Prod.lex_def]
  unfold less Text.lt
  split
  · rename_i cls
    simp [cls]
  split
  · rename_i cls method
    simp [not_not.mp cls, method, List.lt_irrefl]
  split
  · rename_i cls method pc
    simp [not_not.mp cls, not_not.mp method, pc, List.lt_irrefl]
  · rename_i cls method pc
    simp [not_not.mp cls, not_not.mp method, not_not.mp pc, List.lt_irrefl]

/-- The comparison that findings are sorted by. -/
def notAfter (x y : Finding) : Bool := !less y x

theorem notAfter_iff : notAfter x y = true ↔ Before x.key y.key ∨ x.key = y.key := by
  rw [notAfter, Bool.not_eq_true', ← Bool.not_eq_true, less_iff]
  constructor
  · intro unordered
    by_contra neither
    obtain ⟨unequal, different⟩ := not_or.mp neither
    exact different (Std.Trichotomous.trichotomous _ _ unequal unordered)
  · rintro (before | same) after
    · exact Std.Irrefl.irrefl x.key (IsTrans.trans _ _ _ before after)
    · exact Std.Irrefl.irrefl y.key (same ▸ after)

theorem notAfter_trans (x y z : Finding) (first : notAfter x y = true)
    (second : notAfter y z = true) :
    notAfter x z = true := by
  rw [notAfter_iff] at *
  rcases first with before | same
  · rcases second with later | same
    · exact .inl (IsTrans.trans _ _ _ before later)
    · exact .inl (same ▸ before)
  · rw [same]
    exact second

theorem notAfter_total (x y : Finding) : (notAfter x y || notAfter y x) = true := by
  rw [Bool.or_eq_true, notAfter_iff, notAfter_iff]
  by_contra neither
  simp only [not_or] at neither
  exact neither.1.2 (Std.Trichotomous.trichotomous _ _ neither.1.1 neither.2.1)

theorem key_eq_of_notAfter (first : notAfter x y = true) (second : notAfter y x = true) :
    x.key = y.key := by
  rcases notAfter_iff.mp first with before | same
  · rcases notAfter_iff.mp second with later | same
    · exact absurd (IsTrans.trans _ _ _ before later) (Std.Irrefl.irrefl x.key)
    · exact same.symm
  · exact same

/-- A list is part of a sorted one if it is sorted itself and, for each key, the findings with that
key are. -/
theorem sublist_of_sorted {l sorted : List Finding}
    (ascending : l.Pairwise fun x y => notAfter x y = true)
    (ascending' : sorted.Pairwise fun x y => notAfter x y = true)
    (keyed : ∀ k, (l.filter fun f => f.key = k).Sublist (sorted.filter fun f => f.key = k)) :
    l.Sublist sorted := by
  induction sorted generalizing l with
  | nil =>
    have empty (f : Finding) : f ∉ l := by
      intro member
      have inside := (keyed f.key).subset (List.mem_filter.mpr ⟨member, decide_eq_true rfl⟩)
      contradiction
    obtain rfl : l = [] := List.eq_nil_iff_forall_not_mem.mpr empty
    exact List.Sublist.refl []
  | cons first rest ih =>
    obtain ⟨least, climbing⟩ := List.pairwise_cons.mp ascending'
    have others (k) (other : first.key ≠ k) :
        (l.filter fun f => f.key = k).Sublist (rest.filter fun f => f.key = k) := by
      have whole := keyed k
      rwa [List.filter_cons_of_neg (by simpa using other)] at whole
    have tied := keyed first.key
    rw [List.filter_cons_of_pos (by simp), List.sublist_cons_iff] at tied
    rcases tied with later | ⟨more, taken, later⟩
    · refine (ih ascending climbing fun k => ?_).cons first
      by_cases other : first.key = k
      · exact other ▸ later
      · exact others k other
    · cases l with
      | nil => contradiction
      | cons head tail =>
        obtain ⟨lowest, ascending⟩ := List.pairwise_cons.mp ascending
        -- The first of the one list is among the other, so neither head comes after the other.
        have same : head.key = first.key := by
          have member : first ∈ head :: tail := (List.mem_filter.mp (taken ▸ List.mem_cons_self)).1
          have member' : head ∈ first :: rest :=
            (List.mem_filter.mp
              ((keyed head.key).subset (List.mem_filter.mpr ⟨List.mem_cons_self, by simp⟩))).1
          rcases List.mem_cons.mp member with rfl | behind
          · rfl
          rcases List.mem_cons.mp member' with rfl | behind'
          · rfl
          exact key_eq_of_notAfter (lowest first behind) (least head behind')
        rw [List.filter_cons_of_pos (by simpa using same)] at taken
        obtain ⟨rfl, rfl⟩ := List.cons.inj taken
        refine List.cons_sublist_cons.mpr (ih ascending climbing fun k => ?_)
        by_cases other : head.key = k
        · exact other ▸ later
        · have whole := others k other
          rwa [List.filter_cons_of_neg (by simpa using other)] at whole

/-- A sorted list is determined by its findings with each key, in order. -/
theorem eq_of_sorted {l l' : List Finding} (sorted : l.Pairwise fun x y => notAfter x y = true)
    (sorted' : l'.Pairwise fun x y => notAfter x y = true)
    (same : ∀ k, l.filter (fun f => f.key = k) = l'.filter fun f => f.key = k) : l = l' := by
  have part := sublist_of_sorted sorted sorted' fun k => (same k) ▸ List.Sublist.refl _
  have whole := sublist_of_sorted sorted' sorted fun k => (same k) ▸ List.Sublist.refl _
  exact part.eq_of_length_le whole.length_le

end Finding

namespace Sink

theorem findings_sorted (s : Sink) : s.findings.Pairwise fun x y => Finding.notAfter x y = true :=
  List.pairwise_mergeSort Finding.notAfter_trans Finding.notAfter_total _

/-- Sorting keeps the findings with one key in the order in which they arrived. -/
theorem filter_findings (s : Sink) (k : Text × Text × Int64 × Text) :
    s.findings.filter (fun f => f.key = k) = s.arrived.filter fun f => f.key = k := by
  have shuffled : s.findings.Perm s.arrived := List.mergeSort_perm _ _
  have tied : (s.arrived.filter fun f => f.key = k).Pairwise
      fun x y => Finding.notAfter x y = true := by
    refine List.pairwise_of_forall_mem_list fun x first y second =>
      Finding.notAfter_iff.mpr (.inr ?_)
    have keyed := (List.mem_filter.mp first).2
    have keyed' := (List.mem_filter.mp second).2
    exact (of_decide_eq_true keyed).trans (of_decide_eq_true keyed').symm
  have kept : (s.arrived.filter fun f => f.key = k).Sublist s.findings :=
    List.sublist_mergeSort Finding.notAfter_trans Finding.notAfter_total tied List.filter_sublist
  have inside := kept.filter fun f => decide (f.key = k)
  rw [List.filter_filter] at inside
  simp only [Bool.and_self] at inside
  exact (inside.eq_of_length (shuffled.filter _).length_eq.symm).symm

/-- The findings come out the same whenever those with one key arrived in the same order. -/
theorem findings_eq {s t : Sink}
    (same : ∀ k, s.arrived.filter (fun f => f.key = k) = t.arrived.filter fun f => f.key = k) :
    s.findings = t.findings := by
  refine Finding.eq_of_sorted s.findings_sorted t.findings_sorted fun k => ?_
  have left := s.filter_findings k
  have right := t.filter_findings k
  rw [left, right, same k]

end Sink

end TraceLint
