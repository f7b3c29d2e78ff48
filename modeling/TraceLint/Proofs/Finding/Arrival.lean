import TraceLint.Proofs.Finding.Order

/-! Findings of several units in one sink. Each unit adds its own findings in order, in batches of
any size, and nothing is known about whose batch comes next. Where findings of different units never
tie, the order of arrival leaves no trace in the sorted list. -/
namespace TraceLint.Sink

/-- Findings of different units differ in class, method, pc or category. -/
def Apart (units : List (List Finding)) : Prop :=
  units.Pairwise fun xs ys => ∀ x ∈ xs, ∀ y ∈ ys, x.key ≠ y.key

/-- What the units have still to add, and the sink so far. -/
inductive Reached (units : List (List Finding)) : List (List Finding) → Sink → Prop where
  | start : Reached units units {}
  | add (front back : List (List Finding)) {batch rest : List Finding} {s : Sink} :
      Reached units (front ++ (batch ++ rest) :: back) s →
        Reached units (front ++ rest :: back) (s.add batch)

/-- A sink to which the units have added all that they found, in some interleaving. -/
def Collects (units : List (List Finding)) (s : Sink) : Prop :=
  ∃ pending, Reached units pending s ∧ ∀ rest ∈ pending, rest = []

/-- What every interleaving keeps: nothing is lost, and findings with one key stay in order. -/
structure Kept (units pending : List (List Finding)) (s : Sink) : Prop where
  apart : Apart pending
  total : (s.arrived ++ pending.flatten).Perm units.flatten
  inOrder : ∀ k, (s.arrived ++ pending.flatten).filter (fun f => f.key = k) =
    units.flatten.filter fun f => f.key = k

variable {units pending front back : List (List Finding)} {batch rest unit : List Finding}
    {s t : Sink}

theorem Apart.advance (apart : Apart (front ++ (batch ++ rest) :: back)) :
    Apart (front ++ rest :: back) := by
  obtain ⟨before, here, across⟩ := List.pairwise_append.mp apart
  obtain ⟨first, later⟩ := List.pairwise_cons.mp here
  refine List.pairwise_append.mpr ⟨before, List.pairwise_cons.mpr ⟨?_, later⟩, ?_⟩
  · intro ys member x found
    exact first ys member x (List.mem_append_right _ found)
  · intro xs earlier ys member x found y other
    rcases List.mem_cons.mp member with rfl | behind
    · exact across xs earlier _ List.mem_cons_self x found y (List.mem_append_right _ other)
    · exact across xs earlier ys (List.mem_cons_of_mem _ behind) x found y other

theorem filter_flatten_eq_nil {k : Text × Text × Int64 × Text}
    (none : ∀ xs ∈ units, ∀ x ∈ xs, x.key ≠ k) :
    units.flatten.filter (fun f => f.key = k) = [] := by
  refine List.filter_eq_nil_iff.mpr fun f member keyed => ?_
  obtain ⟨xs, listed, found⟩ := List.mem_flatten.mp member
  exact none xs listed f found (of_decide_eq_true keyed)

/-- A batch has no key in common with the units before its own. -/
theorem Apart.filter_front (apart : Apart (front ++ (batch ++ rest) :: back)) {f : Finding}
    (added : f ∈ batch) :
    front.flatten.filter (fun g => g.key = f.key) = [] := by
  obtain ⟨_, _, across⟩ := List.pairwise_append.mp apart
  refine filter_flatten_eq_nil fun xs earlier g found => ?_
  exact across xs earlier _ List.mem_cons_self g found f (List.mem_append_left _ added)

theorem Kept.initial (apart : Apart units) : Kept units units {} := ⟨apart, .refl _, fun _ => rfl⟩

theorem Kept.add (kept : Kept units (front ++ (batch ++ rest) :: back) s) :
    Kept units (front ++ rest :: back) (s.add batch) := by
  refine ⟨kept.apart.advance, List.Perm.trans ?_ kept.total, fun k => .trans ?_ (kept.inOrder k)⟩
  · simp only [Sink.add, List.flatten_append, List.flatten_cons, List.append_assoc]
    exact (List.perm_append_comm_assoc _ _ _).append_left _
  · simp only [Sink.add, List.flatten_append, List.flatten_cons, List.filter_append,
      List.append_assoc]
    congr 1
    -- Either the batch has nothing with this key, or the units before it have nothing.
    cases chosen : batch.filter fun f => f.key = k with
    | nil => rfl
    | cons f more =>
      have member : f ∈ batch.filter fun f => f.key = k := chosen ▸ List.mem_cons_self
      obtain ⟨added, keyed⟩ := List.mem_filter.mp member
      have none := kept.apart.filter_front added
      rw [of_decide_eq_true keyed] at none
      rw [none, List.nil_append, List.nil_append]

theorem Reached.kept (apart : Apart units) (reached : Reached units pending s) :
    Kept units pending s := by
  induction reached with
  | start => exact .initial apart
  | add front back _ ih => exact ih.add

/-- In the end, all that was found has arrived, each key in the order of its unit. -/
theorem Collects.arrived (apart : Apart units) (collected : Collects units s) :
    s.arrived.Perm units.flatten ∧
    ∀ k, s.arrived.filter (fun f => f.key = k) = units.flatten.filter fun f => f.key = k := by
  obtain ⟨pending, reached, exhausted⟩ := collected
  have kept := reached.kept apart
  have none : pending.flatten = [] := List.flatten_eq_nil_iff.mpr exhausted
  have total := kept.total
  have inOrder := kept.inOrder
  rw [none, List.append_nil] at total
  simp only [none, List.append_nil] at inOrder
  exact ⟨total, inOrder⟩

/-- All findings with the key of one belong to its unit. -/
theorem Apart.filter_flatten (apart : Apart units) (listed : unit ∈ units) {f : Finding}
    (member : f ∈ unit) :
    units.flatten.filter (fun g => g.key = f.key) = unit.filter fun g => g.key = f.key := by
  obtain ⟨front, back, rfl⟩ := List.append_of_mem listed
  obtain ⟨_, here, across⟩ := List.pairwise_append.mp apart
  obtain ⟨first, _⟩ := List.pairwise_cons.mp here
  have before : front.flatten.filter (fun g => g.key = f.key) = [] :=
    filter_flatten_eq_nil fun xs earlier g found =>
      across xs earlier unit List.mem_cons_self g found f member
  have behind : back.flatten.filter (fun g => g.key = f.key) = [] :=
    filter_flatten_eq_nil fun ys later g found => (first ys later f member g found).symm
  rw [List.flatten_append, List.flatten_cons, List.filter_append, List.filter_append, before,
    behind, List.nil_append, List.append_nil]

/-- Neither finding comes before the other. -/
def tied (f g : Finding) : Bool := !Finding.less f g && !Finding.less g f

theorem tied_iff {f g : Finding} : tied f g = true ↔ g.key = f.key := by
  rw [tied, Bool.and_eq_true]
  constructor
  · rintro ⟨first, second⟩
    exact Finding.key_eq_of_notAfter first second
  · intro same
    exact ⟨Finding.notAfter_iff.mpr (.inr same), Finding.notAfter_iff.mpr (.inr same.symm)⟩

theorem filter_tied (f : Finding) (findings : List Finding) :
    findings.filter (tied f) = findings.filter fun g => g.key = f.key := by
  refine List.filter_congr fun g _ => ?_
  rw [Bool.eq_iff_iff, tied_iff, decide_eq_true_iff]

/-- Whatever the interleaving, a sink gives the same list: all that was added, in order, and among
findings that tie in the order of the unit that they are from. -/
theorem findings_of_interleavings (apart : Apart units) (first : Collects units s)
    (second : Collects units t) :
    s.findings = t.findings ∧ s.findings.Perm units.flatten ∧
    (s.findings.Pairwise fun x y => ¬ Finding.less y x) ∧
    ∀ unit ∈ units, ∀ f ∈ unit, s.findings.filter (tied f) = unit.filter (tied f) := by
  obtain ⟨total, inOrder⟩ := first.arrived apart
  obtain ⟨_, inOrder'⟩ := second.arrived apart
  refine ⟨findings_eq fun k => (inOrder k).trans (inOrder' k).symm,
    (List.mergeSort_perm _ _).trans total, ?_, ?_⟩
  · have sorted := List.pairwise_mergeSort Finding.notAfter_trans Finding.notAfter_total s.arrived
    exact sorted.imp fun {x y} ordered => by simpa [Finding.notAfter] using ordered
  · intro unit listed f member
    rw [filter_tied, filter_findings, inOrder, apart.filter_flatten listed member, filter_tied]

/-- A finding at a pc of one method. -/
def remark (pc : Int64) (message : String) : Finding :=
  ⟨{ cls := text "a/B", method := text "m", pc }, text "C", .normal, text message, [], .none⟩

/-- Two remarks that tie, with one of another unit between them or before them. -/
theorem remarks_interleaved :
    Sink.findings ⟨[remark 7 "first", remark 3 "other", remark 7 "second"]⟩ =
      Sink.findings ⟨[remark 3 "other", remark 7 "first", remark 7 "second"]⟩ ∧
    (Sink.findings ⟨[remark 7 "first", remark 3 "other", remark 7 "second"]⟩).filter
      (tied (remark 7 "first")) =
      [remark 7 "first", remark 7 "second"] := by
  have apart : Apart [[remark 7 "first", remark 7 "second"], [remark 3 "other"]] := by
    simp [Apart, remark, Finding.key]
  have between : Collects [[remark 7 "first", remark 7 "second"], [remark 3 "other"]]
      ⟨[remark 7 "first", remark 3 "other", remark 7 "second"]⟩ := by
    have one := @Reached.add [[remark 7 "first", remark 7 "second"], [remark 3 "other"]]
      [] [[remark 3 "other"]] [remark 7 "first"] [remark 7 "second"] {} .start
    have two := @Reached.add _ [[remark 7 "second"]] [] [remark 3 "other"] [] _ one
    have three := @Reached.add _ [] [[]] [remark 7 "second"] [] _ two
    exact ⟨_, three, by simp⟩
  have before : Collects [[remark 7 "first", remark 7 "second"], [remark 3 "other"]]
      ⟨[remark 3 "other", remark 7 "first", remark 7 "second"]⟩ := by
    have one := @Reached.add [[remark 7 "first", remark 7 "second"], [remark 3 "other"]]
      [[remark 7 "first", remark 7 "second"]] [] [remark 3 "other"] [] {} .start
    have two := @Reached.add _ [] [[]] [remark 7 "first", remark 7 "second"] [] _ one
    exact ⟨_, two, by simp⟩
  obtain ⟨same, _, _, ties⟩ := findings_of_interleavings apart between before
  refine ⟨same, (ties _ List.mem_cons_self _ List.mem_cons_self).trans ?_⟩
  rfl

end TraceLint.Sink
