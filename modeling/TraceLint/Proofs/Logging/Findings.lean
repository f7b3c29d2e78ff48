import TraceLint.Proofs.Logging.Conclusion
import TraceLint.Proofs.Logging.Outcome
import TraceLint.Proofs.Trace.Build
import TraceLint.Report.Tree

/-! The findings about logging calls. Each can be written as JSON, and no two of them share position
and category, given that a class has no two methods of one name and descriptor and that the pc
ascends. -/
namespace TraceLint.Logging

section

variable {hierarchy : Hierarchy} {reportSignOnly : Bool} {site : CallSite}

/-- The findings at one call: at most one about its letters, then at most one about its
arguments. -/
theorem findingsAt_cases (hierarchy : Hierarchy) (reportSignOnly : Bool) (site : CallSite) :
    ∃ advice verdict, findingsAt hierarchy reportSignOnly site = advice ++ verdict ∧
      (advice = [] ∨ ∃ format, advice = [site.signOnly format]) ∧
      (verdict = [] ∨ verdict = [site.notConstant] ∨ verdict = [site.unknownArray] ∨
        ∃ placeholders arguments, verdict = [site.mismatch placeholders arguments]) := by
  cases checked : check site hierarchy reportSignOnly with
  | error e => exact ⟨[], [], by simp [findingsAt, checked]⟩
  | ok findings =>
    have found : findingsAt hierarchy reportSignOnly site = findings := by
      simp [findingsAt, checked]
    rw [found]
    rcases assessed_of_check checked with
      rfl | ⟨advice, verdict, rfl, letters, none | array | ⟨_, _, _, differ⟩⟩
    · exact ⟨[], [site.notConstant], rfl, .inl rfl, .inr (.inl rfl)⟩
    · exact ⟨advice, verdict, rfl, letters, .inl none⟩
    · exact ⟨advice, verdict, rfl, letters, .inr (.inr (.inl array))⟩
    · exact ⟨advice, verdict, rfl, letters, .inr (.inr (.inr ⟨_, _, differ⟩))⟩

theorem pos_of_findingsAt {f : Finding} (member : f ∈ findingsAt hierarchy reportSignOnly site) :
    f.pos = site.pos := by
  unfold findingsAt at member
  split at member
  · rename_i checked
    exact (about_call checked member).1
  · contradiction

theorem findingsAt_writable {f : Finding} (member : f ∈ findingsAt hierarchy reportSignOnly site) :
    f.severity.name?.isSome ∧ (Report.findingJson? f).isSome := by
  obtain ⟨advice, verdict, found, letters, arguments⟩ :=
    findingsAt_cases hierarchy reportSignOnly site
  rw [found, List.mem_append] at member
  rcases member with member | member
  · rcases letters with rfl | ⟨format, rfl⟩
    · contradiction
    · rw [List.mem_singleton.mp member]
      exact ⟨rfl, rfl⟩
  · rcases arguments with rfl | rfl | rfl | ⟨_, _, rfl⟩
    · contradiction
    all_goals
      rw [List.mem_singleton.mp member]
      exact ⟨rfl, rfl⟩

end

/-- No two methods share name and descriptor. -/
def DistinctMethods (c : Bytecode.Class) : Prop :=
  c.methods.Pairwise fun m m' => m.name ≠ m'.name ∨ m.desc ≠ m'.desc

instance (c : Bytecode.Class) : Decidable (DistinctMethods c) :=
  inferInstanceAs (Decidable (List.Pairwise _ _))

section

variable {c : Bytecode.Class} {hierarchy : Hierarchy} {reportSignOnly : Bool}

theorem cls_of_loggingCalls {site : CallSite} (member : site ∈ loggingCalls c) :
    site.pos.cls = c.name := by
  obtain ⟨call, _⟩ := List.mem_filter.mp member
  obtain ⟨m, _, inside⟩ := List.mem_flatMap.mp call
  obtain ⟨i, _, rfl⟩ := List.mem_map.mp inside
  rfl

theorem mem_reportedOn {f : Finding} :
    f ∈ reportedOn hierarchy reportSignOnly c ↔ c.incomplete = false ∧
      ∃ site ∈ loggingCalls c, f ∈ findingsAt hierarchy reportSignOnly site := by
  cases incomplete : c.incomplete <;> simp [reportedOn, incomplete]

theorem cls_of_reportedOn {f : Finding} (member : f ∈ reportedOn hierarchy reportSignOnly c) :
    f.pos.cls = c.name := by
  obtain ⟨_, site, call, found⟩ := mem_reportedOn.mp member
  rw [pos_of_findingsAt found, cls_of_loggingCalls call]

end

end TraceLint.Logging
