import TraceLint.Proofs.Logging.Conclusion

/-! Advice on formats without letters stands apart from all other findings: where it is turned off,
it is missing, and nothing else changes. Two traversals of the same code are compared step by
step. -/
namespace TraceLint.Logging

open Analysis (Outcome Task Project Conclusion)

/-- Whether a finding is other than advice on a format without letters. -/
def weighty (f : Finding) : Bool := f.category ≠ Category.signOnly

section

variable (site : CallSite) (hierarchy : Hierarchy)

theorem weighty_countFindings (m : Descriptor.MethodType) (format : Text) :
    ∀ f ∈ site.countFindings m hierarchy format, weighty f = true := by
  intro f member
  rcases countFindings_cases site hierarchy m format with none | array | ⟨_, _, _, differ⟩
  · rw [none] at member
    contradiction
  · rw [array, List.mem_singleton] at member
    exact member ▸ rfl
  · rw [differ, List.mem_singleton] at member
    exact member ▸ rfl

/-- The flag is read before the counts, whose findings are none of its business. -/
theorem check_without_advice :
    check site hierarchy false = (check site hierarchy true).map (List.filter weighty) := by
  rw [check, check]
  by_cases skipped : (!site.isLogging || withoutFormat.contains site.desc) = true
  · rw [if_pos skipped, if_pos skipped]
    rfl
  rw [if_neg skipped, if_neg skipped]
  cases Descriptor.parse site.desc with
  | error e => rfl
  | ok m =>
    dsimp only
    by_cases shallow : Stack.depth site.stack < m.params.length
    · rw [if_pos shallow, if_pos shallow]
      rfl
    rw [if_neg shallow, if_neg shallow]
    cases formatSlot m site.stack with
    | none => rfl
    | some slot =>
      dsimp only
      cases constantFormat (some slot) with
      | none => rfl
      | some format =>
        have advice :
            (if (true && isSignOnly format) = true then [site.signOnly format] else []).filter
            weighty = [] := by
          split <;> rfl
        have counts := List.filter_eq_self.mpr (weighty_countFindings site hierarchy m format)
        simp only [Except.map, List.filter_append, advice, counts]
        rfl

end

/-- A tally less the advice in it. -/
def Tally.withoutAdvice (t : Tally) : Tally :=
  { t with findings := t.findings.map (List.filter weighty) }

theorem Tally.add_without_advice (hierarchy : Hierarchy) (t : Tally) (site : CallSite) :
    t.withoutAdvice.add hierarchy false site = (t.add hierarchy true site).withoutAdvice := by
  rw [Tally.add, Tally.add, check_without_advice]
  split
  · cases check site hierarchy true <;> rfl
  · rfl

theorem survey_without_advice (inspector : Bytecode.Inspector) (hierarchy : Hierarchy) :
    survey inspector hierarchy false = (survey inspector hierarchy true).withoutAdvice := by
  rw [survey, survey, Bytecode.Inspector.visitOpcodes, Bytecode.Inspector.visitOpcodes]
  refine Bytecode.visitAfter_hom (f := Tally.withoutAdvice) _ (fun t e => ?_) 0 {} inspector.events
  rw [Tally.add_without_advice]

theorem Tally.outcome_without_advice (t : Tally) :
    t.withoutAdvice.outcome = { t.outcome with findings := t.outcome.findings.filter weighty } := by
  have kept : weighty ∘ Finding.reported = weighty := by
    funext f
    simp only [Function.comp_apply, weighty, Finding.reported]
    split <;> rfl
  have findings : t.withoutAdvice.outcome.findings = t.outcome.findings.filter weighty := by
    simp only [outcome, withoutAdvice, List.filter_map, kept, ← List.map_reverse,
      List.filter_flatten]
  rw [← findings]
  rfl

theorem run_without_advice (inspect : Analysis.Id) (task : Task) :
    run inspect false task =
      { run inspect true task with
        findings := (run inspect true task).findings.filter weighty } := by
  simp only [run]
  split
  · rw [survey_without_advice, Tally.outcome_without_advice]
  · rfl

/-- How the analysis ends on a class, in terms of its run. -/
theorem analyzeClass_logging (reportSignOnly : Bool) (program : Bytecode.Program)
    (c : Bytecode.Class) :
    Analysis.analyzeClass (catalog reportSignOnly) program c 1 =
      (Project.mk (catalog reportSignOnly) program [c]).start 1 (analysis 0 reportSignOnly) c
        [(0, .inspector (.ofClasses [c]))] := by
  rw [Analysis.analyzeClass_eq_evaluate (catalog_acyclic reportSignOnly), evaluate_logging]

theorem start_without_advice (program : Bytecode.Program) (c : Bytecode.Class)
    (inputs : List (Analysis.Id × Analysis.Output)) :
    let quiet := (Project.mk (catalog false) program [c]).start 1 (analysis 0 false) c inputs
    let advised := (Project.mk (catalog true) program [c]).start 1 (analysis 0 true) c inputs
    quiet.findings = advised.findings.filter weighty ∧ quiet.output = advised.output ∧
      quiet.failure = advised.failure := by
  intro quiet advised
  have outcome (reportSignOnly : Bool) (task : Task) :
      (analysis 0 reportSignOnly).outcomeOn task = run 0 reportSignOnly task := rfl
  by_cases complete : c.incomplete = false
  · have admitted (reportSignOnly : Bool) : (analysis 0 reportSignOnly).Admits c := .inl complete
    rw [show quiet = _ from Project.start_admitted (admitted false),
      show advised = _ from Project.start_admitted (admitted true), outcome, outcome,
      run_without_advice]
    exact ⟨rfl, rfl, rfl⟩
  · have refused (reportSignOnly : Bool) : ¬ (analysis 0 reportSignOnly).Admits c :=
      Analysis.not_admits_iff.mpr ⟨Bool.not_eq_false _ ▸ complete, rfl⟩
    rw [show quiet = _ from Project.start_skipped (refused false),
      show advised = _ from Project.start_skipped (refused true)]
    exact ⟨rfl, rfl, rfl⟩

/-- Without advice on letters the analysis hands on the same result and fails in the same way, and
its findings are the others in their order. The same holds of the end on each class of a program. -/
theorem advice_changes_nothing_else :
    (∀ (inspect : Analysis.Id) (task : Task),
      (run inspect false task).findings =
        (run inspect true task).findings.filter (fun f => f.category ≠ Category.signOnly) ∧
      (run inspect false task).output = (run inspect true task).output ∧
      (run inspect false task).error = (run inspect true task).error) ∧
    ∀ (program : Bytecode.Program) (c : Bytecode.Class),
      let quiet := Analysis.analyzeClass (catalog false) program c 1
      let advised := Analysis.analyzeClass (catalog true) program c 1
      quiet.findings = advised.findings.filter (fun f => f.category ≠ Category.signOnly) ∧
      quiet.output = advised.output ∧ quiet.failure = advised.failure := by
  constructor
  · intro inspect task
    rw [run_without_advice]
    exact ⟨rfl, rfl, rfl⟩
  · intro program c
    rw [analyzeClass_logging, analyzeClass_logging]
    exact start_without_advice program c _

end TraceLint.Logging
