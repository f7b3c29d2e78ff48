import Mathlib.Data.Multiset.AddSub
import TraceLint.Expectation.Suite
import TraceLint.Logging.Analysis

/-! Findings against expectations. Whatever the expressions match, each expectation is met at most
once and none gets lost: as many findings are expected as expectations are met, and where nothing is
left over they are all paired. -/
namespace TraceLint.Expectation

variable {ρ : Type}

/-- An expectation is about the instruction of a finding, and its expression matches the finding. -/
def Meets (agrees : ρ → Text → Bool) (f : Finding) (e : Expectation ρ) : Prop :=
  e.site = f.site ∧ agrees e.expression f.expected = true

instance (agrees : ρ → Text → Bool) (f : Finding) (e : Expectation ρ) :
    Decidable (Meets agrees f e) :=
  inferInstanceAs (Decidable (_ ∧ _))

/-- Findings and expectations correspond one to one, each finding to an expectation that it
meets. -/
def Paired (agrees : ρ → Text → Bool) (findings : List Finding)
    (wants : List (Expectation ρ)) : Prop :=
  Multiset.Rel (Meets agrees) findings wants

section

variable {agrees : ρ → Text → Bool} {f : Finding} {wants left : List (Expectation ρ)}

theorem meet?_cons (agrees : ρ → Text → Bool) (f : Finding) (e : Expectation ρ)
    (wants : List (Expectation ρ)) :
    meet? agrees f (e :: wants) =
      if Meets agrees f e then some wants else (meet? agrees f wants).map (e :: ·) := by
  rw [meet?]
  exact if_congr (by simp [Meets]) rfl rfl

theorem meet?_eq_none_iff : meet? agrees f wants = none ↔ ∀ e ∈ wants, ¬ Meets agrees f e := by
  induction wants with
  | nil => simp [meet?]
  | cons e wants ih =>
    rw [meet?_cons]
    by_cases meets : Meets agrees f e
    · simp [meets]
    · simp [meets, ih]

theorem meet?_eq_some_iff : meet? agrees f wants = some left ↔
    ∃ front e back, wants = front ++ e :: back ∧ left = front ++ back ∧ Meets agrees f e ∧
      ∀ x ∈ front, ¬ Meets agrees f x := by
  induction wants generalizing left with
  | nil => simp [meet?]
  | cons e wants ih =>
    rw [meet?_cons]
    by_cases meets : Meets agrees f e
    · rw [if_pos meets, Option.some_inj]
      constructor
      · rintro rfl
        exact ⟨[], e, wants, rfl, rfl, meets, by simp⟩
      · rintro ⟨front, x, back, same, rfl, _, passed⟩
        cases front with
        | nil => exact (List.cons.inj same).2
        | cons y front =>
          obtain ⟨rfl, _⟩ := List.cons.inj same
          exact absurd meets (passed e List.mem_cons_self)
    · rw [if_neg meets, Option.map_eq_some_iff]
      constructor
      · rintro ⟨rest, found, rfl⟩
        obtain ⟨front, x, back, rfl, rfl, here, passed⟩ := ih.mp found
        exact ⟨e :: front, x, back, rfl, rfl, here, List.forall_mem_cons.mpr ⟨meets, passed⟩⟩
      · rintro ⟨front, x, back, same, rfl, here, passed⟩
        cases front with
        | nil =>
          obtain ⟨rfl, _⟩ := List.cons.inj same
          exact absurd here meets
        | cons y front =>
          obtain ⟨rfl, rfl⟩ := List.cons.inj same
          exact ⟨front ++ back,
            ih.mpr ⟨front, x, back, rfl, rfl, here, (List.forall_mem_cons.mp passed).2⟩, rfl⟩

theorem exists_met (found : meet? agrees f wants = some left) :
    ∃ e, Meets agrees f e ∧
      (wants : Multiset (Expectation ρ)) = e ::ₘ (left : Multiset (Expectation ρ)) := by
  obtain ⟨front, e, back, rfl, rfl, meets, _⟩ := meet?_eq_some_iff.mp found
  refine ⟨e, meets, ?_⟩
  rw [Multiset.cons_coe]
  exact Multiset.coe_eq_coe.mpr List.perm_middle

theorem settle_met (met : meet? agrees f wants = some left) (rest : List Finding) :
    settle agrees wants (f :: rest) = settle agrees left rest := by
  rw [settle, met]

theorem settle_unmet (unmet : meet? agrees f wants = none) (rest : List Finding) :
    settle agrees wants (f :: rest) =
      (f :: (settle agrees wants rest).1, (settle agrees wants rest).2) := by
  rw [settle, unmet]

theorem settle_append (agrees : ρ → Text → Bool) (wants : List (Expectation ρ))
    (first second : List Finding) :
    settle agrees wants (first ++ second) =
      ((settle agrees wants first).1 ++ (settle agrees (settle agrees wants first).2 second).1,
        (settle agrees (settle agrees wants first).2 second).2) := by
  induction first generalizing wants with
  | nil => rfl
  | cons f rest ih =>
    rw [List.cons_append]
    cases met : meet? agrees f wants with
    | some left => rw [settle_met met, settle_met met, ih]
    | none => rw [settle_unmet met, settle_unmet met, ih]; rfl

/-- Apart from what settling leaves over on either side, findings and expectations correspond one to
one. -/
theorem settle_pairs (agrees : ρ → Text → Bool) (wants : List (Expectation ρ))
    (findings : List Finding) :
    ∃ met used, Multiset.Rel (Meets agrees) met used ∧
      (findings : Multiset Finding) = met + ((settle agrees wants findings).1 : Multiset Finding) ∧
      (wants : Multiset (Expectation ρ)) =
        used + ((settle agrees wants findings).2 : Multiset (Expectation ρ)) := by
  induction findings generalizing wants with
  | nil => exact ⟨0, 0, .zero, by simp [settle], by simp [settle]⟩
  | cons f rest ih =>
    cases found : meet? agrees f wants with
    | some left =>
      obtain ⟨met, used, pairs, findings, expectations⟩ := ih left
      obtain ⟨e, meets, taken⟩ := exists_met found
      refine ⟨f ::ₘ met, e ::ₘ used, .cons meets pairs, ?_, ?_⟩
      · rw [settle_met found, ← Multiset.cons_coe, findings, Multiset.cons_add]
      · rw [settle_met found, taken, expectations, Multiset.cons_add]
    | none =>
      obtain ⟨met, used, pairs, findings, expectations⟩ := ih wants
      refine ⟨met, used, pairs, ?_, ?_⟩
      · rw [settle_unmet found, ← Multiset.cons_coe, ← Multiset.cons_coe, findings,
          Multiset.add_cons]
      · rw [settle_unmet found, ← expectations]

theorem settle_counts (agrees : ρ → Text → Bool) (wants : List (Expectation ρ))
    (findings : List Finding) :
    findings.length + (settle agrees wants findings).2.length =
      wants.length + (settle agrees wants findings).1.length := by
  obtain ⟨met, used, pairs, findings, expectations⟩ := settle_pairs agrees wants findings
  have one := congrArg Multiset.card findings
  have other := congrArg Multiset.card expectations
  have same := Multiset.card_eq_card_of_rel pairs
  simp only [Multiset.coe_card, Multiset.card_add] at one other
  omega

theorem paired_of_settled {findings : List Finding}
    (unexpected : (settle agrees wants findings).1 = [])
    (unmet : (settle agrees wants findings).2 = []) : Paired agrees findings wants := by
  obtain ⟨met, used, pairs, findings, expectations⟩ := settle_pairs agrees wants findings
  rw [unexpected, Multiset.coe_nil, Multiset.add_zero] at findings
  rw [unmet, Multiset.coe_nil, Multiset.add_zero] at expectations
  rw [Paired, findings, expectations]
  exact pairs

end

def Complaint.finding? : Complaint → Option Finding
  | .failed _ _ => none
  | .unexpected f => some f

/-- The findings that nothing expects. -/
def Verdict.unexpected (v : Verdict ρ) : List Finding := v.complaints.filterMap Complaint.finding?

/-- Everything that an analysis reports on the classes of a suite, in order. -/
def Suite.reported (catalog : Catalog) (root : Analysis.Id) (s : Suite ρ) : List Finding :=
  let program := Bytecode.Program.ofClasses s.classes
  program.classes.flatMap fun c => (Analysis.analyzeClass catalog program c root).findings

section

variable (agrees : ρ → Text → Bool)

theorem judge_eq_settle (v : Verdict ρ) (cls : Text) (c : Analysis.Conclusion) :
    (v.judge agrees cls c).unexpected = v.unexpected ++ (settle agrees v.unmet c.findings).1 ∧
    (v.judge agrees cls c).unmet = (settle agrees v.unmet c.findings).2 := by
  refine ⟨?_, rfl⟩
  have failed : (c.failure.toList.map (Complaint.failed cls)).filterMap Complaint.finding? =
      [] := by
    simp [Complaint.finding?]
  have unexpected (findings : List Finding) :
      (findings.map Complaint.unexpected).filterMap Complaint.finding? = findings := by
    rw [List.filterMap_map]
    exact List.filterMap_some
  simp only [Verdict.judge, Verdict.unexpected, List.filterMap_append, failed, unexpected,
    List.append_nil]

theorem foldl_judge_eq_settle {κ : Type} (name : κ → Text) (ends : κ → Analysis.Conclusion)
    (units : List κ) (v : Verdict ρ) :
    let v' := units.foldl (fun v u => v.judge agrees (name u) (ends u)) v
    let settled := settle agrees v.unmet (units.flatMap fun u => (ends u).findings)
    v'.unexpected = v.unexpected ++ settled.1 ∧ v'.unmet = settled.2 := by
  induction units generalizing v with
  | nil => simp [settle]
  | cons u rest ih =>
    obtain ⟨unexpected, unmet⟩ := judge_eq_settle agrees v (name u) (ends u)
    obtain ⟨unexpected', unmet'⟩ := ih (v.judge agrees (name u) (ends u))
    rw [List.foldl_cons, List.flatMap_cons, settle_append, ← unmet]
    rw [unexpected, List.append_assoc] at unexpected'
    exact ⟨unexpected', unmet'⟩

theorem test_eq_settle (catalog : Catalog) (root : Analysis.Id) (s : Suite ρ) :
    (s.test agrees catalog root).unexpected = (settle agrees s.wants (s.reported catalog root)).1 ∧
    (s.test agrees catalog root).unmet = (settle agrees s.wants (s.reported catalog root)).2 :=
  foldl_judge_eq_settle agrees Bytecode.Class.name _ _ { unmet := s.wants }

end

/-- As many findings are expected as expectations are met, and where none is left over on either
side they correspond one to one. -/
theorem findings_meet_expectations (agrees : ρ → Text → Bool) (catalog : Catalog)
    (root : Analysis.Id) (s : Suite ρ) :
    ((s.reported catalog root).length - (s.test agrees catalog root).unexpected.length : Int) =
      s.wants.length - (s.test agrees catalog root).unmet.length ∧
    ((s.test agrees catalog root).unexpected = [] → (s.test agrees catalog root).unmet = [] →
      Paired agrees (s.reported catalog root) s.wants) := by
  obtain ⟨unexpected, unmet⟩ := test_eq_settle agrees catalog root s
  rw [unexpected, unmet]
  refine ⟨?_, paired_of_settled⟩
  have counts := settle_counts agrees s.wants (s.reported catalog root)
  omega

/-- A class with one logging call, whose format has no letters and two placeholders for one
argument. -/
def signsClass : Bytecode.Class where
  name := text "pkg/Signs"
  super := text "java/lang/Object"
  source := text "Signs.java"
  methods := [⟨text "log", text "()V", [⟨5, 7, .invokeInterface, Logging.loggerClass, text "info",
    text "(Ljava/lang/String;Ljava/lang/Object;)V",
    some ⟨[
      { signature := Descriptor.FieldType.string, constant := .text (text "\x7b\x7d \x7b\x7d") },
      { signature := Descriptor.FieldType.object }]⟩⟩]⟩]
  incomplete := false

def signsSuite (expressions : List String) : Suite Expression where
  classes := [signsClass]
  wants := expressions.map fun source => ⟨⟨text "pkg/Signs", text "log", text "()V", 5⟩,
    ⟨text source, (Pattern.parse (text source)).toOption.getD .empty⟩⟩

/-- Both findings at the call are expected, by an expression for the one and an expression for
either. -/
theorem signs_settled :
    let settled := settle Expression.agrees (signsSuite ["SIGN_ONLY", "SLF4J"]).wants
      ((signsSuite ["SIGN_ONLY", "SLF4J"]).reported (Logging.catalog true) 1)
    settled.1 = [] ∧ settled.2 = [] := by
  simp only [← List.isEmpty_iff]
  decide +kernel

theorem signs_meet_expectations :
    ((signsSuite ["SIGN_ONLY", "SLF4J"]).reported (Logging.catalog true) 1).length = 2 ∧
    Paired Expression.agrees ((signsSuite ["SIGN_ONLY", "SLF4J"]).reported (Logging.catalog true) 1)
      (signsSuite ["SIGN_ONLY", "SLF4J"]).wants := by
  obtain ⟨unexpected, unmet⟩ := test_eq_settle Expression.agrees (Logging.catalog true) 1
    (signsSuite ["SIGN_ONLY", "SLF4J"])
  obtain ⟨_, paired⟩ := findings_meet_expectations Expression.agrees (Logging.catalog true) 1
    (signsSuite ["SIGN_ONLY", "SLF4J"])
  exact ⟨by decide +kernel, paired (unexpected.trans signs_settled.1) (unmet.trans signs_settled.2)⟩

end TraceLint.Expectation
