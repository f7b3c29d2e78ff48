import Mathlib.Data.List.Induction
import Mathlib.Data.List.Nodup
import TraceLint.Report.Plain

/-! The sections of a report, one per analysis. What counts as a repetition in all of them is told
section by section, and only by position, message and category. -/
namespace TraceLint.Report

open Analysis (Ended)

/-- The section of an analysis: what all its roots found. -/
def sectionOf (catalog : Catalog) (roots : List Ended) (id : Analysis.Id) : Section :=
  ⟨id, catalog.nameOf id, ⟨(roots.filter fun root => root.action.analysis = id).flatMap fun root =>
    root.conclusion.findings⟩⟩

section

variable {catalog : Catalog} {roots : List Ended} {root : Ended} {id : Analysis.Id}

theorem sectionOf_own (own : root.action.analysis = id) :
    sectionOf catalog (roots ++ [root]) id = { sectionOf catalog roots id with
      sink := (sectionOf catalog roots id).sink.add root.conclusion.findings } := by
  simp [sectionOf, Sink.add, List.filter_append, own]

theorem sectionOf_other (other : root.action.analysis ≠ id) :
    sectionOf catalog (roots ++ [root]) id = sectionOf catalog roots id := by
  simp [sectionOf, List.filter_append, other]

theorem sectionOf_first (first : ∀ earlier ∈ roots, earlier.action.analysis ≠ id) :
    sectionOf catalog roots id = ⟨id, catalog.nameOf id, {}⟩ := by
  have none : roots.filter (fun root => root.action.analysis = id) = [] := by
    refine List.filter_eq_nil_iff.mpr fun earlier listed => ?_
    simpa using first earlier listed
  rw [sectionOf, none]
  rfl

theorem addTo_sections {ids : List Analysis.Id} (once : ids.Nodup)
    (first : root.action.analysis ∉ ids →
      ∀ earlier ∈ roots, earlier.action.analysis ≠ root.action.analysis) :
    addTo catalog root (ids.map (sectionOf catalog roots)) =
      (if root.action.analysis ∈ ids then ids else ids ++ [root.action.analysis]).map
        (sectionOf catalog (roots ++ [root])) := by
  induction ids with
  | nil =>
    have fresh := @sectionOf_own catalog roots root _ rfl
    rw [sectionOf_first (first List.not_mem_nil)] at fresh
    simp only [List.not_mem_nil, if_false, List.nil_append, List.map_cons, List.map_nil, fresh]
    rfl
  | cons id rest ih =>
    obtain ⟨apart, once⟩ := List.nodup_cons.mp once
    have here : (sectionOf catalog roots id).analysis = id := rfl
    rw [List.map_cons, addTo, here]
    by_cases own : root.action.analysis = id
    · have later : rest.map (sectionOf catalog (roots ++ [root])) =
          rest.map (sectionOf catalog roots) :=
        List.map_congr_left fun other listed =>
          sectionOf_other fun same => apart (own.symm.trans same ▸ listed)
      rw [if_pos own.symm, if_pos (own ▸ List.mem_cons_self), List.map_cons, sectionOf_own own,
        later]
      rfl
    · have joined := ih once fun absent => first fun listed =>
        absent ((List.mem_cons.mp listed).resolve_left own)
      have listed : root.action.analysis ∈ id :: rest ↔ root.action.analysis ∈ rest := by
        rw [List.mem_cons, or_iff_right own]
      rw [if_neg (Ne.symm own), joined]
      simp only [listed]
      split
      · rw [List.map_cons, sectionOf_other own]
      · rw [List.cons_append, List.map_cons, sectionOf_other own]

end

/-- One section per analysis of the roots, with all that its roots found. -/
theorem sections_eq (catalog : Catalog) (roots : List Ended) :
    ∃ ids : List Analysis.Id, ids.Nodup ∧
      (∀ id, id ∈ ids ↔ ∃ root ∈ roots, root.action.analysis = id) ∧
      sections catalog roots = ids.map (sectionOf catalog roots) := by
  induction roots using List.reverseRecOn with
  | nil => exact ⟨[], List.nodup_nil, by simp, rfl⟩
  | append_singleton roots root ih =>
    obtain ⟨ids, once, listed, same⟩ := ih
    have added :
        sections catalog (roots ++ [root]) = addTo catalog root (sections catalog roots) := by
      simp [sections, List.foldl_append]
    have joined := @addTo_sections catalog roots root ids once
      fun absent earlier before own => absent ((listed _).mpr ⟨earlier, before, own⟩)
    refine ⟨_, ?_, fun id => ?_, added.trans (same ▸ joined)⟩
    · split
      · exact once
      · rename_i absent
        exact List.nodup_append.mpr ⟨once, List.nodup_singleton _, by grind⟩
    · split <;> grind

theorem mem_sections {catalog : Catalog} {roots : List Ended} {s : Section}
    (listed : s ∈ sections catalog roots) :
    s = sectionOf catalog roots s.analysis ∧ ∃ root ∈ roots, root.action.analysis = s.analysis := by
  obtain ⟨ids, _, present, same⟩ := sections_eq catalog roots
  rw [same] at listed
  obtain ⟨id, inside, rfl⟩ := List.mem_map.mp listed
  exact ⟨rfl, (present id).mp inside⟩

/-- The roots of one analysis give one section, which holds the findings of all of them. -/
theorem sections_of_one (catalog : Catalog) {id : Analysis.Id} {roots : List Ended}
    (one : ∀ root ∈ roots, root.action.analysis = id) :
    sections catalog roots = if roots = [] then []
      else [⟨id, catalog.nameOf id, ⟨roots.flatMap fun root => root.conclusion.findings⟩⟩] := by
  obtain ⟨ids, once, listed, same⟩ := sections_eq catalog roots
  have all : roots.filter (fun root => root.action.analysis = id) = roots :=
    List.filter_eq_self.mpr fun root member => decide_eq_true (one root member)
  split
  · rename_i none
    subst none
    rfl
  · rename_i some
    have only (a : Analysis.Id) : a ∈ ids ↔ a ∈ [id] := by
      rw [listed, List.mem_singleton]
      constructor
      · rintro ⟨root, member, rfl⟩
        exact one root member
      · rintro rfl
        obtain ⟨root, member⟩ := List.exists_mem_of_ne_nil roots some
        exact ⟨root, member, one root member⟩
    have alone : ids = [id] :=
      List.perm_singleton.mp ((List.perm_ext_iff_of_nodup once (List.nodup_singleton id)).mpr only)
    rw [same, alone, List.map_singleton, sectionOf, all]

theorem sections_apart (catalog : Catalog) (roots : List Ended) :
    ((sections catalog roots).map Section.analysis).Nodup := by
  obtain ⟨ids, once, _, same⟩ := sections_eq catalog roots
  rw [same, List.map_map]
  exact (List.map_id ids).symm ▸ once

/-- Whether two findings of one analysis read the same at the same position. -/
def repeats (x y : Finding) : Bool :=
  x.pos = y.pos && x.message = y.message && x.category = y.category

/-- The findings without later repetitions; `seen` are those before them. -/
def distinctAfter (seen : List Finding) : List Finding → List Finding
  | [] => []
  | f :: rest =>
    if seen.any (repeats f) then distinctAfter seen rest else f :: distinctAfter (f :: seen) rest

def distinct (findings : List Finding) : List Finding := distinctAfter [] findings

theorem repeats_iff {x y : Finding} :
    repeats x y = true ↔ x.pos = y.pos ∧ x.message = y.message ∧ x.category = y.category := by
  simp [repeats, and_assoc]

/-- The name of the analysis ends where the category starts, so that the category can be told. -/
theorem rubric_inj {name : Text} {x y : Finding} :
    rubric name x = rubric name y ↔ x.category = y.category := by
  unfold rubric
  split
  · split
    · rename_i none none'
      exact iff_of_true rfl (none.trans none'.symm)
    · rename_i none some
      have longer : name ≠ name ++ byte '.' :: y.category := by simp
      exact iff_of_false longer fun same => some (same.symm.trans none)
  · split
    · rename_i some none
      have longer : name ++ byte '.' :: x.category ≠ name := by simp
      exact iff_of_false longer fun same => some (same.trans none)
    · rw [List.append_cancel_left_eq, List.cons_inj_right]

theorem traitOf_eq_iff {s : Section} {x y : Finding} :
    traitOf s x = traitOf s y ↔ repeats x y = true := by
  rw [repeats_iff, traitOf, traitOf, Trait.mk.injEq, rubric_inj]
  exact and_congr_right' (and_iff_right rfl)

theorem unrepeated_section (s : Section) (findings : List Finding) {seen : List Trait}
    {earlier : List Finding} (own : ∀ f, traitOf s f ∈ seen ↔ earlier.any (repeats f) = true) :
    ∃ seen', (∀ t ∈ seen', t ∈ seen ∨ t.analysis = s.analysis) ∧
      ∀ rest, unrepeated seen (findings.map (fun f => (s, f)) ++ rest) =
        (distinctAfter earlier findings).map (fun f => (s, f)) ++ unrepeated seen' rest := by
  induction findings generalizing seen earlier with
  | nil => exact ⟨seen, fun t member => .inl member, fun rest => rfl⟩
  | cons f findings ih =>
    by_cases again : traitOf s f ∈ seen
    · obtain ⟨seen', within, same⟩ := ih own
      refine ⟨seen', within, fun rest => ?_⟩
      rw [distinctAfter, if_pos ((own f).mp again), ← same, List.map_cons, List.cons_append,
        unrepeated, if_pos again]
    · have more (g : Finding) : traitOf s g ∈ traitOf s f :: seen ↔
          (f :: earlier).any (repeats g) = true := by
        rw [List.mem_cons, List.any_cons, Bool.or_eq_true, traitOf_eq_iff, own]
      obtain ⟨seen', within, same⟩ := ih more
      refine ⟨seen', fun t member => ?_, fun rest => ?_⟩
      · rcases within t member with seen | here
        · rcases List.mem_cons.mp seen with rfl | before
          · exact .inr rfl
          · exact .inl before
        · exact .inr here
      · rw [distinctAfter, if_neg fun found => again ((own f).mpr found), List.map_cons,
          List.map_cons, List.cons_append, unrepeated, if_neg again, same, List.cons_append]

/-- A finding repeats only findings of its own section. -/
theorem unrepeated_listed {sections : List Section}
    (apart : (sections.map Section.analysis).Nodup) :
    unrepeated [] (listed sections) =
      sections.flatMap fun s => (distinct s.sink.findings).map fun f => (s, f) := by
  have all (seen : List Trait) (fresh : ∀ t ∈ seen, t.analysis ∉ sections.map Section.analysis) :
      unrepeated seen (listed sections) =
        sections.flatMap fun s => (distinct s.sink.findings).map fun f => (s, f) := by
    induction sections generalizing seen with
    | nil => rfl
    | cons s rest ih =>
      obtain ⟨here, apart⟩ := List.nodup_cons.mp apart
      have own (f : Finding) : traitOf s f ∈ seen ↔ [].any (repeats f) = true :=
        iff_of_false (fun member => fresh _ member List.mem_cons_self) Bool.false_ne_true
      obtain ⟨seen', within, same⟩ := unrepeated_section s s.sink.findings own
      rw [listed, List.flatMap_cons, same, List.flatMap_cons]
      refine congrArg _ (ih apart seen' fun t member => ?_)
      rcases within t member with before | own
      · exact fun later => fresh t before (List.mem_cons_of_mem _ later)
      · rwa [own]
  exact all [] (by simp)

/-- What a report shows of a section. -/
def Section.content (s : Section) : Text × List Finding := (s.name, s.sink.findings)

/-- The lines of all findings, section by section. -/
def findingLines (layout : Layout) (inspector : Bytecode.Inspector)
    (contents : List (Text × List Finding)) : Transcript :=
  .concat (contents.flatMap fun content =>
    (distinct content.2).map (entry layout inspector content.1))

theorem plain_eq {sections : List Section} (apart : (sections.map Section.analysis).Nodup)
    (layout : Layout) (program : Bytecode.Program) (failures : List Failed) :
    plain layout program sections failures =
      ⟨(findingLines layout (.ofClasses program.classes) (sections.map Section.content)).written,
        failures.flatMap failureLine,
        (findingLines layout (.ofClasses program.classes)
          (sections.map Section.content)).refrain⟩ := by
  have same : (unrepeated [] (listed sections)).map (fun shown =>
      entry layout (.ofClasses program.classes) shown.1.name shown.2) =
      (sections.map Section.content).flatMap fun content =>
        (distinct content.2).map (entry layout (.ofClasses program.classes) content.1) := by
    rw [unrepeated_listed apart, List.map_flatMap, List.flatMap_map]
    simp only [List.map_map]
    rfl
  rw [findingLines, ← same]
  rfl

end TraceLint.Report
