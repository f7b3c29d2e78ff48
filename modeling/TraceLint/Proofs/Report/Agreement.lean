import TraceLint.Proofs.Json.Documents
import TraceLint.Proofs.Report.Tree

/-! Reports as text and as JSON, compared. The tree groups findings by class and analysis and keeps
repetitions; the text goes analysis by analysis and leaves them out. What the tree holds for an
analysis on a class, without repetitions, is what the text shows of it there. Errors without a text
and bytes that are not UTF-8 show in the text only. -/
namespace TraceLint.Report

open Analysis (Id Ended Failure)

namespace Tree

variable {tree : Tree} {k n : Text}

theorem Sorted.addContent (sorted : tree.Sorted) (content : Text × List Finding) :
    (tree.addContent content).Sorted :=
  List.foldlRecOn content.2 _ sorted fun _ sorted _ _ => sorted.update

theorem Sorted.addFailure (sorted : tree.Sorted) (failed : Failed) :
    (tree.addFailure failed).Sorted := sorted.update

/-- A section reaches the leaves under its name, each with the findings on its class. -/
theorem leaf_addContent (sorted : tree.Sorted) (name : Text) (findings : List Finding) :
    (tree.addContent (name, findings)).leaf k n = { tree.leaf k n with
      findings := (tree.leaf k n).findings ++
        if name = n then findings.filter fun f => f.pos.cls = k else [] } := by
  induction findings generalizing tree with
  | nil => simp [addContent]
  | cons f rest ih =>
    have added := @Sorted.update tree f.pos.cls name
      (fun leaf => { leaf with findings := leaf.findings ++ [f] }) sorted
    refine Eq.trans (ih added) ?_
    by_cases here : k = f.pos.cls ∧ n = name
    · obtain ⟨rfl, rfl⟩ := here
      rw [leaf_update sorted]
      simp
    · rw [leaf_update_other sorted (not_and_or.mp here)]
      by_cases named : name = n
      · have elsewhere : f.pos.cls ≠ k := fun same => here ⟨same.symm, named.symm⟩
        simp [elsewhere]
      · simp [named]

theorem leaf_addFailure (sorted : tree.Sorted) (failed : Failed) :
    (tree.addFailure failed).leaf k n = if failed.cls = k ∧ failed.name = n then
      { tree.leaf k n with error := failed.failure.message } else tree.leaf k n := by
  split
  · rename_i here
    obtain ⟨rfl, rfl⟩ := here
    exact leaf_update sorted
  · rename_i elsewhere
    exact leaf_update_other sorted ((not_and_or.mp elsewhere).imp Ne.symm Ne.symm)

theorem leaf_addContents (sorted : tree.Sorted) (contents : List (Text × List Finding)) :
    (contents.foldl addContent tree).Sorted ∧
    (contents.foldl addContent tree).leaf k n = { tree.leaf k n with
      findings := (tree.leaf k n).findings ++ (contents.filter fun c => c.1 = n).flatMap fun c =>
        c.2.filter fun f => f.pos.cls = k } := by
  induction contents generalizing tree with
  | nil => exact ⟨sorted, by simp⟩
  | cons content rest ih =>
    obtain ⟨name, findings⟩ := content
    obtain ⟨later, leaf⟩ := ih (sorted.addContent (name, findings))
    refine ⟨later, leaf.trans ?_⟩
    rw [leaf_addContent sorted]
    by_cases named : name = n <;> simp [named]

/-- A failure takes the place of an earlier one of its analysis on its class. -/
theorem leaf_addFailures (sorted : tree.Sorted) (failures : List Failed) :
    (failures.foldl addFailure tree).leaf k n = { tree.leaf k n with
      error := (failures.filter fun f => f.cls = k ∧ f.name = n).getLast?.elim
        (tree.leaf k n).error fun f => f.failure.message } := by
  induction failures generalizing tree with
  | nil => rfl
  | cons failed rest ih =>
    rw [List.foldl_cons, ih (sorted.addFailure failed), leaf_addFailure sorted]
    by_cases here : failed.cls = k ∧ failed.name = n
    · rw [if_pos here, List.filter_cons_of_pos (by simpa using here), List.getLast?_cons]
      cases (rest.filter fun f => f.cls = k ∧ f.name = n).getLast? with
      | none => rfl
      | some last => rfl
    · rw [if_neg here, List.filter_cons_of_neg (by simpa using here)]

end Tree

section

variable (sections : List Section) (failures : List Failed) (k n : Text)

theorem findings_tree : ((tree sections failures).leaf k n).findings =
    (sections.filter fun s => s.name = n).flatMap fun s =>
      s.sink.findings.filter fun f => f.pos.cls = k := by
  obtain ⟨sorted, leaf⟩ := @Tree.leaf_addContents [] k n .empty (sections.map Section.content)
  rw [tree_eq, Tree.leaf_addFailures sorted failures, leaf, List.filter_map, List.flatMap_map]
  rfl

theorem error_tree : ((tree sections failures).leaf k n).error =
    (failures.filter fun f => f.cls = k ∧ f.name = n).getLast?.elim []
      fun f => f.failure.message := by
  obtain ⟨sorted, leaf⟩ := @Tree.leaf_addContents [] k n .empty (sections.map Section.content)
  rw [tree_eq, Tree.leaf_addFailures sorted failures, leaf]
  rfl

end

/-- Leaving out repetitions and selecting by what they share may be done in either order. -/
theorem distinctAfter_filter {p : Finding → Bool} (shared : ∀ x y, repeats x y = true → p x = p y)
    (seen findings : List Finding) :
    distinctAfter (seen.filter p) (findings.filter p) = (distinctAfter seen findings).filter p := by
  induction findings generalizing seen with
  | nil => rfl
  | cons f rest ih =>
    cases chosen : p f with
    | true =>
      have again : (seen.filter p).any (repeats f) = seen.any (repeats f) := by
        rw [List.any_filter]
        refine congrArg seen.any (funext fun g => ?_)
        cases same : repeats f g with
        | false => exact Bool.and_false _
        | true => rw [← shared f g same, chosen, Bool.and_self]
      have first := ih (f :: seen)
      rw [List.filter_cons_of_pos chosen] at first ⊢
      rw [distinctAfter, distinctAfter, again, apply_ite (List.filter p),
        List.filter_cons_of_pos chosen, first, ih]
    | false =>
      have skipped := ih (f :: seen)
      have left : ¬ p f = true := by simp [chosen]
      rw [List.filter_cons_of_neg left] at skipped ⊢
      rw [distinctAfter, apply_ite (List.filter p), List.filter_cons_of_neg left, ← skipped, ih,
        ite_self]

theorem loop_eq_distinctAfter (findings seen : List Finding) :
    List.eraseDupsBy.loop repeats findings seen = seen.reverse ++ distinctAfter seen findings := by
  induction findings generalizing seen with
  | nil => simp [List.eraseDupsBy.loop, distinctAfter]
  | cons f rest ih =>
    rw [List.eraseDupsBy.loop, distinctAfter]
    cases seen.any (repeats f) with
    | true => exact ih seen
    | false => simpa using ih (f :: seen)

/-- Only the first of some findings with one position, category and message is kept. -/
theorem distinct_eq_eraseDupsBy (findings : List Finding) :
    distinct findings = findings.eraseDupsBy
      fun x y => x.pos = y.pos ∧ x.category = y.category ∧ x.message = y.message := by
  have same : repeats =
      fun x y => decide (x.pos = y.pos ∧ x.category = y.category ∧ x.message = y.message) := by
    funext x y
    rw [Bool.eq_iff_iff, repeats_iff, decide_eq_true_iff]
    exact and_congr_right' and_comm
  rw [← same]
  exact (loop_eq_distinctAfter findings []).symm

/-- The roots that failed, in order. -/
def failedRoots (roots : List Ended) : List (Ended × Failure) :=
  roots.filterMap fun root => root.conclusion.failure.map fun failure => (root, failure)

theorem filter_unrepeated {sections : List Section}
    (apart : (sections.map Section.analysis).Nodup) (id : Id) (k : Text) :
    ((unrepeated [] (listed sections)).filter fun shown =>
        shown.1.analysis = id ∧ shown.2.pos.cls = k).map Prod.snd =
      (sections.filter fun s => s.analysis = id).flatMap fun s =>
        (distinct s.sink.findings).filter fun f => f.pos.cls = k := by
  rw [unrepeated_listed apart]
  clear apart
  induction sections with
  | nil => rfl
  | cons s rest ih =>
    rw [List.flatMap_cons, List.filter_append, List.map_append, ih, List.filter_map, List.map_map]
    by_cases own : s.analysis = id
    · simp [own, Function.comp_def]
    · simp [own, Function.comp_def]

variable {catalog : Catalog} {roots : List Ended} {id : Id}

/-- An analysis has one section, or none if it has no root. -/
theorem sections_of_analysis (catalog : Catalog) (roots : List Ended) (id : Id) :
    (sections catalog roots).filter (fun s => s.analysis = id) = [sectionOf catalog roots id] ∨
      (sections catalog roots).filter (fun s => s.analysis = id) = [] := by
  obtain ⟨ids, once, _, same⟩ := sections_eq catalog roots
  have chosen : ids.filter (fun a => (sectionOf catalog roots a).analysis = id) =
      List.replicate (ids.count id) id :=
    List.filter_eq id
  rw [same, List.filter_map]
  simp only [Function.comp_def, chosen, once.count]
  split
  · exact .inl rfl
  · exact .inr rfl

theorem plain_of_roots (layout : Layout) (program : Bytecode.Program) :
    let lines := Transcript.concat ((unrepeated [] (listed (sections catalog roots))).map
      fun shown =>
        entry layout (.ofClasses program.classes) (catalog.nameOf shown.1.analysis) shown.2)
    plain layout program (sections catalog roots) (failures catalog roots) =
      ⟨lines.written, (failures catalog roots).flatMap failureLine, lines.refrain⟩ := by
  have named : ∀ shown ∈ unrepeated [] (listed (sections catalog roots)),
      shown.1.name = catalog.nameOf shown.1.analysis := by
    rw [unrepeated_listed (sections_apart catalog roots)]
    intro shown member
    obtain ⟨s, listed, member⟩ := List.mem_flatMap.mp member
    obtain ⟨f, _, rfl⟩ := List.mem_map.mp member
    exact congrArg Section.name (mem_sections listed).1
  intro lines
  have same : lines = Transcript.concat ((unrepeated [] (listed (sections catalog roots))).map
      fun shown => entry layout (.ofClasses program.classes) shown.1.name shown.2) := by
    refine congrArg Transcript.concat (List.map_congr_left fun shown member => ?_)
    rw [named shown member]
  rw [same]
  rfl

theorem failures_eq_failedRoots : failures catalog roots = (failedRoots roots).map fun failed =>
    ⟨catalog.nameOf failed.1.action.analysis, failed.1.cls, failed.2⟩ := by
  rw [failures, failedRoots, List.map_filterMap]
  simp only [Option.map_map]
  rfl

theorem failureLines_eq : (failures catalog roots).flatMap failureLine =
    (failedRoots roots).flatMap fun failed =>
      failureLine ⟨catalog.nameOf failed.1.action.analysis, failed.1.cls, failed.2⟩ := by
  rw [failures_eq_failedRoots, List.flatMap_map]

/-- The member of an object. -/
def member? (name : Text) : Json → Option Json
  | .object members => members.lookup name
  | _ => none

theorem member?_getD (name : Text) (found : Option Json) :
    member? name (found.getD (.object [])) = found.bind (member? name) := by
  cases found with
  | none => rfl
  | some j => rfl

theorem lookup_mapM {α β : Type} {write : α → Option β} {entries : List (Text × α)}
    {written : List (Text × β)}
    (done : (entries.mapM fun entry => do return (entry.1, ← write entry.2)) = some written)
    (key : Text) :
    written.lookup key = (entries.lookup key).bind write ∧
      ∀ x, entries.lookup key = some x → (write x).isSome := by
  induction entries generalizing written with
  | nil =>
    obtain rfl : written = [] := (Option.some.inj done).symm
    simp
  | cons entry rest ih =>
    obtain ⟨k, x⟩ := entry
    rw [List.mapM_cons] at done
    obtain ⟨first, here, done⟩ := Option.bind_eq_some_iff.mp done
    obtain ⟨others, later, done⟩ := Option.bind_eq_some_iff.mp done
    obtain ⟨y, wrote, same⟩ := Option.bind_eq_some_iff.mp here
    obtain rfl : (k, y) = first := Option.some.inj same
    obtain rfl : (k, y) :: others = written := Option.some.inj done
    obtain ⟨same, all⟩ := ih later
    rw [List.lookup_cons, List.lookup_cons]
    cases key == k with
    | true => simp [wrote]
    | false => exact ⟨same, all⟩

/-- The JSON of all leaves of a class. -/
def branchJson? (leaves : List (Text × Leaf)) : Option Json := do
  return .object (← leaves.mapM fun entry => do return (entry.1, ← leafJson? entry.2))

theorem Tree.json?_eq (tree : Tree) : tree.json? = do
    return .object (← tree.mapM fun branch => do return (branch.1, ← branchJson? branch.2)) := by
  unfold Tree.json?
  congr 2
  funext ⟨cls, leaves⟩
  symm
  exact bind_assoc _ _ _

/-- The JSON of a tree holds the JSON of each leaf under its class and its analysis. -/
theorem Tree.leaf_of_json? {tree : Tree} {j : Json} (written : tree.json? = some j) (k n : Text) :
    leafJson? (tree.leaf k n) = some (((member? k j).bind (member? n)).getD (.object [])) := by
  rw [json?_eq] at written
  obtain ⟨classes, mapped, done⟩ := Option.bind_eq_some_iff.mp written
  obtain rfl : Json.object classes = j := Option.some.inj done
  obtain ⟨branch, branches⟩ := lookup_mapM mapped k
  rw [member?, branch, leaf]
  cases found : tree.lookup k with
  | none => rfl
  | some leaves =>
    obtain ⟨b, made⟩ := Option.isSome_iff_exists.mp (branches leaves found)
    obtain ⟨entries, inner, done⟩ := Option.bind_eq_some_iff.mp made
    obtain rfl : Json.object entries = b := Option.some.inj done
    obtain ⟨leaf, all⟩ := lookup_mapM inner n
    rw [Option.bind_some, Option.bind_some, made, Option.bind_some, member?, leaf]
    cases known : leaves.lookup n with
    | none => rfl
    | some leaf =>
      obtain ⟨form, shown⟩ := Option.isSome_iff_exists.mp (all leaf known)
      rw [Option.getD_some, Option.bind_some, shown, Option.getD_some]

theorem findingJson?_isSome {f : Finding} {data : Option Json}
    (encoded : payload? f.payload = .ok data)
    (severity : f.severity = .low ∨ f.severity = .normal ∨ f.severity = .high) :
    (findingJson? f).isSome := by
  obtain ⟨name, named⟩ : ∃ name, f.severity.name? = some name := by
    rcases severity with same | same | same <;> rw [same] <;> exact ⟨_, rfl⟩
  rw [findingJson?, named, encoded]
  rfl

theorem mem_findings {s : Section} (listed : s ∈ sections catalog roots) {f : Finding}
    (found : f ∈ s.sink.findings) :
    ∃ root ∈ roots, f ∈ root.conclusion.findings := by
  rw [Sink.findings, List.mem_mergeSort, (mem_sections listed).1] at found
  obtain ⟨root, chosen, reported⟩ := List.mem_flatMap.mp found
  exact ⟨root, (List.mem_filter.mp chosen).1, reported⟩

/-- What holds of each result holds of all that were gathered. -/
theorem forall_mapM {α β : Type} {f : α → Option β} {P : β → Prop} {xs : List α} {ys : List β}
    (done : xs.mapM f = some ys) (each : ∀ x ∈ xs, ∀ y, f x = some y → P y) : ∀ y ∈ ys, P y := by
  induction xs generalizing ys with
  | nil =>
    obtain rfl : ys = [] := (Option.some.inj done).symm
    exact List.forall_mem_nil P
  | cons x rest ih =>
    rw [List.mapM_cons] at done
    obtain ⟨y, here, done⟩ := Option.bind_eq_some_iff.mp done
    obtain ⟨others, later, done⟩ := Option.bind_eq_some_iff.mp done
    obtain rfl : y :: others = ys := Option.some.inj done
    obtain ⟨first, all⟩ := List.forall_mem_cons.mp each
    exact List.forall_mem_cons.mpr ⟨first y here, ih later all⟩

section Depth

/-- A document with whole numbers and any texts, nested at most so deep. -/
abbrev Whole : Nat → Json → Prop := Json.Plain fun _ => True

variable {height : Nat}

theorem whole_object {members : List (Text × Json)} (each : ∀ m ∈ members, Whole height m.2) :
    Whole (height + 1) (.object members) :=
  .object (fun _ _ => trivial) each

theorem whole_textMember (name : String) (s : Text) :
    ∀ m ∈ textMember name s, Whole height m.2 := by
  unfold textMember
  split
  · exact List.forall_mem_nil _
  · exact List.forall_mem_singleton.mpr (.string trivial)

theorem whole_finding {f : Finding} {j : Json}
    (data : ∀ d, payload? f.payload = .ok (some d) → Whole height d)
    (written : findingJson? f = some j) : Whole (height + 1) j := by
  unfold findingJson? at written
  split at written
  · rename_i severity payload _ encoded
    obtain rfl := Option.some.inj written
    refine whole_object fun m listed => ?_
    rcases List.mem_append.mp listed with listed | last
    · rcases List.mem_append.mp listed with listed | called
      · rcases List.mem_append.mp listed with category | fixed
        · exact whole_textMember _ _ m category
        · simp only [List.mem_cons, List.not_mem_nil, or_false] at fixed
          rcases fixed with rfl | rfl | rfl
          · exact .string trivial
          · exact .string trivial
          · exact .string trivial
      · exact whole_textMember _ _ m called
    · cases payload with
      | none => contradiction
      | some d =>
        rw [List.mem_singleton.mp last]
        exact data d encoded
  · contradiction

theorem whole_leaf {leaf : Leaf} {j : Json}
    (data : ∀ f ∈ leaf.findings, ∀ d, payload? f.payload = .ok (some d) → Whole height d)
    (written : leafJson? leaf = some j) : Whole (height + 3) j := by
  obtain ⟨findings, mapped, done⟩ := Option.bind_eq_some_iff.mp written
  obtain rfl := Option.some.inj done
  have each := forall_mapM mapped fun f listed j made => whole_finding (data f listed) made
  refine whole_object fun m listed => ?_
  rcases List.mem_append.mp listed with error | found
  · exact whole_textMember _ _ m error
  · split at found
    · contradiction
    · rw [List.mem_singleton.mp found]
      exact .array each

theorem whole_tree {tree : Tree} {j : Json}
    (data : tree.All fun f => ∀ d, payload? f.payload = .ok (some d) → Whole height d)
    (written : tree.json? = some j) : Whole (height + 5) j := by
  rw [Tree.json?_eq] at written
  obtain ⟨classes, mapped, done⟩ := Option.bind_eq_some_iff.mp written
  obtain rfl : Json.object classes = j := Option.some.inj done
  refine whole_object (forall_mapM mapped fun branch listed m made => ?_)
  obtain ⟨b, inner, same⟩ := Option.bind_eq_some_iff.mp made
  obtain rfl : (branch.1, b) = m := Option.some.inj same
  obtain ⟨entries, mapped, done⟩ := Option.bind_eq_some_iff.mp inner
  obtain rfl : Json.object entries = b := Option.some.inj done
  refine whole_object (forall_mapM mapped fun entry inside m made => ?_)
  obtain ⟨form, shown, same⟩ := Option.bind_eq_some_iff.mp made
  obtain rfl : (entry.1, form) = m := Option.some.inj same
  exact whole_leaf (data branch listed entry inside) shown

end Depth

/-- The error of a leaf is a member of its JSON, unless it has no text. -/
theorem member?_error {leaf : Leaf} {j : Json} (written : leafJson? leaf = some j) :
    member? (text "error") j = if leaf.error = [] then none else some (.string leaf.error) := by
  obtain ⟨findings, _, done⟩ := Option.bind_eq_some_iff.mp written
  obtain rfl := Option.some.inj done
  have other : (text "error" == text "findings") = false := by decide
  have silent : (if findings.isEmpty then [] else [(text "findings", Json.array findings)]).lookup
      (text "error") = none := by
    split
    · rfl
    · rw [List.lookup_cons, other]
      rfl
  rw [member?, textMember]
  split
  · exact silent
  · exact List.lookup_cons_self

section

variable (names : ∀ root ∈ roots,
  catalog.nameOf root.action.analysis = catalog.nameOf id → root.action.analysis = id)
include names

theorem distinct_findings_tree (failures : List Failed) (k : Text) :
    distinct ((tree (sections catalog roots) failures).leaf k (catalog.nameOf id)).findings =
      ((unrepeated [] (listed (sections catalog roots))).filter fun shown =>
        shown.1.analysis = id ∧ shown.2.pos.cls = k).map Prod.snd := by
  have own : (sections catalog roots).filter (fun s => s.name = catalog.nameOf id) =
      (sections catalog roots).filter fun s => s.analysis = id := by
    refine List.filter_congr fun s listed => decide_eq_decide.mpr ?_
    obtain ⟨same, root, present, analysis⟩ := mem_sections listed
    have named : s.name = catalog.nameOf s.analysis := congrArg Section.name same
    rw [named, ← analysis]
    exact ⟨names root present, congrArg _⟩
  have shared (x y : Finding) (same : repeats x y = true) :
      decide (x.pos.cls = k) = decide (y.pos.cls = k) := by
    rw [(repeats_iff.mp same).1]
  rw [findings_tree, own, filter_unrepeated (sections_apart catalog roots)]
  rcases sections_of_analysis catalog roots id with one | none
  · rw [one, List.flatMap_singleton, List.flatMap_singleton]
    exact distinctAfter_filter shared [] _
  · rw [none]
    rfl

theorem error_tree_roots (sections : List Section) (k : Text) :
    ((tree sections (failures catalog roots)).leaf k (catalog.nameOf id)).error =
      ((failedRoots roots).filter fun failed =>
        failed.1.action.analysis = id ∧ failed.1.cls = k).getLast?.elim []
          fun failed => failed.2.message := by
  have same : ∀ failed ∈ failedRoots roots,
      decide (failed.1.cls = k ∧ catalog.nameOf failed.1.action.analysis = catalog.nameOf id) =
        decide (failed.1.action.analysis = id ∧ failed.1.cls = k) := by
    rintro ⟨root, failure⟩ listed
    obtain ⟨_, present, made⟩ := List.mem_filterMap.mp listed
    obtain ⟨_, _, same⟩ := Option.map_eq_some_iff.mp made
    obtain ⟨rfl, rfl⟩ := Prod.mk.inj same
    refine decide_eq_decide.mpr ⟨fun here => ⟨names _ present here.2, here.1⟩, fun here => ?_⟩
    exact ⟨here.2, congrArg catalog.nameOf here.1⟩
  rw [error_tree, failures_eq_failedRoots, List.filter_map, List.getLast?_map,
    Option.elim_map, ← List.filter_congr same]
  rfl

end

/-- For an analysis that shares its name with no other, the tree holds on each class what the text
shows of it there: the same findings in the same order, once repetitions are left out, as far as the
text comes to an end before them. Its error there is the text of the last root of the analysis that
failed on that class, so it is recorded exactly if such a root failed with a text; lines of the text
tell of all of them. Where all data can be encoded, the JSON that is written shows each leaf of the
tree. If it has whole numbers only and is not nested too deep, it is read as that JSON with stray
bytes replaced, and classes that differ in nothing else are not told apart. -/
theorem text_agrees_with_json (catalog : Catalog) (roots : List Ended) (layout : Layout)
    (program : Bytecode.Program)
    (severities : ∀ root ∈ roots, ∀ f ∈ root.conclusion.findings,
      f.severity = .low ∨ f.severity = .normal ∨ f.severity = .high) (id : Id)
    (names : ∀ root ∈ roots,
      catalog.nameOf root.action.analysis = catalog.nameOf id → root.action.analysis = id)
    (k : Text) :
    let sections := sections catalog roots
    let failures := failures catalog roots
    let printed := unrepeated [] (listed sections)
    let lines := Transcript.concat (printed.map fun shown =>
      entry layout (.ofClasses program.classes) (catalog.nameOf shown.1.analysis) shown.2)
    let failed := (failedRoots roots).filter fun failed =>
      failed.1.action.analysis = id ∧ failed.1.cls = k
    let leaf := (tree sections failures).leaf k (catalog.nameOf id)
    (plain layout program sections failures).stdout = lines.written ∧
    (plain layout program sections failures).refrain = lines.refrain ∧
    (plain layout program sections failures).stderr = (failedRoots roots).flatMap (fun failed =>
      failureLine ⟨catalog.nameOf failed.1.action.analysis, failed.1.cls, failed.2⟩) ∧
    (leaf.findings.eraseDupsBy fun x y =>
        x.pos = y.pos ∧ x.category = y.category ∧ x.message = y.message) =
      (printed.filter fun shown => shown.1.analysis = id ∧ shown.2.pos.cls = k).map Prod.snd ∧
    leaf.error = failed.getLast?.elim [] (fun last => last.2.message) ∧
    ((∀ root ∈ roots, ∀ f ∈ root.conclusion.findings, ∃ data, payload? f.payload = .ok data) →
      ∃ j, json? sections failures = some { stdout := j.render 0 ++ [byte '\n'] } ∧
        leafJson? leaf =
          some (((member? k j).bind (member? (catalog.nameOf id))).getD (.object [])) ∧
        (((member? k j).bind (member? (catalog.nameOf id))).bind (member? (text "error"))) =
          (if leaf.error = [] then none else some (.string leaf.error)) ∧
        ∀ height, height + 5 ≤ Json.greatestDepth →
          (∀ root ∈ roots, ∀ f ∈ root.conclusion.findings, ∀ data,
            payload? f.payload = .ok (some data) → Whole height data) →
          Json.parse? (j.render 0 ++ [byte '\n']) = some j.sanitized) := by
  intro sections failures printed lines failed leaf
  have same : plain layout program sections failures =
      ⟨lines.written, failures.flatMap failureLine, lines.refrain⟩ := plain_of_roots layout program
  refine ⟨congrArg Printed.stdout same, congrArg Printed.refrain same, ?_, ?_,
    error_tree_roots names sections k, fun encoded => ?_⟩
  · rw [same, ← failureLines_eq]
  · rw [← distinct_eq_eraseDupsBy]
    exact distinct_findings_tree names failures k
  · have writable : (tree sections failures).All fun f => (findingJson? f).isSome := by
      refine tree_all failures fun s listed f found => ?_
      obtain ⟨root, present, reported⟩ := mem_findings listed found
      obtain ⟨data, written⟩ := encoded root present f reported
      exact findingJson?_isSome written (severities root present f reported)
    obtain ⟨j, written⟩ := Option.isSome_iff_exists.mp (Tree.isSome_json? writable)
    have here := Tree.leaf_of_json? written k (catalog.nameOf id)
    refine ⟨j, ?_, here, ?_, fun height shallow data => ?_⟩
    · rw [json?, written]
      rfl
    · rw [← member?_getD]
      exact member?_error here
    · have whole := whole_tree (tree_all failures fun s listed f found => by
        obtain ⟨root, present, reported⟩ := mem_findings listed found
        exact data root present f reported) written
      exact Json.parse?_render whole shallow 0 (Json.closed_cons (by decide) [])

def note (cls message : String) : Finding :=
  ⟨{ cls := text cls, method := text "m", pc := 4 }, text "C", .low, text message, [], .none⟩

/-- Two analyses with names of their own. -/
def sides : Catalog :=
  [{ name := text "left", doc := [], run := none },
    { name := text "right", doc := [], run := none }]

/-- The first one twice on one class, with a repetition and a note on another class; the second one
fails there. -/
def sideRoots : List Ended :=
  let pass : Analysis.Pass := ⟨0, ⟨⟨text "a/B", [], [], [], false⟩, none, []⟩,
    { findings := [note "a/B" "again", note "a/C" "elsewhere", note "a/B" "again"] }⟩
  [⟨⟨0, 0⟩, text "a/B", ⟨some pass, none⟩⟩, ⟨⟨0, 0⟩, text "a/B", ⟨some pass, none⟩⟩,
    ⟨⟨1, 0⟩, text "a/B", ⟨none, some (.run (text "no"))⟩⟩]

/-- The repetitions, also those from the repeated root, are the only difference. -/
theorem sideRoots_agree :
    let sections := sections sides sideRoots
    let failures := failures sides sideRoots
    (((tree sections failures).leaf (text "a/B") (text "left")).findings.eraseDupsBy fun x y =>
        x.pos = y.pos ∧ x.category = y.category ∧ x.message = y.message) =
      ((unrepeated [] (listed sections)).filter fun shown =>
        shown.1.analysis = 0 ∧ shown.2.pos.cls = text "a/B").map Prod.snd ∧
    ((tree sections failures).leaf (text "a/B") (text "left")).error = [] ∧
    ((tree sections failures).leaf (text "a/B") (text "right")).error = text "no" := by
  have severities : ∀ root ∈ sideRoots, ∀ f ∈ root.conclusion.findings,
      f.severity = .low ∨ f.severity = .normal ∨ f.severity = .high := by decide
  have left : ∀ root ∈ sideRoots,
      sides.nameOf root.action.analysis = sides.nameOf 0 → root.action.analysis = 0 := by decide
  have right : ∀ root ∈ sideRoots,
      sides.nameOf root.action.analysis = sides.nameOf 1 → root.action.analysis = 1 := by decide
  obtain ⟨_, _, _, same, error, _⟩ := text_agrees_with_json sides sideRoots ⟨false, -1⟩
    (.ofClasses []) severities 0 left (text "a/B")
  obtain ⟨_, _, _, _, error', _⟩ := text_agrees_with_json sides sideRoots ⟨false, -1⟩
    (.ofClasses []) severities 1 right (text "a/B")
  exact ⟨same, error, error'⟩

/-- A note on a class whose name is a stray byte. -/
def strayNote : Finding :=
  { note "" "here" with pos := { cls := [0xff], method := text "m", pc := 4 } }

/-- A root on that class that fails without a text. -/
def muteRoots : List Ended :=
  [⟨⟨0, 0⟩, [0xff], ⟨some ⟨0, ⟨⟨[0xff], [], [], [], false⟩, none, []⟩, { findings := [strayNote] }⟩,
    some (.run [])⟩⟩]

/-- The text tells of the class and of the error. The JSON has no error; it names another class, and
none of that name is found when it is read. -/
theorem muteRoots_differ :
    let sections := sections sides muteRoots
    let failures := failures sides muteRoots
    let written := json? sections failures
    let read := (written.bind fun written => Json.parse? written.stdout).getD .null
    (plain ⟨false, -1⟩ (.ofClasses []) sections failures).stderr = text "left: \n" ∧
    (plain ⟨false, -1⟩ (.ofClasses []) sections failures).stdout =
      0xff :: text ".m@pc 4: [left.C] here\n" ∧
    ((tree sections failures).leaf [0xff] (text "left")).error = [] ∧
    (member? [0xff] read).isSome = false ∧
    ((member? (text "\ufffd") read).bind (member? (text "left"))).isSome = true := by
  have contents : (sections sides muteRoots).map Section.content = [(text "left", [strayNote])] :=
    congrArg (fun found => [(text "left", found)]) (List.mergeSort_singleton strayNote)
  dsimp only
  rw [plain_eq (sections_apart sides muteRoots), json?, tree_eq, contents]
  decide

end TraceLint.Report
