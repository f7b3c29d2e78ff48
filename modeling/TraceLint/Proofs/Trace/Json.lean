import TraceLint.Proofs.Json.Documents
import TraceLint.Proofs.Trace.Rebuilt
import TraceLint.Trace.Codec

/-! Traces that are written as JSON and read again. -/
namespace TraceLint.Trace

namespace Sketch

/-- A sketch is expressed by a document, wherever it stands. -/
def Means (s : Sketch) (j : Json) : Prop := ∀ path offset, ∃ n, s.json path offset = .ok (j, n)

theorem means_items {items : List Sketch} {js : List Json} (each : List.Forall₂ Means items js)
    (path : List Text) (offset i : Nat) : ∃ n, jsonItems path offset i items = .ok (js, n) := by
  induction each generalizing offset i with
  | nil => exact ⟨0, rfl⟩
  | @cons item j items js first _ ih =>
    obtain ⟨length, here⟩ := first (path ++ [Text.ofNat i]) offset
    obtain ⟨more, later⟩ := ih (offset + length + if items.isEmpty then 0 else 1) (i + 1)
    refine ⟨length + (if items.isEmpty then 0 else 1) + more, ?_⟩
    rw [jsonItems, here]
    dsimp only [bind, Except.bind]
    rw [later]
    rfl

theorem means_array {items : List Sketch} {js : List Json} (each : List.Forall₂ Means items js) :
    Means (.array items) (.array js) := by
  intro path offset
  obtain ⟨n, items⟩ := means_items each path (offset + 1) 0
  refine ⟨n + 2, ?_⟩
  rw [json, items]
  rfl

/-- The same of a member, which keeps its name. -/
def MemberMeans (m : Text × Sketch) (j : Text × Json) : Prop := m.1 = j.1 ∧ Means m.2 j.2

theorem means_members {members : List (Text × Sketch)} {js : List (Text × Json)}
    (each : List.Forall₂ MemberMeans members js) (path : List Text)
    (offset : Nat) : ∃ n, jsonMembers path offset members = .ok (js, n) := by
  induction each generalizing offset with
  | nil => exact ⟨0, rfl⟩
  | @cons m j members js first _ ih =>
    obtain ⟨name, s⟩ := m
    obtain ⟨_, j⟩ := j
    obtain ⟨rfl, means⟩ := first
    obtain ⟨length, here⟩ :=
      means (path ++ [Utf8.sanitize name]) (offset + ((Json.quoted name).length + 1))
    obtain ⟨more, later⟩ := ih (offset + ((Json.quoted name).length + 1) + length +
      if members.isEmpty then 0 else 1)
    refine ⟨(Json.quoted name).length + 1 + length + (if members.isEmpty then 0 else 1) + more, ?_⟩
    rw [jsonMembers]
    dsimp only
    rw [here]
    dsimp only [bind, Except.bind]
    rw [later]
    rfl

theorem means_object {members : List (Text × Sketch)} {js : List (Text × Json)}
    (each : List.Forall₂ MemberMeans members js) :
    Means (.object members) (.object js) := by
  intro path offset
  obtain ⟨n, members⟩ := means_members each path (offset + 1)
  refine ⟨n + 2, ?_⟩
  rw [json, members]
  rfl

theorem Means.exists_object {members : List (Text × Sketch)} {j : Json}
    (means : Means (.object members) j) :
    ∃ js, j = .object js := by
  obtain ⟨n, expressed⟩ := means [] 0
  rw [json] at expressed
  cases written : jsonMembers [] (0 + 1) members with
  | error fault => simp [written, bind, Except.bind] at expressed
  | ok found =>
    rw [written] at expressed
    cases expressed
    exact ⟨found.1, rfl⟩

end Sketch

open FromJson

theorem FromJson.signed_ofInt (n : Int) :
    Number.signed (Text.ofInt n) = (decide (n < 0), Text.ofNat n.natAbs) := by
  unfold Text.ofInt
  split
  · rename_i negative
    rw [decide_eq_true negative]
    rfl
  · rename_i positive
    obtain ⟨b, digits, spelled, digit, _⟩ := Text.exists_cons_ofNat n.natAbs
    have other (c : Char) (no : Text.isDigit (byte c) = false) : b ≠ byte c := by
      rintro rfl
      rw [digit] at no
      contradiction
    rw [decide_eq_false positive, spelled, Number.signed, if_neg (other _ (by decide)),
      if_neg (other _ (by decide))]

/-- A written integer is read as itself. -/
theorem FromJson.integer?_ofInt (n : Int64) : integer? (Text.ofInt n.toInt) = some n := by
  have low : Number.least64 ≤ n.toInt := n.le_toInt
  have high : n.toInt ≤ Number.greatest64 := Int.le_of_lt_add_one n.toInt_lt
  have digits := List.all_eq_true.mpr (Text.isDigit_of_mem_ofNat n.toInt.natAbs)
  have value : (if decide (n.toInt < 0) = true then -(n.toInt.natAbs : Int) else n.toInt.natAbs) =
      n.toInt := by
    split
    · rename_i negative
      have negative := of_decide_eq_true negative
      omega
    · rename_i positive
      have positive := of_decide_eq_false (Bool.eq_false_iff.mpr positive)
      omega
  rw [integer?, signed_ofInt]
  dsimp only
  rw [if_pos digits, Text.digitsValue_ofNat, value, Number.fits64, decide_eq_true low,
    decide_eq_true high]
  exact congrArg some (Int64.ofInt_toInt n)

/-- JSON: the document that expresses a sketch is read. -/
def printed : Encoding Reading Sketch where
  reader := FromJson.reader
  writer := ToJson.writer
  Yields := fun height s reading x => ∃ j, s.Means j ∧
    Json.Plain (Utf8.isValid · = true) height j ∧ reading j = some x

/-- Texts are well-formed, and a constant is unknown, a Boolean or a text. -/
def printedLimits : Limits where
  text := fun s => Utf8.isValid s = true
  count := fun _ => True
  constant := fun v => v = .null ∨ (∃ b, v = .bool b) ∨ ∃ s, v = .text s ∧ Utf8.isValid s = true

namespace printed

theorem named_iff_on_vocabulary : ∀ a ∈ vocabulary, ∀ b ∈ vocabulary, named (text a) b = true ↔
    b = a := by
  decide

theorem valid_vocabulary : ∀ a ∈ vocabulary, Utf8.isValid (text a) = true := by
  decide

theorem map_read {α β : Type} {reading : Reading α} {j : Json} {x : α} (g : α → β)
    (read : reading j = some x) :
    (g <$> reading) j = some (g x) := by
  simp [Functor.map, read]

theorem exists_items {α : Type} {zero : α} {one : α → Reading α} {height : Nat} {docs : List Sketch}
    {xs : List α} (each : List.Forall₂ (fun d x => printed.Yields height d (one zero) x) docs xs) :
    ∃ js, List.Forall₂ Sketch.Means docs js ∧
      (∀ j ∈ js, Json.Plain (Utf8.isValid · = true) height j) ∧
      items? zero one [] js = some xs := by
  induction each with
  | nil => exact ⟨[], .nil, List.forall_mem_nil _, rfl⟩
  | cons first _ ih =>
    obtain ⟨j, means, plain, read⟩ := first
    obtain ⟨js, all, depth, rest⟩ := ih
    refine ⟨j :: js, .cons means all, List.forall_mem_cons.mpr ⟨plain, depth⟩, ?_⟩
    rw [items?, List.headD_nil, read, List.tail_nil, rest]
    rfl

theorem list_read {α : Type} {zero : α} {one : α → Reading α} {js : List Json} {xs : List α}
    (read : items? zero one [] js = some xs) :
    list? zero one none (.array js) = some (some (.ofList xs)) := by
  cases js with
  | nil =>
    -- An empty array is not written over what is there, but replaces it.
    cases read
    rfl
  | cons j js =>
    change (items? zero one [] (j :: js)).map _ = _
    rw [read, Option.map_some, ← Slate.overwrite_nil]
    rfl

theorem yields_list {α : Type} {zero : α} {one : α → Reading α} {height : Nat} {docs : List Sketch}
    {xs : List α} (each : List.Forall₂ (fun d x => printed.Yields height d (one zero) x) docs xs) :
    printed.Yields (height + 1) (.array docs) (list? zero one none) (some (.ofList xs)) := by
  obtain ⟨js, means, plain, read⟩ := exists_items each
  exact ⟨.array js, Sketch.means_array means, .array plain, list_read read⟩

theorem exists_members {ρ : Type} {all fields : List (Field Reading ρ)} (known : Encoding.Named all)
    (part : fields ⊆ all) {height : Nat} {x y : ρ} {members : List (String × Sketch)}
    (fills : printed.Fills height fields x members y) :
    ∃ js, List.Forall₂ Sketch.MemberMeans (members.map fun member => (text member.1, member.2)) js ∧
      (∀ j ∈ js, Utf8.isValid j.1 = true) ∧
      (∀ j ∈ js, Json.Plain (Utf8.isValid · = true) height j.2) ∧
      js.foldlM (fun x j => (all.find? fun f => named j.1 f.name).bind fun f => f.read x j.2) x =
        some y := by
  induction fills with
  | nil => exact ⟨[], .nil, List.forall_mem_nil _, List.forall_mem_nil _, rfl⟩
  | skip _ ih => exact ih (List.subset_of_cons_subset part)
  | @read f fields x y z d members yields _ ih =>
    obtain ⟨j, means, plain, read⟩ := yields
    obtain ⟨js, each, valid, depth, rest⟩ := ih (List.subset_of_cons_subset part)
    have member : f ∈ all := part List.mem_cons_self
    have name := known.known f member
    have found : all.find? (fun g => named (text f.name) g.name) = some f :=
      known.find?_eq_some member fun g listed =>
        named_iff_on_vocabulary _ name _ (known.known g listed)
    refine ⟨(text f.name, j) :: js, .cons ⟨rfl, means⟩ each,
      List.forall_mem_cons.mpr ⟨valid_vocabulary _ name, valid⟩,
      List.forall_mem_cons.mpr ⟨plain, depth⟩, ?_⟩
    rw [List.foldlM_cons, found]
    change (f.read x j).bind _ = _
    rw [read]
    exact rest

theorem yields_record {ρ : Type} {fields : List (Field Reading ρ)} (known : Encoding.Named fields)
    {height : Nat} {x y : ρ} {members : List (String × Sketch)}
    (fills : printed.Fills height fields x members y) :
    printed.Yields (height + 1) (.object (members.map fun member => (text member.1, member.2)))
      (record? fields x)
      y := by
  obtain ⟨js, means, valid, plain, read⟩ := exists_members known (List.Subset.refl _) fills
  exact ⟨.object js, Sketch.means_object means, .object valid plain, read⟩

theorem yields_constant {v : Value} (plain : printedLimits.constant v) (written : v.isNull = false)
    {height : Nat} :
    printed.Yields height (ToJson.value v) value? v := by
  obtain rfl | ⟨b, rfl⟩ | ⟨s, rfl, valid⟩ := plain
  · contradiction
  · exact ⟨.bool b, fun _ _ => ⟨_, rfl⟩, .bool b, rfl⟩
  · exact ⟨.string s, fun _ _ => ⟨_, rfl⟩, .string valid, rfl⟩

theorem yields_optional {α : Type} {zero x : α} {one : α → Reading α} {height : Nat}
    {members : List (Text × Sketch)}
    (yields : printed.Yields height (.object members) (one zero) x) :
    printed.Yields height (.object members) (optional? zero one none) (some x) := by
  obtain ⟨j, means, plain, read⟩ := yields
  obtain ⟨js, rfl⟩ := means.exists_object
  refine ⟨.object js, means, plain, ?_⟩
  change (one zero (.object js)).map some = _
  rw [read, Option.map_some]

theorem yields_text {s : Text} (valid : Utf8.isValid s = true) (old : Text) {height : Nat} :
    printed.Yields height (.string s) (text? old) s :=
  ⟨.string s, fun _ _ => ⟨_, rfl⟩, .string valid, rfl⟩

theorem faithful : printed.Faithful printedLimits where
  map := by
    rintro α β height s reading x g ⟨j, means, plain, read⟩
    exact ⟨j, means, plain, map_read g read⟩
  text old valid := yields_text valid old
  int old n := ⟨.ofInt n.toInt, fun _ _ => ⟨_, rfl⟩, .int n.toInt, integer?_ofInt n⟩
  bool _ b := ⟨.bool b, fun _ _ => ⟨_, rfl⟩, .bool b, rfl⟩
  constant plain written := yields_constant plain written
  texts := by
    intro height ss valid _
    refine yields_list ?_
    rw [List.forall₂_map_left_iff]
    exact List.forall₂_same.mpr fun s member => yields_text (valid s member) []
  absent _ _ := ⟨.null, fun _ _ => ⟨_, rfl⟩, .null, rfl⟩
  list each _ := yields_list each
  optional yields := yields_optional yields
  record named fills := yields_record named fills

end printed

/-- The writer leaves out no constant that is known. -/
theorem File.recorded_isNull (f : File) : f.recorded Value.isNull = f := by
  refine recorded_eq_self fun s _ => ?_
  obtain ⟨sig, const, array⟩ := s
  cases const <;> rfl

/-- A trace with well-formed texts, whose constants are unknown, Booleans or texts, can be written
as JSON, and is read as it was, except that empty lists of slots or expectations are absent. -/
theorem json_gives_back_traces {f : File} (within : f.Within printedLimits) :
    ∃ data, encode .json f = .ok data ∧ decode .json data = .ok f.compact := by
  obtain ⟨j, means, plain, read⟩ := printed.faithful.yields_file 0 within
  obtain ⟨n, expressed⟩ := means [] 0
  have written : encodeJson f = .ok (j.render 0 ++ [byte '\n']) := by
    change ((ToJson.writer.file f).json [] 0).map _ = _
    rw [show (ToJson.writer.file f).json [] 0 = .ok (j, n) from expressed]
    rfl
  have parsed : Json.parse? (j.render 0 ++ [byte '\n']) = some j :=
    (Json.parse?_render plain (by decide) 0 (Json.closed_cons (by decide) [])).trans
      (congrArg some plain.sanitized_eq)
  have decoded : decodeJson? (j.render 0 ++ [byte '\n']) = some f.compact := by
    rw [decodeJson?, parsed, Option.bind_some]
    refine read.trans ?_
    change some (f.recorded Value.isNull).compact = _
    rw [File.recorded_isNull]
  refine ⟨j.render 0 ++ [byte '\n'], ?_, ?_⟩
  · rw [encode, written]
    rfl
  · rw [decode, decoded]

/-- A text of characters that are escaped each in its own way, and of characters of all widths. -/
def motley : Text := text "\"\\/\x08\x0c\n\r\t\x00\x1f\x7f<>&\u2028\u2029é€😀"

/-- A trace of motley texts and of constants of all three kinds, in which one list is empty and one
is absent. -/
def motleyTrace : File :=
  { classes := some [{ name := motley, incomplete := true, methods := some [
    { name := motley, code := some [
      { pc := -9223372036854775808, line := 9223372036854775807, op := motley, want := some [],
        stack := some [{ sig := motley }, { const := .bool false, array := some { size := -1 } },
          { const := .text [] }, { const := .text motley }] },
      { stack := some [], want := some [motley, []] }] }, {}] }] }

theorem motleyTrace_within : motleyTrace.Within printedLimits := by
  have valid : printedLimits.text motley := show Utf8.isValid motley = true by decide
  have empty : printedLimits.text [] := rfl
  refine ⟨trivial, List.forall_mem_singleton.mpr ⟨valid, empty, empty, trivial, ?_⟩⟩
  refine List.forall_mem_cons.mpr ⟨⟨valid, empty, trivial, ?_⟩, ?_⟩
  · refine List.forall_mem_cons.mpr
      ⟨⟨valid, empty, empty, empty, trivial, ?_, trivial, List.forall_mem_nil _⟩, ?_⟩
    · refine List.forall_mem_cons.mpr ⟨⟨valid, .inl rfl⟩, ?_⟩
      refine List.forall_mem_cons.mpr ⟨⟨empty, .inr (.inl ⟨_, rfl⟩)⟩, ?_⟩
      refine List.forall_mem_cons.mpr ⟨⟨empty, .inr (.inr ⟨_, rfl, rfl⟩)⟩, ?_⟩
      exact List.forall_mem_singleton.mpr ⟨empty, .inr (.inr ⟨_, rfl, valid⟩)⟩
    · refine List.forall_mem_singleton.mpr ⟨empty, empty, empty, empty, trivial,
        List.forall_mem_nil _, trivial, ?_⟩
      exact List.forall_mem_cons.mpr ⟨valid, List.forall_mem_singleton.mpr empty⟩
  · exact List.forall_mem_singleton.mpr ⟨empty, empty, trivial, List.forall_mem_nil _⟩

theorem json_gives_back_motleyTrace :
    ∃ data, encode .json motleyTrace = .ok data ∧ decode .json data = .ok
      { classes := some [{ name := motley, incomplete := true, methods := some [
        { name := motley, code := some [
          { pc := -9223372036854775808, line := 9223372036854775807, op := motley,
            stack := some [{ sig := motley },
              { const := .bool false, array := some { size := -1 } },
              { const := .text [] }, { const := .text motley }] },
          { want := some [motley, []] }] }, {}] }] } := by
  exact json_gives_back_traces motleyTrace_within

end TraceLint.Trace
