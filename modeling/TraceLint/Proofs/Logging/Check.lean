import TraceLint.Logging.Check
import TraceLint.Proofs.Descriptor.Grammar
import TraceLint.Proofs.Logging.Arguments
import TraceLint.Proofs.Logging.Placeholder

/-! The check of one logging call. With a constant format the findings follow from the spelling of
the descriptor and the slots of the arguments; calls with a fixed number of arguments and calls that
pass an array have laws of their own. -/
namespace TraceLint.Logging

open Descriptor (FieldType MethodType)

/-- A logging call whose format is a constant text. The descriptor spells well-formed types, the
stack ends with one slot per parameter, and the slot of the first string parameter holds the
format. -/
structure FormatCall (site : CallSite) (m : MethodType) (base arguments : List Stack.Slot)
    (format : Text) : Prop where
  owner : site.owner = loggerClass
  name : site.name ∈ logMethods
  desc : site.desc = m.encode
  types : m.WellFormed
  stack : site.stack = some ⟨base ++ arguments⟩
  arity : arguments.length = m.params.length
  format : ∃ i slot, FirstParam m FieldType.string i ∧ arguments[i]? = some slot ∧
    slot.constant = .text format

/-- No character of a format is a letter of any script. -/
def Letterless (format : Text) : Prop := ∀ c ∈ Utf8.chars format, Unicode.isLetter c = false

theorem isSignOnly_iff {format : Text} : isSignOnly format = true ↔ Letterless format := by
  simp [isSignOnly, Letterless]

instance (format : Text) : Decidable (Letterless format) := decidable_of_iff _ isSignOnly_iff

theorem isLogging_iff {site : CallSite} :
    site.isLogging = true ↔ site.owner = loggerClass ∧ site.name ∈ logMethods := by
  simp [CallSite.isLogging]

/-- The descriptors that take no format are well-formed, and none of them ends with an array. -/
theorem parse_withoutFormat {desc : Text} (plain : desc ∈ withoutFormat) :
    ∃ m, Descriptor.parse desc = .ok m ∧ m.params.getLast? ≠ some FieldType.objectArray := by
  simp only [withoutFormat, List.map_cons, List.map_nil, List.mem_cons, List.not_mem_nil,
    or_false] at plain
  rcases plain with rfl | rfl | rfl
  · exact ⟨⟨[FieldType.string], FieldType.void⟩, Descriptor.parse_iff.mpr (by decide), by decide⟩
  · exact ⟨⟨[FieldType.string, FieldType.throwable], FieldType.void⟩,
      Descriptor.parse_iff.mpr (by decide), by decide⟩
  · exact ⟨⟨[FieldType.marker, FieldType.string, FieldType.throwable], FieldType.void⟩,
      Descriptor.parse_iff.mpr (by decide), by decide⟩

/-- What a letterless format gives where such formats are reported. -/
def CallSite.advice (site : CallSite) (reportSignOnly : Bool) (format : Text) : List Finding :=
  if reportSignOnly ∧ Letterless format then [site.signOnly format] else []

/-- What two counts give. -/
def CallSite.compared (site : CallSite) (placeholders arguments : Int) : List Finding :=
  if placeholders ≠ arguments then [site.mismatch placeholders arguments] else []

/-- What a finding says, apart from where and about which call. -/
def judgement (f : Finding) : Text × Severity × Text × Payload :=
  (f.category, f.severity, f.message, f.payload)

/-- What a call that passes an array gives: the array alone decides. -/
def CallSite.arrayFindings (site : CallSite) (format : Text) : Option Stack.ArrayTag → List Finding
  | none => [site.unknownArray]
  | some tag =>
    if tag.size < 0 then [site.unknownArray]
    else site.compared (placeholders format) (tag.size.toInt - if tag.throwableAtLast then 1 else 0)

section

variable {site : CallSite} {hierarchy : Hierarchy} {reportSignOnly : Bool} {findings : List Finding}

theorem countFindings_cases (site : CallSite) (hierarchy : Hierarchy) (m : MethodType)
    (format : Text) :
    site.countFindings m hierarchy format = [] ∨
      site.countFindings m hierarchy format = [site.unknownArray] ∨
      ∃ placeholders arguments, placeholders ≠ arguments ∧
        site.countFindings m hierarchy format = [site.mismatch placeholders arguments] := by
  unfold CallSite.countFindings
  split
  · exact .inr (.inl rfl)
  · rename_i arguments _
    by_cases differ : (countPlaceholders format : Int) ≠ arguments
    · exact .inr (.inr ⟨_, _, differ, if_pos differ⟩)
    · exact .inl (if_neg differ)

/-- How a check ends that finds something: it has read the descriptor, and looked at the slot of the
format. -/
theorem check_inversion (checked : check site hierarchy reportSignOnly = .ok findings) :
    findings = [] ∨ ∃ m slot, Descriptor.parse site.desc = .ok m ∧
      m.params.length ≤ Stack.depth site.stack ∧
      formatSlot m site.stack = some slot ∧
      (constantFormat (some slot) = none ∧ findings = [site.notConstant] ∨
        ∃ format, constantFormat (some slot) = some format ∧
          findings = site.advice reportSignOnly format ++
            site.countFindings m hierarchy format) := by
  unfold check at checked
  split at checked
  · exact .inl (Except.ok.inj checked).symm
  split at checked
  · contradiction
  rename_i m parsed
  split at checked
  · exact .inl (Except.ok.inj checked).symm
  rename_i deep
  split at checked
  · exact .inl (Except.ok.inj checked).symm
  rename_i slot found
  refine .inr ⟨m, slot, parsed, Nat.not_lt.mp deep, found, ?_⟩
  split at checked
  · rename_i computed
    exact .inl ⟨computed, (Except.ok.inj checked).symm⟩
  · rename_i format constant
    refine .inr ⟨format, constant, ?_⟩
    rw [← Except.ok.inj checked]
    simp [CallSite.advice, isSignOnly_iff]

/-- What the findings at a call can be: none, the one about a computed format, or those about a
constant format. -/
theorem check_cases (checked : check site hierarchy reportSignOnly = .ok findings) :
    findings = [] ∨ findings = [site.notConstant] ∨
      ∃ m format, findings = site.advice reportSignOnly format ++
        site.countFindings m hierarchy format := by
  rcases check_inversion checked with none | ⟨m, _, _, _, _, ⟨_, computed⟩ | ⟨format, _, counted⟩⟩
  · exact .inl none
  · exact .inr (.inl computed)
  · exact .inr (.inr ⟨m, format, counted⟩)

/-- No check leaves the severity open. -/
theorem severity_of_check (checked : check site hierarchy reportSignOnly = .ok findings) :
    ∀ f ∈ findings, f.severity = .high ∨ f.severity = .normal := by
  rcases check_cases checked with rfl | rfl | ⟨m, format, rfl⟩
  · simp
  · simp [CallSite.notConstant, CallSite.finding]
  · intro f member
    rcases List.mem_append.mp member with advice | counts
    · unfold CallSite.advice at advice
      split at advice
      · rw [List.mem_singleton.mp advice]
        exact .inr rfl
      · contradiction
    · rcases countFindings_cases site hierarchy m format with
        none | array | ⟨placeholders, arguments, _, differ⟩
      · rw [none] at counts
        contradiction
      · rw [array, List.mem_singleton] at counts
        exact .inl (counts ▸ rfl)
      · rw [differ, List.mem_singleton] at counts
        exact .inl (counts ▸ rfl)

end

namespace FormatCall

variable {site : CallSite} {m : MethodType} {base arguments : List Stack.Slot} {format : Text}

theorem parsed (call : FormatCall site m base arguments format) :
    Descriptor.parse site.desc = .ok m := by
  rw [call.desc]
  exact Descriptor.parse_complete call.types

theorem formatSlot (call : FormatCall site m base arguments format) :
    ∃ slot, Logging.formatSlot m site.stack = some slot ∧
      constantFormat (some slot) = some format := by
  obtain ⟨i, slot, first, passed, constant⟩ := call.format
  refine ⟨slot, ?_, ?_⟩
  · rw [call.stack, first.formatSlot call.arity, passed]
  · simp [constantFormat, Stack.Slot.isConstant, constant, Value.isNull, Value.shown]

/-- The check gets as far as the counts. -/
theorem check_eq (call : FormatCall site m base arguments format)
    (formatted : site.desc ∉ withoutFormat) (hierarchy : Hierarchy) (reportSignOnly : Bool) :
    check site hierarchy reportSignOnly =
      .ok (site.advice reportSignOnly format ++ site.countFindings m hierarchy format) := by
  obtain ⟨slot, found, constant⟩ := call.formatSlot
  have logging : site.isLogging = true := isLogging_iff.mpr ⟨call.owner, call.name⟩
  have deep : ¬ Stack.depth site.stack < m.params.length := by
    simp [Stack.depth, Stack.slots, call.stack, call.arity]
  have enters : ¬ (!site.isLogging || withoutFormat.contains site.desc) = true := by
    simp [logging, formatted]
  rw [check, if_neg enters, call.parsed]
  dsimp only
  rw [if_neg deep, found]
  dsimp only
  rw [constant]
  simp [CallSite.advice, isSignOnly_iff]

/-- A descriptor that ends with an array takes a format. -/
theorem formatted (call : FormatCall site m base arguments format)
    (variadic : m.params.getLast? = some FieldType.objectArray) : site.desc ∉ withoutFormat := by
  intro plain
  obtain ⟨other, parsed, noArray⟩ := parse_withoutFormat plain
  have same : m = other := Except.ok.inj (call.parsed.symm.trans parsed)
  exact noArray (same ▸ variadic)

theorem check_array {top : Stack.Slot} (call : FormatCall site m base arguments format)
    (variadic : m.params.getLast? = some FieldType.objectArray)
    (last : arguments.getLast? = some top) (hierarchy : Hierarchy) (reportSignOnly : Bool) :
    check site hierarchy reportSignOnly =
      .ok (site.advice reportSignOnly format ++ site.arrayFindings format top.array) := by
  rw [call.check_eq (call.formatted variadic), CallSite.countFindings, call.stack,
    countArguments_array variadic last, countPlaceholders_eq_placeholders]
  cases top.array with
  | none => rfl
  | some tag =>
    by_cases unknown : tag.size < 0
    · simp only [CallSite.arrayFindings, if_pos unknown]
    · simp only [CallSite.arrayFindings, if_neg unknown]
      rfl

end FormatCall

/-- With a fixed number of arguments, those that count are all but the format, a marker in front,
and a throwable on top. -/
theorem check_fixed_arity {site : CallSite} {m : MethodType} {base arguments : List Stack.Slot}
    {format : Text} {top : Stack.Slot} (call : FormatCall site m base arguments format)
    (formatted : site.desc ∉ withoutFormat) (fixed : m.params.getLast? ≠ some FieldType.objectArray)
    (last : arguments.getLast? = some top) (hierarchy : Hierarchy) (reportSignOnly : Bool) :
    check site hierarchy reportSignOnly = .ok (site.advice reportSignOnly format ++
      site.compared (placeholders format)
        (m.params.length - 1 - (if m.params.head? = some FieldType.marker then 1 else 0) -
          if hierarchy.HoldsThrowable top then 1 else 0)) := by
  rw [call.check_eq formatted, CallSite.countFindings, call.stack, countArguments_fixed fixed last,
    countPlaceholders_eq_placeholders]
  rfl

/-- A format without letters: an escaped pair of braces, a placeholder, and one after an escaped
backslash. -/
def bracesOnly : Text := text "\\\x7b\x7d \x7b\x7d \\\\\x7b\x7d"

theorem letterless_bracesOnly : Letterless bracesOnly := by decide +kernel

theorem placeholders_bracesOnly : placeholders bracesOnly = 2 := by decide

/-- The arguments of a call with a marker in front and an exception on top. -/
def markedArguments : List Stack.Slot :=
  [{ signature := FieldType.marker },
    { signature := FieldType.string, constant := .text bracesOnly },
    { signature := text "[I" }, { signature := text "Ljava/io/FileNotFoundException;" }]

def markedCall : CallSite where
  pos := {}
  owner := loggerClass
  name := text "warn"
  desc := text "(Lorg/slf4j/Marker;Ljava/lang/String;[ILjava/lang/Object;)V"
  stack := some ⟨{ signature := text "Lorg/slf4j/Logger;" } :: markedArguments⟩

/-- Of four arguments one counts, of three pairs of braces two do. -/
theorem check_markedCall :
    check markedCall .initial true =
      .ok [markedCall.signOnly bracesOnly, markedCall.mismatch 2 1] := by
  have call : FormatCall markedCall
      ⟨[FieldType.marker, FieldType.string, text "[I", FieldType.object], FieldType.void⟩
      [{ signature := text "Lorg/slf4j/Logger;" }] markedArguments bracesOnly :=
    ⟨rfl, by decide, by decide, by decide, rfl, rfl, 1, _, ⟨rfl, by decide⟩, rfl, rfl⟩
  have throwable :
      Hierarchy.initial.HoldsThrowable { signature := text "Ljava/io/FileNotFoundException;" } := by
    decide
  have last :
      markedArguments.getLast? = some { signature := text "Ljava/io/FileNotFoundException;" } := rfl
  have law := check_fixed_arity call (by decide) (by decide) last .initial true
  rw [CallSite.advice, if_pos ⟨rfl, letterless_bracesOnly⟩, placeholders_bracesOnly,
    if_pos (by decide), if_pos throwable] at law
  exact law

/-- Two calls are judged alike whenever their formats and their array tags agree. -/
theorem judgement_arrayFindings (site other : CallSite) (reportSignOnly : Bool) (format : Text)
    (tag : Option Stack.ArrayTag) :
    (site.advice reportSignOnly format ++ site.arrayFindings format tag).map judgement =
      (other.advice reportSignOnly format ++ other.arrayFindings format tag).map judgement := by
  have advice : (site.advice reportSignOnly format).map judgement =
      (other.advice reportSignOnly format).map judgement := by
    unfold CallSite.advice
    split <;> rfl
  have compared (p a : Int) :
      (site.compared p a).map judgement = (other.compared p a).map judgement := by
    unfold CallSite.compared
    split <;> rfl
  rw [List.map_append, List.map_append, advice]
  congr 1
  cases tag with
  | none => rfl
  | some tag =>
    simp only [CallSite.arrayFindings]
    split
    · rfl
    · exact compared _ _

/-- A call that passes an array is judged by the format and the array alone. Neither the hierarchy
nor a marker in front nor any other slot changes the judgement. -/
theorem check_variadic {site : CallSite} {m : MethodType} {base arguments : List Stack.Slot}
    {format : Text} {top : Stack.Slot} (call : FormatCall site m base arguments format)
    (variadic : m.params.getLast? = some FieldType.objectArray)
    (last : arguments.getLast? = some top) (hierarchy : Hierarchy) (reportSignOnly : Bool) :
    check site hierarchy reportSignOnly =
      .ok (site.advice reportSignOnly format ++ site.arrayFindings format top.array) ∧
    ∀ (site' : CallSite) (m' : MethodType) (base' arguments' : List Stack.Slot) (top' : Stack.Slot)
      (hierarchy' : Hierarchy), FormatCall site' m' base' arguments' format →
      m'.params.getLast? = some FieldType.objectArray → arguments'.getLast? = some top' →
      top'.array = top.array →
      (check site' hierarchy' reportSignOnly).map (List.map judgement) =
        (check site hierarchy reportSignOnly).map (List.map judgement) := by
  have result := call.check_array variadic last hierarchy reportSignOnly
  refine ⟨result, ?_⟩
  intro site' m' base' arguments' top' hierarchy' call' variadic' last' same
  rw [result, call'.check_array variadic' last', same]
  exact congrArg Except.ok (judgement_arrayFindings _ _ _ _ _)

/-- A marked call with an array of three elements, the last of them a throwable. -/
def arrayCall : CallSite where
  pos := {}
  owner := loggerClass
  name := text "error"
  desc := text "(Lorg/slf4j/Marker;Ljava/lang/String;[Ljava/lang/Object;)V"
  stack := some ⟨[{ signature := FieldType.marker },
    { signature := FieldType.string, constant := .text bracesOnly },
    { signature := FieldType.objectArray, array := some ⟨3, true⟩ }]⟩

theorem check_arrayCall : check arrayCall .initial true = .ok [arrayCall.signOnly bracesOnly] := by
  have call : FormatCall arrayCall
      ⟨[FieldType.marker, FieldType.string, FieldType.objectArray], FieldType.void⟩
      [] _ bracesOnly :=
    ⟨rfl, by decide, by decide, by decide, rfl, rfl, 1, _, ⟨rfl, by decide⟩, rfl, rfl⟩
  have law := (check_variadic call rfl rfl .initial true).1
  rw [CallSite.advice, if_pos ⟨rfl, letterless_bracesOnly⟩] at law
  rw [law]
  simp [CallSite.arrayFindings, CallSite.compared, placeholders_bracesOnly]

end TraceLint.Logging
