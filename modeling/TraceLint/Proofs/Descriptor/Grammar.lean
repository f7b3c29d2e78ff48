import TraceLint.Descriptor

/-! Reading of method descriptors against an independent grammar. Field types are told apart by
where they end, so a text has at most one division into them; the reader finds it whenever there is
one. -/
namespace TraceLint

namespace Text

theorem cut_complete {b : UInt8} {before : Text} (absent : b ∉ before) (after : Text) :
    cut b (before ++ b :: after) = some (before, after) := by
  induction before with
  | nil => simp [cut]
  | cons c rest ih =>
    obtain ⟨different, absent⟩ := List.ne_and_not_mem_of_not_mem_cons absent
    rw [List.cons_append, cut, if_neg (Ne.symm different), ih absent]
    rfl

theorem cut_sound {b : UInt8} {s before after : Text} (split : cut b s = some (before, after)) :
    s = before ++ b :: after ∧ b ∉ before := by
  induction s generalizing before with
  | nil => simp [cut] at split
  | cons c rest ih =>
    rw [cut] at split
    split at split
    · cases split
      simp_all
    · rename_i different
      obtain ⟨⟨front, back⟩, found, same⟩ := Option.map_eq_some_iff.mp split
      cases same
      obtain ⟨rfl, absent⟩ := ih found
      exact ⟨rfl, by simp [absent, Ne.symm different]⟩

end Text

namespace Descriptor

/-- A field type: a primitive type, a class type with a name that is not empty and holds no `;`, or
an array of a field type. -/
inductive IsFieldType : Text → Prop where
  | base {b : UInt8} : b ∈ text "BCDFIJSZ" → IsFieldType [b]
  | cls {name : Text} : name ≠ [] → byte ';' ∉ name → IsFieldType (byte 'L' :: name ++ [byte ';'])
  | array {element : Text} : IsFieldType element → IsFieldType (byte '[' :: element)

theorem IsFieldType.ne_nil {t : Text} (valid : IsFieldType t) : t ≠ [] := by
  cases valid <;> simp

theorem base_ne_array {b : UInt8} (base : b ∈ text "BCDFIJSZ") : b ≠ byte '[' := by
  rintro rfl
  revert base
  decide

/-- What follows a field type has no say in where it ends. -/
theorem fieldType_complete {t : Text} (valid : IsFieldType t) (after : Text) :
    fieldType (t ++ after) = .ok (t, after) := by
  induction valid with
  | @base b base =>
    have letter : isBase b = true := List.contains_iff_mem.mpr base
    rw [List.singleton_append, fieldType, if_neg (base_ne_array base), if_pos letter]
  | @cls name named closed =>
    have cut : Text.cut (byte ';') (name ++ byte ';' :: after) = some (name, after) :=
      Text.cut_complete closed after
    have opens : byte 'L' ≠ byte '[' ∧ isBase (byte 'L') = false := by decide
    rw [List.cons_append, List.cons_append, List.append_assoc, List.singleton_append, fieldType,
      if_neg opens.1, if_neg (by simp [opens.2]), if_pos rfl, cut]
    cases name with
    | nil => contradiction
    | cons c rest => rfl
  | array valid ih =>
    rw [List.cons_append, fieldType, if_pos rfl, ih]
    rfl

theorem fieldType_sound {s t after : Text} (read : fieldType s = .ok (t, after)) :
    IsFieldType t ∧ s = t ++ after := by
  induction s generalizing t with
  | nil => simp [fieldType] at read
  | cons b rest ih =>
    rw [fieldType] at read
    split at read
    · rename_i opens
      subst opens
      cases inner : fieldType rest with
      | error fault => simp [inner, Except.map] at read
      | ok pair =>
        obtain ⟨element, following⟩ := pair
        simp only [inner, Except.map, Except.ok.injEq, Prod.mk.injEq] at read
        obtain ⟨rfl, rfl⟩ := read
        obtain ⟨valid, rfl⟩ := ih inner
        exact ⟨.array valid, rfl⟩
    · split at read
      · rename_i base
        cases read
        exact ⟨.base (List.contains_iff_mem.mp base), rfl⟩
      · split at read
        · rename_i opens
          subst opens
          split at read
          · contradiction
          · contradiction
          · rename_i name following named split
            cases read
            obtain ⟨rfl, closed⟩ := Text.cut_sound split
            exact ⟨.cls named closed, by simp⟩
        · contradiction

theorem fieldType_iff {s t after : Text} :
    fieldType s = .ok (t, after) ↔ IsFieldType t ∧ s = t ++ after := by
  constructor
  · exact fieldType_sound
  · rintro ⟨valid, rfl⟩
    exact fieldType_complete valid after

instance (t : Text) : Decidable (IsFieldType t) :=
  decidable_of_iff ((fieldType t).toOption = some (t, [])) (by
    have read : fieldType t = .ok (t, []) ↔ IsFieldType t := by
      rw [fieldType_iff, List.append_nil]
      exact and_iff_left rfl
    rw [← read]
    cases fieldType t <;> simp [Except.toOption])

theorem fieldTypes_complete {ts : List FieldType} (valid : ∀ t ∈ ts, IsFieldType t) :
    fieldTypes ts.flatten = .ok ts := by
  induction ts with
  | nil => simp [fieldTypes]
  | cons t rest ih =>
    have head := valid t List.mem_cons_self
    have tail := ih fun u member => valid u (List.mem_cons_of_mem t member)
    have nonempty : t ++ rest.flatten ≠ [] := by simp [head.ne_nil]
    rw [List.flatten_cons, fieldTypes, if_neg nonempty]
    split
    · rename_i fault failed
      rw [fieldType_complete head] at failed
      contradiction
    · rename_i u after read
      rw [fieldType_complete head] at read
      cases read
      rw [tail]
      rfl

theorem fieldTypes_sound {s : Text} {ts : List FieldType} (read : fieldTypes s = .ok ts) :
    (∀ t ∈ ts, IsFieldType t) ∧ s = ts.flatten := by
  induction ts generalizing s with
  | nil =>
    rw [fieldTypes] at read
    split at read
    · rename_i empty
      exact ⟨by simp, empty⟩
    · split at read
      · contradiction
      · rename_i after first
        cases rest : fieldTypes after <;> simp [rest, Except.map] at read
  | cons t rest ih =>
    rw [fieldTypes] at read
    split at read
    · cases read
    · split at read
      · contradiction
      · rename_i u after first
        cases others : fieldTypes after with
        | error fault => simp [others, Except.map] at read
        | ok us =>
          simp only [others, Except.map, Except.ok.injEq, List.cons.injEq] at read
          obtain ⟨rfl, rfl⟩ := read
          obtain ⟨valid, rfl⟩ := ih others
          obtain ⟨head, rfl⟩ := fieldType_sound first
          exact ⟨List.forall_mem_cons.mpr ⟨head, valid⟩, rfl⟩

/-- Parameters are field types without a `)`; the result is void or a field type, and its class name
may hold one. -/
structure MethodType.WellFormed (m : MethodType) : Prop where
  params : ∀ p ∈ m.params, IsFieldType p ∧ byte ')' ∉ p
  result : m.result = FieldType.void ∨ IsFieldType m.result

instance (m : MethodType) : Decidable m.WellFormed :=
  decidable_of_iff ((∀ p ∈ m.params, IsFieldType p ∧ byte ')' ∉ p) ∧
      (m.result = FieldType.void ∨ IsFieldType m.result))
    ⟨fun valid => ⟨valid.1, valid.2⟩, fun valid => ⟨valid.params, valid.result⟩⟩

theorem MethodType.WellFormed.no_closing {m : MethodType} (valid : m.WellFormed) :
    byte ')' ∉ m.params.flatten := by
  intro member
  obtain ⟨p, inside, closing⟩ := List.mem_flatten.mp member
  exact (valid.params p inside).2 closing

theorem parse_complete {m : MethodType} (valid : m.WellFormed) : parse m.encode = .ok m := by
  obtain ⟨params, result⟩ := m
  have cut := Text.cut_complete valid.no_closing result
  have read := fieldTypes_complete fun p member => (valid.params p member).1
  simp only [parse, MethodType.encode, List.cons_append, ne_eq, not_true_eq_false, if_false, cut,
    read]
  split
  · rfl
  · rename_i notVoid
    have field := valid.result.resolve_left notVoid
    have final := fieldType_complete field []
    rw [List.append_nil] at final
    rw [final]

theorem parse_sound {descriptor : Text} {m : MethodType} (read : parse descriptor = .ok m) :
    descriptor = m.encode ∧ m.WellFormed := by
  unfold parse at read
  split at read
  · contradiction
  · rename_i b inner
    split at read
    · contradiction
    · rename_i opens
      obtain rfl := Decidable.of_not_not opens
      split at read
      · contradiction
      · rename_i front result split
        obtain ⟨rfl, noClosing⟩ := Text.cut_sound split
        split at read
        · contradiction
        · rename_i params types
          obtain ⟨fields, rfl⟩ := fieldTypes_sound types
          have wellFormed : ∀ p ∈ params, IsFieldType p ∧ byte ')' ∉ p := fun p member =>
            ⟨fields p member, fun closing => noClosing (List.mem_flatten.mpr ⟨p, member, closing⟩)⟩
          split at read
          · rename_i isVoid
            cases read
            exact ⟨rfl, wellFormed, .inl isVoid⟩
          · split at read
            · contradiction
            · rename_i t final
              cases read
              obtain ⟨field, rfl⟩ := fieldType_sound final
              rw [List.append_nil]
              exact ⟨rfl, wellFormed, .inr field⟩
            · contradiction

theorem parse_iff {descriptor : Text} {m : MethodType} :
    parse descriptor = .ok m ↔ descriptor = m.encode ∧ m.WellFormed := by
  constructor
  · exact parse_sound
  · rintro ⟨rfl, valid⟩
    exact parse_complete valid

theorem parse_error_descriptor {descriptor : Text} {e : Invalid}
    (failed : parse descriptor = .error e) :
    e.descriptor = descriptor := by
  unfold parse at failed
  -- Every refusal goes through one constructor that keeps the whole text.
  repeat' split at failed
  all_goals cases failed
  all_goals rfl

theorem message_prefix (e : Invalid) : text "invalid method signature: " <+: e.message := by
  simp only [Invalid.message, List.append_assoc]
  exact List.prefix_append _ _

/-- The accepted texts are the encoded forms of well-formed method types, each with one division
into types. Any other text is refused, and the refusal names it. -/
theorem parse_accepts_grammar (descriptor : Text) :
    (∀ (params : List FieldType) (result : FieldType),
      parse descriptor = .ok ⟨params, result⟩ ↔
        descriptor = text "(" ++ params.flatten ++ text ")" ++ result ∧
        (∀ p ∈ params, IsFieldType p ∧ byte ')' ∉ p) ∧
        (result = text "V" ∨ IsFieldType result)) ∧
    (∀ m : MethodType, parse descriptor = .ok m → m.encode = descriptor) ∧
    (∀ m : MethodType, m.WellFormed → parse m.encode = .ok m) ∧
    ((¬ ∃ m : MethodType, m.WellFormed ∧ m.encode = descriptor) →
      ∃ e, parse descriptor = .error e ∧ e.descriptor = descriptor ∧
        text "invalid method signature: " <+: e.message) := by
  refine ⟨?_, fun m read => (parse_sound read).1.symm, fun m valid => parse_complete valid, ?_⟩
  · intro params result
    have encoded : (⟨params, result⟩ : MethodType).encode =
        text "(" ++ params.flatten ++ text ")" ++ result := by
      simp [MethodType.encode, show text "(" = [byte '('] by decide,
        show text ")" = [byte ')'] by decide]
    rw [parse_iff, encoded]
    exact and_congr_right fun _ =>
      ⟨fun valid => ⟨valid.params, valid.result⟩, fun ⟨ps, r⟩ => ⟨ps, r⟩⟩
  · intro foreign
    cases read : parse descriptor with
    | ok m =>
      obtain ⟨same, valid⟩ := parse_sound read
      exact absurd ⟨m, valid, same.symm⟩ foreign
    | error e => exact ⟨e, rfl, parse_error_descriptor read, message_prefix e⟩

/-- A `)` ends the parameters, but may stand in the class name of the result. -/
theorem parse_closing_in_result :
    parse (text "([[Lb;I)[La)b;") = .ok ⟨[text "[[Lb;", text "I"], text "[La)b;"⟩ := by
  have valid : (⟨[text "[[Lb;", text "I"], text "[La)b;"⟩ : MethodType).WellFormed := by decide
  exact ((parse_accepts_grammar _).1 _ _).mpr ⟨by decide, valid.params, valid.result⟩

end Descriptor

end TraceLint
