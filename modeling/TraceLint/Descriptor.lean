import TraceLint.Text.Quoted

/-! Method descriptors such as `(Ljava/lang/String;I)V`: the encoded parameter and result types of a
method. A type is kept in its encoded form, so two types are equal only if they are spelled
alike. -/
namespace TraceLint.Descriptor

abbrev FieldType := Text

namespace FieldType

def string : FieldType := text "Ljava/lang/String;"

def object : FieldType := text "Ljava/lang/Object;"

def objectArray : FieldType := text "[Ljava/lang/Object;"

def throwable : FieldType := text "Ljava/lang/Throwable;"

def marker : FieldType := text "Lorg/slf4j/Marker;"

def void : FieldType := text "V"

def isArray (t : FieldType) : Bool := t.head? == some (byte '[')

/-- The internal name of a class type, and the empty text for any other type. -/
def className (t : FieldType) : Text :=
  match t with
  | first :: rest =>
    if 2 ≤ rest.length && first == byte 'L' && rest.getLast? == some (byte ';') then rest.dropLast
    else []
  | [] => []

end FieldType

/-- A method's types, the parameters in declaration order. -/
structure MethodType where
  params : List FieldType
  result : FieldType
deriving DecidableEq

namespace MethodType

def encode (m : MethodType) : Text := byte '(' :: m.params.flatten ++ byte ')' :: m.result

/-- The parameter at an index, and the empty text outside the list. -/
def param (m : MethodType) (i : Int) : FieldType :=
  if i < 0 then [] else (m.params[i.toNat]?).getD []

/-- The last parameter, and the empty text if there is none. -/
def last (m : MethodType) : FieldType := m.params.getLast?.getD []

/-- How far below the top of the operand stack the first parameter of a type is passed. Arguments
are pushed in declaration order, so the last one is on top. -/
def depthOf? (m : MethodType) (t : FieldType) : Option Nat :=
  (m.params.idxOf? t).map fun i => m.params.length - 1 - i

end MethodType

/-- Why a text does not start with a field type. -/
inductive TypeFault where
  | missing
  | unterminated (rest : Text)
  | unnamed
  | unexpected (b : UInt8)
deriving DecidableEq

/-- Why a text is no method descriptor. -/
inductive Fault where
  | noOpening
  | noClosing
  | param (fault : TypeFault)
  | result (fault : TypeFault)
  | trailing (rest : Text)
deriving DecidableEq

structure Invalid where
  descriptor : Text
  fault : Fault
deriving DecidableEq

def TypeFault.message : TypeFault → Text
  | .missing => text "missing type"
  | .unterminated rest => text "unterminated class type " ++ Text.quoted rest
  | .unnamed => text "empty class name"
  | .unexpected b => text "unexpected " ++ Text.quotedChar (Char.ofNat b.toNat)

def Fault.message : Fault → Text
  | .noOpening => text "missing '('"
  | .noClosing => text "missing ')'"
  | .param fault => fault.message
  | .result fault => text "result: " ++ fault.message
  | .trailing rest => text "trailing " ++ Text.quoted rest ++ text " after result"

def Invalid.message (e : Invalid) : Text :=
  text "invalid method signature: " ++ Text.quoted e.descriptor ++ text ": " ++ e.fault.message

/-- The letters of the primitive types. -/
def isBase (b : UInt8) : Bool := text "BCDFIJSZ" |>.contains b

/-- Splits the leading field type off a text. -/
def fieldType : Text → Except TypeFault (FieldType × Text)
  | [] => .error .missing
  | b :: rest =>
    if b = byte '[' then (fieldType rest).map fun (t, after) => (b :: t, after)
    else if isBase b then .ok ([b], rest)
    else if b = byte 'L' then
      match Text.cut (byte ';') rest with
      | none => .error (.unterminated (b :: rest))
      | some ([], _) => .error .unnamed
      | some (name, after) => .ok (b :: name ++ [byte ';'], after)
    else .error (.unexpected b)

theorem length_cut {b : UInt8} {s before after : Text} (h : Text.cut b s = some (before, after)) :
    after.length < s.length := by
  induction s generalizing before with
  | nil => simp [Text.cut] at h
  | cons c rest ih =>
    by_cases hc : c = b
    · simp only [Text.cut, if_pos hc, Option.some.injEq, Prod.mk.injEq] at h
      simp [← h.2]
    · simp only [Text.cut, if_neg hc, Option.map_eq_some_iff, Prod.exists, Prod.mk.injEq] at h
      obtain ⟨x, y, hxy, -, rfl⟩ := h
      exact Nat.lt_succ_of_lt (ih hxy)

/-- A field type takes at least one byte. -/
theorem length_fieldType {s t after : Text} (h : fieldType s = .ok (t, after)) :
    after.length < s.length := by
  induction s generalizing t with
  | nil => simp [fieldType] at h
  | cons b rest ih =>
    rw [fieldType] at h
    split at h
    · cases hr : fieldType rest with
      | error e => simp [hr, Except.map] at h
      | ok p =>
        obtain ⟨u, a⟩ := p
        simp only [hr, Except.map, Except.ok.injEq, Prod.mk.injEq] at h
        exact Nat.lt_succ_of_lt (ih (h.2 ▸ hr))
    · split at h
      · simp only [Except.ok.injEq, Prod.mk.injEq] at h
        simp [← h.2]
      · split at h
        · cases hc : Text.cut (byte ';') rest with
          | none => simp [hc] at h
          | some p =>
            obtain ⟨name, a⟩ := p
            cases name with
            | nil => simp [hc] at h
            | cons c cs =>
              simp only [hc, Except.ok.injEq, Prod.mk.injEq] at h
              exact Nat.lt_succ_of_lt (h.2 ▸ length_cut hc)
        · simp at h

/-- Splits a text that holds nothing but field types. -/
def fieldTypes (s : Text) : Except TypeFault (List FieldType) :=
  if s = [] then .ok []
  else
    match _h : fieldType s with
    | .error fault => .error fault
    | .ok (t, after) => (fieldTypes after).map (t :: ·)
termination_by s.length
decreasing_by exact length_fieldType _h

/-- Reads a method descriptor. The parameters end at the first `)`, so a class name among them holds
none, while the class name of the result may. -/
def parse (descriptor : Text) : Except Invalid MethodType :=
  let refuse (fault : Fault) : Except Invalid MethodType := .error ⟨descriptor, fault⟩
  match descriptor with
  | [] => refuse .noOpening
  | b :: inner =>
    if b ≠ byte '(' then refuse .noOpening
    else match Text.cut (byte ')') inner with
      | none => refuse .noClosing
      | some (params, result) =>
        match fieldTypes params with
        | .error fault => refuse (.param fault)
        | .ok params =>
          if result = FieldType.void then .ok ⟨params, result⟩
          else match fieldType result with
            | .error fault => refuse (.result fault)
            | .ok (t, []) => .ok ⟨params, t⟩
            | .ok (_, rest) => refuse (.trailing rest)

end TraceLint.Descriptor
