import Mathlib.Data.List.Forall2
import TraceLint.Json.Parser
import TraceLint.Proofs.Json.Tokens

/-! A document that is written and read again. Lexing and reading meet at the tokens of the
document: its text is read as those tokens however it is indented, and they are read as the document
in whatever containers are open. Bytes that are not UTF-8 come back as U+FFFD. -/
namespace TraceLint.Json

/-- Tokens with a comma between neighbours. -/
def separated : List (List Token) → List Token
  | [] => []
  | [ts] => ts
  | ts :: rest => ts ++ .comma :: separated rest

mutual

/-- The tokens of a document. -/
def spelled : Json → List Token
  | .null => [.scalar .null]
  | .bool b => [.scalar (.bool b)]
  | .number literal => [.scalar (.number literal)]
  | .string s => [.string s]
  | .array items => .openArray :: separated (spelledItems items) ++ [.closeArray]
  | .object members => .openObject :: separated (spelledMembers members) ++ [.closeObject]

def spelledItems : List Json → List (List Token)
  | [] => []
  | j :: rest => spelled j :: spelledItems rest

def spelledMembers : List (Text × Json) → List (List Token)
  | [] => []
  | (name, j) :: rest => (.string name :: .colon :: spelled j) :: spelledMembers rest

end

mutual

/-- A document with each stray byte of its texts and names replaced by U+FFFD. -/
def sanitized : Json → Json
  | .null => .null
  | .bool b => .bool b
  | .number literal => .number literal
  | .string s => .string (Utf8.sanitize s)
  | .array items => .array (sanitizedItems items)
  | .object members => .object (sanitizedMembers members)

def sanitizedItems : List Json → List Json
  | [] => []
  | j :: rest => sanitized j :: sanitizedItems rest

def sanitizedMembers : List (Text × Json) → List (Text × Json)
  | [] => []
  | (name, j) :: rest => (Utf8.sanitize name, sanitized j) :: sanitizedMembers rest

end

theorem sanitizedItems_eq_map (items : List Json) : sanitizedItems items = items.map sanitized := by
  induction items with
  | nil => rfl
  | cons j rest ih => rw [sanitizedItems, ih, List.map_cons]

theorem sanitizedMembers_eq_map (members : List (Text × Json)) :
    sanitizedMembers members = members.map fun m => (Utf8.sanitize m.1, m.2.sanitized) := by
  induction members with
  | nil => rfl
  | cons m rest ih => rw [sanitizedMembers, ih, List.map_cons]

/-- A document with whole numbers and with texts of a kind, nested at most so deep. -/
inductive Plain (kind : Text → Prop) : Nat → Json → Prop where
  | null {height : Nat} : Plain kind height .null
  | bool {height : Nat} (b : Bool) : Plain kind height (.bool b)
  | int {height : Nat} (n : Int) : Plain kind height (.ofInt n)
  | string {height : Nat} {s : Text} : kind s → Plain kind height (.string s)
  | array {height : Nat} {items : List Json} : (∀ j ∈ items, Plain kind height j) →
      Plain kind (height + 1) (.array items)
  | object {height : Nat} {members : List (Text × Json)} : (∀ m ∈ members, kind m.1) →
      (∀ m ∈ members, Plain kind height m.2) → Plain kind (height + 1) (.object members)

variable {kind : Text → Prop}

/-- A document whose texts are well-formed has nothing to replace. -/
theorem Plain.sanitized_eq {height : Nat} {j : Json}
    (plain : Plain (Utf8.isValid · = true) height j) : j.sanitized = j := by
  induction plain with
  | null => rfl
  | bool b => rfl
  | int n => rfl
  | string valid => exact congrArg Json.string (Utf8.sanitize_of_isValid valid)
  | @array height items _ ih =>
    rw [sanitized, sanitizedItems_eq_map, List.map_congr_left ih, List.map_id']
  | @object height members valid _ ih =>
    have each : ∀ m ∈ members, (Utf8.sanitize m.1, m.2.sanitized) = m := fun m member =>
      Prod.ext (Utf8.sanitize_of_isValid (valid m member)) (ih m member)
    rw [sanitized, sanitizedMembers_eq_map, List.map_congr_left each, List.map_id']

section Text

variable {parts : List Text} {tss : List (List Token)}

theorem lexes_join (depth : Nat) (each : List.Forall₂ Lexes parts tss) :
    Lexes (Text.join (byte ',' :: newline depth) parts) (separated tss) := by
  have comma : Splits (byte ',' :: newline depth) [.comma] := by
    intro rest
    exact congrArg (Token.comma :: ·) (splits_newline depth rest)
  induction each with
  | nil => exact fun _ _ => rfl
  | @cons part ts parts tss first later ih =>
    cases later with
    | nil => exact first
    | cons second later =>
      have whole :=
        (first.splits_append comma fun rest => closed_cons (by decide) _).lexes_append ih
      rwa [List.append_assoc ts] at whole

theorem splits_bracketed {opening closing : Char} {start stop : Token}
    (opens : Splits [byte opening] [start]) (closes : Splits [byte closing] [stop]) (depth : Nat)
    (each : List.Forall₂ Lexes parts tss) :
    Splits (bracketed opening closing depth parts) (start :: separated tss ++ [stop]) := by
  have inside := lexes_join (depth + 1) each
  cases each with
  | nil => exact opens.append closes
  | cons first later =>
    have opened := (opens.append (splits_newline (depth + 1))).lexes_append inside
    have closed := opened.splits_append ((splits_newline depth).append closes) fun rest =>
      closed_cons (by decide) _
    rw [← List.append_assoc] at closed
    exact closed

theorem lexes_items {depth : Nat} {items : List Json}
    (each : ∀ j ∈ items, Lexes (j.render depth) j.sanitized.spelled) :
    List.Forall₂ Lexes (renderItems depth items) (spelledItems (sanitizedItems items)) := by
  induction items with
  | nil => exact .nil
  | cons j rest ih =>
    obtain ⟨here, later⟩ := List.forall_mem_cons.mp each
    exact .cons here (ih later)

theorem lexes_members {depth : Nat} {members : List (Text × Json)}
    (each : ∀ m ∈ members, Lexes (m.2.render depth) m.2.sanitized.spelled) :
    List.Forall₂ Lexes (renderMembers depth members)
      (spelledMembers (sanitizedMembers members)) := by
  have colon : Splits (text ": ") [.colon] := by
    have spelled : text ": " = [byte ':', byte ' '] := by decide
    rw [spelled]
    exact fun _ => rfl
  induction members with
  | nil => exact .nil
  | cons m rest ih =>
    obtain ⟨here, later⟩ := List.forall_mem_cons.mp each
    exact .cons (((splits_string m.1).append colon).lexes_append here) (ih later)

/-- A document is read as the tokens of what its texts show, however it is indented. -/
theorem Plain.lexes {height : Nat} {j : Json} (plain : Plain kind height j) :
    ∀ depth, Lexes (j.render depth) j.sanitized.spelled := by
  induction plain with
  | null => exact fun _ => splits_null.lexes
  | bool b => exact fun _ => (splits_bool b).lexes
  | int n => exact fun _ => lexes_number n
  | @string _ s _ => exact fun _ => (splits_string s).lexes
  | array _ ih =>
    intro depth
    have each := lexes_items fun j member => ih j member (depth + 1)
    exact (splits_bracketed (fun _ => rfl) (fun _ => rfl) depth each).lexes
  | object _ _ ih =>
    intro depth
    have each := lexes_members fun m member => ih m member (depth + 1)
    exact (splits_bracketed (fun _ => rfl) (fun _ => rfl) depth each).lexes

end Text

section Reading

/-- Where a value can start, some tokens are read as a document, if it does not open too many
containers. -/
def Reads (height : Nat) (ts : List Token) (j : Json) : Prop :=
  ∀ expected, expected = .value ∨ expected = .firstItem →
    ∀ more frames, frames.length + height ≤ greatestDepth →
    read (ts ++ more) expected frames = resume (read more) j frames

variable {height : Nat}

theorem reads_scalar (j : Json) : Reads height [.scalar j] j := by
  rintro _ (rfl | rfl) more frames _
  · rfl
  · rfl

theorem reads_string (s : Text) : Reads height [.string s] (.string s) := by
  rintro _ (rfl | rfl) more frames _
  · rfl
  · rfl

theorem spelledItems_eq_map (items : List Json) : spelledItems items = items.map spelled := by
  induction items with
  | nil => rfl
  | cons j rest ih => rw [spelledItems, ih, List.map_cons]

theorem spelledMembers_eq_map (members : List (Text × Json)) :
    spelledMembers members = members.map fun m => .string m.1 :: .colon :: m.2.spelled := by
  induction members with
  | nil => rfl
  | cons m rest ih => rw [spelledMembers, ih, List.map_cons]

/-- Entries go into the innermost container one by one, the first of them where it may end as
well. -/
theorem read_separated {α : Type} {spell : α → List Token} (frame : List α → Frame)
    {first next : Expected} {frames : List Frame} {xs : List α}
    (entry : ∀ x ∈ xs, ∀ expected, expected = next ∨ expected = first → ∀ before more,
      read (spell x ++ more) expected (frame before :: frames) =
        read more .separator (frame (x :: before) :: frames))
    (comma : ∀ before more,
      read (.comma :: more) .separator (frame before :: frames) =
        read more next (frame before :: frames))
    (some : xs ≠ []) {expected : Expected} (starts : expected = next ∨ expected = first)
    (before : List α) (more : List Token) :
    read (separated (xs.map spell) ++ more) expected (frame before :: frames) =
      read more .separator (frame (xs.reverse ++ before) :: frames) := by
  induction xs generalizing expected before with
  | nil => contradiction
  | cons x rest ih =>
    obtain ⟨here, later⟩ := List.forall_mem_cons.mp entry
    cases rest with
    | nil => exact here expected starts before more
    | cons y rest =>
      -- After a comma the container may not end, so the rest is read as `next`.
      change read ((spell x ++ .comma :: separated ((y :: rest).map spell)) ++ more) _ _ = _
      rw [List.append_assoc, List.cons_append, here expected starts, comma,
        ih later (List.cons_ne_nil _ _) (.inl rfl),
        List.reverse_cons (a := x), List.append_assoc, List.singleton_append]

/-- An open object, with the name that came last. -/
def Frame.ofMembers (members : List (Text × Json)) : Frame :=
  .object members (members.head?.elim [] Prod.fst)

theorem read_item {j : Json} (value : Reads height j.spelled j) {frames : List Frame}
    (fits : frames.length + 1 + height ≤ greatestDepth) {expected : Expected}
    (item : expected = .value ∨ expected = .firstItem) (before : List Json) (more : List Token) :
    read (j.spelled ++ more) expected (.array before :: frames) =
      read more .separator (.array (j :: before) :: frames) :=
  value expected item more (.array before :: frames) fits

theorem read_member {m : Text × Json} (value : Reads height m.2.spelled m.2) {frames : List Frame}
    (fits : frames.length + 1 + height ≤ greatestDepth) {expected : Expected}
    (name : expected = .name ∨ expected = .firstName) (before : List (Text × Json))
    (more : List Token) :
    read ((.string m.1 :: .colon :: m.2.spelled) ++ more) expected (.ofMembers before :: frames) =
      read more .separator (.ofMembers (m :: before) :: frames) := by
  have named (ts : List Token) :
      read (.string m.1 :: .colon :: ts) expected (.ofMembers before :: frames) =
      read ts .value (.object before m.1 :: frames) := by
    rcases name with rfl | rfl
    · rfl
    · rfl
  exact (named _).trans (value .value (.inl rfl) more (.object before m.1 :: frames) fits)

theorem read_openArray {expected : Expected} (value : expected = .value ∨ expected = .firstItem)
    (ts : List Token) {frames : List Frame} (room : frames.length < greatestDepth) :
    read (.openArray :: ts) expected frames = read ts .firstItem (.array [] :: frames) := by
  rcases value with rfl | rfl
  · exact if_pos room
  · exact if_pos room

theorem read_openObject {expected : Expected} (value : expected = .value ∨ expected = .firstItem)
    (ts : List Token) {frames : List Frame} (room : frames.length < greatestDepth) :
    read (.openObject :: ts) expected frames = read ts .firstName (.ofMembers [] :: frames) := by
  rcases value with rfl | rfl
  · exact if_pos room
  · exact if_pos room

/-- The tokens of what the texts of a document show are read as that document. -/
theorem Plain.reads {j : Json} (plain : Plain kind height j) :
    Reads height j.sanitized.spelled j.sanitized := by
  induction plain with
  | null => exact reads_scalar .null
  | bool b => exact reads_scalar (.bool b)
  | int n => exact reads_scalar (.ofInt n)
  | @string _ s _ => exact reads_string (Utf8.sanitize s)
  | @array height items _ ih =>
    rintro expected value more frames fits
    rw [sanitized, sanitizedItems_eq_map, spelled, spelledItems_eq_map, List.cons_append,
      List.cons_append, read_openArray value _ (by omega), List.append_assoc, List.singleton_append]
    cases items with
    | nil => rfl
    | cons j rest =>
      have item : ∀ x ∈ (j :: rest).map sanitized, Reads height x.spelled x :=
        List.forall_mem_map.mpr ih
      rw [read_separated .array (fun x member _ => read_item (item x member) (by omega))
        (fun _ _ => rfl) (List.cons_ne_nil _ _) (.inr rfl), List.append_nil]
      change resume (read more) (.array ((j :: rest).map sanitized).reverse.reverse) frames = _
      rw [List.reverse_reverse]
  | @object height members _ _ ih =>
    rintro expected value more frames fits
    rw [sanitized, sanitizedMembers_eq_map, spelled, spelledMembers_eq_map, List.cons_append,
      List.cons_append, read_openObject value _ (by omega), List.append_assoc,
      List.singleton_append]
    cases members with
    | nil => rfl
    | cons m rest =>
      have member : ∀ x ∈ (m :: rest).map fun m => (Utf8.sanitize m.1, m.2.sanitized),
          Reads height x.2.spelled x.2 := List.forall_mem_map.mpr ih
      rw [read_separated .ofMembers (fun x listed _ => read_member (member x listed) (by omega))
        (fun _ _ => rfl) (List.cons_ne_nil _ _) (.inr rfl), List.append_nil]
      change resume (read more) (.object (List.map _ (m :: rest)).reverse.reverse) frames = _
      rw [List.reverse_reverse]

end Reading

/-- What is written of a document is read as what its texts show, if no more containers are nested
than can be read. -/
theorem parse?_render {height : Nat} {j : Json} (plain : Plain kind height j)
    (shallow : height ≤ greatestDepth) (depth : Nat) {rest : Text} (closed : Closed rest) :
    parse? (j.render depth ++ rest) = some j.sanitized := by
  rw [parse?, tokens, plain.lexes depth rest closed]
  exact plain.reads .value (.inl rfl) (tokensAfter 0 rest) [] (by simpa using shallow)

end TraceLint.Json
