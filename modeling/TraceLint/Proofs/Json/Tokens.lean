import TraceLint.Json.Printer
import TraceLint.Json.Token

/-! The tokens of written JSON. Strings come back with their escapes resolved, and numbers end where
their digits do; what is written around them only separates tokens. -/
namespace TraceLint

namespace Text

theorem ofNat_of_lt {n : Nat} (small : n < 10) : ofNat n = [byte n.digitChar] := by
  rw [ofNat, Nat.toDigits_of_lt_base small]
  rfl

theorem ofNat_of_le {n : Nat} (large : 10 ≤ n) :
    ofNat n = ofNat (n / 10) ++ [byte (n % 10).digitChar] := by
  rw [ofNat, Nat.toDigits_of_base_le (by decide) large, List.map_append]
  rfl

/-- What is true of the digit of each number below ten is true of the digits of all numbers. -/
theorem ofNat_induction {P : Nat → Text → Prop} (one : ∀ n < 10, P n [byte n.digitChar])
    (more : ∀ n, 10 ≤ n → P (n / 10) (ofNat (n / 10)) →
      P n (ofNat (n / 10) ++ [byte (n % 10).digitChar])) (n : Nat) :
    P n (ofNat n) := by
  induction n using Nat.strongRecOn with
  | ind n ih =>
    by_cases small : n < 10
    · rw [ofNat_of_lt small]
      exact one n small
    · rw [ofNat_of_le (Nat.not_lt.mp small)]
      exact more n (Nat.not_lt.mp small) (ih _ (by omega))

theorem isDigit_digitChar : ∀ n < 10, isDigit (byte n.digitChar) = true := by decide

theorem isDigit_of_mem_ofNat (n : Nat) : ∀ b ∈ ofNat n, isDigit b = true := by
  refine ofNat_induction (P := fun _ s => ∀ b ∈ s, isDigit b = true) (fun n small => ?_)
    (fun n large ih => ?_) n
  · exact List.forall_mem_singleton.mpr (isDigit_digitChar n small)
  · refine List.forall_mem_append.mpr ⟨ih, List.forall_mem_singleton.mpr ?_⟩
    exact isDigit_digitChar _ (Nat.mod_lt _ (by decide))

/-- A number starts with a digit, and only zero with a zero. -/
theorem exists_cons_ofNat (n : Nat) :
    ∃ b rest, ofNat n = b :: rest ∧ isDigit b = true ∧ (b = byte '0' → n = 0) := by
  refine ofNat_induction (P := fun n s => ∃ b rest, s = b :: rest ∧ isDigit b = true ∧
    (b = byte '0' → n = 0))
    (fun n small => ?_) (fun n large ih => ?_) n
  · have zero : ∀ n < 10, byte n.digitChar = byte '0' → n = 0 := by decide
    exact ⟨_, [], rfl, isDigit_digitChar n small, zero n small⟩
  · obtain ⟨b, rest, spelled, digit, zero⟩ := ih
    refine ⟨b, rest ++ [byte (n % 10).digitChar], ?_, digit, fun leading => ?_⟩
    · rw [spelled, List.cons_append]
    · have none := zero leading
      omega

theorem digitsValue_ofNat (n : Nat) : digitsValue (ofNat n) = n := by
  have value : ∀ n < 10, (byte n.digitChar - byte '0').toNat = n := by decide
  refine ofNat_induction (P := fun n s => digitsValue s = n) (fun n small => ?_)
    (fun n large ih => ?_) n
  · simpa [digitsValue] using value n small
  · have last := value (n % 10) (Nat.mod_lt _ (by decide))
    rw [digitsValue, List.foldl_append]
    change 10 * digitsValue (ofNat (n / 10)) + _ = n
    rw [ih, last]
    omega

end Text

namespace Json

section Strings

/-- Inside a string, bytes spell a text, whatever follows them. -/
def Spells (bytes s : Text) : Prop :=
  ∀ rest t n, stringBody 0 rest = some (t, n) →
    stringBody 0 (bytes ++ rest) = some (s ++ t, bytes.length + n)

theorem Spells.nil : Spells [] [] := by
  intro rest t n read
  simpa using read

theorem Spells.append {b b' s s' : Text} (first : Spells b s) (second : Spells b' s') :
    Spells (b ++ b') (s ++ s') := by
  intro rest t n read
  have whole := first _ _ _ (second rest t n read)
  rw [List.append_assoc, List.append_assoc, List.length_append, Nat.add_assoc]
  exact whole

theorem spells_raw {b : UInt8} (quote : b ≠ byte '"') (control : ¬ b < 0x20)
    (backslash : b ≠ byte '\\') :
    Spells [b] [b] := by
  intro rest t n read
  rw [List.singleton_append, stringBody, if_neg quote, if_neg control, if_pos backslash, read]
  simp [prepend, Nat.add_comm]

theorem stringBody_skip (used rest : Text) {t : Text} {n : Nat}
    (read : stringBody 0 rest = some (t, n)) :
    stringBody used.length (used ++ rest) = some (t, used.length + n) := by
  induction used with
  | nil => simpa using read
  | cons b used ih =>
    rw [List.cons_append, List.length_cons, stringBody, ih]
    simp [prepend]
    omega

theorem spells_escape {used s : Text}
    (resolved : ∀ rest, escapeAt (used ++ rest) = some (s, used.length)) :
    Spells (byte '\\' :: used) s := by
  intro rest t n read
  rw [List.cons_append, stringBody, if_neg (by decide), if_neg (by decide), if_neg (by simp),
    resolved]
  dsimp only
  rw [stringBody_skip used rest read]
  simp [prepend]
  omega

theorem encode_ascii {c : Char} {n : Nat} (same : c.toNat = n) (ascii : n < 0x80) :
    Utf8.encode c = [n.toUInt8] := by
  rw [Utf8.encode, same, if_pos ascii]

theorem spells_letter {c : Char} {n : Nat} {letter : UInt8} (same : c.toNat = n) (ascii : n < 0x80)
    (known : letter ≠ byte 'u' ∧ escape? letter = some n.toUInt8) :
    Spells [byte '\\', letter] (Utf8.encode c) := by
  rw [encode_ascii same ascii]
  refine spells_escape fun rest => ?_
  unfold escapeAt
  dsimp only [List.singleton_append]
  rw [if_pos known.1, known.2]
  rfl

theorem escapeAt_unit {a b c d : UInt8} {u : Nat} (unit : unit? a b c d = some u) (low : u < 0xd800)
    (rest : Text) :
    escapeAt (byte 'u' :: a :: b :: c :: d :: rest) = some (Utf8.encode (Char.ofNat u), 5) := by
  have alone (l : Nat) : surrogates? u l = none := by
    rw [surrogates?, if_neg (by omega)]
  have char : unitChar u = Char.ofNat u := by
    rw [unitChar, if_neg (by omega)]
  rw [escapeAt, if_neg (by simp)]
  simp only [unit]
  -- Another unit may follow, but a unit this low is no half of a pair.
  split
  · rename_i c found
    split at found
    · split at found
      · obtain ⟨l, _, pair⟩ := Option.bind_eq_some_iff.mp found
        rw [alone] at pair
        contradiction
      · contradiction
    · contradiction
  · rw [char]

/-- The characters that are escaped by number. -/
def numbered : List Nat := List.range 0x20 ++ [0x26, 0x3c, 0x3e, 0x2028, 0x2029]

theorem exists_unit {n : Nat} (listed : n ∈ numbered) :
    n < 0xd800 ∧ ∃ a b c d, Text.hex 4 n = [a, b, c, d] ∧ unit? a b c d = some n := by
  have digits : ∀ n ∈ numbered, n < 0xd800 ∧ (Text.hex 4 n).length = 4 ∧
      unit? ((Text.hex 4 n).getD 0 0) ((Text.hex 4 n).getD 1 0) ((Text.hex 4 n).getD 2 0)
        ((Text.hex 4 n).getD 3 0) = some n := by
    decide
  obtain ⟨low, size, unit⟩ := digits n listed
  obtain ⟨a, s, spelled⟩ := List.exists_cons_of_length_eq_add_one size
  rw [spelled] at size unit
  obtain ⟨b, s, rfl⟩ := List.exists_cons_of_length_eq_add_one (Nat.succ.inj size)
  obtain ⟨c, s, rfl⟩ := List.exists_cons_of_length_eq_add_one (Nat.succ.inj (Nat.succ.inj size))
  obtain ⟨d, s, rfl⟩ :=
    List.exists_cons_of_length_eq_add_one (Nat.succ.inj (Nat.succ.inj (Nat.succ.inj size)))
  obtain rfl : s = [] := List.eq_nil_of_length_eq_zero (by simpa using size)
  exact ⟨low, a, b, c, d, spelled, unit⟩

theorem spells_number {c : Char} (listed : c.toNat ∈ numbered) :
    Spells (text "\\u" ++ Text.hex 4 c.toNat) (Utf8.encode c) := by
  obtain ⟨low, a, b, d, e, spelled, unit⟩ := exists_unit listed
  have mark : text "\\u" = [byte '\\', byte 'u'] := by decide
  rw [spelled, mark]
  refine spells_escape fun rest => ?_
  have resolved := escapeAt_unit unit low rest
  rw [Char.ofNat_toNat] at resolved
  exact resolved

theorem spells_high {s : Text} (high : ∀ b ∈ s, 0x80 ≤ b.toNat) : Spells s s := by
  induction s with
  | nil => exact .nil
  | cons b rest ih =>
    obtain ⟨here, later⟩ := List.forall_mem_cons.mp high
    refine (spells_raw ?_ ?_ ?_).append (ih later)
    · rintro rfl
      exact absurd here (by decide)
    · rw [UInt8.lt_iff_toNat_lt]
      exact Nat.not_lt.mpr (Nat.le_trans (by decide) here)
    · rintro rfl
      exact absurd here (by decide)

theorem high_of_encode {c : Char} (beyond : ¬ c.toNat < 0x80) :
    ∀ b ∈ Utf8.encode c, 0x80 ≤ b.toNat := by
  have greatest : c.toNat < 0x110000 := by
    have valid := c.valid
    unfold UInt32.isValidChar Nat.isValidChar at valid
    change c.val.toNat < 0x110000
    omega
  have byte (n : Nat) (high : 0x80 ≤ n) (small : n < 0x100) : 0x80 ≤ n.toUInt8.toNat := by
    simp
    omega
  unfold Utf8.encode
  rw [if_neg beyond]
  split
  · simp only [List.forall_mem_cons]
    exact ⟨byte _ (by omega) (by omega), byte _ (by omega) (by omega), List.forall_mem_nil _⟩
  split
  · simp only [List.forall_mem_cons]
    exact ⟨byte _ (by omega) (by omega), byte _ (by omega) (by omega), byte _ (by omega) (by omega),
      List.forall_mem_nil _⟩
  · simp only [List.forall_mem_cons]
    exact ⟨byte _ (by omega) (by omega), byte _ (by omega) (by omega), byte _ (by omega) (by omega),
      byte _ (by omega) (by omega), List.forall_mem_nil _⟩

/-- Characters that are not escaped spell themselves. -/
theorem spells_encode {c : Char} (quote : c ≠ '"') (backslash : c ≠ '\\')
    (control : ¬ c.toNat < 0x20) :
    Spells (Utf8.encode c) (Utf8.encode c) := by
  by_cases ascii : c.toNat < 0x80
  · have small : c.toNat.toUInt8.toNat = c.toNat := by
      simp
      omega
    have differs (d : Char) (other : c ≠ d) (same : (byte d).toNat = d.toNat) :
        c.toNat.toUInt8 ≠ byte d := by
      intro spelled
      refine other (Char.toNat_inj.mp ?_)
      rw [← small, ← same, spelled]
    rw [encode_ascii rfl ascii]
    refine spells_raw (differs _ quote (by decide)) ?_ (differs _ backslash (by decide))
    rw [UInt8.lt_iff_toNat_lt, small]
    exact control
  · exact spells_high (high_of_encode ascii)

theorem spells_escaped (c : Char) : Spells (escaped c) (Utf8.encode c) := by
  have letters : text "\\b" = [byte '\\', byte 'b'] ∧ text "\\f" = [byte '\\', byte 'f'] ∧
      text "\\n" = [byte '\\', byte 'n'] ∧ text "\\r" = [byte '\\', byte 'r'] ∧
      text "\\t" = [byte '\\', byte 't'] := by decide
  obtain ⟨b, f, n, r, t⟩ := letters
  unfold escaped
  dsimp only
  rw [b, f, n, r, t]
  split
  · rename_i own
    rw [Bool.or_eq_true, decide_eq_true_iff, decide_eq_true_iff] at own
    rcases own with rfl | rfl
    · exact spells_letter rfl (by decide) (by decide)
    · exact spells_letter rfl (by decide) (by decide)
  rename_i other
  split
  · exact spells_letter ‹_› (by decide) (by decide)
  split
  · exact spells_letter ‹_› (by decide) (by decide)
  split
  · exact spells_letter ‹_› (by decide) (by decide)
  split
  · exact spells_letter ‹_› (by decide) (by decide)
  split
  · exact spells_letter ‹_› (by decide) (by decide)
  split
  · rename_i listed
    refine spells_number ?_
    simp only [Bool.or_eq_true, decide_eq_true_iff] at listed
    rw [numbered, List.mem_append, List.mem_range]
    rcases listed with ((((control | rfl) | rfl) | rfl) | line) | paragraph
    · exact .inl control
    · exact .inr (by decide)
    · exact .inr (by decide)
    · exact .inr (by decide)
    · rw [line]
      exact .inr (by decide)
    · rw [paragraph]
      exact .inr (by decide)
  · rename_i plain
    simp only [Bool.or_eq_true, decide_eq_true_iff, not_or] at other plain
    exact spells_encode other.1 other.2 plain.1.1.1.1.1

theorem spells_piece (p : Utf8.Piece) : Spells (escapedPiece p) (Utf8.encode p.shown) := by
  cases p with
  | char c => exact spells_escaped c
  | stray _ =>
    exact spells_encode (c := Utf8.replacement) (by decide) (by decide) (by decide)

/-- The body of a written string spells it, with stray bytes replaced. -/
theorem spells_quoted (s : Text) :
    Spells ((Utf8.pieces s).flatMap escapedPiece) (Utf8.sanitize s) := by
  have all (ps : List Utf8.Piece) :
      Spells (ps.flatMap escapedPiece) (Utf8.ofChars (ps.map Utf8.Piece.shown)) := by
    induction ps with
    | nil => exact .nil
    | cons p rest ih => exact (spells_piece p).append ih
  exact all (Utf8.pieces s)

end Strings

section Numbers

/-- No number goes on here. -/
def Closed (rest : Text) : Prop :=
  ∀ b, rest.head? = some b → Text.isDigit b = false ∧ b ≠ byte '.' ∧ b ≠ byte 'e' ∧ b ≠ byte 'E'

theorem digitCount_append {digits rest : Text} (all : ∀ b ∈ digits, Text.isDigit b = true)
    (closed : Closed rest) :
    digitCount (digits ++ rest) = digits.length := by
  have ends : rest.takeWhile Text.isDigit = [] := by
    cases rest with
    | nil => rfl
    | cons b rest => rw [List.takeWhile_cons, (closed b rfl).1, if_neg Bool.false_ne_true]
  rw [digitCount, List.takeWhile_append_of_pos all, ends, List.append_nil]

theorem fractionLength?_closed {rest : Text} (closed : Closed rest) :
    fractionLength? rest = some 0 := by
  cases rest with
  | nil => rfl
  | cons b rest => rw [fractionLength?, if_neg (closed b rfl).2.1]

theorem exponentLength?_closed {rest : Text} (closed : Closed rest) :
    exponentLength? rest = some 0 := by
  cases rest with
  | nil => rfl
  | cons b rest =>
    obtain ⟨_, _, lower, upper⟩ := closed b rfl
    simp [exponentLength?, lower, upper]

theorem wholeDigits_ofNat (n : Nat) {rest : Text} (closed : Closed rest) :
    (if (Text.ofNat n ++ rest).head? = some (byte '0') then 1
      else digitCount (Text.ofNat n ++ rest)) =
      (Text.ofNat n).length := by
  obtain ⟨b, digits, spelled, _, zero⟩ := Text.exists_cons_ofNat n
  by_cases leading : b = byte '0'
  · obtain rfl := zero leading
    rfl
  · rw [digitCount_append (Text.isDigit_of_mem_ofNat n) closed, if_neg]
    rw [spelled]
    simpa using leading

/-- A number takes its sign and its digits. -/
theorem numberLength?_append {sign digits rest : Text}
    (signs : (if (sign ++ (digits ++ rest)).head? = some (byte '-') then 1 else 0) = sign.length)
    (whole : (if (digits ++ rest).head? = some (byte '0') then 1 else digitCount (digits ++ rest)) =
      digits.length)
    (some : digits ≠ []) (closed : Closed rest) :
    numberLength? (sign ++ (digits ++ rest)) = .some (sign.length + digits.length) := by
  have body : (sign ++ (digits ++ rest)).drop sign.length = digits ++ rest := List.drop_left
  have after : (sign ++ (digits ++ rest)).drop (sign.length + digits.length) = rest := by
    rw [← List.drop_drop, body, List.drop_left]
  have some : ¬ digits.length = 0 := fun none => some (List.eq_nil_of_length_eq_zero none)
  unfold numberLength?
  simp only [signs, body, whole, after, some, fractionLength?_closed closed,
    exponentLength?_closed closed, if_false,
    Option.bind_eq_bind, Option.bind_some, Option.pure_def, Nat.add_zero]

theorem numberLength?_ofInt (n : Int) {rest : Text} (closed : Closed rest) :
    numberLength? (Text.ofInt n ++ rest) = some (Text.ofInt n).length := by
  obtain ⟨b, digits, spelled, digit, _⟩ := Text.exists_cons_ofNat n.natAbs
  have some : Text.ofNat n.natAbs ≠ [] := by
    rw [spelled]
    exact List.cons_ne_nil _ _
  have whole := wholeDigits_ofNat n.natAbs closed
  unfold Text.ofInt
  split
  · rw [← List.singleton_append, List.append_assoc, List.length_append]
    exact numberLength?_append rfl whole some closed
  · have unsigned : (if (Text.ofNat n.natAbs ++ rest).head? = .some (byte '-') then 1 else 0) =
        0 := by
      rw [if_neg]
      rw [spelled]
      rintro ⟨⟩
      contradiction
    have length := @numberLength?_append [] _ _ unsigned whole some closed
    rwa [List.nil_append, List.length_nil, Nat.zero_add] at length

end Numbers

section Lexing

/-- Bytes are read as some tokens, whatever follows them. -/
def Splits (bytes : Text) (ts : List Token) : Prop :=
  ∀ rest, tokensAfter 0 (bytes ++ rest) = ts ++ tokensAfter 0 rest

/-- Bytes are read as some tokens where no number goes on. -/
def Lexes (bytes : Text) (ts : List Token) : Prop :=
  ∀ rest, Closed rest → tokensAfter 0 (bytes ++ rest) = ts ++ tokensAfter 0 rest

theorem closed_cons {b : UInt8}
    (other : Text.isDigit b = false ∧ b ≠ byte '.' ∧ b ≠ byte 'e' ∧ b ≠ byte 'E') (rest : Text) :
    Closed (b :: rest) := by
  rintro _ ⟨⟩
  exact other

section

variable {bytes bytes' : Text} {ts ts' : List Token}

theorem Splits.lexes (splits : Splits bytes ts) : Lexes bytes ts := fun rest _ => splits rest

theorem Splits.append (first : Splits bytes ts) (second : Splits bytes' ts') :
    Splits (bytes ++ bytes') (ts ++ ts') := by
  intro rest
  rw [List.append_assoc, first, second, List.append_assoc]

theorem Splits.lexes_append (first : Splits bytes ts) (second : Lexes bytes' ts') :
    Lexes (bytes ++ bytes') (ts ++ ts') := by
  intro rest closed
  rw [List.append_assoc, first, second rest closed, List.append_assoc]

theorem Lexes.splits_append (first : Lexes bytes ts) (second : Splits bytes' ts')
    (closed : ∀ rest, Closed (bytes' ++ rest)) : Splits (bytes ++ bytes') (ts ++ ts') := by
  intro rest
  rw [List.append_assoc, first _ (closed rest), second, List.append_assoc]

end

theorem tokensAfter_skip (used rest : Text) :
    tokensAfter used.length (used ++ rest) = tokensAfter 0 rest := by
  induction used with
  | nil => rfl
  | cons b used ih =>
    rw [List.cons_append, List.length_cons, tokensAfter]
    exact ih

theorem tokensAfter_token {b : UInt8} {used rest : Text} {token : Token} (start : isBlank b = false)
    (found : tokenAt b (used ++ rest) = some (token, used.length)) :
    tokensAfter 0 (b :: used ++ rest) = [token] ++ tokensAfter 0 rest := by
  rw [List.cons_append, tokensAfter, start, if_neg Bool.false_ne_true, found]
  dsimp only
  rw [tokensAfter_skip]
  rfl

theorem splits_string (s : Text) : Splits (quoted s) [.string (Utf8.sanitize s)] := by
  intro rest
  rw [quoted, List.cons_append]
  refine tokensAfter_token rfl ?_
  have body := spells_quoted s (byte '"' :: rest) [] 1 rfl
  change (stringBody 0 (_ ++ [byte '"'] ++ rest)).map _ = _
  rw [List.append_assoc, List.singleton_append, body, Option.map_some, List.length_append,
    List.length_singleton]
  dsimp only
  rw [List.append_nil, Utf8.sanitize_sanitize]

theorem splits_null : Splits (text "null") [.scalar .null] := by
  have spelled : text "null" = [byte 'n', byte 'u', byte 'l', byte 'l'] := by decide
  rw [spelled]
  exact fun rest => tokensAfter_token rfl rfl

theorem splits_bool (b : Bool) :
    Splits (text (if b then "true" else "false")) [.scalar (.bool b)] := by
  have spelled : text "true" = [byte 't', byte 'r', byte 'u', byte 'e'] ∧
      text "false" = [byte 'f', byte 'a', byte 'l', byte 's', byte 'e'] := by decide
  cases b with
  | true =>
    change Splits (text "true") _
    rw [spelled.1]
    exact fun rest => tokensAfter_token rfl rfl
  | false =>
    change Splits (text "false") _
    rw [spelled.2]
    exact fun rest => tokensAfter_token rfl rfl

/-- Lines and their indentation are no tokens. -/
theorem splits_newline (depth : Nat) : Splits (newline depth) [] := by
  intro rest
  have tabs : tokensAfter 0 (List.replicate depth (byte '\t') ++ rest) = tokensAfter 0 rest := by
    induction depth with
    | zero => rfl
    | succ depth ih =>
      rw [List.replicate_succ, List.cons_append, tokensAfter]
      exact ih
  exact tabs

/-- A number starts like no other token. -/
theorem tokenAt_number {b : UInt8} {rest : Text} (start : (b = byte '-' || Text.isDigit b) = true) :
    tokenAt b rest = (numberLength? (b :: rest)).map fun n =>
      (.scalar (.number ((b :: rest).take n)), n - 1) := by
  have other (c : Char) (no : (byte c = byte '-' || Text.isDigit (byte c)) = false) :
      b ≠ byte c := by
    rintro rfl
    rw [start] at no
    contradiction
  have word (c : Char) (no : (byte c = byte '-' || Text.isDigit (byte c)) = false) (word : Text) :
      ¬ List.isPrefixOf (byte c :: word) (b :: rest) = true := by
    rw [List.isPrefixOf, beq_false_of_ne (other c no).symm, Bool.false_and]
    exact Bool.false_ne_true
  have words : text "null" = byte 'n' :: text "ull" ∧ text "true" = byte 't' :: text "rue" ∧
      text "false" = byte 'f' :: text "alse" := by decide
  obtain ⟨null, true, false⟩ := words
  unfold tokenAt
  rw [null, true, false, if_neg (other _ (by decide)), if_neg (other _ (by decide)),
    if_neg (other _ (by decide)), if_neg (other _ (by decide)), if_neg (other _ (by decide)),
    if_neg (other _ (by decide)), if_neg (other _ (by decide)), if_neg (word _ (by decide) _),
    if_neg (word _ (by decide) _), if_neg (word _ (by decide) _), if_pos start]

theorem isBlank_number {b : UInt8} (start : (b = byte '-' || Text.isDigit b) = true) :
    isBlank b = false := by
  rw [Bool.eq_false_iff]
  intro blank
  simp only [isBlank, Bool.or_eq_true, decide_eq_true_iff] at blank
  rcases blank with ((rfl | rfl) | rfl) | rfl <;> contradiction

theorem exists_cons_ofInt (n : Int) :
    ∃ b used, Text.ofInt n = b :: used ∧ (b = byte '-' || Text.isDigit b) = true := by
  unfold Text.ofInt
  split
  · exact ⟨_, _, rfl, rfl⟩
  · obtain ⟨b, used, spelled, digit, _⟩ := Text.exists_cons_ofNat n.natAbs
    refine ⟨b, used, spelled, ?_⟩
    rw [digit, Bool.or_true]

theorem lexes_number (n : Int) : Lexes (Text.ofInt n) [.scalar (.number (Text.ofInt n))] := by
  obtain ⟨b, used, spelled, start⟩ := exists_cons_ofInt n
  intro rest closed
  have length := numberLength?_ofInt n closed
  rw [spelled] at length ⊢
  refine tokensAfter_token (isBlank_number start) ?_
  rw [List.cons_append] at length
  rw [tokenAt_number start, length, Option.map_some, ← List.cons_append, List.take_left,
    List.length_cons, Nat.add_sub_cancel]

end Lexing

end Json

end TraceLint
