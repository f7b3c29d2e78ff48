import TraceLint.Text.Basic

/-! UTF-8 inside arbitrary bytes. A text is read as a sequence of pieces: the well-formed sequences,
and each byte that starts none. Overlong forms, surrogates and values above U+10FFFF are not
well-formed. -/
namespace TraceLint.Utf8

/-- One step through a text. -/
inductive Piece where
  | char (c : Char)
  /-- A byte that starts no well-formed sequence. -/
  | stray (b : UInt8)
deriving DecidableEq

/-- The UTF-8 bytes of a character. -/
def encode (c : Char) : Text :=
  let n := c.toNat
  if n < 0x80 then [n.toUInt8]
  else if n < 0x800 then [(0xc0 + n / 0x40).toUInt8, (0x80 + n % 0x40).toUInt8]
  else if n < 0x10000 then
    [(0xe0 + n / 0x1000).toUInt8, (0x80 + n / 0x40 % 0x40).toUInt8, (0x80 + n % 0x40).toUInt8]
  else
    [(0xf0 + n / 0x40000).toUInt8, (0x80 + n / 0x1000 % 0x40).toUInt8,
      (0x80 + n / 0x40 % 0x40).toUInt8, (0x80 + n % 0x40).toUInt8]

def Piece.bytes : Piece → Text
  | .char c => encode c
  | .stray b => [b]

/-- The character that stands for bytes which are not UTF-8. -/
def replacement : Char := Char.ofNat 0xfffd

/-- The character shown for a piece. -/
def Piece.shown : Piece → Char
  | .char c => c
  | .stray _ => replacement

private def between (lo hi b : UInt8) : Bool := lo ≤ b && b ≤ hi

private def tail (b : UInt8) : Bool := between 0x80 0xbf b

private def low (b : UInt8) : Nat := b.toNat % 0x40

/-- The piece that starts with `b` before `rest`, and how many bytes of `rest` belong to it. -/
def first (b : UInt8) (rest : Text) : Piece × Nat :=
  if b < 0x80 then (.char (Char.ofNat b.toNat), 0)
  else if between 0xc2 0xdf b then
    match rest with
    | b₁ :: _ =>
      if tail b₁ then (.char (Char.ofNat (b.toNat % 0x20 * 0x40 + low b₁)), 1) else (.stray b, 0)
    | _ => (.stray b, 0)
  else if between 0xe0 0xef b then
    match rest with
    | b₁ :: b₂ :: _ =>
      let second := if b = 0xe0 then between 0xa0 0xbf b₁
        else if b = 0xed then between 0x80 0x9f b₁ else tail b₁
      if second && tail b₂ then
        (.char (Char.ofNat (b.toNat % 0x10 * 0x1000 + low b₁ * 0x40 + low b₂)), 2)
      else (.stray b, 0)
    | _ => (.stray b, 0)
  else if between 0xf0 0xf4 b then
    match rest with
    | b₁ :: b₂ :: b₃ :: _ =>
      let second := if b = 0xf0 then between 0x90 0xbf b₁
        else if b = 0xf4 then between 0x80 0x8f b₁ else tail b₁
      if second && tail b₂ && tail b₃ then
        (.char (Char.ofNat (b.toNat % 0x08 * 0x40000 + low b₁ * 0x1000 + low b₂ * 0x40 + low b₃)),
          3)
      else (.stray b, 0)
    | _ => (.stray b, 0)
  else (.stray b, 0)

private theorem between_iff {lo hi b : UInt8} :
    between lo hi b = true ↔ lo.toNat ≤ b.toNat ∧ b.toNat ≤ hi.toNat := by
  simp [between, UInt8.le_iff_toNat_le]

private theorem tail_iff {b : UInt8} : tail b = true ↔ 0x80 ≤ b.toNat ∧ b.toNat ≤ 0xbf :=
  between_iff

theorem first_ascii {b : UInt8} (ascii : b < 0x80) (rest : Text) :
    first b rest = (.char (Char.ofNat b.toNat), 0) := by
  simp [first, ascii]

/-- A step that starts with a byte outside ASCII: the byte is a stray one, or it starts a sequence
that neither denotes an ASCII character nor holds the byte of one. -/
def Beyond (b : UInt8) (rest : Text) (step : Piece × Nat) : Prop :=
  step = (.stray b, 0) ∨
    ∃ n width, 0x80 ≤ n ∧ step = (.char (Char.ofNat n), width) ∧ ∀ x ∈ rest.take width,
      0x80 ≤ x.toNat

private theorem Beyond.guarded {b : UInt8} {rest : Text} {step : Piece × Nat} {shape : Bool}
    (longer : shape = true → Beyond b rest step) :
    Beyond b rest (if shape then step else (.stray b, 0)) := by
  cases shape with
  | false => exact .inl rfl
  | true => exact longer rfl

/-- The second byte of a longer sequence, with the limits that rule out overlong forms (below `lo`)
and values out of range (above `hi`). -/
private theorem second_byte {b least most b₁ lo hi : UInt8}
    (allowed : (if b = least then between lo 0xbf b₁
      else if b = most then between 0x80 hi b₁ else tail b₁) = true) (above : 0x80 ≤ lo.toNat)
    (below : hi.toNat ≤ 0xbf) (apart : least.toNat ≠ most.toNat) :
    0x80 ≤ b₁.toNat ∧ b₁.toNat ≤ 0xbf ∧ (b.toNat = least.toNat → lo.toNat ≤ b₁.toNat) ∧
      (b.toNat = most.toNat → b₁.toNat ≤ hi.toNat) := by
  simp only [← UInt8.toNat_inj] at allowed
  split at allowed
  · rw [between_iff] at allowed
    simp only [UInt8.reduceToNat] at allowed
    omega
  split at allowed
  · rw [between_iff] at allowed
    simp only [UInt8.reduceToNat] at allowed
    omega
  · rw [tail_iff] at allowed
    omega

theorem first_high {b : UInt8} (high : ¬ b < 0x80) (rest : Text) :
    Beyond b rest (first b rest) := by
  unfold first
  rw [if_neg high]
  split
  · rename_i lead
    simp only [between_iff, UInt8.reduceToNat] at lead
    split
    · refine .guarded fun second => .inr ⟨_, 1, by omega, rfl, ?_⟩
      simpa using (tail_iff.mp second).1
    · exact .inl rfl
  split
  · rename_i lead
    simp only [between_iff, UInt8.reduceToNat] at lead
    split
    · rename_i b₁ b₂ _
      refine .guarded fun shape => ?_
      rw [Bool.and_eq_true, tail_iff] at shape
      obtain ⟨allowed, third⟩ := shape
      have second := second_byte allowed (by decide) (by decide) (by decide)
      refine .inr ⟨_, 2, ?_, rfl, by simpa using ⟨second.1, third.1⟩⟩
      simp only [low, UInt8.reduceToNat] at *
      omega
    · exact .inl rfl
  split
  · rename_i lead
    simp only [between_iff, UInt8.reduceToNat] at lead
    split
    · rename_i b₁ b₂ b₃ _
      refine .guarded fun shape => ?_
      rw [Bool.and_eq_true, Bool.and_eq_true, tail_iff, tail_iff] at shape
      obtain ⟨⟨allowed, third⟩, fourth⟩ := shape
      have second := second_byte allowed (by decide) (by decide) (by decide)
      refine .inr ⟨_, 3, ?_, rfl, by simpa using ⟨second.1, third.1, fourth.1⟩⟩
      simp only [low, UInt8.reduceToNat] at *
      omega
    · exact .inl rfl
  · exact .inl rfl

private theorem toUInt8_eq (b : UInt8) {n : Nat} (same : n = b.toNat) : n.toUInt8 = b := by
  rw [same]
  exact UInt8.ofNat_toNat

private theorem toNat_ofNat {n : Nat} (valid : n.isValidChar) : (Char.ofNat n).toNat = n := by
  rw [Char.ofNat, dif_pos valid]
  rfl

private theorem encode_two {b b₁ : UInt8} (lead : 0xc2 ≤ b.toNat ∧ b.toNat ≤ 0xdf)
    (second : 0x80 ≤ b₁.toNat ∧ b₁.toNat ≤ 0xbf) :
    encode (Char.ofNat (b.toNat % 0x20 * 0x40 + low b₁)) = [b, b₁] := by
  unfold low encode
  rw [toNat_ofNat (.inl (by omega)), if_neg (by omega), if_pos (by omega), toUInt8_eq b (by omega),
    toUInt8_eq b₁ (by omega)]

private theorem encode_three {b b₁ b₂ : UInt8} (lead : 0xe0 ≤ b.toNat ∧ b.toNat ≤ 0xef)
    (second : 0x80 ≤ b₁.toNat ∧ b₁.toNat ≤ 0xbf) (overlong : b.toNat = 0xe0 → 0xa0 ≤ b₁.toNat)
    (surrogate : b.toNat = 0xed → b₁.toNat ≤ 0x9f) (third : 0x80 ≤ b₂.toNat ∧ b₂.toNat ≤ 0xbf) :
    encode (Char.ofNat (b.toNat % 0x10 * 0x1000 + low b₁ * 0x40 + low b₂)) = [b, b₁, b₂] := by
  unfold low encode
  have valid :
      (b.toNat % 0x10 * 0x1000 + b₁.toNat % 0x40 * 0x40 + b₂.toNat % 0x40).isValidChar := by
    unfold Nat.isValidChar
    omega
  rw [toNat_ofNat valid, if_neg (by omega), if_neg (by omega), if_pos (by omega),
    toUInt8_eq b (by omega), toUInt8_eq b₁ (by omega), toUInt8_eq b₂ (by omega)]

private theorem encode_four {b b₁ b₂ b₃ : UInt8} (lead : 0xf0 ≤ b.toNat ∧ b.toNat ≤ 0xf4)
    (second : 0x80 ≤ b₁.toNat ∧ b₁.toNat ≤ 0xbf) (overlong : b.toNat = 0xf0 → 0x90 ≤ b₁.toNat)
    (outside : b.toNat = 0xf4 → b₁.toNat ≤ 0x8f) (third : 0x80 ≤ b₂.toNat ∧ b₂.toNat ≤ 0xbf)
    (fourth : 0x80 ≤ b₃.toNat ∧ b₃.toNat ≤ 0xbf) :
    encode (Char.ofNat (b.toNat % 0x08 * 0x40000 + low b₁ * 0x1000 + low b₂ * 0x40 + low b₃)) =
      [b, b₁, b₂, b₃] := by
  unfold low encode
  have valid : (b.toNat % 0x08 * 0x40000 + b₁.toNat % 0x40 * 0x1000 + b₂.toNat % 0x40 * 0x40 +
      b₃.toNat % 0x40).isValidChar := by
    unfold Nat.isValidChar
    omega
  rw [toNat_ofNat valid, if_neg (by omega), if_neg (by omega), if_neg (by omega),
    toUInt8_eq b (by omega),
    toUInt8_eq b₁ (by omega), toUInt8_eq b₂ (by omega), toUInt8_eq b₃ (by omega)]

/-- A step whose piece has the bytes that the step takes. -/
def Whole (b : UInt8) (rest : Text) (step : Piece × Nat) : Prop :=
  step.1.bytes = b :: rest.take step.2

private theorem Whole.guarded {b : UInt8} {rest : Text} {step : Piece × Nat} {shape : Bool}
    (longer : shape = true → Whole b rest step) :
    Whole b rest (if shape then step else (.stray b, 0)) := by
  cases shape with
  | false => rfl
  | true => exact longer rfl

theorem first_whole (b : UInt8) (rest : Text) : Whole b rest (first b rest) := by
  unfold first
  split
  · rename_i ascii
    have small : b.toNat < 0x80 := UInt8.lt_iff_toNat_lt.mp ascii
    change encode (Char.ofNat b.toNat) = [b]
    rw [encode, toNat_ofNat (.inl (by omega)), if_pos small, toUInt8_eq b rfl]
  split
  · rename_i lead
    simp only [between_iff, UInt8.reduceToNat] at lead
    split
    · exact .guarded fun second => encode_two lead (tail_iff.mp second)
    · rfl
  split
  · rename_i lead
    simp only [between_iff, UInt8.reduceToNat] at lead
    split
    · refine .guarded fun shape => ?_
      rw [Bool.and_eq_true, tail_iff] at shape
      obtain ⟨allowed, third⟩ := shape
      obtain ⟨low, high, overlong, surrogate⟩ :=
        second_byte allowed (by decide) (by decide) (by decide)
      exact encode_three lead ⟨low, high⟩ overlong surrogate third
    · rfl
  split
  · rename_i lead
    simp only [between_iff, UInt8.reduceToNat] at lead
    split
    · refine .guarded fun shape => ?_
      rw [Bool.and_eq_true, Bool.and_eq_true, tail_iff, tail_iff] at shape
      obtain ⟨⟨allowed, third⟩, fourth⟩ := shape
      obtain ⟨low, high, overlong, outside⟩ :=
        second_byte allowed (by decide) (by decide) (by decide)
      exact encode_four lead ⟨low, high⟩ overlong outside third fourth
    · rfl
  · rfl

private theorem toNat_toUInt8 {n : Nat} (small : n < 0x100) : n.toUInt8.toNat = n :=
  UInt8.toNat_ofNat_of_lt' small

private theorem not_ascii {b : UInt8} (high : 0x80 ≤ b.toNat) : ¬ b < 0x80 := by
  rw [UInt8.lt_iff_toNat_lt]
  exact Nat.not_lt.mpr high

private theorem between_eq_false {lo hi b : UInt8}
    (outside : b.toNat < lo.toNat ∨ hi.toNat < b.toNat) :
    between lo hi b = false := by
  rw [Bool.eq_false_iff, ne_eq, between_iff]
  omega

/-- A second byte within the limits of its lead is allowed. -/
private theorem allowed_second {b least most b₁ lo hi : UInt8}
    (range : 0x80 ≤ b₁.toNat ∧ b₁.toNat ≤ 0xbf)
    (overlong : b.toNat = least.toNat → lo.toNat ≤ b₁.toNat)
    (outside : b.toNat = most.toNat → b₁.toNat ≤ hi.toNat) :
    (if b = least then between lo 0xbf b₁
      else if b = most then between 0x80 hi b₁ else tail b₁) = true := by
  split
  · rename_i same
    exact between_iff.mpr ⟨overlong (congrArg UInt8.toNat same), range.2⟩
  split
  · rename_i same
    exact between_iff.mpr ⟨range.1, outside (congrArg UInt8.toNat same)⟩
  · exact tail_iff.mpr range

private theorem first_two {b b₁ : UInt8} (lead : 0xc2 ≤ b.toNat ∧ b.toNat ≤ 0xdf)
    (second : 0x80 ≤ b₁.toNat ∧ b₁.toNat ≤ 0xbf) (rest : Text) :
    first b (b₁ :: rest) = (.char (Char.ofNat (b.toNat % 0x20 * 0x40 + low b₁)), 1) := by
  have leads : between 0xc2 0xdf b = true := between_iff.mpr lead
  rw [first, if_neg (not_ascii (by omega)), if_pos leads,
    if_pos (tail_iff.mpr second)]

private theorem first_three {b b₁ b₂ : UInt8} (lead : 0xe0 ≤ b.toNat ∧ b.toNat ≤ 0xef)
    (second : 0x80 ≤ b₁.toNat ∧ b₁.toNat ≤ 0xbf) (overlong : b.toNat = 0xe0 → 0xa0 ≤ b₁.toNat)
    (surrogate : b.toNat = 0xed → b₁.toNat ≤ 0x9f) (third : 0x80 ≤ b₂.toNat ∧ b₂.toNat ≤ 0xbf)
    (rest : Text) :
    first b (b₁ :: b₂ :: rest) =
      (.char (Char.ofNat (b.toNat % 0x10 * 0x1000 + low b₁ * 0x40 + low b₂)), 2) := by
  have two : between 0xc2 0xdf b = false :=
    between_eq_false (.inr (Nat.lt_of_lt_of_le (by decide) lead.1))
  have leads : between 0xe0 0xef b = true := between_iff.mpr lead
  have allowed := @allowed_second b 0xe0 0xed b₁ 0xa0 0x9f second overlong surrogate
  rw [first, if_neg (not_ascii (by omega)), two, if_neg Bool.false_ne_true, if_pos leads]
  dsimp only
  rw [allowed, tail_iff.mpr third]
  rfl

private theorem first_four {b b₁ b₂ b₃ : UInt8} (lead : 0xf0 ≤ b.toNat ∧ b.toNat ≤ 0xf4)
    (second : 0x80 ≤ b₁.toNat ∧ b₁.toNat ≤ 0xbf) (overlong : b.toNat = 0xf0 → 0x90 ≤ b₁.toNat)
    (outside : b.toNat = 0xf4 → b₁.toNat ≤ 0x8f) (third : 0x80 ≤ b₂.toNat ∧ b₂.toNat ≤ 0xbf)
    (fourth : 0x80 ≤ b₃.toNat ∧ b₃.toNat ≤ 0xbf) (rest : Text) :
    first b (b₁ :: b₂ :: b₃ :: rest) =
      (.char (Char.ofNat (b.toNat % 0x08 * 0x40000 + low b₁ * 0x1000 + low b₂ * 0x40 + low b₃)),
        3) := by
  have two : between 0xc2 0xdf b = false :=
    between_eq_false (.inr (Nat.lt_of_lt_of_le (by decide) lead.1))
  have three : between 0xe0 0xef b = false :=
    between_eq_false (.inr (Nat.lt_of_lt_of_le (by decide) lead.1))
  have leads : between 0xf0 0xf4 b = true := between_iff.mpr lead
  have allowed := @allowed_second b 0xf0 0xf4 b₁ 0x90 0x8f second overlong outside
  rw [first, if_neg (not_ascii (by omega)), two, if_neg Bool.false_ne_true, three,
    if_neg Bool.false_ne_true, if_pos leads]
  dsimp only
  rw [allowed, tail_iff.mpr third, tail_iff.mpr fourth]
  rfl

/-- The bytes of a character are read as it, whatever follows them. -/
theorem first_encode (c : Char) (rest : Text) :
    ∃ b tail, encode c = b :: tail ∧ first b (tail ++ rest) = (.char c, tail.length) := by
  have valid : c.toNat < 0xd800 ∨ 0xdfff < c.toNat ∧ c.toNat < 0x110000 := c.valid
  have same : Char.ofNat c.toNat = c := Char.ofNat_toNat c
  generalize c.toNat = n at valid same
  subst same
  have number : (Char.ofNat n).toNat = n := toNat_ofNat valid
  have byte {n : Nat} (small : n < 0x100) : n.toUInt8.toNat = n := toNat_toUInt8 small
  unfold encode
  rw [number]
  dsimp only
  split
  · refine ⟨_, _, rfl, ?_⟩
    rw [first_ascii (UInt8.lt_iff_toNat_lt.mpr (by rw [byte (by omega)]; assumption)),
      byte (by omega)]
    rfl
  split
  · refine ⟨_, _, rfl, ?_⟩
    have lead := @byte (0xc0 + n / 0x40) (by omega)
    have second := @byte (0x80 + n % 0x40) (by omega)
    rw [List.singleton_append, first_two (by omega) (by omega), low, lead, second,
      show (0xc0 + n / 0x40) % 0x20 * 0x40 + (0x80 + n % 0x40) % 0x40 = n by omega]
    rfl
  split
  · refine ⟨_, _, rfl, ?_⟩
    have lead := @byte (0xe0 + n / 0x1000) (by omega)
    have second := @byte (0x80 + n / 0x40 % 0x40) (by omega)
    have third := @byte (0x80 + n % 0x40) (by omega)
    have value : (0xe0 + n / 0x1000) % 0x10 * 0x1000 + (0x80 + n / 0x40 % 0x40) % 0x40 * 0x40 +
        (0x80 + n % 0x40) % 0x40 = n := by omega
    rw [List.cons_append, List.singleton_append,
      first_three (by omega) (by omega) (by omega) (by omega) (by omega), low, low, lead, second,
      third, value]
    rfl
  · refine ⟨_, _, rfl, ?_⟩
    have lead := @byte (0xf0 + n / 0x40000) (by omega)
    have second := @byte (0x80 + n / 0x1000 % 0x40) (by omega)
    have third := @byte (0x80 + n / 0x40 % 0x40) (by omega)
    have fourth := @byte (0x80 + n % 0x40) (by omega)
    have value : (0xf0 + n / 0x40000) % 0x08 * 0x40000 +
        (0x80 + n / 0x1000 % 0x40) % 0x40 * 0x1000 +
        (0x80 + n / 0x40 % 0x40) % 0x40 * 0x40 + (0x80 + n % 0x40) % 0x40 = n := by omega
    rw [List.cons_append, List.cons_append, List.singleton_append,
      first_four (by omega) (by omega) (by omega) (by omega) (by omega) (by omega), low, low, low,
      lead, second, third, fourth, value]
    rfl

/-- The pieces of a text after its first `skip` bytes. -/
def piecesAfter : Nat → Text → List Piece
  | _, [] => []
  | skip + 1, _ :: rest => piecesAfter skip rest
  | 0, b :: rest => (first b rest).1 :: piecesAfter (first b rest).2 rest

def pieces (s : Text) : List Piece := piecesAfter 0 s

/-- The characters of a text, with U+FFFD for each stray byte. -/
def chars (s : Text) : List Char := (pieces s).map Piece.shown

def isValid (s : Text) : Bool :=
  (pieces s).all fun
    | .char _ => true
    | .stray _ => false

/-- The UTF-8 bytes of a list of characters. -/
def ofChars (cs : List Char) : Text := cs.flatMap encode

/-- The text with each stray byte replaced by U+FFFD. -/
def sanitize (s : Text) : Text := ofChars (chars s)

theorem bytes_piecesAfter (skip : Nat) (s : Text) :
    (piecesAfter skip s).flatMap Piece.bytes = s.drop skip := by
  induction s generalizing skip with
  | nil => simp [piecesAfter]
  | cons b rest ih =>
    cases skip with
    | zero =>
      have taken : (first b rest).1.bytes = b :: rest.take (first b rest).2 := first_whole b rest
      rw [piecesAfter, List.flatMap_cons, ih, taken, List.cons_append, List.take_append_drop,
        List.drop_zero]
    | succ skip => rw [piecesAfter, ih, List.drop_succ_cons]

/-- The pieces of a text are all of it. -/
theorem bytes_pieces (s : Text) : (pieces s).flatMap Piece.bytes = s := bytes_piecesAfter 0 s

theorem pieces_of_isValid {s : Text} (valid : isValid s = true) :
    pieces s = (chars s).map Piece.char := by
  have each : ∀ p ∈ pieces s, Piece.char p.shown = p := by
    intro p member
    have char := List.all_eq_true.mp valid p member
    cases p with
    | char c => rfl
    | stray b => contradiction
  rw [chars, List.map_map]
  exact ((List.map_congr_left each).trans (List.map_id _)).symm

theorem sanitize_of_isValid {s : Text} (valid : isValid s = true) : sanitize s = s := by
  have bytes := bytes_pieces s
  rw [pieces_of_isValid valid, List.flatMap_map] at bytes
  exact bytes

theorem piecesAfter_append (front rest : Text) :
    piecesAfter front.length (front ++ rest) = pieces rest := by
  induction front with
  | nil => rfl
  | cons b front ih => exact ih

theorem chars_ofChars (cs : List Char) : chars (ofChars cs) = cs := by
  induction cs with
  | nil => rfl
  | cons c rest ih =>
    obtain ⟨b, tail, bytes, read⟩ := first_encode c (ofChars rest)
    have whole : ofChars (c :: rest) = b :: (tail ++ ofChars rest) := by
      rw [ofChars, List.flatMap_cons, bytes]
      rfl
    rw [whole, chars, pieces, piecesAfter, read, piecesAfter_append, List.map_cons]
    exact congrArg (c :: ·) ih

theorem sanitize_sanitize (s : Text) : sanitize (sanitize s) = sanitize s :=
  congrArg ofChars (chars_ofChars (chars s))

end TraceLint.Utf8
