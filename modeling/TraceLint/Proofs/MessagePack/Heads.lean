import TraceLint.MessagePack.Reader
import TraceLint.MessagePack.Writer

/-! The heads of objects as they are written and read. A head is written in the shortest of several
widths; each width is told by the first byte, and what follows the object has no part in it. -/
namespace TraceLint.MessagePack

section Numbers

variable {count : Nat}

@[simp]
theorem length_digits (count n : Nat) : (digits count n).length = count := by
  induction count generalizing n with
  | zero => rfl
  | succ count ih => rw [digits, List.length_append, ih, List.length_singleton]

theorem bigEndian_snoc (s : Text) (b : UInt8) :
    bigEndian (s ++ [b]) = bigEndian s * 256 + b.toNat := by
  simp [bigEndian]

theorem twoTo_succ (count : Nat) :
    Number.twoTo (8 * (count + 1)) = 256 * Number.twoTo (8 * count) :=
  (Nat.pow_add 2 (8 * count) 8).trans (Nat.mul_comm _ _)

theorem bigEndian_digits (count n : Nat) :
    bigEndian (digits count n) = n % Number.twoTo (8 * count) := by
  induction count generalizing n with
  | zero => exact (Nat.mod_one n).symm
  | succ count ih =>
    have split :
        n % Number.twoTo (8 * (count + 1)) =
          n % 256 + 256 * (n / 256 % Number.twoTo (8 * count)) := by
      rw [twoTo_succ, Nat.mod_mul]
    have last : (n % 256).toUInt8.toNat = n % 256 := by simp
    rw [digits, bigEndian_snoc, ih, split, last]
    omega

theorem take?_append (s rest : Text) : take? s.length (s ++ rest) = some s := by
  simp [take?]

theorem unsigned?_digits {n : Nat} (fits : n < Number.twoTo (8 * count)) (rest : Text) :
    unsigned? count (digits count n ++ rest) = some n := by
  have taken := take?_append (digits count n) rest
  rw [length_digits] at taken
  rw [unsigned?, taken, Option.map_some, bigEndian_digits, Nat.mod_eq_of_lt fits]

theorem counted?_digits {s : Text} (fits : s.length < Number.twoTo (8 * count)) (rest : Text) :
    counted? count (digits count s.length ++ (s ++ rest)) = some (s, count + s.length) := by
  have after : (digits count s.length ++ (s ++ rest)).drop count = s ++ rest :=
    List.drop_left' (length_digits count s.length)
  simp [counted?, after, unsigned?_digits fits, take?_append]

@[simp]
theorem length_signedDigits (count : Nat) (n : Int) : (signedDigits count n).length = count :=
  length_digits _ _

theorem signed?_signedDigits {half : Nat} (whole : Number.twoTo (8 * count) = 2 * half) {n : Int}
    (low : -(half : Int) ≤ n) (high : n < half) (rest : Text) :
    signed? count (signedDigits count n ++ rest) = some n := by
  -- Below zero, two's complement adds the whole range.
  have residue : n % (2 * half : Nat) = if 0 ≤ n then n else n + (2 * half : Nat) := by
    split
    · exact Int.emod_eq_of_lt (by omega) (by omega)
    · rw [← Int.add_emod_right]
      exact Int.emod_eq_of_lt (by omega) (by omega)
  have fits : (n % (2 * half : Nat)).toNat < Number.twoTo (8 * count) := by
    rw [residue, whole]
    split <;> omega
  rw [signed?, signedDigits, whole, unsigned?_digits fits, Option.map_some, residue]
  split <;> split <;> simp only [Option.some.injEq] <;> omega

end Numbers

/-- Bytes that open an object, whatever follows them. -/
def Opens (bytes : Text) (h : Head) : Prop :=
  ∀ rest, ∃ b tail used, bytes ++ rest = b :: tail ∧ head? b tail = some (h, used) ∧
    tail.drop used = rest

theorem Opens.of_head? {b : UInt8} {tail : Text} {h : Head}
    (read : ∀ rest, head? b (tail ++ rest) = some (h, tail.length)) : Opens (b :: tail) h :=
  fun rest => ⟨b, tail ++ rest, tail.length, rfl, read rest, List.drop_left⟩

theorem toNat_toUInt8 {n : Nat} (small : n < 256) : n.toUInt8.toNat = n := by
  simp
  omega

theorem opens_null : Opens [0xc0] (.item .null) := .of_head? fun _ => rfl

theorem opens_bool (b : Bool) : Opens [if b then 0xc3 else 0xc2] (.item (.bool b)) := by
  cases b <;> exact .of_head? fun _ => rfl

theorem opens_writeText {s : Text} (short : s.length < 0x100000000) :
    Opens (writeText s) (.item (.str s)) := by
  unfold writeText textHead
  split
  · rename_i small
    have code := toNat_toUInt8 (show 0xa0 + s.length < 256 by omega)
    refine .of_head? fun rest => ?_
    simp only [head?, code]
    rw [if_neg (by omega), if_neg (by omega), if_neg (by omega), if_pos (by omega),
      Nat.add_sub_cancel_left]
    simp [take?_append]
  split
  · rename_i small
    have read := counted?_digits (show s.length < Number.twoTo (8 * 1) from small)
    exact .of_head? fun rest => by simp [head?, read]
  split
  · rename_i small
    have read := counted?_digits (show s.length < Number.twoTo (8 * 2) from small)
    exact .of_head? fun rest => by simp [head?, read]
  · have read := counted?_digits (show s.length < Number.twoTo (8 * 4) from short)
    exact .of_head? fun rest => by simp [head?, read]

theorem opens_arrayHead {n : Nat} (fits : n < 0x100000000) : Opens (arrayHead n) (.array n) := by
  unfold arrayHead
  split
  · rename_i small
    have code := toNat_toUInt8 (show 0x90 + n < 256 by omega)
    refine .of_head? fun rest => ?_
    simp only [head?, code]
    rw [if_neg (by omega), if_neg (by omega), if_pos (by omega), Nat.add_sub_cancel_left]
    rfl
  split
  · rename_i small
    have read := unsigned?_digits (show n < Number.twoTo (8 * 2) from small)
    exact .of_head? fun rest => by simp [head?, read]
  · have read := unsigned?_digits (show n < Number.twoTo (8 * 4) from fits)
    exact .of_head? fun rest => by simp [head?, read]

theorem opens_mapHead {n : Nat} (fits : n < 0x100000000) : Opens (mapHead n) (.map n) := by
  unfold mapHead
  split
  · rename_i small
    have code := toNat_toUInt8 (show 0x80 + n < 256 by omega)
    refine .of_head? fun rest => ?_
    simp only [head?, code]
    rw [if_neg (by omega), if_pos (by omega), Nat.add_sub_cancel_left]
    rfl
  split
  · rename_i small
    have read := unsigned?_digits (show n < Number.twoTo (8 * 2) from small)
    exact .of_head? fun rest => by simp [head?, read]
  · have read := unsigned?_digits (show n < Number.twoTo (8 * 4) from fits)
    exact .of_head? fun rest => by simp [head?, read]

/-- An integer opens as itself, signed or not. -/
inductive Item.Denotes (n : Int) : Item → Prop where
  | int (width : Width) : Denotes n (.int width n)
  | uint (width : Width) {k : Nat} : (k : Int) = n → Denotes n (.uint width k)

theorem opens_natural {n : Nat} (fits : n < 0x10000000000000000) :
    ∃ i, Opens (shortest n) (.item i) ∧ i.Denotes n := by
  unfold shortest
  rw [if_pos (by omega), Int.toNat_natCast]
  split
  · rename_i small
    have code : (n % 256).toUInt8.toNat = n := by
      rw [toNat_toUInt8 (by omega)]
      omega
    refine ⟨.int .bits8 n, .of_head? fun rest => ?_, .int .bits8⟩
    simp only [head?, code]
    rw [if_pos (by omega)]
    rfl
  split
  · have read := unsigned?_digits (show n < Number.twoTo (8 * 1) from (by omega : n < 0x100))
    exact ⟨_, .of_head? fun rest => by simp [head?, read], .uint .bits8 rfl⟩
  split
  · have read := unsigned?_digits (show n < Number.twoTo (8 * 2) from (by omega : n < 0x10000))
    exact ⟨_, .of_head? fun rest => by simp [head?, read], .uint .bits16 rfl⟩
  split
  · have read := unsigned?_digits (show n < Number.twoTo (8 * 4) from (by omega : n < 0x100000000))
    exact ⟨_, .of_head? fun rest => by simp [head?, read], .uint .bits32 rfl⟩
  · have read := unsigned?_digits (show n < Number.twoTo (8 * 8) from fits)
    exact ⟨_, .of_head? fun rest => by simp [head?, read], .uint .bits64 rfl⟩

theorem opens_negative {n : Int} (below : n < 0) (fits : -0x8000000000000000 ≤ n) :
    ∃ i, Opens (shortest n) (.item i) ∧ i.Denotes n := by
  unfold shortest
  rw [if_neg (by omega)]
  split
  · have code : ((n % (Number.twoTo (8 * 1) : Nat)).toNat % 256).toUInt8.toNat =
        (256 + n).toNat := by
      change ((n % (256 : Nat)).toNat % 256).toUInt8.toNat = (256 + n).toNat
      rw [toNat_toUInt8 (by omega)]
      omega
    have value : ((256 + n).toNat : Int) - 256 = n := by omega
    refine ⟨.int .bits8 n, .of_head? fun rest => ?_, .int .bits8⟩
    simp only [head?, code]
    -- All other heads have a lower first byte, and are tried before.
    iterate 35 rw [if_neg (by omega)]
    rw [if_pos (by omega), value]
    rfl
  split
  · have read := signed?_signedDigits (show Number.twoTo (8 * 1) = 2 * 0x80 from rfl) (by omega)
      (show n < 0x80 by omega)
    exact ⟨_, .of_head? fun rest => by simp [head?, read], .int .bits8⟩
  split
  · have read := signed?_signedDigits (show Number.twoTo (8 * 2) = 2 * 0x8000 from rfl) (by omega)
      (show n < 0x8000 by omega)
    exact ⟨_, .of_head? fun rest => by simp [head?, read], .int .bits16⟩
  split
  · have read :=
      signed?_signedDigits (show Number.twoTo (8 * 4) = 2 * 0x80000000 from rfl) (by omega)
      (show n < 0x80000000 by omega)
    exact ⟨_, .of_head? fun rest => by simp [head?, read], .int .bits32⟩
  · have read :=
      signed?_signedDigits (show Number.twoTo (8 * 8) = 2 * 0x8000000000000000 from rfl) (by omega)
      (show n < 0x8000000000000000 by omega)
    exact ⟨_, .of_head? fun rest => by simp [head?, read], .int .bits64⟩

theorem opens_shortest (n : Int64) :
    ∃ i, Opens (shortest n.toInt) (.item i) ∧ i.Denotes n.toInt := by
  have low := n.le_toInt
  have high := n.toInt_lt
  by_cases below : n.toInt < 0
  · exact opens_negative below low
  · obtain ⟨k, same⟩ := Int.eq_ofNat_of_zero_le (Int.not_lt.mp below)
    rw [same]
    exact opens_natural (by omega)

end TraceLint.MessagePack
