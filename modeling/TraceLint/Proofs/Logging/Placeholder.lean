import TraceLint.Logging.Placeholder

/-! Placeholders by position: a `{}` counts if the run of backslashes right before it has even
length. The search for occurrences works with characters, leaves some of the text behind, and sees a
run of backslashes only in pairs; it finds the same number. -/
namespace TraceLint.Logging

/-- The length of the run of backslashes that ends a text. -/
def finalBackslashes (front : Text) : Nat := (front.reverse.takeWhile (· = byte '\\')).length

/-- A `{}` stands at a position, after an even number of backslashes. -/
def PlaceholderAt (format : Text) (i : Nat) : Prop :=
  format[i]? = some (byte '\x7b') ∧ format[i + 1]? = some (byte '\x7d') ∧
    finalBackslashes (format.take i) % 2 = 0

instance (format : Text) (i : Nat) : Decidable (PlaceholderAt format i) :=
  inferInstanceAs (Decidable (_ ∧ _))

/-- The number of positions with a placeholder. -/
def placeholders (format : Text) : Nat := (List.range format.length).countP (PlaceholderAt format ·)

/-- The placeholders of the rest of a text, given whether an odd run of backslashes ends where it
starts. -/
def remaining : Bool → Text → Nat
  | _, [] => 0
  | odd, b :: rest =>
    if b = byte '\\' then remaining (!odd) rest
    else (if !odd && b = byte '\x7b' && rest.head? = some (byte '\x7d') then 1 else 0) +
      remaining false rest

theorem remaining_backslash (odd : Bool) (rest : Text) :
    remaining odd (byte '\\' :: rest) = remaining (!odd) rest := by
  simp [remaining]

/-- Only a run of backslashes is carried from one byte to the next. -/
theorem remaining_other (odd : Bool) {b : UInt8} (other : b ≠ byte '\\') (rest : Text) :
    remaining odd (b :: rest) =
      (if !odd && b = byte '\x7b' && rest.head? = some (byte '\x7d') then 1 else 0) +
        remaining false rest := by
  rw [remaining, if_neg other]

/-- Bytes outside ASCII are no part of a placeholder or of a run of backslashes. -/
theorem remaining_drop_high {rest : Text} {width : Nat}
    (high : ∀ x ∈ rest.take width, 0x80 ≤ x.toNat) :
    remaining false rest = remaining false (rest.drop width) := by
  induction rest generalizing width with
  | nil => simp
  | cons b rest ih =>
    cases width with
    | zero => simp
    | succ width =>
      simp only [List.take_succ_cons, List.forall_mem_cons] at high
      have other : b ≠ byte '\\' ∧ b ≠ byte '\x7b' := by
        constructor <;> rintro rfl <;> exact absurd high.1 (by decide)
      rw [remaining_other _ other.1, List.drop_succ_cons, ← ih high.2]
      simp [other.2]

/-- Pairs of backslashes keep what came before them, so the braces after them count unless a lone
backslash stands in front. -/
theorem remaining_braces {s : Text} {n : Nat} (found : bracesAfterPairs s = some n) :
    remaining false s = 1 + remaining false (s.drop n) ∧
      remaining true s = remaining false (s.drop n) := by
  fun_induction bracesAfterPairs s generalizing n with
  | case1 a b rest braces =>
    obtain ⟨rfl, rfl⟩ := braces
    cases found
    have closing : byte '\x7d' ≠ byte '\\' ∧ byte '\x7b' ≠ byte '\\' := by decide
    simp [remaining_other _ closing.1, remaining_other _ closing.2,
      show byte '\x7d' ≠ byte '\x7b' by decide]
  | case2 a b rest _ pair ih =>
    obtain ⟨rfl, rfl⟩ := pair
    obtain ⟨m, inner, rfl⟩ := Option.map_eq_some_iff.mp found
    simpa only [remaining_backslash, Bool.not_not, List.drop_succ_cons] using ih inner
  | case3 => contradiction
  | case4 => contradiction

theorem braces_nonempty {s : Text} {n : Nat} (found : bracesAfterPairs s = some n) :
    ∃ m, n = m + 1 := by
  fun_induction bracesAfterPairs s with
  | case1 => exact ⟨1, (Option.some.inj found).symm⟩
  | case2 a b rest _ _ _ =>
    obtain ⟨m, _, same⟩ := Option.map_eq_some_iff.mp found
    exact ⟨m + 1, same.symm⟩
  | case3 => contradiction
  | case4 => contradiction

/-- Where a run of backslashes is not followed by braces, its length does not matter. -/
theorem remaining_true_of_no_braces {s : Text} (even : bracesAfterPairs s = none)
    (odd : bracesAfterPairs (byte '\\' :: s) = none) : remaining true s = remaining false s := by
  induction s with
  | nil => rfl
  | cons b rest ih =>
    by_cases backslash : b = byte '\\'
    · subst backslash
      have pair : bracesAfterPairs (byte '\\' :: byte '\\' :: rest) =
          (bracesAfterPairs rest).map (· + 2) := by
        rw [bracesAfterPairs, if_neg (by decide), if_pos (by decide)]
      rw [pair, Option.map_eq_none_iff] at odd
      simp only [remaining_backslash, Bool.not_true, Bool.not_false]
      exact (ih odd even).symm
    · have noBraces : ¬ (b = byte '\x7b' ∧ rest.head? = some (byte '\x7d')) := by
        rintro ⟨rfl, next⟩
        obtain ⟨after, rfl⟩ := List.head?_eq_some_iff.mp next
        simp [bracesAfterPairs] at even
      simp [remaining_other _ backslash, noBraces]

theorem guardsAfter_drop (skip : Nat) (s : Text) :
    guardsAfter skip s = guardsAfter 0 (s.drop skip) := by
  induction skip generalizing s with
  | zero => rfl
  | succ skip ih =>
    cases s with
    | nil => rfl
    | cons b rest => rw [guardsAfter, ih, List.drop_succ_cons]

theorem ofNat_eq_backslash {n : Nat} (same : Char.ofNat n = '\\') : n = 0x5c := by
  have value := congrArg Char.toNat same
  by_cases valid : n.isValidChar
  · rw [Char.ofNat, dif_pos valid] at value
    exact value
  · rw [Char.ofNat, dif_neg valid] at value
    contradiction

/-- The character before an occurrence is a backslash only where the byte is one. -/
theorem first_eq_backslash_iff {b : UInt8} {rest : Text} :
    (Utf8.first b rest).1 = .char '\\' ↔ b = byte '\\' := by
  constructor
  · intro same
    by_cases ascii : b < 0x80
    · rw [Utf8.first_ascii ascii, Utf8.Piece.char.injEq] at same
      exact UInt8.toNat_inj.mp (ofNat_eq_backslash same)
    · rcases Utf8.first_high ascii rest with stray | ⟨n, width, large, longer, _⟩
      · rw [stray] at same
        contradiction
      · rw [longer, Utf8.Piece.char.injEq] at same
        have := ofNat_eq_backslash same
        omega
  · rintro rfl
    rw [Utf8.first_ascii (by decide)]
    rfl

theorem first_skips_high {b : UInt8} {rest : Text} :
    ∀ x ∈ rest.take (Utf8.first b rest).2, 0x80 ≤ x.toNat := by
  by_cases ascii : b < 0x80
  · simp [Utf8.first_ascii ascii]
  · rcases Utf8.first_high ascii rest with stray | ⟨n, width, _, longer, high⟩
    · simp [stray]
    · simpa only [longer] using high

/-- A byte that is no backslash and starts no `{}` is passed over together with its character. -/
theorem remaining_character {b : UInt8} {rest : Text} (other : b ≠ byte '\\')
    (noBraces : ¬ (b = byte '\x7b' ∧ rest.head? = some (byte '\x7d'))) :
    remaining false (b :: rest) = remaining false (rest.drop (Utf8.first b rest).2) := by
  rw [remaining_other _ other, ← remaining_drop_high first_skips_high]
  simp [noBraces]

theorem occurrenceAt_none {b : UInt8} {rest : Text} (missing : occurrenceAt (b :: rest) = none) :
    bracesAfterPairs (b :: rest) = none ∧
      (b ≠ byte '\n' → bracesAfterPairs (rest.drop (Utf8.first b rest).2) = none) := by
  simp only [occurrenceAt] at missing
  split at missing
  · contradiction
  · rename_i unguarded
    refine ⟨Option.map_eq_none_iff.mp missing, fun noBreak => ?_⟩
    rwa [if_neg noBreak] at unguarded

theorem occurrenceAt_some {b : UInt8} {rest : Text} {guard : Option Utf8.Piece} {n : Nat}
    (found : occurrenceAt (b :: rest) = some (guard, n)) :
    (∃ k, guard = some (Utf8.first b rest).1 ∧ n = k + (Utf8.first b rest).2 + 1 ∧
      bracesAfterPairs (rest.drop (Utf8.first b rest).2) = some k) ∨
    (guard = none ∧ bracesAfterPairs (b :: rest) = some n) := by
  simp only [occurrenceAt] at found
  split at found
  · rename_i k guarded
    cases found
    split at guarded
    · contradiction
    · exact .inl ⟨k, rfl, rfl, guarded⟩
  · obtain ⟨m, braces, same⟩ := Option.map_eq_some_iff.mp found
    cases same
    exact .inr ⟨rfl, braces⟩

/-- The braces after a character and pairs of backslashes count unless the character is a
backslash. -/
theorem remaining_guarded {b : UInt8} {rest : Text} {k : Nat}
    (braces : bracesAfterPairs (rest.drop (Utf8.first b rest).2) = some k) :
    remaining false (b :: rest) =
      (if b = byte '\\' then 0 else 1) +
        remaining false (rest.drop (k + (Utf8.first b rest).2)) := by
  have counts := remaining_braces braces
  rw [List.drop_drop, Nat.add_comm _ k] at counts
  by_cases backslash : b = byte '\\'
  · subst backslash
    rw [Utf8.first_ascii (by decide)] at counts ⊢
    rw [remaining_backslash, if_pos rfl, Nat.zero_add]
    exact counts.2
  · have noBraces : ¬ (b = byte '\x7b' ∧ rest.head? = some (byte '\x7d')) := by
      rintro ⟨rfl, next⟩
      obtain ⟨after, rfl⟩ := List.head?_eq_some_iff.mp next
      rw [Utf8.first_ascii (by decide)] at braces
      cases after <;> simp [bracesAfterPairs, byte] at braces
    rw [remaining_character backslash noBraces, if_neg backslash]
    exact counts.1

/-- Where no occurrence starts, nothing is lost by passing over one character. -/
theorem remaining_passed {b : UInt8} {rest : Text} (missing : occurrenceAt (b :: rest) = none) :
    remaining false (b :: rest) = remaining false (rest.drop (Utf8.first b rest).2) := by
  obtain ⟨unguarded, guarded⟩ := occurrenceAt_none missing
  by_cases backslash : b = byte '\\'
  · subst backslash
    have even := guarded (by decide)
    rw [Utf8.first_ascii (by decide)] at even ⊢
    rw [remaining_backslash]
    exact remaining_true_of_no_braces even unguarded
  · apply remaining_character backslash
    rintro ⟨rfl, next⟩
    obtain ⟨after, rfl⟩ := List.head?_eq_some_iff.mp next
    simp [bracesAfterPairs] at unguarded

/-- The invariant of the search: wherever it goes on, the run of backslashes before it counts as
even. -/
theorem countPlaceholders_eq_remaining (s : Text) : countPlaceholders s = remaining false s := by
  -- An occurrence takes any number of bytes, so the induction is on the length of what is left.
  induction size : s.length using Nat.strongRecOn generalizing s with
  | ind size ih =>
    subst size
    cases s with
    | nil => rfl
    | cons b rest =>
      have continues (skip : Nat) :
          countPlaceholders (rest.drop skip) = remaining false (rest.drop skip) :=
        ih _ (by rw [List.length_drop, List.length_cons]; omega) _ rfl
      simp only [countPlaceholders] at continues
      rw [countPlaceholders, guardsAfter]
      cases step : occurrenceAt (b :: rest) with
      | none =>
        dsimp only
        rw [guardsAfter_drop, continues, remaining_passed step]
      | some occurrence =>
        obtain ⟨guard, n⟩ := occurrence
        dsimp only
        rw [guardsAfter_drop, List.countP_cons, continues]
        rcases occurrenceAt_some step with ⟨k, rfl, rfl, braces⟩ | ⟨rfl, braces⟩
        · rw [remaining_guarded braces]
          simp [first_eq_backslash_iff, Nat.add_comm]
        · obtain ⟨m, rfl⟩ := braces_nonempty braces
          rw [(remaining_braces braces).1]
          simp [Nat.add_comm]

theorem finalBackslashes_backslash (front : Text) :
    finalBackslashes (front ++ [byte '\\']) = finalBackslashes front + 1 := by
  simp [finalBackslashes]

theorem finalBackslashes_other (front : Text) {b : UInt8} (other : b ≠ byte '\\') :
    finalBackslashes (front ++ [b]) = 0 := by
  simp [finalBackslashes, other]

theorem placeholderAt_split (front : Text) (b : UInt8) (rest : Text) :
    PlaceholderAt (front ++ b :: rest) front.length ↔
      b = byte '\x7b' ∧ rest.head? = some (byte '\x7d') ∧ finalBackslashes front % 2 = 0 := by
  simp [PlaceholderAt, List.getElem?_append_right, List.head?_eq_getElem?]

/-- One byte further, given what stands in front of it. -/
theorem remaining_cons (front : Text) (b : UInt8) (rest : Text) :
    remaining (finalBackslashes front % 2 = 1) (b :: rest) =
      (if b = byte '\x7b' ∧ rest.head? = some (byte '\x7d') ∧ finalBackslashes front % 2 = 0 then 1
        else 0) +
        remaining (finalBackslashes (front ++ [b]) % 2 = 1) rest := by
  by_cases backslash : b = byte '\\'
  · subst backslash
    have flipped : decide ((finalBackslashes front + 1) % 2 = 1) =
        !decide (finalBackslashes front % 2 = 1) := by
      by_cases odd : finalBackslashes front % 2 = 1 <;> simp [odd] <;> omega
    rw [finalBackslashes_backslash, remaining_backslash, flipped]
    simp [show byte '\\' ≠ byte '\x7b' by decide]
  · rw [finalBackslashes_other front backslash, remaining_other _ backslash]
    rcases Nat.mod_two_eq_zero_or_one (finalBackslashes front) with even | odd
    · simp [even]
    · simp [odd]

/-- Counting positions and scanning agree on the rest of a text, whatever stands in front of it. -/
theorem countP_placeholderAt (front s : Text) :
    (List.range s.length).countP (fun i => PlaceholderAt (front ++ s) (front.length + i)) =
      remaining (finalBackslashes front % 2 = 1) s := by
  induction s generalizing front with
  | nil => rfl
  | cons b rest ih =>
    have later := ih (front ++ [b])
    simp only [List.append_assoc, List.singleton_append, List.length_append, List.length_singleton,
      Nat.add_assoc, Nat.add_comm 1] at later
    rw [List.length_cons, List.range_succ_eq_map, List.countP_cons, List.countP_map]
    simp only [Function.comp_def, Nat.succ_eq_add_one, later, Nat.add_zero, placeholderAt_split]
    rw [remaining_cons, Nat.add_comm]
    simp only [decide_eq_true_eq]

/-- The search counts exactly the positions of placeholders. -/
theorem countPlaceholders_eq_placeholders (format : Text) :
    countPlaceholders format = placeholders format := by
  rw [countPlaceholders_eq_remaining]
  simpa [placeholders, finalBackslashes] using (countP_placeholderAt [] format).symm

theorem remaining_braces_between (before front back : Text) :
    remaining (finalBackslashes before % 2 = 1) (front ++ byte '\x7b' :: byte '\x7d' :: back) =
      remaining (finalBackslashes before % 2 = 1) front +
        (if finalBackslashes (before ++ front) % 2 = 0 then 1 else 0) + remaining false back := by
  induction front generalizing before with
  | nil =>
    have closing : byte '\x7d' ≠ byte '\\' ∧ byte '\x7d' ≠ byte '\x7b' := by decide
    rw [List.nil_append, remaining_cons, finalBackslashes_other before (by decide),
      remaining_other _ closing.1]
    simp [remaining, closing.2]
  | cons b front ih =>
    have same : (front ++ byte '\x7b' :: byte '\x7d' :: back).head? = some (byte '\x7d') ↔
        front.head? = some (byte '\x7d') := by
      cases front with
      | nil => simp [show byte '\x7b' ≠ byte '\x7d' by decide]
      | cons c front => rfl
    rw [List.cons_append, remaining_cons, remaining_cons, ih, List.append_assoc,
      List.singleton_append]
    simp only [same, Nat.add_assoc]

/-- A pair of braces counts by the run of backslashes before it, and has no say in whether another
counts. -/
theorem countPlaceholders_between (front back : Text) :
    countPlaceholders (front ++ byte '\x7b' :: byte '\x7d' :: back) =
      countPlaceholders front + (if finalBackslashes front % 2 = 0 then 1 else 0) +
        countPlaceholders back := by
  rw [countPlaceholders_eq_remaining, countPlaceholders_eq_remaining,
    countPlaceholders_eq_remaining]
  exact remaining_braces_between [] front back

end TraceLint.Logging
