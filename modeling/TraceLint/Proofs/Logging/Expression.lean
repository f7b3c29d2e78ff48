import TraceLint.Proofs.Logging.Placeholder

/-! The search for placeholders as a search for the expression `(.?)(?:\\\\)*\{\}`. An expression
may match in several ways; they are listed in the order in which backtracking meets them, and the
first one counts. The search goes on behind each match. -/
namespace TraceLint.Logging

inductive Expression where
  /-- One ASCII character. -/
  | literal (b : UInt8)
  /-- Any character but a line feed; a byte that is part of none is one by itself. -/
  | dot
  | optional (e : Expression)
  | star (e : Expression)
  | sequence (e f : Expression)

/-- What is left after so many rounds at most, those with more rounds first. -/
def rounds (round : Text → List Text) : Nat → Text → List Text
  | 0, s => [s]
  | more + 1, s => (round s).flatMap (rounds round more) ++ [s]

/-- What the ways to match leave of a text, the preferred way first: an optional part is rather
taken than left, and another round is preferred to none. No text has room for more rounds than it
has bytes, since the rounds here are never empty. -/
def Expression.rests : Expression → Text → List Text
  | .literal b, s =>
    match s with
    | [] => []
    | c :: rest => if c = b then [rest] else []
  | .dot, s =>
    match s with
    | [] => []
    | b :: rest => if b = byte '\n' then [] else [rest.drop (Utf8.first b rest).2]
  | .optional e, s => e.rests s ++ [s]
  | .star e, s => rounds e.rests s.length s
  | .sequence e f, s => (e.rests s).flatMap f.rests

/-- An expression that starts with a group, `(group)body`. -/
structure Grouped where
  group : Expression
  body : Expression

/-- The preferred match at the start of a text: what the group takes, and what the match leaves. -/
def Grouped.match? (e : Grouped) (s : Text) : Option (Text × Text) :=
  ((e.group.rests s).flatMap fun inside =>
    (e.body.rests inside).map fun rest => (s.take (s.length - inside.length), rest)).head?

/-- The groups of the matches in a text from left to right. Where no match starts, the search goes
on with the next character. -/
inductive Finds (e : Grouped) : Text → List Text → Prop where
  | done : e.match? [] = none → Finds e [] []
  | hit {s taken rest : Text} {found : List Text} :
    e.match? s = some (taken, rest) → Finds e rest found →
      Finds e s (taken :: found)
  | pass {b : UInt8} {rest : Text} {found : List Text} : e.match? (b :: rest) = none →
      Finds e (rest.drop (Utf8.first b rest).2) found → Finds e (b :: rest) found

/-- Two ASCII characters. -/
def pair (a b : UInt8) : Expression := .sequence (.literal a) (.literal b)

/-- The expression `(.?)(?:\\\\)*\{\}`. -/
def guardedBraces : Grouped where
  group := .optional .dot
  body := .sequence (.star (pair (byte '\\') (byte '\\'))) (pair (byte '\x7b') (byte '\x7d'))

theorem rests_pair (a b x y : UInt8) (rest : Text) :
    (pair a b).rests (x :: y :: rest) = if x = a ∧ y = b then [rest] else [] := by
  by_cases first : x = a <;> simp [pair, Expression.rests, first]

theorem rests_pair_short (a b : UInt8) {s : Text} (short : s.length < 2) :
    (pair a b).rests s = [] := by
  match s with
  | [] => rfl
  | [x] => by_cases first : x = a <;> simp [pair, Expression.rests, first]

theorem rounds_stop {round : Text → List Text} {s : Text} (stop : round s = []) (fuel : Nat) :
    rounds round fuel s = [s] := by
  cases fuel <;> simp [rounds, stop]

/-- However many rounds are tried, braces follow at most one number of pairs. -/
theorem rests_rounds {s : Text} {fuel : Nat} (enough : s.length ≤ fuel) :
    (rounds (pair (byte '\\') (byte '\\')).rests fuel s).flatMap
      (pair (byte '\x7b') (byte '\x7d')).rests =
      ((bracesAfterPairs s).map fun n => s.drop n).toList := by
  fun_induction bracesAfterPairs s generalizing fuel with
  | case1 a b rest here =>
    obtain ⟨rfl, rfl⟩ := here
    have stop := rests_pair (byte '\\') (byte '\\') (byte '\x7b') (byte '\x7d') rest
    rw [if_neg (by decide)] at stop
    rw [rounds_stop stop, List.flatMap_singleton, rests_pair, if_pos ⟨rfl, rfl⟩]
    rfl
  | case2 a b rest _ backslashes ih =>
    obtain ⟨rfl, rfl⟩ := backslashes
    cases fuel with
    | zero => contradiction
    | succ fuel =>
      have room : rest.length ≤ fuel := by
        simp only [List.length_cons] at enough
        omega
      rw [rounds, List.flatMap_append, List.flatMap_singleton, rests_pair, if_pos ⟨rfl, rfl⟩,
        List.flatMap_singleton, ih room, rests_pair, if_neg (by decide), List.append_nil,
        Option.map_map]
      rfl
  | case3 a b rest noBraces noPair =>
    have stop := rests_pair (byte '\\') (byte '\\') a b rest
    rw [if_neg noPair] at stop
    rw [rounds_stop stop, List.flatMap_singleton, rests_pair, if_neg noBraces]
    rfl
  | case4 s shorter =>
    have short : s.length < 2 := by
      cases s with
      | nil => decide
      | cons a tail =>
        cases tail with
        | nil => exact Nat.one_lt_two
        | cons b rest => exact absurd rfl (shorter a b rest)
    rw [rounds_stop (rests_pair_short _ _ short), List.flatMap_singleton,
      rests_pair_short _ _ short]
    rfl

theorem rests_body (s : Text) :
    guardedBraces.body.rests s = ((bracesAfterPairs s).map fun n => s.drop n).toList :=
  rests_rounds (Nat.le_refl s.length)

theorem take_dot (b : UInt8) (rest : Text) (width : Nat) :
    (b :: rest).take ((b :: rest).length - (rest.drop width).length) = b :: rest.take width := by
  have size : (b :: rest).length - (rest.drop width).length = min width rest.length + 1 := by
    rw [List.length_drop, List.length_cons]
    omega
  rw [size, List.take_succ_cons, ← List.take_eq_take_min]

/-- What a guard takes of the text that starts with it. -/
def taken (s : Text) : Option Utf8.Piece → Text
  | none => []
  | some _ =>
    match s with
    | [] => []
    | b :: rest => b :: rest.take (Utf8.first b rest).2

theorem match?_eq_occurrenceAt (s : Text) :
    guardedBraces.match? s = (occurrenceAt s).map fun o => (taken s o.1, s.drop o.2) := by
  cases s with
  | nil => rfl
  | cons b rest =>
    have body (inside x : Text) : (guardedBraces.body.rests inside).map (fun left => (x, left)) =
        ((bracesAfterPairs inside).map fun n => (x, inside.drop n)).toList := by
      rw [rests_body]
      cases bracesAfterPairs inside <;> rfl
    have group : guardedBraces.group.rests (b :: rest) =
        (if b = byte '\n' then [] else [rest.drop (Utf8.first b rest).2]) ++ [b :: rest] := rfl
    rw [Grouped.match?, group, List.flatMap_append, List.flatMap_singleton, body, Nat.sub_self,
      List.take_zero]
    simp only [occurrenceAt]
    by_cases lineFeed : b = byte '\n'
    · rw [if_pos lineFeed, if_pos lineFeed]
      cases bracesAfterPairs (b :: rest) <;> rfl
    · rw [if_neg lineFeed, if_neg lineFeed, List.flatMap_singleton, body, take_dot]
      cases bracesAfterPairs (rest.drop (Utf8.first b rest).2) with
      | none => cases bracesAfterPairs (b :: rest) <;> rfl
      | some k =>
        have left : (rest.drop (Utf8.first b rest).2).drop k =
            (b :: rest).drop (k + (Utf8.first b rest).2 + 1) := by
          rw [List.drop_succ_cons, List.drop_drop, Nat.add_comm]
        exact congrArg some (congrArg (Prod.mk _) left)

theorem taken_eq_backslash_iff {s : Text} {guard : Option Utf8.Piece} {n : Nat}
    (found : occurrenceAt s = some (guard, n)) :
    taken s guard = [byte '\\'] ↔ guard = some (.char '\\') := by
  cases s with
  | nil => contradiction
  | cons b rest =>
    rcases occurrenceAt_some found with ⟨k, rfl, _⟩ | ⟨rfl, _⟩
    · rw [Option.some.injEq, first_eq_backslash_iff]
      constructor
      · intro same
        exact (List.cons.inj same).1
      · rintro rfl
        simp [taken, Utf8.first_ascii (show byte '\\' < 0x80 by decide)]
    · simp [taken]

theorem drop_occurrence {b : UInt8} {rest : Text} {guard : Option Utf8.Piece} {n : Nat}
    (found : occurrenceAt (b :: rest) = some (guard, n)) :
    (b :: rest).drop n = rest.drop (n - 1) := by
  rcases occurrenceAt_some found with ⟨k, _, rfl, _⟩ | ⟨_, here⟩
  · rfl
  · obtain ⟨m, rfl⟩ := braces_nonempty here
    rfl

theorem Finds.unique {e : Grouped} {s : Text} {found found' : List Text} (finds : Finds e s found)
    (finds' : Finds e s found') : found = found' := by
  induction finds generalizing found' with
  | done missing =>
    cases finds' with
    | done => rfl
    | hit matched _ => rw [missing] at matched; contradiction
  | hit matched _ ih =>
    cases finds' with
    | done missing => rw [missing] at matched; contradiction
    | hit matched' rest =>
      cases matched.symm.trans matched'
      rw [ih rest]
    | pass missing _ => rw [missing] at matched; contradiction
  | pass missing _ ih =>
    cases finds' with
    | hit matched _ => rw [missing] at matched; contradiction
    | pass _ rest => exact ih rest

theorem finds_guards (skip : Nat) (s : Text) : ∃ found, Finds guardedBraces (s.drop skip) found ∧
    found.countP (· ≠ [byte '\\']) = (guardsAfter skip s).countP (· ≠ some (.char '\\')) := by
  fun_induction guardsAfter skip s with
  | case1 skip => exact ⟨[], by simpa using .done rfl, rfl⟩
  | case2 skip b rest ih => exact ih
  | case3 b rest guard n occurs ih =>
    obtain ⟨found, finds, counts⟩ := ih
    have matched := match?_eq_occurrenceAt (b :: rest)
    rw [occurs, Option.map_some, drop_occurrence occurs] at matched
    refine ⟨_, .hit matched finds, ?_⟩
    rw [List.countP_cons, List.countP_cons, counts]
    simp only [taken_eq_backslash_iff occurs, ne_eq]
  | case4 b rest missing ih =>
    obtain ⟨found, finds, counts⟩ := ih
    have unmatched := match?_eq_occurrenceAt (b :: rest)
    rw [missing] at unmatched
    exact ⟨found, .pass unmatched finds, counts⟩

/-- The search for the expression has one result, and the placeholders are its matches that no
backslash guards. -/
theorem finds_iff (format : Text) :
    ∃ found, (∀ other, Finds guardedBraces format other ↔ other = found) ∧
    countPlaceholders format = found.countP (· ≠ [byte '\\']) := by
  obtain ⟨found, finds, counts⟩ := finds_guards 0 format
  refine ⟨found, fun other => ⟨fun finds' => finds'.unique finds, ?_⟩, counts.symm⟩
  rintro rfl
  exact finds

/-- The unguarded matches of the expression are as many as there are pairs of braces after an even
run of backslashes. An odd run of any length takes one pair out of the count, the one behind it, and
braces right behind braces always count. -/
theorem placeholders_after_even_runs :
    (∀ format : Text, ∃ found, (∀ other, Finds guardedBraces format other ↔ other = found) ∧
      countPlaceholders format = found.countP (· ≠ [byte '\\'])) ∧
    (∀ format : Text,
      countPlaceholders format = (List.range format.length).countP (PlaceholderAt format ·)) ∧
    (∀ front back : Text, countPlaceholders (front ++ byte '\x7b' :: byte '\x7d' :: back) =
      countPlaceholders front + (if finalBackslashes front % 2 = 0 then 1 else 0) +
        countPlaceholders back) ∧
    ∀ front back : Text,
      countPlaceholders
          (front ++ byte '\x7b' :: byte '\x7d' :: byte '\x7b' :: byte '\x7d' :: back) =
        countPlaceholders (front ++ [byte '\x7b', byte '\x7d']) + 1 + countPlaceholders back := by
  refine ⟨finds_iff, countPlaceholders_eq_placeholders, countPlaceholders_between,
    fun front back => ?_⟩
  have again := countPlaceholders_between (front ++ [byte '\x7b', byte '\x7d']) back
  have closed : finalBackslashes (front ++ [byte '\x7b', byte '\x7d']) = 0 := by
    rw [show front ++ [byte '\x7b', byte '\x7d'] =
      (front ++ [byte '\x7b']) ++ [byte '\x7d'] by simp]
    exact finalBackslashes_other _ (by decide)
  rw [closed, List.append_assoc] at again
  exact again

end TraceLint.Logging
