import Mathlib.Data.List.Infix
import TraceLint.Proofs.Finding.Order

/-! Which findings stay next to each other when they are sorted. Those in one class, with one method
name and one pc always do. A position also holds the descriptor of its method, which the order does
not look at, so two overloads with findings at one pc may be taken apart by the category. -/
namespace TraceLint

section

variable {α : Type} {p : α → Bool} {l : List α}

theorem filter_prefix_of_closed (closed : ∀ y z, [y, z].Sublist l → p z = true → p y = true) :
    l.filter p <+: l := by
  induction l with
  | nil => exact List.prefix_rfl
  | cons a rest ih =>
    by_cases chosen : p a = true
    · rw [List.filter_cons_of_pos chosen, List.prefix_cons_inj]
      exact ih fun y z listed => closed y z (listed.cons a)
    · have none : (a :: rest).filter p = [] := by
        refine List.filter_eq_nil_iff.mpr fun z member also => ?_
        rcases List.mem_cons.mp member with rfl | later
        · exact chosen also
        · exact chosen
            (closed a z (List.cons_sublist_cons.mpr (List.singleton_sublist.mpr later)) also)
      rw [none]
      exact List.nil_prefix

theorem filter_infix_of_closed
    (closed : ∀ x y z, [x, y, z].Sublist l → p x = true → p z = true → p y = true) :
    l.filter p <:+: l := by
  induction l with
  | nil => exact List.infix_rfl
  | cons a rest ih =>
    by_cases chosen : p a = true
    · rw [List.filter_cons_of_pos chosen]
      refine (List.prefix_cons_inj a |>.mpr (filter_prefix_of_closed fun y z listed => ?_)).isInfix
      exact closed a y z (List.cons_sublist_cons.mpr listed) chosen
    · rw [List.filter_cons_of_neg chosen]
      have piece := ih fun x y z listed => closed x y z (listed.cons a)
      exact piece.trans (List.suffix_cons a rest).isInfix

theorem closed_of_filter_infix (piece : l.filter p <:+: l) {x y z : α}
    (listed : [x, y, z].Sublist l) (first : p x = true) (last : p z = true) : p y = true := by
  obtain ⟨front, back, whole⟩ := piece
  have all : (l.filter p).countP p = l.countP p := by simp [List.countP_eq_length_filter]
  have counts := congrArg (List.countP p) whole
  rw [List.countP_append, List.countP_append, all] at counts
  have before : ∀ a ∈ front, ¬ p a = true := List.countP_eq_zero.mp (by omega)
  have behind : ∀ a ∈ back, ¬ p a = true := List.countP_eq_zero.mp (by omega)
  rw [← whole, List.append_assoc, List.sublist_append_iff] at listed
  obtain ⟨early, late, split, inFront, listed⟩ := listed
  obtain rfl : early = [] := by
    cases early with
    | nil => rfl
    | cons a rest =>
      obtain ⟨rfl, _⟩ := List.cons.inj split
      exact absurd first (before x (inFront.subset List.mem_cons_self))
  obtain rfl : [x, y, z] = late := split
  obtain ⟨middle, final, split, inside, inBack⟩ := List.sublist_append_iff.mp listed
  obtain rfl : final = [] := by
    rcases List.eq_nil_or_concat' final with none | ⟨rest, a, rfl⟩
    · exact none
    · rw [← List.append_assoc] at split
      obtain rfl : z = a := by simpa using congrArg List.getLast? split
      exact absurd last (behind z (inBack.subset (by simp)))
  rw [List.append_nil] at split
  subst split
  exact (List.mem_filter.mp (inside.subset (by simp))).2

end

namespace Finding

/-- Findings that agree in something stand next to each other. -/
def Together {β : Type} [DecidableEq β] (f : Finding → β) (l : List Finding) : Prop :=
  ∀ b, (l.filter fun x => f x = b) <:+: l

theorem together_iff {β : Type} [DecidableEq β] {f : Finding → β} {l : List Finding} :
    Together f l ↔ ∀ x y z, [x, y, z].Sublist l → f x = f z → f y = f z := by
  constructor
  · intro together x y z listed same
    have inside :=
      closed_of_filter_infix (together (f z)) listed (decide_eq_true same) (decide_eq_true rfl)
    exact of_decide_eq_true inside
  · intro closed b
    refine filter_infix_of_closed fun x y z listed first last => ?_
    have first := of_decide_eq_true first
    have last := of_decide_eq_true last
    exact decide_eq_true ((closed x y z listed (first.trans last.symm)).trans last)

/-- The class, the name of the method and the pc. -/
def place (f : Finding) : Text × Text × Int64 := (f.pos.cls, f.pos.method, f.pos.pc)

/-- In a lexicographic order, what lies between two pairs with one first component has that
component too. -/
theorem lex_between {α β : Type} {r : α → α → Prop} {s : β → β → Prop} [IsTrans α r] [Std.Irrefl r]
    {a b c : α × β} (first : Prod.Lex r s a b ∨ a = b) (second : Prod.Lex r s b c ∨ b = c)
    (same : a.1 = c.1) : b.1 = c.1 ∧ (s a.2 b.2 ∨ a.2 = b.2) ∧ (s b.2 c.2 ∨ b.2 = c.2) := by
  have never (below : r a.1 b.1) (above : r b.1 c.1) : False := by
    have around := IsTrans.trans _ _ _ below above
    rw [same] at around
    exact Std.Irrefl.irrefl c.1 around
  have irrefl := Std.Irrefl.irrefl (r := r) c.1
  rw [Prod.lex_def] at first second
  grind

theorem place_of_between {x y z : Finding} (first : notAfter x y = true)
    (second : notAfter y z = true) (same : x.place = z.place) : y.place = z.place := by
  obtain ⟨cls, method, pc⟩ : x.pos.cls = z.pos.cls ∧ x.pos.method = z.pos.method ∧
      x.pos.pc = z.pos.pc := by
    simpa [place] using same
  obtain ⟨sameClass, first, second⟩ :=
    lex_between (notAfter_iff.mp first) (notAfter_iff.mp second) cls
  obtain ⟨sameMethod, first, second⟩ := lex_between first second method
  obtain ⟨samePc, _⟩ := lex_between first second pc
  have equal : y.pos.cls = z.pos.cls ∧ y.pos.method = z.pos.method ∧ y.pos.pc = z.pos.pc :=
    ⟨sameClass, sameMethod, samePc⟩
  simpa [place] using equal

end Finding

namespace Sink

/-- Findings in an order in which a sink lists them: none comes before an earlier one, and those
that tie have arrived in this order. -/
def Lists (s : Sink) (l : List Finding) : Prop :=
  (l.Pairwise fun x y => Finding.notAfter x y = true) ∧
    ∀ k, (l.filter fun f => f.key = k).Sublist s.arrived

variable {s : Sink}

theorem sublist_findings_iff {l : List Finding} : l.Sublist s.findings ↔ s.Lists l := by
  constructor
  · intro listed
    refine ⟨s.findings_sorted.sublist listed, fun k => ?_⟩
    have keyed := listed.filter fun f => decide (f.key = k)
    rw [s.filter_findings k] at keyed
    exact keyed.trans List.filter_sublist
  · rintro ⟨ascending, arrived⟩
    refine Finding.sublist_of_sorted ascending s.findings_sorted fun k => ?_
    have keyed := (arrived k).filter fun f => decide (f.key = k)
    rw [List.filter_filter, ← s.filter_findings k] at keyed
    simpa only [Bool.and_self] using keyed

theorem lists_of_tied {x y z : Finding} (tied : x.key = y.key) (pair : [x, y].Sublist s.arrived)
    (member : z ∈ s.arrived) (above : Finding.less y z = true) : s.Lists [x, y, z] := by
  have ordered := Finding.less_iff.mp above
  have apart : z.key ≠ y.key := by
    intro same
    rw [same] at ordered
    exact Std.Irrefl.irrefl _ ordered
  have first : Finding.notAfter x y = true := Finding.notAfter_iff.mpr (.inr tied)
  have second : Finding.notAfter y z = true := Finding.notAfter_iff.mpr (.inl ordered)
  have third : Finding.notAfter x z = true := Finding.notAfter_trans x y z first second
  refine ⟨by simp [first, second, third], fun k => ?_⟩
  by_cases low : y.key = k
  · have chosen : [x, y, z].filter (fun f => f.key = k) = [x, y] := by simp [← low, tied, apart]
    rw [chosen]
    exact pair
  · by_cases high : z.key = k
    · have chosen : [x, y, z].filter (fun f => f.key = k) = [z] := by simp [tied, low, high]
      rw [chosen]
      exact List.singleton_sublist.mpr member
    · have chosen : [x, y, z].filter (fun f => f.key = k) = [] := by simp [tied, low, high]
      rw [chosen]
      exact List.nil_sublist _

/-- Two positions at one place, each with findings of the same two categories, are not kept
together, in whatever order the findings have arrived. -/
theorem not_together_of_crossing {x x' y y' : Finding}
    (arrived : ∀ f ∈ [x, x', y, y'], f ∈ s.arrived) (first : x.pos = x'.pos)
    (second : y.pos = y'.pos) (apart : x.pos ≠ y.pos) (tied : x.key = y.key)
    (above : Finding.less y x' = true) (above' : Finding.less x y' = true) :
    ¬ Finding.Together Finding.pos s.findings := by
  rw [Finding.together_iff]
  simp only [sublist_findings_iff]
  intro together
  obtain ⟨front, back, split⟩ := List.append_of_mem (arrived x (by simp))
  have member : y ∈ front ++ x :: back := split ▸ arrived y (by simp)
  rcases List.mem_append.mp member with before | behind
  · have pair : [y, x].Sublist s.arrived := by
      rw [split]
      exact (List.singleton_sublist.mpr before).append
        (List.singleton_sublist.mpr List.mem_cons_self)
    have same := together y x y' (lists_of_tied tied.symm pair (arrived y' (by simp)) above') second
    exact apart (same.trans second.symm)
  · rcases List.mem_cons.mp behind with rfl | behind
    · exact apart rfl
    have pair : [x, y].Sublist s.arrived := by
      rw [split]
      exact (List.cons_sublist_cons.mpr (List.singleton_sublist.mpr behind)).trans
        (List.sublist_append_right _ _)
    have same := together x y x' (lists_of_tied tied pair (arrived x' (by simp)) above) first
    exact apart (first.trans same.symm)

/-- Sorting keeps together the findings of one class with one method name and one pc. Those of one
position stay together unless one of another position, with a category between theirs or arriving
between them, keeps them apart. -/
theorem positions_together_iff (s : Sink) :
    Finding.Together Finding.place s.findings ∧
    (Finding.Together Finding.pos s.findings ↔
      ∀ x y z, s.Lists [x, y, z] → x.pos = z.pos → y.pos = z.pos) := by
  constructor
  · refine Finding.together_iff.mpr fun x y z listed same => ?_
    obtain ⟨⟨below, _⟩, above⟩ : (Finding.notAfter x y = true ∧ Finding.notAfter x z = true) ∧
        Finding.notAfter y z = true := by
      simpa using (sublist_findings_iff.mp listed).1
    exact Finding.place_of_between below above same
  · rw [Finding.together_iff]
    simp only [sublist_findings_iff]

/-- A finding at the one pc of an overload. -/
def overloadRemark (desc : String) (line : Int64) (category : String) : Finding where
  pos := ⟨text "pkg/Overloads", text "log", text desc, text "Overloads.java", line, 5⟩
  category := text category
  severity := .normal
  message := []
  called := []
  payload := .none

/-- Each overload is about both categories, and its findings arrive one after the other. -/
def overloadRemarks : List Finding :=
  [overloadRemark "(I)V" 10 "SLF4J_SIGN_ONLY_FORMAT",
    overloadRemark "(I)V" 10 "SLF4J_PLACE_HOLDER_MISMATCH",
    overloadRemark "(J)V" 20 "SLF4J_SIGN_ONLY_FORMAT",
    overloadRemark "(J)V" 20 "SLF4J_PLACE_HOLDER_MISMATCH"]

theorem overloads_interleaved :
    ¬ Finding.Together Finding.pos (Sink.findings ⟨overloadRemarks⟩) := by
  have arrived : ∀ f ∈ [overloadRemark "(I)V" 10 "SLF4J_PLACE_HOLDER_MISMATCH",
      overloadRemark "(I)V" 10 "SLF4J_SIGN_ONLY_FORMAT",
      overloadRemark "(J)V" 20 "SLF4J_PLACE_HOLDER_MISMATCH",
      overloadRemark "(J)V" 20 "SLF4J_SIGN_ONLY_FORMAT"], f ∈ overloadRemarks := by
    simp [overloadRemarks]
  exact not_together_of_crossing arrived rfl rfl (by decide) rfl (by decide) (by decide)

end Sink

end TraceLint
