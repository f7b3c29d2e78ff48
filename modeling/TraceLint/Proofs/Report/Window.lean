import TraceLint.Proofs.Report.Context
import TraceLint.Proofs.Report.Loop
import TraceLint.Proofs.Trace.Build

/-! The context of a position as a part of the code of one method. Classes, overloads and pcs are
told apart, so at most one instruction stands at a position, and its window is printed once. -/
namespace TraceLint.Report

open Bytecode (Method Instruction Inspector Position)

/-- Where names tell things apart, what only one of them contributes is all there is. -/
theorem flatMap_of_named {α β κ : Type} {key : α → κ} {xs : List α} (distinct : (xs.map key).Nodup)
    {x : α} (member : x ∈ xs) {part : α → List β} (only : ∀ y, key y ≠ key x → part y = []) :
    xs.flatMap part = part x := by
  induction xs with
  | nil => contradiction
  | cons y rest ih =>
    obtain ⟨fresh, distinct⟩ := List.nodup_cons.mp distinct
    rw [List.flatMap_cons]
    rcases List.mem_cons.mp member with rfl | later
    · have silent : rest.flatMap part = [] := by
        refine List.flatMap_eq_nil_iff.mpr fun z listed => only z fun same => ?_
        exact fresh (same ▸ List.mem_map_of_mem listed)
      rw [silent, List.append_nil]
    · have apart : key y ≠ key x := fun same => fresh (same ▸ List.mem_map_of_mem later)
      rw [only y apart, List.nil_append]
      exact ih distinct later

/-- The items of a list from one index to another, both included, with their indices. -/
def stretch {α : Type} (low high : Nat) (xs : List α) : List (α × Nat) :=
  (xs.zipIdx.drop low).take (high + 1 - low)

theorem flatMap_zipIdx_between {α β : Type} (part : α × Nat → List β) (low high : Nat) (xs : List α)
    (k : Nat) :
    ((xs.zipIdx k).flatMap fun entry => if low ≤ entry.2 ∧ entry.2 ≤ high then part entry else []) =
      (((xs.zipIdx k).drop (low - k)).take (high + 1 - max low k)).flatMap part := by
  induction xs generalizing k with
  | nil => simp
  | cons x rest ih =>
    rw [List.zipIdx_cons, List.flatMap_cons, ih]
    -- The first index is still to be dropped, or is taken, or lies beyond the last one.
    by_cases before : k < low
    · have skipped : low - k = low - (k + 1) + 1 := by omega
      have same : max low (k + 1) = max low k := by omega
      rw [if_neg (by omega), List.nil_append, skipped, List.drop_succ_cons, same]
    · have start : low - k = 0 := by omega
      have start' : low - (k + 1) = 0 := by omega
      have first : max low k = k := by omega
      have first' : max low (k + 1) = k + 1 := by omega
      rw [start, start', first, first', List.drop_zero, List.drop_zero]
      by_cases after : k ≤ high
      · have more : high + 1 - k = high + 1 - (k + 1) + 1 := by omega
        rw [if_pos ⟨by omega, after⟩, more, List.take_succ_cons, List.flatMap_cons]
      · have done : high + 1 - k = 0 := by omega
        have done' : high + 1 - (k + 1) = 0 := by omega
        rw [if_neg (by omega), done, done']
        rfl

section

variable {size : Int64} {code : List Instruction} {i : Nat}

theorem toInt_first (nonnegative : 0 ≤ size) (fits : i + size.toInt < 0x8000000000000000) :
    (Int64.ofNat i - size).toInt = i - size.toInt := by
  have size_nonnegative : 0 ≤ size.toInt := Int64.le_iff_toInt_le.mp nonnegative
  rw [Int64.toInt_sub, Int64.toInt_ofNat_of_lt (by omega)]
  exact Int.bmod_eq_of_le (by omega) (by omega)

theorem toInt_last (nonnegative : 0 ≤ size) (fits : i + size.toInt < 0x8000000000000000) :
    (Int64.ofNat i + size).toInt = i + size.toInt := by
  have size_nonnegative : 0 ≤ size.toInt := Int64.le_iff_toInt_le.mp nonnegative
  rw [Int64.toInt_add, Int64.toInt_ofNat_of_lt (by omega)]
  exact Int.bmod_eq_of_le (by omega) (by omega)

/-- The lines between two indices are those of a stretch of code, cut off at both its ends. -/
theorem linesBetween_eq_stretch {first last : Int} (nonnegative : 0 ≤ last) :
    linesBetween first last code i =
      (stretch first.toNat (min (code.length - 1) last.toNat) code).flatMap (line i) := by
  have between :=
    flatMap_zipIdx_between (line i) first.toNat (min (code.length - 1) last.toNat) code 0
  rw [Nat.sub_zero, Nat.max_zero] at between
  rw [stretch, ← between, linesBetween]
  refine List.flatMap_congr fun entry member => ?_
  have inside : entry.2 < code.length := by
    simpa using List.snd_lt_add_of_mem_zipIdx member
  have same : (first ≤ entry.2 && entry.2 ≤ last) = true ↔
      first.toNat ≤ entry.2 ∧ entry.2 ≤ min (code.length - 1) last.toNat := by
    rw [Bool.and_eq_true, decide_eq_true_iff, decide_eq_true_iff]
    omega
  simp only [same]

/-- Where the last index is a 64-bit number the window is the stretch of code around `i`. It is
followed by the code from its beginning, over and over, if that number is the greatest. -/
theorem window_eq_stretch (nonnegative : 0 ≤ size) (fits : i + size.toInt < 0x8000000000000000) :
    window size code i =
      { written := (stretch (i - size.toInt.toNat)
          (min (code.length - 1) (i + size.toInt.toNat)) code).flatMap (line i)
        refrain := if i + size.toInt < Int64.maxValue.toInt then none else
          some ((stretch 0 (min (code.length - 1) (i + size.toInt.toNat)) code).flatMap
            (line i)) } := by
  have size_nonnegative : 0 ≤ size.toInt := Int64.le_iff_toInt_le.mp nonnegative
  have first := toInt_first nonnegative fits
  have last := toInt_last nonnegative fits
  have low : (i - size.toInt).toNat = i - size.toInt.toNat := by omega
  have high : (i + size.toInt).toNat = i + size.toInt.toNat := by omega
  have greatest : Int64.maxValue.toInt = 0x7fffffffffffffff := rfl
  have endless : Int64.ofNat i + size = Int64.maxValue ↔
      ¬ i + size.toInt < Int64.maxValue.toInt := by
    rw [← Int64.toInt_inj, last]
    omega
  simp only [window, endless, ite_not]
  rw [first, last, linesBetween_eq_stretch (by omega), linesBetween_eq_stretch (by omega), low,
    high]
  rfl

end

/-- An instruction of a program stands at a position. -/
structure Stands (pos : Position) (c : Bytecode.Class) (m : Method) (x : Instruction) : Prop where
  cls : c.name = pos.cls
  method : m.name = pos.method
  methodDesc : m.desc = pos.methodDesc
  pc : x.pc = pos.pc

section

variable {size : Int64} {pos : Position} {c : Bytecode.Class} {m : Method} {x : Instruction}

theorem isAt_iff : isAt pos c m = true ↔ c.name = pos.cls ∧
    (m.name, m.desc) = (pos.method, pos.methodDesc) := by
  simp [isAt, and_assoc]

theorem shownIn_eq_nil (nowhere : ∀ x ∈ m.code, ¬ Stands pos c m x) :
    shownIn size pos c m = [] := by
  unfold shownIn
  split
  · rename_i here
    obtain ⟨cls, method⟩ := isAt_iff.mp here
    obtain ⟨name, desc⟩ := Prod.mk.inj method
    have missing : m.code.findIdx? (fun x => x.pc = pos.pc) = none := by
      refine List.findIdx?_eq_none_iff.mpr fun x member => ?_
      exact decide_eq_false fun pc => nowhere x member ⟨cls, name, desc, pc⟩
    rw [missing]
  · rfl

/-- Where pcs ascend, the instruction at a position is the first with its pc. -/
theorem shownIn_eq_window (ascending : m.code.Pairwise fun a b => a.pc < b.pc) {i : Nat}
    (entry : m.code[i]? = some x) (stands : Stands pos c m x) :
    shownIn size pos c m = [window size m.code i] := by
  have here : isAt pos c m = true :=
    isAt_iff.mpr ⟨stands.cls, Prod.ext stands.method stands.methodDesc⟩
  obtain ⟨inside, rfl⟩ := List.getElem?_eq_some_iff.mp entry
  have found : m.code.findIdx? (fun x => x.pc = pos.pc) = some i := by
    refine List.findIdx?_eq_some_iff_getElem.mpr ⟨inside, decide_eq_true stands.pc,
      fun j earlier => ?_⟩
    have below := List.pairwise_iff_getElem.mp ascending j i (by omega) inside earlier
    rw [stands.pc] at below
    simpa using Int64.ne_of_lt below
  rw [shownIn, if_pos here, found]

end

/-- In a program whose classes, overloads and pcs are told apart, one method shows the context of a
position where an instruction stands. -/
theorem context_eq_window {classes : List Bytecode.Class}
    (named : (classes.map Bytecode.Class.name).Nodup)
    (overloads : ∀ c ∈ classes, (c.methods.map fun m => (m.name, m.desc)).Nodup)
    (ascending : ∀ c ∈ classes, c.Ascending) {size : Int64} {pos : Position} {c : Bytecode.Class}
    (listed : c ∈ classes) {m : Method} (member : m ∈ c.methods) {i : Nat} {x : Instruction}
    (entry : m.code[i]? = some x) (stands : Stands pos c m x) :
    context (.ofClasses classes) size pos = window size m.code i := by
  have one_class : classes.flatMap (fun c => c.methods.flatMap (shownIn size pos c)) =
      c.methods.flatMap (shownIn size pos c) := by
    refine flatMap_of_named named listed fun d other => ?_
    exact shownIn_of_other_class (stands.cls ▸ other)
  have one_method : c.methods.flatMap (shownIn size pos c) = shownIn size pos c m := by
    refine flatMap_of_named (overloads c listed) member fun n other => ?_
    refine if_neg fun here => other ?_
    rw [(isAt_iff.mp here).2, stands.method, stands.methodDesc]
  rw [context_eq_concat, one_class, one_method,
    shownIn_eq_window (ascending c listed m member) entry stands]
  exact Transcript.append_empty _

/-- In a program whose classes, overloads and pcs are told apart, the context of a position is empty
if no instruction stands there. Otherwise it is what a loop writes over the indices of that one
method, which ends unless its last index is the greatest number. It shows the code from so many
instructions before to so many after the one that stands there, as far as there are any, in order,
and marks that one only. Where the loop ends each is shown once; where it does not, the code from
its beginning on is shown over and over. -/
theorem context_shows_stretch {classes : List Bytecode.Class}
    (named : (classes.map Bytecode.Class.name).Nodup)
    (overloads : ∀ c ∈ classes, (c.methods.map fun m => (m.name, m.desc)).Nodup)
    (ascending : ∀ c ∈ classes, c.Ascending) {size : Int64} (nonnegative : 0 ≤ size)
    (pos : Position) :
    ((¬ ∃ c ∈ classes, ∃ m ∈ c.methods, ∃ x ∈ m.code, Stands pos c m x) →
      context (.ofClasses classes) size pos = {}) ∧
    ∀ c ∈ classes, ∀ m ∈ c.methods, ∀ (i : Nat) x, m.code[i]? = some x → Stands pos c m x →
      i + size.toInt ≤ Int64.maxValue.toInt →
      Scan.Writes m.code i (Int64.ofNat i + size) ⟨Int64.ofNat i - size, []⟩
        (context (.ofClasses classes) size pos) ∧
      (Scan.Ends m.code i (Int64.ofNat i + size) ⟨Int64.ofNat i - size, []⟩ ↔
        i + size.toInt < Int64.maxValue.toInt) ∧
      context (.ofClasses classes) size pos =
        { written := (stretch (i - size.toInt.toNat)
            (min (m.code.length - 1) (i + size.toInt.toNat)) m.code).flatMap (line i)
          refrain := if i + size.toInt < Int64.maxValue.toInt then none else
            some ((stretch 0 (min (m.code.length - 1) (i + size.toInt.toNat)) m.code).flatMap
              (line i)) } := by
  constructor
  · intro nowhere
    have silent : classes.flatMap (fun c => c.methods.flatMap (shownIn size pos c)) = [] := by
      refine List.flatMap_eq_nil_iff.mpr fun c listed => ?_
      refine List.flatMap_eq_nil_iff.mpr fun m member => ?_
      exact shownIn_eq_nil fun x inside stands => nowhere ⟨c, listed, m, member, x, inside, stands⟩
    rw [context_eq_concat, silent]
    rfl
  · intro c listed m member i x entry stands fits
    have below : i + size.toInt < 0x8000000000000000 := Int.lt_of_le_of_lt fits (by decide)
    rw [context_eq_window named overloads ascending listed member entry stands]
    refine ⟨Scan.writes_window size, ?_, window_eq_stretch nonnegative below⟩
    rw [Scan.ends_iff, ne_eq, ← Int64.toInt_inj, toInt_last nonnegative below]
    omega

/-- Two overloads with the same pcs. -/
def overloaded : Bytecode.Class :=
  let nop (pc : Int64) : Instruction := ⟨pc, 0, ⟨0⟩, [], [], [], none⟩
  ⟨text "pkg/C", [], [], [⟨text "log", text "(I)V", [nop 0, nop 1, nop 2]⟩,
    ⟨text "log", text "(J)V", [nop 0, nop 1, ⟨2, 0, ⟨0xb1⟩, [], [], [], none⟩]⟩], false⟩

theorem context_of_overload :
    context (.ofClasses [overloaded]) 1
      { cls := text "pkg/C", method := text "log", methodDesc := text "(J)V", pc := 2 } =
    .ended (text " \t1: nop\n>\t2: return\n") := by
  have ascending : ∀ c ∈ [overloaded], c.Ascending := by
    simp only [List.forall_mem_singleton, Bytecode.Class.Ascending]
    decide
  have nonnegative : (0 : Int64) ≤ 1 := by decide
  have shown := (context_shows_stretch (by decide) (by decide) ascending nonnegative
    { cls := text "pkg/C", method := text "log", methodDesc := text "(J)V", pc := 2 }).2 overloaded
    (List.mem_singleton.mpr rfl) _ (.tail _ (.head _)) 2 _ rfl ⟨rfl, rfl, rfl, rfl⟩ (by decide)
  rw [shown.2.2]
  decide

/-- With the greatest size the context of the first instruction of a method has no end, although its
last index is still a 64-bit number. -/
theorem context_without_end :
    context (.ofClasses [overloaded]) Int64.maxValue
      { cls := text "pkg/C", method := text "log", methodDesc := text "(J)V", pc := 0 } =
    ⟨text ">\t0: nop\n \t1: nop\n \t2: return\n",
      some (text ">\t0: nop\n \t1: nop\n \t2: return\n")⟩ := by
  decide

end TraceLint.Report
