import TraceLint.Bytecode.Inspector

/-! Traversal of flattened classes against the instructions of each method. A set of opcodes kept as
bits filters like the list it was made of. -/
namespace TraceLint.Bytecode

namespace OpcodeSet

theorem contains_insert (s : OpcodeSet) (added op : Opcode) :
    (s.insert added).contains op = true ↔ s.contains op = true ∨ op = added := by
  obtain ⟨a⟩ := op
  obtain ⟨b⟩ := added
  have bound : a.toNat < 256 := a.toNat_lt
  have single : ((1 : BitVec 256) <<< b.toNat).getLsbD a.toNat = true ↔ a = b := by
    rw [← UInt8.toNat_inj, BitVec.getLsbD_shiftLeft]
    simp only [bound, decide_true, Bool.true_and, BitVec.ofNat_eq_ofNat, BitVec.getLsbD_one,
      Nat.zero_lt_succ, Bool.and_eq_true, Bool.not_eq_eq_eq_not, Bool.not_true,
      decide_eq_false_iff_not, Nat.not_lt, decide_eq_true_eq]
    omega
  simp only [insert, contains, BitVec.getLsbD_or, Bool.or_eq_true, Opcode.mk.injEq]
  exact or_congr_right single

theorem contains_foldl_insert (ops : List Opcode) (s : OpcodeSet) (op : Opcode) :
    (ops.foldl insert s).contains op = true ↔ s.contains op = true ∨ op ∈ ops := by
  induction ops generalizing s with
  | nil => simp
  | cons first rest ih =>
    rw [List.foldl_cons, ih, contains_insert, List.mem_cons, or_assoc]

theorem contains_ofList (ops : List Opcode) (op : Opcode) :
    (ofList ops).contains op = true ↔ op ∈ ops := by
  rw [ofList, contains_foldl_insert]
  simp [empty, contains]

theorem contains_unfiltered (op : Opcode) : (ofFilter none).contains op = true := by
  have bound : op.code.toNat < 256 := op.code.toNat_lt
  exact BitVec.getLsbD_allOnes.trans (decide_eq_true bound)

theorem contains_ofFilter (filter : Option (List Opcode)) (op : Opcode) :
    (ofFilter filter).contains op = true ↔ ∀ ops ∈ filter, op ∈ ops := by
  cases filter with
  | none => simp [contains_unfiltered]
  | some ops => simp [ofFilter, contains_ofList]

end OpcodeSet

/-- A visitor that always goes on sees every event that the set lets through. -/
theorem visitAfter_continuing {σ : Type} (ops : OpcodeSet) {visit : Visitor σ Event}
    (continues : ∀ s e, (visit s e).2 = true) (s : σ) (events : List Event) :
    visitAfter ops visit 0 s events =
      (events.filter fun e => ops.contains e.instruction.op).foldl
        (fun s e => (visit s e).1) s := by
  induction events generalizing s with
  | nil => rfl
  | cons e rest ih =>
    rw [visitAfter]
    split
    · rename_i passes
      simp only [continues, if_true, ih, List.filter_cons, if_pos passes, List.foldl_cons]
    · rename_i filtered
      simp only [ih, List.filter_cons, if_neg filtered]

/-- Two visitors who keep their states related, and decide alike, come to related states. -/
theorem visitAfter_related {σ τ : Type} (ops : OpcodeSet) {visit : Visitor σ Event}
    {visit' : Visitor τ Event} (R : σ → τ → Prop) {events : List Event}
    (step : ∀ e ∈ events, ∀ s t, R s t →
      R (visit s e).1 (visit' t e).1 ∧ (visit s e).2 = (visit' t e).2)
    (skip : Nat) {s : σ} {t : τ} (related : R s t) :
    R (visitAfter ops visit skip s events) (visitAfter ops visit' skip t events) := by
  induction events generalizing skip s t with
  | nil => exact related
  | cons e rest ih =>
    have later := @ih fun e listed => step e (List.mem_cons_of_mem _ listed)
    cases skip with
    | succ skip => exact later skip related
    | zero =>
      rw [visitAfter, visitAfter]
      split
      · obtain ⟨kept, alike⟩ := step e List.mem_cons_self s t related
        dsimp only
        rw [alike]
        exact later _ kept
      · exact later 0 related

theorem visitAfter_hom {σ τ : Type} (ops : OpcodeSet) {visit : Visitor σ Event}
    {visit' : Visitor τ Event} {f : σ → τ}
    (step : ∀ s e, visit' (f s) e = (f (visit s e).1, (visit s e).2)) (skip : Nat) (s : σ)
    (events : List Event) :
    visitAfter ops visit' skip (f s) events = f (visitAfter ops visit skip s events) := by
  refine visitAfter_related ops (fun t s => t = f s) (fun e _ t s same => ?_) skip rfl
  rw [same, step]
  exact ⟨rfl, rfl⟩

/-- What is computed from the events of a method is computed from its instructions. -/
theorem map_filter_eventsOf {α : Type} (c : Class) (m : Method) (passes : Instruction → Bool)
    (view : Class → Method → Instruction → α) (code : List Instruction) :
    ((eventsOf c m code).filter fun e => passes e.instruction).map
        (fun e => view e.cls e.method e.instruction) =
      (code.filter passes).map (view c m) := by
  induction code with
  | nil => rfl
  | cons i rest ih =>
    rw [eventsOf, List.filter_cons, List.filter_cons]
    split
    · rw [List.map_cons, List.map_cons, ih]
    · exact ih

theorem map_filter_events {α : Type} (classes : List Class) (passes : Instruction → Bool)
    (view : Class → Method → Instruction → α) :
    ((Inspector.ofClasses classes).events.filter fun e => passes e.instruction).map
        (fun e => view e.cls e.method e.instruction) =
      classes.flatMap fun c => c.methods.flatMap fun m =>
        (m.code.filter passes).map (view c m) := by
  simp only [Inspector.ofClasses, List.filter_flatMap, List.map_flatMap, map_filter_eventsOf]

theorem Event.index_eq {c : Class} {m : Method} {i : Instruction} {front rest : List Instruction}
    (code : m.code = front ++ i :: rest) : (Event.mk c m i rest.length).index = front.length := by
  simp [index, code]

section

variable {σ : Type} (ops : OpcodeSet) (visit : Visitor σ Event)

/-- Visits the instructions of a method until the visitor declines. -/
def visitCode (c : Class) (m : Method) : σ → List Instruction → σ
  | s, [] => s
  | s, i :: rest =>
    if ops.contains i.op then
      let (s', go) := visit s ⟨c, m, i, rest.length⟩
      if go then visitCode c m s' rest else s'
    else visitCode c m s rest

theorem visitAfter_skipped (s : σ) (skipped later : List Event) :
    visitAfter ops visit skipped.length s (skipped ++ later) = visitAfter ops visit 0 s later := by
  induction skipped with
  | nil => rfl
  | cons e rest ih => exact ih

theorem length_eventsOf (c : Class) (m : Method) (code : List Instruction) :
    (eventsOf c m code).length = code.length := by
  induction code with
  | nil => rfl
  | cons i rest ih => rw [eventsOf, List.length_cons, List.length_cons, ih]

/-- To skip what follows an instruction is to go on after its method. -/
theorem visitAfter_eventsOf (c : Class) (m : Method) (code : List Instruction) (s : σ)
    (later : List Event) :
    visitAfter ops visit 0 s (eventsOf c m code ++ later) =
      visitAfter ops visit 0 (visitCode ops visit c m s code) later := by
  induction code generalizing s with
  | nil => rfl
  | cons i rest ih =>
    rw [eventsOf, List.cons_append, visitAfter, visitCode]
    split
    · dsimp only
      split
      · exact ih _
      · rw [← length_eventsOf c m rest]
        exact visitAfter_skipped ops visit _ _ _
    · exact ih s

theorem visitAfter_methods (c : Class) (methods : List Method) (s : σ) (later : List Event) :
    visitAfter ops visit 0 s (methods.flatMap (fun m => eventsOf c m m.code) ++ later) =
      visitAfter ops visit 0
        (methods.foldl (fun s m => visitCode ops visit c m s m.code) s) later := by
  induction methods generalizing s with
  | nil => rfl
  | cons m rest ih =>
    rw [List.flatMap_cons, List.append_assoc, visitAfter_eventsOf, ih, List.foldl_cons]

/-- The flattened events are visited as the classes, methods and instructions are in nested
loops. -/
theorem visitAfter_classes (classes : List Class) (s : σ) :
    visitAfter ops visit 0 s (Inspector.ofClasses classes).events =
      classes.foldl
        (fun s c => c.methods.foldl (fun s m => visitCode ops visit c m s m.code) s) s := by
  induction classes generalizing s with
  | nil => rfl
  | cons c rest ih =>
    have events : (Inspector.ofClasses (c :: rest)).events =
        c.methods.flatMap (fun m => eventsOf c m m.code) ++ (Inspector.ofClasses rest).events := rfl
    rw [events, visitAfter_methods, ih, List.foldl_cons]

end

/-- What only the class of one name contributes does not depend on the order of the classes. -/
theorem flatMap_of_perm {α : Type} {classes classes' : List Class}
    (distinct : (classes.map Class.name).Nodup) (shuffled : classes.Perm classes') (name : Text)
    {part : Class → List α} (only : ∀ c, c.name ≠ name → part c = []) :
    classes.flatMap part = classes'.flatMap part := by
  induction shuffled with
  | nil => rfl
  | cons c _ ih =>
    rw [List.flatMap_cons, List.flatMap_cons, ih (List.nodup_cons.mp distinct).2]
  | swap c d rest =>
    have apart : d.name ≠ c.name := by
      have fresh := (List.nodup_cons.mp distinct).1
      intro same
      exact fresh (same ▸ List.mem_cons_self)
    have silent : part c = [] ∨ part d = [] := by
      by_cases here : c.name = name
      · exact .inr (only d fun there => apart (there.trans here.symm))
      · exact .inl (only c here)
    rcases silent with nothing | nothing <;> simp [nothing]
  | trans first _ ih ih' =>
    rw [ih distinct, ih' ((first.map _).nodup_iff.mp distinct)]

end TraceLint.Bytecode
