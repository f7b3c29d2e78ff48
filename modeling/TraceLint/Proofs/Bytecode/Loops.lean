import Mathlib.Data.List.Chain
import Mathlib.Data.List.Forall2
import TraceLint.Proofs.Bytecode.Visits
import TraceLint.Proofs.Loop

/-! The traversal as loops over a table run it. An entry of the table tells where its method ends,
and a set of opcodes is four words of bits. The loop with context has no place stored with an entry:
it keeps the index where the current method starts, which it sees from the end that the entry before
it tells. That index is the right one wherever the visitor declined before. -/
namespace TraceLint.Bytecode

/-- A set of opcodes as four words of 64 bits. -/
abbrev Mask := Vector (BitVec 64) 4

namespace Mask

/-- The word of an opcode. -/
def word (op : Opcode) : Fin 4 :=
  ⟨(op.code >>> 6).toNat, by
    have bound := op.code.toNat_lt
    rw [UInt8.toNat_shiftRight, Nat.shiftRight_eq_div_pow]
    exact Nat.div_lt_of_lt_mul bound⟩

/-- The number of the bit of an opcode in its word. -/
def bit (op : Opcode) : Nat := (op.code &&& 63).toNat

def has (s : Mask) (op : Opcode) : Bool := s.get (word op) &&& 1#64 <<< bit op != 0

def insert (s : Mask) (op : Opcode) : Mask := s.set (word op) (s.get (word op) ||| 1#64 <<< bit op)

/-- All bits are set if there is no filter. -/
def ofFilter : Option (List Opcode) → Mask
  | none => Vector.replicate 4 (BitVec.allOnes 64)
  | some ops => ops.foldl insert (Vector.replicate 4 0)

theorem bit_lt (op : Opcode) : bit op < 64 := by
  rw [bit, UInt8.toNat_and]
  exact Nat.lt_of_le_of_lt Nat.and_le_right (by decide)

theorem eq_of_word_of_bit {a b : Opcode} (words : word a = word b)
    (bits : bit a = bit b) : a = b := by
  obtain ⟨a⟩ := a
  obtain ⟨b⟩ := b
  have high : a.toNat / 64 = b.toNat / 64 := by
    simpa [word, UInt8.toNat_shiftRight, Nat.shiftRight_eq_div_pow] using words
  have low : a.toNat % 64 = b.toNat % 64 := by
    have mod (c : UInt8) : (c &&& 63).toNat = c.toNat % 64 :=
      (UInt8.toNat_and c 63).trans (Nat.and_two_pow_sub_one_eq_mod c.toNat 6)
    simpa [bit, mod] using bits
  refine congrArg Opcode.mk (UInt8.toNat_inj.mp ?_)
  omega

theorem has_iff (s : Mask) (op : Opcode) :
    s.has op = true ↔ (s.get (word op)).getLsbD (bit op) = true := by
  have nonzero : BitVec.twoPow 64 (bit op) ≠ 0 := by
    intro zero
    have selected := congrArg (fun bits => bits.getLsbD (bit op)) zero
    simp [bit_lt op] at selected
  rw [has, ← BitVec.twoPow_eq, BitVec.and_twoPow]
  split
  · rename_i present
    exact iff_of_true (bne_iff_ne.mpr nonzero) present
  · rename_i absent
    exact iff_of_false (by simp) absent

theorem has_insert (s : Mask) (added op : Opcode) :
    (s.insert added).has op = true ↔ s.has op = true ∨ op = added := by
  rw [has_iff, has_iff]
  by_cases words : word op = word added
  · have single : (1#64 <<< bit added).getLsbD (bit op) = true ↔ op = added := by
      have same : bit op = bit added ↔ op = added :=
        ⟨fun bits => eq_of_word_of_bit words bits, fun same => congrArg bit same⟩
      rw [← BitVec.twoPow_eq, BitVec.getLsbD_twoPow, decide_eq_true (bit_lt added), Bool.true_and,
        decide_eq_true_iff, ← same, eq_comm]
    have changed : (s.insert added).get (word op) = s.get (word added) ||| 1#64 <<< bit added := by
      rw [words]
      exact Vector.getElem_set_self _
    rw [changed, BitVec.getLsbD_or, Bool.or_eq_true, single, words]
  · have kept : (s.insert added).get (word op) = s.get (word op) :=
      Vector.getElem_set_ne _ _ fun same => words (Fin.ext same.symm)
    have other : op ≠ added := fun same => words (congrArg word same)
    rw [kept, or_iff_left other]

theorem has_foldl_insert (ops : List Opcode) (s : Mask) (op : Opcode) :
    (ops.foldl insert s).has op = true ↔ s.has op = true ∨ op ∈ ops := by
  induction ops generalizing s with
  | nil => simp
  | cons first rest ih => rw [List.foldl_cons, ih, has_insert, List.mem_cons, or_assoc]

/-- The words hold the same opcodes as the bits in a row. -/
theorem has_ofFilter (filter : Option (List Opcode)) (op : Opcode) :
    (ofFilter filter).has op = (OpcodeSet.ofFilter filter).contains op := by
  rw [Bool.eq_iff_iff, OpcodeSet.contains_ofFilter]
  cases filter with
  | none =>
    have full : (ofFilter none).get (word op) = BitVec.allOnes 64 := Vector.getElem_replicate _
    rw [has_iff, full, BitVec.getLsbD_allOnes, decide_eq_true (bit_lt op)]
    simp
  | some ops =>
    have empty : has (Vector.replicate 4 0) op = false := by
      have none : (Vector.replicate 4 (0 : BitVec 64)).get (word op) = 0 :=
        Vector.getElem_replicate _
      rw [Bool.eq_false_iff, ne_eq, has_iff, none]
      simp
    rw [ofFilter, has_foldl_insert, empty]
    simp

end Mask

/-- An instruction of a method, with the index of the first entry after the method. -/
structure Entry where
  cls : Class
  method : Method
  instruction : Instruction
  stop : Nat

def tabulate (classes : List Class) : List Entry := Id.run do
  let mut table := []
  for c in classes do
    for m in c.methods do
      let stop := table.length + m.code.length
      for i in m.code do
        table := table ++ [⟨c, m, i, stop⟩]
  return table

section Table

/-- The entries of some events from an index on. -/
def entriesFrom (k : Nat) : List Event → List Entry
  | [] => []
  | e :: rest =>
    ⟨e.cls, e.method, e.instruction, k + 1 + e.following⟩ :: entriesFrom (k + 1) rest

theorem entriesFrom_append (k : Nat) (front rest : List Event) :
    entriesFrom k (front ++ rest) = entriesFrom k front ++ entriesFrom (k + front.length) rest := by
  induction front generalizing k with
  | nil => rfl
  | cons e front ih =>
    rw [List.cons_append, entriesFrom, entriesFrom, ih, List.length_cons, List.cons_append]
    have index : k + 1 + front.length = k + (front.length + 1) := by omega
    rw [index]

theorem length_entriesFrom (k : Nat) (events : List Event) :
    (entriesFrom k events).length = events.length := by
  induction events generalizing k with
  | nil => rfl
  | cons e rest ih => rw [entriesFrom, List.length_cons, List.length_cons, ih]

theorem getElem?_entriesFrom (k : Nat) (events : List Event) (n : Nat) :
    (entriesFrom k events)[n]? = events[n]?.map fun e =>
      ⟨e.cls, e.method, e.instruction, k + n + 1 + e.following⟩ := by
  induction events generalizing k n with
  | nil => rfl
  | cons e rest ih =>
    cases n with
    | zero => rfl
    | succ n =>
      rw [entriesFrom, List.getElem?_cons_succ, List.getElem?_cons_succ, ih]
      have index : k + 1 + n = k + (n + 1) := by omega
      rw [index]

theorem entriesFrom_eventsOf (c : Class) (m : Method) (code : List Instruction) (k : Nat) :
    entriesFrom k (eventsOf c m code) = code.map fun i => ⟨c, m, i, k + code.length⟩ := by
  induction code generalizing k with
  | nil => rfl
  | cons i rest ih =>
    have stop : k + 1 + rest.length = k + (rest.length + 1) := by omega
    rw [eventsOf, entriesFrom, ih, List.map_cons, List.length_cons, stop]

theorem forIn_entries (c : Class) (m : Method) (stop : Nat) (code : List Instruction)
    (table : List Entry) :
    (forIn code table fun i table => pure (.yield (table ++ [⟨c, m, i, stop⟩])) : Id (List Entry)) =
      pure (table ++ code.map fun i => ⟨c, m, i, stop⟩) := by
  induction code generalizing table with
  | nil => simp
  | cons i rest ih =>
    rw [List.forIn_cons, pure_bind]
    dsimp only
    rw [ih, List.append_assoc, List.map_cons, List.singleton_append]

theorem tabulate_eq (classes : List Class) :
    tabulate classes = entriesFrom 0 (Inspector.ofClasses classes).events := by
  have methods (c : Class) (ms : List Method) (events : List Event) :
      ms.foldl (fun table m => table ++ m.code.map fun i => ⟨c, m, i, table.length + m.code.length⟩)
        (entriesFrom 0 events) =
      entriesFrom 0 (events ++ ms.flatMap fun m => eventsOf c m m.code) := by
    induction ms generalizing events with
    | nil => simp
    | cons m rest ih =>
      have added := entriesFrom_append 0 events (eventsOf c m m.code)
      rw [entriesFrom_eventsOf, Nat.zero_add] at added
      rw [List.foldl_cons, length_entriesFrom, ← added, ih, List.flatMap_cons, List.append_assoc]
  have all (events : List Event) :
      classes.foldl (fun table c => c.methods.foldl (fun table m =>
        table ++ m.code.map fun i => ⟨c, m, i, table.length + m.code.length⟩) table)
        (entriesFrom 0 events) =
      entriesFrom 0 (events ++ (Inspector.ofClasses classes).events) := by
    induction classes generalizing events with
    | nil => simp [Inspector.ofClasses]
    | cons c rest ih =>
      have events' : (Inspector.ofClasses (c :: rest)).events =
        c.methods.flatMap (fun m => eventsOf c m m.code) ++ (Inspector.ofClasses rest).events := rfl
      rw [List.foldl_cons, methods, ih, events', List.append_assoc]
  unfold tabulate
  simp only [forIn_entries]
  simpa [entriesFrom] using all []

end Table

section Flattening

/-- How an event comes after another: as the first of a method after the last of one before, or as
the next of the same method. -/
def Follows (e e' : Event) : Prop :=
  e.following = 0 ∧ e'.index = 0 ∨ e.following = e'.following + 1 ∧ e'.index = e.index + 1

/-- Events are those of whole methods, one after another. -/
structure Flat (events : List Event) : Prop where
  first : ∀ e ∈ events.head?, e.index = 0
  last : ∀ e ∈ events.getLast?, e.following = 0
  chain : events.IsChain Follows

theorem Flat.nil : Flat [] := ⟨by simp, by simp, .nil⟩

theorem Flat.append {front rest : List Event} (flat : Flat front) (flat' : Flat rest) :
    Flat (front ++ rest) := by
  refine ⟨?_, ?_, List.isChain_append.mpr ⟨flat.chain, flat'.chain, fun e last e' first => ?_⟩⟩
  · cases front with
    | nil => exact flat'.first
    | cons e front => exact flat.first
  · cases rest with
    | nil =>
      rw [List.append_nil]
      exact flat.last
    | cons e rest =>
      rw [List.getLast?_append_of_ne_nil _ (List.cons_ne_nil e rest)]
      exact flat'.last
  · exact .inl ⟨flat.last e last, flat'.first e' first⟩

theorem Flat.flatMap {α : Type} {xs : List α} {part : α → List Event}
    (each : ∀ x ∈ xs, Flat (part x)) : Flat (xs.flatMap part) := by
  induction xs with
  | nil => exact .nil
  | cons x rest ih =>
    obtain ⟨here, later⟩ := List.forall_mem_cons.mp each
    exact here.append (ih later)

theorem flat_eventsOf (c : Class) (m : Method) : Flat (eventsOf c m m.code) := by
  have suffix (front rest : List Instruction) (code : m.code = front ++ rest) :
      (∀ e ∈ (eventsOf c m rest).head?, e.index = front.length) ∧
      (∀ e ∈ (eventsOf c m rest).getLast?, e.following = 0) ∧
      (eventsOf c m rest).IsChain Follows := by
    induction rest generalizing front with
    | nil => exact ⟨by simp [eventsOf], by simp [eventsOf], .nil⟩
    | cons i rest ih =>
      have index := @Event.index_eq c m i front rest code
      obtain ⟨first, last, chain⟩ := ih (front ++ [i]) (by simp [code])
      refine ⟨by simpa [eventsOf] using index, ?_, ?_⟩
      · cases rest with
        | nil => simp [eventsOf]
        | cons j rest => exact last
      · cases rest with
        | nil => exact .singleton _
        | cons j rest =>
          refine .cons_cons (.inr ⟨rfl, ?_⟩) chain
          have next := first _ rfl
          rw [List.length_append, List.length_singleton] at next
          rw [index]
          exact next
  obtain ⟨first, last, chain⟩ := suffix [] m.code rfl
  exact ⟨first, last, chain⟩

theorem flat_ofClasses (classes : List Class) : Flat (Inspector.ofClasses classes).events :=
  .flatMap fun c _ => .flatMap fun m _ => flat_eventsOf c m

variable {events : List Event} (flat : Flat events)
include flat

theorem Flat.follows {i : Nat} {e e' : Event} (here : events[i]? = some e)
    (next : events[i + 1]? = some e') : Follows e e' := by
  obtain ⟨inside, rfl⟩ := List.getElem?_eq_some_iff.mp here
  obtain ⟨inside', rfl⟩ := List.getElem?_eq_some_iff.mp next
  exact List.isChain_iff_getElem.mp flat.chain i inside'

/-- After all that follow an event in its method, another method starts. -/
theorem Flat.index_at_stop {i : Nat} {e e' : Event} (here : events[i]? = some e)
    (next : events[i + 1 + e.following]? = some e') : e'.index = 0 := by
  generalize count : e.following = n at next
  induction n generalizing i e with
  | zero =>
    rcases flat.follows here next with ⟨_, index⟩ | ⟨more, _⟩
    · exact index
    · omega
  | succ n ih =>
    obtain ⟨beyond, _⟩ := List.getElem?_eq_some_iff.mp next
    have between : events[i + 1]? = some events[i + 1] := List.getElem?_eq_getElem (by omega)
    rcases flat.follows here between with ⟨none, _⟩ | ⟨fewer, _⟩
    · omega
    · refine ih between (by omega) ?_
      rw [← next]
      congr 1
      omega

end Flattening

section Loops

variable {σ : Type} (table : List Entry) (mask : Mask)

structure Cursor (σ : Type) where
  index : Nat
  state : σ

/-- One round of the loop over a table: after a visit that is declined, on with the next method. -/
def scan? (visit : Visitor σ Visit) (here : Cursor σ) : Option (Cursor σ) :=
  table[here.index]?.map fun e =>
    if mask.has e.instruction.op then
      let (s, go) := visit here.state (e.cls, e.method, e.instruction)
      ⟨if go then here.index + 1 else e.stop, s⟩
    else ⟨here.index + 1, here.state⟩

/-- A visitor's argument: class, method, its code, and the index of the instruction in it. -/
abbrev Placed := Class × Method × List Instruction × Int

structure ContextCursor (σ : Type) extends Cursor σ where
  /-- Where the current method starts. -/
  start : Nat

/-- Where the method at an index starts: there, if the entry before ends its method; otherwise where
it was seen to start. -/
def startAt (i start : Nat) : Nat :=
  if i = 0 ∨ (table[i - 1]?).map Entry.stop = some i then i else start

/-- One round of the loop over a table that gives each instruction with its place. -/
def scanInContext? (visit : Visitor σ Placed) (here : ContextCursor σ) : Option (ContextCursor σ) :=
  table[here.index]?.map fun e =>
    let start := startAt table here.index here.start
    if mask.has e.instruction.op then
      let (s, go) := visit here.state (e.cls, e.method, e.method.code, here.index - start)
      ⟨⟨if go then here.index + 1 else e.stop, s⟩, start⟩
    else ⟨⟨here.index + 1, here.state⟩, start⟩

end Loops

section Refinement

variable {σ : Type} {ops : OpcodeSet} {events : List Event}

theorem visitAfter_eq_drop (visit : Visitor σ Event) (skip : Nat) (s : σ) (events : List Event) :
    visitAfter ops visit skip s events = visitAfter ops visit 0 s (events.drop skip) := by
  induction events generalizing skip with
  | nil => simp [visitAfter]
  | cons e rest ih =>
    cases skip with
    | zero => rfl
    | succ skip => exact ih skip

/-- Visiting from an event on: a visit or none, and on with what it makes the next event. -/
theorem visitAfter_at (visit : Visitor σ Event) (s : σ) {i : Nat} {e : Event}
    (here : events[i]? = some e) :
    visitAfter ops visit 0 s (events.drop i) =
      if ops.contains e.instruction.op then
        visitAfter ops visit 0 (visit s e).1
          (events.drop (if (visit s e).2 then i + 1 else i + 1 + e.following))
      else visitAfter ops visit 0 s (events.drop (i + 1)) := by
  obtain ⟨inside, same⟩ := List.getElem?_eq_some_iff.mp here
  rw [List.drop_eq_getElem_cons inside, same, visitAfter]
  split
  · dsimp only
    rw [visitAfter_eq_drop]
    split
    · rfl
    · rw [List.drop_drop]
  · rfl

theorem exists_event {i : Nat} {entry : Entry} (found : (entriesFrom 0 events)[i]? = some entry) :
    ∃ e, events[i]? = some e ∧ entry = ⟨e.cls, e.method, e.instruction, i + 1 + e.following⟩ := by
  rw [getElem?_entriesFrom, Nat.zero_add] at found
  obtain ⟨e, here, rfl⟩ := Option.map_eq_some_iff.mp found
  exact ⟨e, here, rfl⟩

theorem drop_eq_nil {β : Type} {round : Entry → β} {i : Nat}
    (last : (entriesFrom 0 events)[i]?.map round = none) : events.drop i = [] := by
  have beyond := List.getElem?_eq_none_iff.mp (Option.map_eq_none_iff.mp last)
  rw [length_entriesFrom] at beyond
  exact List.drop_eq_nil_of_le beyond

variable {mask : Mask} (same : ∀ op, mask.has op = ops.contains op)
include same

/-- The loop over a table visits as the traversal of the events does. -/
theorem scan_stops (visit : Visitor σ Visit) (s : σ) :
    ∃ n, Loop.Stops (scan? (entriesFrom 0 events) mask visit) ⟨0, s⟩
      ⟨n, visitAfter ops visit.onEvents 0 s events⟩ := by
  let value (c : Cursor σ) : σ := visitAfter ops visit.onEvents 0 c.state (events.drop c.index)
  have round (a b : Cursor σ) (_ : True)
      (next : scan? (entriesFrom 0 events) mask visit a = some b) :
      True ∧ events.length - b.index < events.length - a.index ∧ value b = value a := by
    obtain ⟨entry, found, rfl⟩ := Option.map_eq_some_iff.mp next
    obtain ⟨e, here, rfl⟩ := exists_event found
    obtain ⟨inside, _⟩ := List.getElem?_eq_some_iff.mp here
    dsimp only [value]
    rw [visitAfter_at _ _ here, same]
    split
    · refine ⟨trivial, ?_, rfl⟩
      dsimp only
      split <;> omega
    · exact ⟨trivial, by dsimp only; omega, rfl⟩
  obtain ⟨⟨n, t⟩, stops, final⟩ := Loop.exists_stops _ round (a := ⟨0, s⟩) trivial
  have final : visitAfter ops visit.onEvents 0 t (events.drop n) =
      visitAfter ops visit.onEvents 0 s events := final
  rw [drop_eq_nil stops.last] at final
  exact ⟨n, final ▸ stops⟩

/-- Where a method is under way at an index, its start is known. -/
def Started (events : List Event) (i start : Nat) : Prop :=
  ∀ e, events[i]? = some e → 0 < e.index → start + e.index = i

omit same in
theorem Started.first (flat : Flat events) : Started events 0 0 := by
  intro e here later
  have index := flat.first e (List.head?_eq_getElem?.trans here)
  omega

omit same in
/-- From the end that the entry before tells, the start of the method at an index is found. -/
theorem startAt_add_index (flat : Flat events) {i start : Nat} (started : Started events i start)
    {e : Event} (here : events[i]? = some e) :
    startAt (entriesFrom 0 events) i start + e.index = i := by
  cases i with
  | zero =>
    have index := flat.first e (List.head?_eq_getElem?.trans here)
    rw [startAt, if_pos (.inl rfl), index]
  | succ i =>
    obtain ⟨inside, _⟩ := List.getElem?_eq_some_iff.mp here
    have before : events[i]? = some events[i] := List.getElem?_eq_getElem (by omega)
    have stop : ((entriesFrom 0 events)[i + 1 - 1]?).map Entry.stop =
        some (i + 1 + events[i].following) := by
      rw [Nat.add_sub_cancel, getElem?_entriesFrom, before, Nat.zero_add]
      rfl
    rw [startAt, stop]
    rcases flat.follows before here with ⟨none, index⟩ | ⟨more, index⟩
    · rw [if_pos (.inr (by rw [none])), index]
    · have under : ¬ (i + 1 = 0 ∨ some (i + 1 + events[i].following) = some (i + 1)) := by
        rw [Option.some.injEq]
        omega
      rw [if_neg under]
      exact started e here (by omega)

omit same in
/-- The start stays known on the way to the next instruction, and past the end of the method none is
under way. -/
theorem Started.next (flat : Flat events) {i start : Nat} {e : Event} (here : events[i]? = some e)
    (found : start + e.index = i) :
    Started events (i + 1) start ∧ Started events (i + 1 + e.following) start := by
  constructor
  · intro e' next later
    rcases flat.follows here next with ⟨_, index⟩ | ⟨_, index⟩
    · omega
    · omega
  · intro e' next later
    have index := flat.index_at_stop here next
    omega

/-- The loop that keeps the start of the method gives each instruction with its index in the
code. -/
theorem scanInContext_stops (flat : Flat events) (visit : Visitor σ Placed) (s : σ) :
    ∃ n start, Loop.Stops (scanInContext? (entriesFrom 0 events) mask visit) ⟨⟨0, s⟩, 0⟩
      ⟨⟨n, visitAfter ops (fun s e => visit s (e.cls, e.method, e.method.code, e.index)) 0 s
        events⟩, start⟩ := by
  let onEvents : Visitor σ Event := fun s e => visit s (e.cls, e.method, e.method.code, e.index)
  let value (c : ContextCursor σ) : σ := visitAfter ops onEvents 0 c.state (events.drop c.index)
  have round (a b : ContextCursor σ) (started : Started events a.index a.start)
      (next : scanInContext? (entriesFrom 0 events) mask visit a = some b) :
      Started events b.index b.start ∧ events.length - b.index < events.length - a.index ∧
        value b = value a := by
    obtain ⟨entry, found, rfl⟩ := Option.map_eq_some_iff.mp next
    obtain ⟨e, here, rfl⟩ := exists_event found
    obtain ⟨inside, _⟩ := List.getElem?_eq_some_iff.mp here
    have start := startAt_add_index flat started here
    have place : (a.index : Int) - startAt (entriesFrom 0 events) a.index a.start = e.index := by
      omega
    obtain ⟨kept, past⟩ := Started.next flat here start
    dsimp only [value]
    rw [visitAfter_at _ _ here, same, place]
    split
    · refine ⟨?_, ?_, rfl⟩
      · dsimp only
        split
        · exact kept
        · exact past
      · dsimp only
        split <;> omega
    · exact ⟨kept, by dsimp only; omega, rfl⟩
  obtain ⟨⟨⟨n, t⟩, start⟩, stops, final⟩ :=
    Loop.exists_stops _ round (a := ⟨⟨0, s⟩, 0⟩) (Started.first flat)
  have final :
      visitAfter ops onEvents 0 t (events.drop n) = visitAfter ops onEvents 0 s events := final
  rw [drop_eq_nil stops.last] at final
  exact ⟨n, start, final ▸ stops⟩

end Refinement

theorem instruction_eventsOf {c : Class} {m : Method} {front rest : List Instruction}
    (split : m.code = front ++ rest) {e : Event} (member : e ∈ eventsOf c m rest) :
    e.method.code[e.index]? = some e.instruction := by
  induction rest generalizing front with
  | nil => contradiction
  | cons i rest ih =>
    rcases List.mem_cons.mp member with rfl | later
    · rw [Event.index_eq split]
      simp [split]
    · exact @ih (front ++ [i]) (by simp [split]) later

theorem instruction_events {classes : List Class} {e : Event}
    (member : e ∈ (Inspector.ofClasses classes).events) :
    e.method.code[e.index]? = some e.instruction := by
  obtain ⟨c, _, inClass⟩ := List.mem_flatMap.mp member
  obtain ⟨m, _, inMethod⟩ := List.mem_flatMap.mp inClass
  exact instruction_eventsOf (List.nil_append m.code).symm inMethod

/-- The place of an instruction, as a visitor with context is given it. -/
structure Shows (visit : Visit) (context : Placed) : Prop where
  cls : context.1 = visit.1
  method : context.2.1 = visit.2.1
  code : context.2.2.1 = visit.2.1.code
  inside : 0 ≤ context.2.2.2
  instruction : context.2.2.1[context.2.2.2.toNat]? = some visit.2.2

/-- The visitor that takes the index as a natural number. -/
def Visitor.counting {σ : Type} (visit : Visitor σ Placed) :
    Visitor σ (Class × Method × List Instruction × Nat) :=
  fun s x => visit s (x.1, x.2.1, x.2.2.1, x.2.2.2)

/-- Both loops over the table end, with the visits of the two traversals. For the same decisions
they make the same visits, and the loop with context shows each instruction in the whole code of its
method. -/
theorem loop_in_context_shows_visits (classes : List Class) (filter : Option (List Opcode))
    (decisions : Nat → Bool) :
    let visits := (Inspector.ofClasses classes).visitOpcodes filter
      (Visitor.deciding decisions).logged.onEvents (0, [])
    let places := (Inspector.ofClasses classes).visitInContext filter
      (Visitor.deciding decisions).logged.counting (0, [])
    (∃ n, Loop.Stops (scan? (tabulate classes) (.ofFilter filter)
      (Visitor.deciding decisions).logged) ⟨0, (0, [])⟩ ⟨n, visits⟩) ∧
    (∃ n start, Loop.Stops (scanInContext? (tabulate classes) (.ofFilter filter)
      (Visitor.deciding decisions).logged) ⟨⟨0, (0, [])⟩, 0⟩ ⟨⟨n, places⟩, start⟩) ∧
    List.Forall₂ Shows visits.2 places.2 := by
  intro visits places
  have same := Mask.has_ofFilter filter
  rw [tabulate_eq]
  refine ⟨scan_stops same _ _, scanInContext_stops same (flat_ofClasses classes) _ _, ?_⟩
  -- The two visitors have made as many calls, and each call so far shows the visit it stands for.
  let alike (s : Nat × List Visit) (t : Nat × List Placed) : Prop :=
    s.1 = t.1 ∧ List.Forall₂ Shows s.2 t.2
  refine (visitAfter_related _ alike (fun e member s t related => ?_) 0 ⟨rfl, .nil⟩).2
  obtain ⟨count, shown⟩ := related
  have shows : Shows (e.cls, e.method, e.instruction) (e.cls, e.method, e.method.code, e.index) :=
    ⟨rfl, rfl, rfl, Int.natCast_nonneg _, instruction_events member⟩
  exact ⟨⟨congrArg (· + 1) count, List.rel_append shown (.cons shows .nil)⟩,
    congrArg decisions count⟩

end TraceLint.Bytecode
