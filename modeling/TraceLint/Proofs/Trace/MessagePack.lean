import Mathlib.Data.List.Perm.Subperm
import TraceLint.Proofs.MessagePack.Heads
import TraceLint.Proofs.Trace.Schema
import TraceLint.Trace.Codec

/-! Traces that are written as MessagePack and read again. -/
namespace TraceLint.Trace

open MessagePack (Item Head Opens)

namespace FromMessagePack

variable {α β : Type}

theorem run_bind {x : Reading α} {s s' : Text} {a : α} (ran : x s = .ok (a, s'))
    (f : α → Reading β) :
    (x >>= f) s = f a s' := by
  simp [bind, StateT.bind, ran, Except.bind]

theorem map_run {x : Reading α} {s s' : Text} {a : α} (g : α → β) (ran : x s = .ok (a, s')) :
    (g <$> x) s = .ok (g a, s') := by
  simp [Functor.map, StateT.map, ran, bind, Except.bind, pure, Except.pure]

section

variable {bytes : Text}

theorem head_opens {h : Head} (opens : Opens bytes h) (rest : Text) :
    head (bytes ++ rest) = .ok (h, rest) := by
  obtain ⟨b, tail, used, starts, read, after⟩ := opens rest
  rw [starts, head, read]
  simp only [after]

theorem item_opens {i : Item} (opens : Opens bytes (.item i)) (rest : Text) :
    item (bytes ++ rest) = .ok (i, rest) := by
  obtain ⟨b, tail, used, starts, read, after⟩ := opens rest
  have whole : MessagePack.read? (b :: tail) = some (i, rest) := by
    rw [MessagePack.read?, MessagePack.readAfter, read]
    simp only [MessagePack.enter, MessagePack.settle, after]
  rw [starts, item, whole]

theorem take_opens {i : Item} (opens : Opens bytes (.item i)) (f : Item → Option α) {x : α}
    (fits : f i = some x) (rest : Text) : take f (bytes ++ rest) = .ok (x, rest) := by
  rw [take, run_bind (item_opens opens rest), fits]
  rfl

end

theorem items_run {zero : α} {one : α → Reading α} {docs : List Item} {xs : List α}
    (each : List.Forall₂ (fun d x => ∀ rest, one zero (d.write ++ rest) = .ok (x, rest)) docs xs)
    (rest : Text) :
    items zero one xs.length [] (Item.writeItems docs ++ rest) = .ok (xs, rest) := by
  induction each with
  | nil => rfl
  | cons first _ ih =>
    rw [Item.writeItems, List.append_assoc, List.length_cons, items]
    rw [List.headD_nil, run_bind (first _), List.tail_nil, run_bind ih]
    rfl

end FromMessagePack

theorem mapHead_not_null (n : Nat) (s : Text) : (MessagePack.mapHead n ++ s).head? ≠ some 0xc0 := by
  have short : ∀ n < 0x10, (0x80 + n).toUInt8 ≠ 0xc0 := by decide
  unfold MessagePack.mapHead
  split
  · rename_i few
    simpa using short n few
  split <;> simp

open FromMessagePack

/-- MessagePack: what is read of the bytes of a document leaves the bytes after it. -/
def packed : Encoding Reading Item where
  reader := FromMessagePack.reader
  writer := ToMessagePack.writer
  Yields := fun _ d reading x => ∀ rest, reading (d.write ++ rest) = .ok (x, rest)

/-- Lengths take at most four bytes. A constant is unknown or a text. -/
def packedLimits : Limits where
  text := fun s => s.length < 0x100000000
  count := fun n => n < 0x100000000
  constant := fun v => v = .null ∨ ∃ s, v = .text s ∧ s.length < 0x100000000

namespace packed

theorem short_vocabulary : ∀ a ∈ vocabulary, (text a).length < 0x100000000 := by
  decide

/-- The entry of a member. -/
def entry (member : String × Item) : Item × Item := (.str (text member.1), member.2)

theorem namedFields_run {ρ : Type} {all fields : List (Field Reading ρ)}
    (named : Encoding.Named all) (part : fields ⊆ all) {height : Nat} {x y : ρ}
    {members : List (String × Item)} (fills : packed.Fills height fields x members y)
    (rest : Text) :
    namedFields all members.length x (Item.writeEntries (members.map entry) ++ rest) =
      .ok (y, rest) := by
  induction fills with
  | nil => rfl
  | skip _ ih => exact ih (List.subset_of_cons_subset part)
  | @read f fields x y z d members yields _ ih =>
    have member : f ∈ all := part List.mem_cons_self
    have known := named.known f member
    have found : all.find? (fun g => text g.name = text f.name) = some f := by
      refine named.find?_eq_some member fun g listed => ?_
      rw [decide_eq_true_iff, text_inj]
    have name (rest : Text) :
        take Item.text? ((Item.str (text f.name)).write ++ rest) = .ok (text f.name, rest) :=
      take_opens (MessagePack.opens_writeText (short_vocabulary _ known)) Item.text? rfl rest
    rw [List.map_cons, entry, Item.writeEntries, List.append_assoc, List.append_assoc,
      List.length_cons, namedFields, run_bind (name _), found]
    dsimp only
    rw [run_bind (yields _)]
    exact ih (List.subset_of_cons_subset part)

theorem length_members {ρ : Type} {fields : List (Field Reading ρ)} {height : Nat} {x y : ρ}
    {members : List (String × Item)} (fills : packed.Fills height fields x members y) :
    members.length ≤ fields.length := by
  induction fills with
  | nil => exact Nat.le_refl _
  | skip _ ih => exact Nat.le_succ_of_le ih
  | read _ _ ih => exact Nat.succ_le_succ ih

theorem record_run {ρ : Type} {zero x y : ρ} {fields : List (Field Reading ρ)} {height : Nat}
    {members : List (String × Item)} (named : Encoding.Named fields)
    (fills : packed.Fills height fields x members y) (rest : Text) :
    record zero fields x ((Item.map (members.map entry)).write ++ rest) = .ok (y, rest) := by
  have few : members.length < 0x100000000 := by
    -- Each member takes a name of its own from the vocabulary.
    have known : fields.map Field.name ⊆ vocabulary := List.forall_mem_map.mpr named.known
    have fewer := (named.distinct.subperm known).length_le
    have least := length_members fills
    rw [List.length_map, show vocabulary.length = 19 from rfl] at fewer
    omega
  have opens := MessagePack.opens_mapHead few
  rw [Item.write, List.length_map, List.append_assoc, record, run_bind (head_opens opens _)]
  exact namedFields_run named (List.Subset.refl _) fills rest

theorem list_run {α : Type} {zero : α} {one : α → Reading α} {docs : List Item} {xs : List α}
    (each : List.Forall₂ (fun d x => ∀ rest, one zero (Item.write d ++ rest) = .ok (x, rest))
      docs xs)
    (size : xs.length < 0x100000000) (rest : Text) :
    list zero one none ((Item.array docs).write ++ rest) = .ok (some (.ofList xs), rest) := by
  have opens := MessagePack.opens_arrayHead size
  rw [Item.write, each.length_eq, List.append_assoc, list, run_bind (head_opens opens _)]
  change (items zero one xs.length [] >>= fun xs => pure (some (Slate.overwrite [] xs))) _ = _
  rw [run_bind (items_run each rest), Slate.overwrite_nil]
  rfl

theorem texts_run {ss : List Text} (short : ∀ s ∈ ss, s.length < 0x100000000)
    (size : ss.length < 0x100000000) (rest : Text) :
    texts none ((Item.array (ss.map Item.str)).write ++ rest) = .ok (some (.ofList ss), rest) := by
  have opens := MessagePack.opens_arrayHead size
  have each :
      List.Forall₂ (fun d s => ∀ rest, take Item.text? (Item.write d ++ rest) = .ok (s, rest))
      (ss.map Item.str) ss := by
    rw [List.forall₂_map_left_iff]
    refine List.forall₂_same.mpr fun s member => ?_
    exact take_opens (MessagePack.opens_writeText (short s member)) Item.text? rfl
  rw [Item.write, List.length_map, List.append_assoc, texts, run_bind (head_opens opens _)]
  change (items [] (fun _ => take Item.text?) ss.length [] >>= fun xs =>
    pure (some (Slate.ofList xs))) _ = _
  rw [run_bind (items_run each rest)]
  rfl

theorem optional_run {α : Type} {zero x : α} {one : α → Reading α} {entries : List (Item × Item)}
    {rest : Text} (ran : one zero ((Item.map entries).write ++ rest) = .ok (x, rest)) :
    optional zero one none ((Item.map entries).write ++ rest) = .ok (some x, rest) := by
  have other : null ((Item.map entries).write ++ rest) =
      .ok (false, (Item.map entries).write ++ rest) := by
    rw [null, if_neg]
    rw [Item.write, List.append_assoc]
    exact mapHead_not_null _ _
  rw [FromMessagePack.optional, run_bind other]
  exact map_run some ran

theorem constant_run {v : Value} (plain : packedLimits.constant v)
    (written : ToMessagePack.isZero v = false) (rest : Text) :
    value .null ((Item.ofValue v).write ++ rest) = .ok (v, rest) := by
  obtain rfl | ⟨s, rfl, short⟩ := plain
  · contradiction
  · rw [value]
    exact map_run Item.value (item_opens (MessagePack.opens_writeText short) rest)

theorem faithful : packed.Faithful packedLimits where
  map g yields rest := map_run g (yields rest)
  text _ short rest := take_opens (MessagePack.opens_writeText short) Item.text? rfl rest
  int _ n rest := by
    obtain ⟨i, opens, denotes⟩ := MessagePack.opens_shortest n
    refine take_opens opens int? ?_ rest
    cases denotes with
    | int width => exact congrArg some (Int64.ofInt_toInt n)
    | uint width same =>
      rw [int?, same]
      exact congrArg some (Int64.ofInt_toInt n)
  bool _ b rest := take_opens (MessagePack.opens_bool b) bool? rfl rest
  constant plain written rest := constant_run plain written rest
  texts short size rest := texts_run short size rest
  absent zero one rest := run_bind (head_opens MessagePack.opens_null rest) _
  list each size rest := list_run each size rest
  optional ran rest := optional_run (ran rest)
  record named fills rest := record_run named fills rest

end packed

/-- Within the limits, MessagePack gives back all of a trace but the constants that are the zero of
their type. -/
theorem decode_encodeMessagePack {f : File} (within : f.Within packedLimits) :
    decode .messagePack (encodeMessagePack f) = .ok (f.recorded ToMessagePack.isZero).compact := by
  have read : reader.file (encodeMessagePack f ++ []) =
      .ok ((f.recorded ToMessagePack.isZero).compact, []) :=
    packed.faithful.yields_file 0 within []
  rw [List.append_nil] at read
  simp [decode, decodeMessagePack, StateT.run, read, Except.map]

end TraceLint.Trace
