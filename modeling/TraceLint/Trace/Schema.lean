import TraceLint.Trace.Draft

/-! The fields of a trace, for any encoding. An encoding says how it reads and writes texts,
numbers, lists and records; which fields there are, in which order and which may be left out is said
here. -/
namespace TraceLint.Trace

/-- A field of a record of type `ρ`, read on top of what the record holds. -/
structure Field (m : Type → Type) (ρ : Type) where
  name : String
  read : ρ → m ρ

/-- How an encoding reads the parts of a trace, in the monad `m` in which it reads. What a field
held before comes first. -/
structure Reader (m : Type → Type) where
  text : Text → m Text
  int : Int64 → m Int64
  bool : Bool → m Bool
  value : Value → m Value
  texts : Option (Slate Text) → m (Option (Slate Text))
  list : {α : Type} → (zero : α) → (α → m α) → Option (Slate α) → m (Option (Slate α))
  optional : {α : Type} → (zero : α) → (α → m α) → Option α → m (Option α)
  record : {α : Type} → (zero : α) → List (Field m α) → α → m α

namespace Reader

variable {m : Type → Type} [Functor m] (r : Reader m)

def arrayFields : List (Field m ArrayRecord) :=
  [⟨"size", fun a => ({ a with size := · }) <$> r.int a.size⟩,
   ⟨"throwableAtLast", fun a => ({ a with throwableAtLast := · }) <$> r.bool a.throwableAtLast⟩]

def slotFields : List (Field m SlotRecord) :=
  [⟨"sig", fun s => ({ s with sig := · }) <$> r.text s.sig⟩,
   ⟨"const", fun s => ({ s with const := · }) <$> r.value s.const⟩,
   ⟨"array", fun s =>
     ({ s with array := · }) <$> r.optional {} (r.record {} r.arrayFields) s.array⟩]

def instructionFields : List (Field m InstructionDraft) :=
  [⟨"pc", fun i => ({ i with pc := · }) <$> r.int i.pc⟩,
   ⟨"line", fun i => ({ i with line := · }) <$> r.int i.line⟩,
   ⟨"op", fun i => ({ i with op := · }) <$> r.text i.op⟩,
   ⟨"owner", fun i => ({ i with owner := · }) <$> r.text i.owner⟩,
   ⟨"name", fun i => ({ i with name := · }) <$> r.text i.name⟩,
   ⟨"desc", fun i => ({ i with desc := · }) <$> r.text i.desc⟩,
   ⟨"stack", fun i => ({ i with stack := · }) <$> r.list {} (r.record {} r.slotFields) i.stack⟩,
   ⟨"want", fun i => ({ i with want := · }) <$> r.texts i.want⟩]

def methodFields : List (Field m MethodDraft) :=
  [⟨"name", fun d => ({ d with name := · }) <$> r.text d.name⟩,
   ⟨"desc", fun d => ({ d with desc := · }) <$> r.text d.desc⟩,
   ⟨"code", fun d => ({ d with code := · }) <$> r.list {} (r.record {} r.instructionFields) d.code⟩]

def classFields : List (Field m ClassDraft) :=
  [⟨"name", fun c => ({ c with name := · }) <$> r.text c.name⟩,
   ⟨"super", fun c => ({ c with super := · }) <$> r.text c.super⟩,
   ⟨"source", fun c => ({ c with source := · }) <$> r.text c.source⟩,
   ⟨"methods", fun c =>
     ({ c with methods := · }) <$> r.list {} (r.record {} r.methodFields) c.methods⟩,
   ⟨"incomplete", fun c => ({ c with incomplete := · }) <$> r.bool c.incomplete⟩]

def fileFields : List (Field m FileDraft) :=
  [⟨"classes", fun f =>
     ({ f with classes := · }) <$> r.list {} (r.record {} r.classFields) f.classes⟩]

def file : m File := FileDraft.finish <$> r.record {} r.fileFields {}

end Reader

/-- How an encoding writes the parts of a trace as documents of type `δ`. -/
structure Writer (δ : Type) where
  text : Text → δ
  int : Int64 → δ
  bool : Bool → δ
  value : Value → δ
  /-- Whether a constant is left out of its record. -/
  omits : Value → Bool
  list : Option (List δ) → δ
  record : List (String × δ) → δ

namespace Writer

variable {δ : Type} (w : Writer δ)

/-- A text that is left out when empty. -/
def textUnlessEmpty (name : String) (s : Text) : List (String × δ) :=
  if s = [] then [] else [(name, w.text s)]

def intUnlessZero (name : String) (n : Int64) : List (String × δ) :=
  if n = 0 then [] else [(name, w.int n)]

def boolIfTrue (name : String) (b : Bool) : List (String × δ) :=
  if b then [(name, w.bool true)] else []

/-- A list that is left out when absent or empty. -/
def listUnlessEmpty (name : String) (items : List δ) : List (String × δ) :=
  if items.isEmpty then [] else [(name, w.list (some items))]

/-- The document of a list, which may be absent. -/
def all {α : Type} (f : α → δ) (xs : Option (List α)) : δ := w.list (xs.map fun xs => xs.map f)

def array (a : ArrayRecord) : δ :=
  w.record (("size", w.int a.size) :: w.boolIfTrue "throwableAtLast" a.throwableAtLast)

def slot (s : SlotRecord) : δ :=
  let const := if w.omits s.const then [] else [("const", w.value s.const)]
  let tag := match s.array with
    | some a => [("array", w.array a)]
    | none => []
  w.record (w.textUnlessEmpty "sig" s.sig ++ const ++ tag)

def instruction (i : InstructionRecord) : δ :=
  w.record (("pc", w.int i.pc) :: w.intUnlessZero "line" i.line ++ ("op", w.text i.op) ::
    w.textUnlessEmpty "owner" i.owner ++ w.textUnlessEmpty "name" i.name ++
    w.textUnlessEmpty "desc" i.desc ++ w.listUnlessEmpty "stack" ((i.stack.getD []).map w.slot) ++
    w.listUnlessEmpty "want" ((i.want.getD []).map w.text))

def method (m : MethodRecord) : δ :=
  w.record [("name", w.text m.name), ("desc", w.text m.desc), ("code", w.all w.instruction m.code)]

def cls (c : ClassRecord) : δ :=
  w.record (("name", w.text c.name) :: w.textUnlessEmpty "super" c.super ++
    w.textUnlessEmpty "source" c.source ++ ("methods", w.all w.method c.methods) ::
    w.boolIfTrue "incomplete" c.incomplete)

def file (f : File) : δ := w.record [("classes", w.all w.cls f.classes)]

end Writer

end TraceLint.Trace
