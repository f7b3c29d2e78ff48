import TraceLint.Descriptor
import TraceLint.Stack.Basic

/-! The class hierarchy: which class each known class extends. -/
namespace TraceLint

/-- Super links. The first link of a class counts, so a later record shadows an earlier one. -/
structure Hierarchy where
  links : List (Text × Text)
deriving DecidableEq

namespace Hierarchy

/-- Exception classes of the platform library with their super classes. -/
def platform : List (Text × Text) :=
  [("java/lang/Throwable", "java/lang/Object"),
   ("java/lang/Exception", "java/lang/Throwable"),
   ("java/lang/Error", "java/lang/Throwable"),
   ("java/lang/RuntimeException", "java/lang/Exception"),
   ("java/lang/IllegalArgumentException", "java/lang/RuntimeException"),
   ("java/lang/IllegalStateException", "java/lang/RuntimeException"),
   ("java/lang/NullPointerException", "java/lang/RuntimeException"),
   ("java/lang/UnsupportedOperationException", "java/lang/RuntimeException"),
   ("java/lang/IndexOutOfBoundsException", "java/lang/RuntimeException"),
   ("java/lang/ArrayIndexOutOfBoundsException", "java/lang/IndexOutOfBoundsException"),
   ("java/lang/ClassCastException", "java/lang/RuntimeException"),
   ("java/lang/ArithmeticException", "java/lang/RuntimeException"),
   ("java/lang/NumberFormatException", "java/lang/IllegalArgumentException"),
   ("java/lang/InterruptedException", "java/lang/Exception"),
   ("java/lang/ReflectiveOperationException", "java/lang/Exception"),
   ("java/lang/ClassNotFoundException", "java/lang/ReflectiveOperationException"),
   ("java/lang/CloneNotSupportedException", "java/lang/Exception"),
   ("java/lang/AssertionError", "java/lang/Error"),
   ("java/lang/OutOfMemoryError", "java/lang/VirtualMachineError"),
   ("java/lang/StackOverflowError", "java/lang/VirtualMachineError"),
   ("java/lang/VirtualMachineError", "java/lang/Error"),
   ("java/io/IOException", "java/lang/Exception"),
   ("java/io/FileNotFoundException", "java/io/IOException"),
   ("java/io/UncheckedIOException", "java/lang/RuntimeException"),
   ("java/util/NoSuchElementException", "java/lang/RuntimeException"),
   ("java/util/ConcurrentModificationException", "java/lang/RuntimeException"),
   ("java/util/concurrent/ExecutionException", "java/lang/Exception"),
   ("java/util/concurrent/TimeoutException", "java/lang/Exception")].map
    fun (cls, super) => (text cls, text super)

def initial : Hierarchy := ⟨platform⟩

/-- Records that a class extends another. A record with an empty name is void. -/
def add (h : Hierarchy) (cls super : Text) : Hierarchy :=
  if cls = [] ∨ super = [] then h else ⟨(cls, super) :: h.links⟩

def super? (h : Hierarchy) (cls : Text) : Option Text := h.links.lookup cls

/-- Whether `ancestor` is met within `steps` super links of a class. -/
def reaches (h : Hierarchy) (ancestor : Text) : Nat → Text → Bool
  | 0, cls => cls = ancestor
  | steps + 1, cls =>
    cls = ancestor || match h.super? cls with
      | some super => h.reaches ancestor steps super
      | none => false

/-- Whether a class is `ancestor` or extends it, as far as is known. As many steps as there are
links suffice: a longer walk meets a class twice, and from there on only repeats itself. -/
def isSubclass (h : Hierarchy) (cls ancestor : Text) : Bool :=
  cls ≠ [] && h.reaches ancestor h.links.length cls

def throwableClass : Text := text "java/lang/Throwable"

/-- Whether the static type of a slot is a throwable class. A slot of unknown type is not. -/
def isThrowable (h : Hierarchy) : Option Stack.Slot → Bool
  | none => false
  | some slot => h.isSubclass (Descriptor.FieldType.className slot.signature) throwableClass

end Hierarchy

end TraceLint
