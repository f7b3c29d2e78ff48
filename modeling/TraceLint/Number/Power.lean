/-! Powers of the two bases that numbers are kept and written in. -/
namespace TraceLint.Number

abbrev twoTo (n : Nat) : Nat := Nat.pow 2 n

abbrev tenTo (n : Nat) : Nat := Nat.pow 10 n

end TraceLint.Number
