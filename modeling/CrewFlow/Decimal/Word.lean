/-!
# Words

The whole numbers that fit in a binary word of some width, with and without a sign.
-/
namespace CrewFlow.Decimal.Word

def size (width : Nat) : Nat := Nat.pow 2 width

def least (width : Nat) : Int := -(size (width - 1) : Int)

def greatest (width : Nat) : Int := (size (width - 1) : Int) - 1

end CrewFlow.Decimal.Word
