/-!
# Allowances

Those who wait for things take turns. A wait whose end has come does not end the turn, but only so many
waits may end in one turn; then the turn is spent, and whoever has it goes on in the next one.
-/
namespace CrewFlow.Rate

/-- How many waits may still end in a turn. -/
abbrev Allowance := Nat

def Allowance.full : Allowance := 128

end CrewFlow.Rate
