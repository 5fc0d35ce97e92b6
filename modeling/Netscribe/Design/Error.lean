/-!
# What can be wrong with a design

* `DesignError` — the causes for which a design is refused.
* `DesignError.message` — the text shown for each.
-/

namespace Netscribe

/-- **A cause for refusing a design.** -/
inductive DesignError where
  /-- A reference to a net that does not exist. -/
  | unknownNet (circuit : String) (net : UInt32)
  /-- A reference to a bit outside its net. -/
  | bitOutOfRange (circuit : String) (net bit width : UInt32)
  /-- A reference to a circuit that does not exist. -/
  | unknownCircuit (id : UInt32)
  /-- A circuit that instantiates itself, directly or through others. -/
  | cyclicHierarchy (circuit : String)
  | zeroWidth (circuit : String) (net : Nat)
  /-- A view whose last bit has no place in any net. -/
  | viewPastEnd (circuit : String) (net : Nat) (parent : UInt32)
  /-- A component in a list where its kind does not belong. -/
  | misplaced (circuit label list : String)
  deriving DecidableEq

/-- The text shown for a cause. -/
def DesignError.message : DesignError → String
  | .unknownNet circuit net => "circuit '" ++ circuit ++ "': reference to unknown net " ++ toString net
  | .bitOutOfRange circuit net bit width =>
    "circuit '" ++ circuit ++ "': bit " ++ toString bit ++ " is out of range for net " ++
      toString net ++ " of width " ++ toString width
  | .unknownCircuit id => "reference to unknown circuit " ++ toString id
  | .cyclicHierarchy circuit => "circuit '" ++ circuit ++ "' instantiates itself"
  | .zeroWidth circuit net => "circuit '" ++ circuit ++ "': net " ++ toString net ++ " has zero width"
  | .viewPastEnd circuit net parent =>
    "circuit '" ++ circuit ++ "': net " ++ toString net ++ " views past the end of net " ++
      toString parent
  | .misplaced circuit label list =>
    "circuit '" ++ circuit ++ "': component '" ++ label ++ "' does not belong among the " ++ list

end Netscribe
