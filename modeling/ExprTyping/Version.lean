import ExprTyping.Text.Basic

/-!
# Version

What the tool says about itself.
-/

namespace ExprTyping.Version

/-- The major version. -/
def major : Nat := 0

/-- The minor version. -/
def minor : Nat := 1

/-- The patch version. -/
def patch : Nat := 0

/-- The name of the tool and its version. -/
def short : Text :=
  "exprcheck " ++ Text.join "." [Text.ofNat major, Text.ofNat minor, Text.ofNat patch]

/-- The copyright in a year. -/
def copyright (year : Int) : Text :=
  "Copyright (C) " ++ Text.ofInt year

/-- The version with the copyright. -/
def full (year : Int) : Text :=
  short ++ " " ++ copyright year

end ExprTyping.Version
