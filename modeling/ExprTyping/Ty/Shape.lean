import ExprTyping.Ty.Error

/-!
# Matrix shapes

Sums and differences need equal shapes; a product needs as many columns on the left as there are
rows on the right.
-/

namespace ExprTyping.Shape

variable {β : Type} [Bound β]

/-- The shape with these dimensions, if both are positive. -/
def make? (rows cols : Int) : Option Shape :=
  if rows ≤ 0 || cols ≤ 0 then none else some ⟨rows, cols⟩

/-- Two shapes do not fit an operation. -/
def mismatch (op : String) (a b : Shape) : TypeError β :=
  .onOperands .shapeMismatch op [some (.matrix a), some (.matrix b)]

/-- The shape of an operation that works entry by entry. -/
def entrywise (op : String) (a b : Shape) : Except (TypeError β) Shape :=
  if a = b then .ok a else .error (mismatch op a b)

/-- The shape of a sum. -/
def add (a b : Shape) : Except (TypeError β) Shape :=
  entrywise "add" a b

/-- The shape of a difference. -/
def sub (a b : Shape) : Except (TypeError β) Shape :=
  entrywise "sub" a b

/-- The shape of a product. -/
def mul (a b : Shape) : Except (TypeError β) Shape :=
  if a.cols = b.rows then .ok ⟨a.rows, b.cols⟩ else .error (mismatch "mul" a b)

end ExprTyping.Shape
