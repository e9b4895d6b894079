import QueryValidator.Text

/-!
# Aggregates of a model

A model supports an aggregate if the document declares an input type for it, named by the model, the
aggregate and `AggregateInput`.
-/

namespace QueryValidator

inductive Aggregate where
  | count
  | min
  | max
  | avg
  | sum
deriving DecidableEq, Repr

namespace Aggregate

/-- In the order of their clauses. -/
def all : List Aggregate := [.count, .min, .max, .avg, .sum]

def label : Aggregate → Text
  | .count => "Count"
  | .min => "Min"
  | .max => "Max"
  | .avg => "Avg"
  | .sum => "Sum"

/-- The key of the aggregate among the arguments of an operation. -/
def clause : Aggregate → Text
  | .count => "_count"
  | .min => "_min"
  | .max => "_max"
  | .avg => "_avg"
  | .sum => "_sum"

theorem map_clause : all.map clause = ["_count".toList, "_min", "_max", "_avg", "_sum"] :=
  rfl

def ofLabel? (t : Text) : Option Aggregate :=
  all.find? fun a => a.label == t

/-- What follows the model in the name of the aggregate's input type. -/
def inputEnding (a : Aggregate) : Text :=
  a.label ++ "AggregateInput"

/-- The model and the aggregate that an input type belongs to. -/
def ofInputName? (name : Text) : Option (Text × Aggregate) := do
  let head ← Text.dropEnding? "AggregateInput" name
  let (model, a) ← all.findSome? fun a => (Text.dropEnding? a.label head).map (·, a)
  if model.isEmpty then none else some (model, a)

/-- The aggregates of `model` that some of the input types is for, in the order of their clauses. -/
def supported (inputNames : List Text) (model : Text) : List Aggregate :=
  let declared := inputNames.filterMap ofInputName?
  all.filter fun a => declared.contains (model, a)

end Aggregate

end QueryValidator
