import PanelSearch.Entries

/-! What the service counts: batches by their outcome, and queries that were answered with an
error. -/

namespace PanelSearch

/-- What made a query fail. -/
inductive ErrorKind where
  /-- A query of its batch is invalid. -/
  | validation
  /-- The time field of the index cannot be told. -/
  | metadata
  /-- The search engine refused the batch or could not be reached. -/
  | engine
  /-- The response to the query reports an error. -/
  | response
  | other (name : String)
  deriving DecidableEq, Repr

def ErrorKind.ofName (name : String) : ErrorKind :=
  match name with
  | "validation" => .validation
  | "metadata" => .metadata
  | "upstream" => .engine
  | "response" => .response
  | name => .other name

def ErrorKind.name : ErrorKind → String
  | validation => "validation"
  | metadata => "metadata"
  | engine => "upstream"
  | response => "response"
  | other name => name

/-- The counts since the service began. -/
structure Tally where
  /-- Batches that were answered. -/
  answered : Nat := 0
  /-- Batches that were refused or got no reply. -/
  refused : Nat := 0
  /-- The number of searches in the last batch. -/
  lastBatch : Nat := 0
  /-- Queries answered with an error, by what made them fail. -/
  errors : Entries Nat := []
  deriving DecidableEq, Repr

namespace Tally

def batches (t : Tally) : Nat := t.answered + t.refused

def errorsOf (t : Tally) (kind : ErrorKind) : Nat := (t.errors.get? kind.name).getD 0

def allErrors (t : Tally) : Nat := t.errors.foldl (fun n e => n + e.2) 0

def countBatch (t : Tally) (isAnswered : Bool) (size : Nat) : Tally :=
  if isAnswered then { t with answered := t.answered + 1, lastBatch := size }
  else { t with refused := t.refused + 1, lastBatch := size }

/-- The counts after some queries failed. Nothing is written down for none. -/
def countErrors (t : Tally) (kind : ErrorKind) (count : Nat) : Tally :=
  if count = 0 then t
  else { t with errors := t.errors.put kind.name (t.errorsOf kind + count) }

@[simp] theorem answered_countErrors (t : Tally) (kind : ErrorKind) (count : Nat) :
    (t.countErrors kind count).answered = t.answered := by
  unfold countErrors
  split <;> rfl

@[simp] theorem refused_countErrors (t : Tally) (kind : ErrorKind) (count : Nat) :
    (t.countErrors kind count).refused = t.refused := by
  unfold countErrors
  split <;> rfl

@[simp] theorem lastBatch_countErrors (t : Tally) (kind : ErrorKind) (count : Nat) :
    (t.countErrors kind count).lastBatch = t.lastBatch := by
  unfold countErrors
  split <;> rfl

@[simp] theorem errors_countBatch (t : Tally) (isAnswered : Bool) (size : Nat) :
    (t.countBatch isAnswered size).errors = t.errors := by
  cases isAnswered <;> rfl

end Tally

end PanelSearch
