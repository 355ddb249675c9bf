namespace RowProjection.KeyOrder

variable {α : Type}

/-- Puts an entry into its place by the code points of its key; a repeated key keeps the new
value. -/
def insert (key : String) (value : α) : List (String × α) → List (String × α)
  | [] => [(key, value)]
  | (head, current) :: rest =>
    if key = head then (key, value) :: rest
    else if key < head then (key, value) :: (head, current) :: rest
    else (head, current) :: insert key value rest

/-- The entries in order; of a repeated key the last counts. -/
def ofList (entries : List (String × α)) : List (String × α) :=
  entries.foldl (fun sorted (key, value) => insert key value sorted) []

end RowProjection.KeyOrder
