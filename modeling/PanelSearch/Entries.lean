/-! Dictionaries from texts that keep the order in which their keys came: a key that is written
again keeps its place and takes the new value. -/

namespace PanelSearch

/-- The entries of a dictionary, in order. Every operation here keeps the keys distinct. -/
abbrev Entries (α : Type) := List (String × α)

namespace Entries

variable {α : Type}

def get? : Entries α → String → Option α
  | [], _ => none
  | (k, v) :: rest, key => if k = key then some v else get? rest key

/-- The dictionary with a value under a key: in the key's place if it has one, else at the end. -/
def put : Entries α → String → α → Entries α
  | [], key, value => [(key, value)]
  | (k, v) :: rest, key, value =>
    if k = key then (k, value) :: rest else (k, v) :: put rest key value

/-- The dictionary with all entries of another one written into it, in their order. -/
def putAll (es new : Entries α) : Entries α := new.foldl (fun es (k, v) => put es k v) es

/-- The dictionary that a list of entries denotes: of equal keys the first gives the place and the
last gives the value. -/
def ofList (pairs : List (String × α)) : Entries α := putAll [] pairs

/-- The keys, in order. -/
def keys (es : Entries α) : List String := es.map (·.1)

def has (es : Entries α) (key : String) : Bool := (get? es key).isSome

def mapValues {β : Type} (f : α → β) (es : Entries α) : Entries β := es.map fun (k, v) => (k, f v)

def charsLe : List Char → List Char → Bool
  | [], _ => true
  | _ :: _, [] => false
  | a :: as, b :: bs => if a = b then charsLe as bs else decide (a.toNat < b.toNat)

def keyLe (a b : String) : Bool := charsLe a.toList b.toList

def sortedKeys (es : Entries α) : List String := (keys es).mergeSort keyLe

@[simp] theorem get?_nil (key : String) : get? ([] : Entries α) key = none := rfl

theorem get?_put (es : Entries α) (key other : String) (value : α) :
    get? (put es key value) other = if other = key then some value else get? es other := by
  induction es with
  | nil => simp [put, get?, eq_comm]
  | cons e rest ih =>
    obtain ⟨k, v⟩ := e
    by_cases hk : k = key
    · by_cases ho : other = key <;> simp_all [put, get?, eq_comm]
    · by_cases ho : k = other <;> simp_all [put, get?]

theorem keys_put (es : Entries α) (key : String) (value : α) :
    keys (put es key value) = if key ∈ keys es then keys es else keys es ++ [key] := by
  induction es with
  | nil => simp [put, keys]
  | cons e rest ih =>
    obtain ⟨k, v⟩ := e
    by_cases hk : k = key
    · simp [put, keys, hk]
    · simp only [put, hk, if_false, keys, List.map_cons, List.mem_cons] at ih ⊢
      rw [ih]
      by_cases hm : key ∈ rest.map (·.1) <;> simp [hm, Ne.symm hk]

end Entries

end PanelSearch
