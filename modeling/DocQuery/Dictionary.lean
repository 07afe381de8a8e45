/-!
# Dictionaries in key order

A dictionary is a list of entries in ascending order of their keys, one entry for a key. Texts
are ordered by code point. `insert` keeps the order and replaces the value of a key that is
already there, so every dictionary built by `insert` from the empty one has this form.
-/

namespace DocQuery

abbrev Dictionary (α : Type) := List (String × α)

namespace Dictionary

variable {α : Type}

/-- The value of the first entry with this key. -/
def get? : Dictionary α → String → Option α
  | [], _ => none
  | (name, value) :: rest, key => if name = key then some value else get? rest key

def contains (entries : Dictionary α) (key : String) : Bool :=
  (entries.get? key).isSome

/-- The keys, in order. -/
def keys (entries : Dictionary α) : List String :=
  entries.map Prod.fst

/-- Puts a value in its place in the order; an earlier value of the key is replaced. -/
def insert : Dictionary α → String → α → Dictionary α
  | [], key, value => [(key, value)]
  | (name, held) :: rest, key, value =>
      if key = name then
        (key, value) :: rest
      else if key < name then
        (key, value) :: (name, held) :: rest
      else
        (name, held) :: insert rest key value

/-- The dictionary of a list of pairs, of which the last one with a key counts. -/
def ofList (pairs : List (String × α)) : Dictionary α :=
  pairs.foldl (fun entries pair => entries.insert pair.1 pair.2) []

@[simp] theorem get?_nil (key : String) : get? ([] : Dictionary α) key = none := rfl

theorem mem_keys_iff {entries : Dictionary α} {key : String} :
    key ∈ entries.keys ↔ (entries.get? key).isSome := by
  induction entries with
  | nil => simp [keys]
  | cons entry rest inductionHypothesis =>
      obtain ⟨name, value⟩ := entry
      by_cases same : name = key
      · simp [keys, get?, same]
      · have different : ¬ key = name := fun equal => same equal.symm
        simpa [keys, get?, same, different] using inductionHypothesis

/-- What was put in is found, and every other key keeps its value. -/
theorem get?_insert (entries : Dictionary α) (key : String) (value : α) (sought : String) :
    (entries.insert key value).get? sought =
      if key = sought then some value else entries.get? sought := by
  induction entries with
  | nil => simp [insert, get?]
  | cons entry rest inductionHypothesis =>
      obtain ⟨name, held⟩ := entry
      unfold insert
      split
      · next same => subst same; by_cases h : key = sought <;> simp [get?, h]
      · split
        · simp [get?]
        · next different _ =>
            simp only [get?, inductionHypothesis]
            by_cases h : name = sought
            · subst h; simp [different]
            · simp [h]

end Dictionary

end DocQuery
