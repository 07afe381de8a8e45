/-!
# Finite sets of names

A set of names is an ascending list without repetitions.
-/

namespace DocQuery

/-- Names in ascending order, each once. -/
abbrev NameSet := List String

namespace NameSet

def insert : NameSet → String → NameSet
  | [], name => [name]
  | first :: rest, name =>
      if name = first then first :: rest
      else if name < first then name :: first :: rest
      else first :: insert rest name

def insertAll (set : NameSet) (names : List String) : NameSet :=
  names.foldl insert set

def ofList (names : List String) : NameSet :=
  insertAll [] names

/-- A set with a name added has that name and those it had. -/
theorem mem_insert {set : NameSet} {name sought : String} :
    sought ∈ insert set name ↔ sought = name ∨ sought ∈ set := by
  induction set with
  | nil => simp [insert]
  | cons first rest inductionHypothesis =>
      unfold insert
      split
      · next same => subst same; simp
      · split
        · simp
        · simp only [List.mem_cons, inductionHypothesis]
          constructor <;> rintro (h | h | h) <;> simp [h]

end NameSet

end DocQuery
