/-!
# Cutting a text at a separator

`pieces` cuts at every occurrence of one character, so that the number of pieces is one more
than the number of separators and `List.intercalate` puts the text together again.
-/

namespace DocQuery.Text

/-- The parts of a text between the occurrences of `separator`; the empty text is one
empty piece. -/
def pieces (separator : Char) : List Char → List (List Char)
  | [] => [[]]
  | c :: rest =>
      if c = separator then
        [] :: pieces separator rest
      else
        match pieces separator rest with
        | [] => [[c]]
        | first :: others => (c :: first) :: others

def split (separator : Char) (text : String) : List String :=
  (pieces separator text.toList).map String.ofList

theorem pieces_ne_nil (separator : Char) (text : List Char) :
    pieces separator text ≠ [] := by
  cases text with
  | nil => simp [pieces]
  | cons c rest =>
      unfold pieces
      split
      · simp
      · split <;> simp

/-- The pieces with separators between them are the text. -/
theorem intercalate_pieces (separator : Char) (text : List Char) :
    [separator].intercalate (pieces separator text) = text := by
  induction text with
  | nil => simp [pieces]
  | cons c rest inductionHypothesis =>
      unfold pieces
      split
      · next same =>
          rw [List.intercalate_cons_of_ne_nil (pieces_ne_nil separator rest),
            inductionHypothesis, same]
          rfl
      · split
        · next noPieces => exact absurd noPieces (pieces_ne_nil separator rest)
        · next first others cut =>
            rw [List.intercalate_cons_cons_left, ← cut, inductionHypothesis]

theorem split_ne_nil (separator : Char) (text : String) : split separator text ≠ [] := by
  simp [split, pieces_ne_nil]

/-- The parts of a path, with points between them, are the path. -/
theorem intercalate_split_point (path : String) :
    String.intercalate "." (split '.' path) = path := by
  apply String.toList_injective
  rw [String.toList_intercalate, split, List.map_map]
  have asLists : String.toList ∘ String.ofList = id := by
    funext text
    simp
  rw [asLists, List.map_id]
  exact intercalate_pieces '.' path.toList

end DocQuery.Text
