import DocQuery.Text.Blank
import DocQuery.Text.Pieces
import Mathlib.Tactic.Common

/-!
# Where a text is cut

A stretch of characters of one kind ends where the text behind it begins with another kind, a
text that neither begins nor ends with a blank is not trimmed, and a separator between two texts
keeps their pieces apart. The text of a number tells which number it is.
-/

namespace DocQuery.Text

section Stretch

variable {keep : Char → Bool} {word rest : List Char}

theorem takeWhile_append_of_stops (kept : ∀ c ∈ word, keep c = true)
    (stops : ∀ c ∈ rest.head?, keep c = false) : (word ++ rest).takeWhile keep = word := by
  rw [List.takeWhile_append_of_pos kept]
  cases rest with
  | nil =>
      simp
  | cons c others =>
      have stopsAt : keep c = false := stops c rfl
      simp [stopsAt]

theorem dropWhile_append_of_stops (kept : ∀ c ∈ word, keep c = true)
    (stops : ∀ c ∈ rest.head?, keep c = false) : (word ++ rest).dropWhile keep = rest := by
  rw [List.dropWhile_append_of_pos kept]
  cases rest with
  | nil =>
      simp
  | cons c others =>
      have stopsAt : keep c = false := stops c rfl
      simp [stopsAt]

end Stretch

/-- The text has a first and a last character, and neither is blank. -/
structure Bare (text : List Char) : Prop where
  head : ∃ c ∈ text.head?, isBlank c = false
  last : ∃ c ∈ text.getLast?, isBlank c = false

namespace Bare

variable {first second text : List Char}

theorem ne_nil (bare : Bare text) : text ≠ [] := by
  rintro rfl
  obtain ⟨c, found, _⟩ := bare.head
  cases found

theorem of_all (nonempty : text ≠ []) (visible : ∀ c ∈ text, isBlank c = false) : Bare text := by
  refine ⟨⟨text.head nonempty, List.head_mem_head? nonempty, ?_⟩,
    ⟨text.getLast nonempty, List.getLast_mem_getLast? nonempty, ?_⟩⟩
  · exact visible _ (List.head_mem nonempty)
  · exact visible _ (List.getLast_mem nonempty)

/-- Only the ends count. -/
theorem append (firstBare : Bare first) (between : List Char) (secondBare : Bare second) :
    Bare (first ++ between ++ second) := by
  obtain ⟨c, isFirst, visible⟩ := firstBare.head
  obtain ⟨d, isLast, lastVisible⟩ := secondBare.last
  refine ⟨⟨c, ?_, visible⟩, ⟨d, ?_, lastVisible⟩⟩
  · rw [List.append_assoc, List.head?_append, isFirst]
    rfl
  · rw [List.getLast?_append, isLast]
    rfl

theorem dropWhile_eq (bare : Bare text) : text.dropWhile isBlank = text := by
  obtain ⟨c, isFirst, visible⟩ := bare.head
  obtain ⟨others, rfl⟩ := List.head?_eq_some_iff.mp isFirst
  simp [visible]

theorem reverse (bare : Bare text) : Bare text.reverse := by
  obtain ⟨head, last⟩ := bare
  exact ⟨by rwa [List.head?_reverse], by rwa [List.getLast?_reverse]⟩

theorem trim_eq (bare : Bare text) : trim text = text := by
  rw [trim, bare.dropWhile_eq, trimEnd, bare.reverse.dropWhile_eq, List.reverse_reverse]

end Bare

section Trim

variable {text : List Char}

theorem isPrefix_trim (text : List Char) : trim text <+: text.dropWhile isBlank := by
  rw [trim, trimEnd, ← List.reverse_suffix, List.reverse_reverse]
  exact List.dropWhile_suffix isBlank

theorem mem_of_mem_trim {c : Char} (member : c ∈ trim text) : c ∈ text := by
  have kept : c ∈ text.dropWhile isBlank := (isPrefix_trim text).subset member
  exact (List.dropWhile_suffix isBlank).subset kept

/-- What is left of a text that is trimmed is bare. -/
theorem bare_trim (nonempty : trim text ≠ []) : Bare (trim text) := by
  have visible {line : List Char} (rest : line.dropWhile isBlank ≠ []) :
      isBlank ((line.dropWhile isBlank).head rest) = false := by
    exact List.head_dropWhile_not isBlank rest
  constructor
  · have dropped : text.dropWhile isBlank ≠ [] := by
      intro nothing
      have empty := isPrefix_trim text
      rw [nothing, List.prefix_nil] at empty
      exact nonempty empty
    refine ⟨(trim text).head nonempty, List.head_mem_head? nonempty, ?_⟩
    rw [(isPrefix_trim text).head nonempty]
    exact visible dropped
  · have reversed : (text.dropWhile isBlank).reverse.dropWhile isBlank ≠ [] := by
      intro nothing
      exact nonempty (by simp [trim, trimEnd, nothing])
    refine ⟨(trim text).getLast nonempty, List.getLast_mem_getLast? nonempty, ?_⟩
    have isLast : (trim text).getLast nonempty =
        ((text.dropWhile isBlank).reverse.dropWhile isBlank).head reversed := by
      simp only [trim, trimEnd, List.getLast_reverse]
    rw [isLast]
    exact visible reversed

end Trim

section Pieces

variable {separator : Char}

theorem pieces_of_not_mem {text : List Char} (whole : separator ∉ text) :
    pieces separator text = [text] := by
  induction text with
  | nil =>
      rfl
  | cons c rest inductionHypothesis =>
      have different : c ≠ separator := fun same => whole (same ▸ List.mem_cons_self)
      have restWhole : separator ∉ rest := fun member => whole (List.mem_cons_of_mem c member)
      rw [pieces, if_neg different, inductionHypothesis restWhole]

theorem mem_iff_exists_mem_pieces {c : Char} (different : c ≠ separator) (text : List Char) :
    c ∈ text ↔ ∃ piece ∈ pieces separator text, c ∈ piece := by
  induction text with
  | nil =>
      simp [pieces]
  | cons d rest inductionHypothesis =>
      rw [List.mem_cons, inductionHypothesis, pieces]
      by_cases same : d = separator
      · subst same
        simp [different]
      · rw [if_neg same]
        cases cut : pieces separator rest with
        | nil =>
            exact absurd cut (pieces_ne_nil separator rest)
        | cons first others =>
            simp [or_assoc]

theorem pieces_append_separator (first second : List Char) :
    pieces separator (first ++ separator :: second) =
      pieces separator first ++ pieces separator second := by
  induction first with
  | nil =>
      simp [pieces]
  | cons c rest inductionHypothesis =>
      rw [List.cons_append, pieces, pieces, inductionHypothesis]
      by_cases same : c = separator
      · rw [if_pos same, if_pos same, List.cons_append]
      · rw [if_neg same, if_neg same]
        cases cut : pieces separator rest with
        | nil =>
            exact absurd cut (pieces_ne_nil separator rest)
        | cons firstPiece otherPieces =>
            rfl

/-- The separator is in no piece. -/
theorem not_mem_of_mem_pieces {text piece : List Char} (member : piece ∈ pieces separator text) :
    separator ∉ piece := by
  induction text generalizing piece with
  | nil =>
      have empty : piece = [] := by
        simpa [pieces] using member
      simp [empty]
  | cons c rest inductionHypothesis =>
      rw [pieces] at member
      by_cases same : c = separator
      · rw [if_pos same] at member
        rcases List.mem_cons.mp member with empty | later
        · simp [empty]
        · exact inductionHypothesis later
      · rw [if_neg same] at member
        cases cut : pieces separator rest with
        | nil =>
            exact absurd cut (pieces_ne_nil separator rest)
        | cons first others =>
            rw [cut] at member inductionHypothesis
            have firstWhole := inductionHypothesis List.mem_cons_self
            rcases List.mem_cons.mp member with extended | later
            · simp [extended, firstWhole, Ne.symm same]
            · exact inductionHypothesis (List.mem_cons_of_mem first later)

theorem split_of_not_mem {text : String} (whole : separator ∉ text.toList) :
    split separator text = [text] := by
  rw [split, pieces_of_not_mem whole, List.map_singleton, String.ofList_toList]

theorem not_mem_of_mem_split {text part : String} (member : part ∈ split separator text) :
    separator ∉ part.toList := by
  obtain ⟨piece, isPiece, rfl⟩ := List.mem_map.mp member
  rw [String.toList_ofList]
  exact not_mem_of_mem_pieces isPiece

theorem one_lt_length_split_point {path : String} :
    1 < (split '.' path).length ↔ '.' ∈ path.toList := by
  constructor
  · intro several
    by_contra whole
    rw [split_of_not_mem whole] at several
    simp at several
  · intro divided
    by_contra few
    have nonempty := List.length_pos_iff.mpr (split_ne_nil '.' path)
    obtain ⟨part, alone⟩ := List.length_eq_one_iff.mp (show (split '.' path).length = 1 by omega)
    have isPart : path ∈ split '.' path := by
      rw [alone, ← intercalate_split_point path, alone, String.intercalate_singleton]
      exact List.mem_cons_self
    exact not_mem_of_mem_split isPart divided

/-- Parts without points are what the path of them is split into. -/
theorem split_intercalate_point {parts : List String} (nonempty : parts ≠ [])
    (whole : ∀ part ∈ parts, '.' ∉ part.toList) :
    split '.' (String.intercalate "." parts) = parts := by
  induction parts with
  | nil =>
      exact absurd rfl nonempty
  | cons first rest inductionHypothesis =>
      have firstPieces := pieces_of_not_mem (whole first List.mem_cons_self)
      cases rest with
      | nil =>
          simp [split, firstPieces]
      | cons second others =>
          have restSplit := inductionHypothesis (by simp)
            fun part member => whole part (List.mem_cons_of_mem first member)
          have letters : (String.intercalate "." (first :: second :: others)).toList =
              first.toList ++ '.' :: (String.intercalate "." (second :: others)).toList := by
            simp [String.intercalate_cons_cons]
          rw [split] at restSplit ⊢
          rw [letters, pieces_append_separator, firstPieces, List.singleton_append, List.map_cons,
            restSplit, String.ofList_toList]

end Pieces

/-- Different numbers are written differently. -/
theorem decimal_injective : Function.Injective (fun number : Nat => toString number) := by
  intro left right same
  have digits : Nat.toDigits 10 left = Nat.toDigits 10 right := by
    simpa only [Nat.toString_eq_repr, Nat.toList_repr] using congrArg String.toList same
  simpa using congrArg (fun digits => Nat.ofDigitChars 10 digits 0) digits

end DocQuery.Text
