import DocQuery.Proofs.Condition.Pattern
import Mathlib.Data.List.Infix

/-!
# Texts that a pattern matches

A pattern is read character by character: a mark stands for one certain character, for any one
character, or for any text. There are two languages of patterns. In conditions `%` stands for any
text; in the wildcards of a search engine `*` does and `?` stands for any one character. All other
characters stand for themselves.

The shape of a pattern says which texts match it. A pattern that is written over as wildcards
matches the same texts exactly if neither `*` nor `?` is in it.
-/

namespace DocQuery

/-- What a character of a pattern stands for. -/
inductive Mark where
  | literal (c : Char)
  | one
  | many
deriving DecidableEq, Repr

namespace Mark

/-- The mark of a character in the patterns of conditions. -/
def ofPattern (c : Char) : Mark :=
  if c = '%' then many else literal c

/-- The mark of a character in the wildcards of a search engine. -/
def ofWildcard (c : Char) : Mark :=
  if c = '*' then many else if c = '?' then one else literal c

/-- Whether a text is made of the texts that the marks stand for. -/
def matchText : List Mark → List Char → Bool
  | [], text => text.isEmpty
  | many :: marks, text => text.tails.any fun rest => matchText marks rest
  | literal c :: marks, d :: rest => c == d && matchText marks rest
  | one :: marks, _ :: rest => matchText marks rest
  | literal _ :: _, [] => false
  | one :: _, [] => false

theorem matchText_many {marks : List Mark} {text : List Char} :
    matchText (many :: marks) text = true ↔
      ∃ skipped rest, text = skipped ++ rest ∧ matchText marks rest = true := by
  simp only [matchText, List.any_eq_true, List.mem_tails]
  constructor
  · rintro ⟨rest, ⟨skipped, split⟩, matched⟩
    exact ⟨skipped, rest, split.symm, matched⟩
  · rintro ⟨skipped, rest, split, matched⟩
    exact ⟨rest, ⟨skipped, split.symm⟩, matched⟩

theorem matchText_only_many (text : List Char) : matchText [many] text = true :=
  matchText_many.mpr ⟨text, [], by simp, rfl⟩

theorem matchText_literals_append (word : List Char) {marks : List Mark} {text : List Char} :
    matchText (word.map literal ++ marks) text = true ↔
      ∃ rest, text = word ++ rest ∧ matchText marks rest = true := by
  induction word generalizing text with
  | nil =>
      simp
  | cons c others inductionHypothesis =>
      cases text with
      | nil =>
          simp [matchText]
      | cons d later =>
          have laterMatch : matchText (others.map literal ++ marks) later = true ↔
              ∃ rest, later = others ++ rest ∧ matchText marks rest = true :=
            inductionHypothesis
          simp only [List.map_cons, List.cons_append, matchText, Bool.and_eq_true, beq_iff_eq,
            laterMatch, List.cons.injEq]
          constructor
          · rintro ⟨rfl, rest, split, matched⟩
            exact ⟨rest, ⟨rfl, split⟩, matched⟩
          · rintro ⟨rest, ⟨rfl, split⟩, matched⟩
            exact ⟨rfl, rest, split, matched⟩

theorem matchText_literals (word text : List Char) :
    matchText (word.map literal) text = true ↔ text = word := by
  have appended : matchText (word.map literal ++ []) text = true ↔
      ∃ rest, text = word ++ rest ∧ matchText [] rest = true :=
    matchText_literals_append word
  rw [List.append_nil] at appended
  simpa [matchText] using appended

/-- A text that matches has every character that stands for itself. -/
theorem mem_of_matchText {marks : List Mark} {text : List Char} {c : Char}
    (matched : matchText marks text = true) (member : literal c ∈ marks) : c ∈ text := by
  induction marks generalizing text with
  | nil =>
      cases member
  | cons mark marks inductionHypothesis =>
      cases mark with
      | many =>
          obtain ⟨skipped, rest, rfl, restMatched⟩ := matchText_many.mp matched
          have laterMember : literal c ∈ marks := by
            simpa using member
          exact List.mem_append_right skipped (inductionHypothesis restMatched laterMember)
      | one =>
          cases text with
          | nil =>
              cases matched
          | cons d rest =>
              have laterMember : literal c ∈ marks := by
                simpa using member
              exact List.mem_cons_of_mem d (inductionHypothesis matched laterMember)
      | literal d =>
          cases text with
          | nil =>
              cases matched
          | cons e rest =>
              have both : d = e ∧ matchText marks rest = true := by
                simpa [matchText] using matched
              by_cases same : c = d
              · rw [same, both.1]
                exact List.mem_cons_self
              · have laterMember : literal c ∈ marks := by
                  simpa [same] using member
                exact List.mem_cons_of_mem e (inductionHypothesis both.2 laterMember)

theorem map_ofPattern {word : List Char} (free : '%' ∉ word) :
    word.map ofPattern = word.map literal := by
  apply List.map_congr_left
  intro c member
  have different : c ≠ '%' := by
    rintro rfl
    exact free member
  exact if_neg different

end Mark

namespace Pattern

/-- Whether a text matches the pattern of a condition. -/
def likes (pattern subject : String) : Bool :=
  Mark.matchText (pattern.toList.map Mark.ofPattern) subject.toList

/-- Whether a text matches the wildcards of a search engine. -/
def globs (wildcards subject : String) : Bool :=
  Mark.matchText (wildcards.toList.map Mark.ofWildcard) subject.toList

/-- The wildcards that a pattern is written over as: every `%` becomes `*`. -/
def wildcards (pattern : String) : String :=
  String.ofList (pattern.toList.map fun c => if c = '%' then '*' else c)

/-- The shape of a pattern: the text that it looks for, and where. -/
inductive IsShape : String → Pattern → Prop
  | exact {text : String} :
      '%' ∉ text.toList →
      IsShape text (.exact text)
  | startsWith {text : String} :
      text ≠ "" → '%' ∉ text.toList →
      IsShape (text ++ "%") (.startsWith text)
  | contains {text : String} :
      text ≠ "" → '%' ∉ text.toList →
      IsShape ("%" ++ text ++ "%") (.contains text)
  | other {pattern : String} :
      ¬ IsBasic pattern.toList →
      IsShape pattern (.other pattern)

theorem eq_of_classify_other {pattern other : String}
    (classified : classify pattern = .other other) : other = pattern := by
  unfold classify at classified
  dsimp only at classified
  split at classified
  · cases classified
  · split at classified
    · cases classified
    · split at classified
      · cases classified
      · exact (Pattern.other.inj classified).symm

theorem IsShape.classify_eq {pattern : String} {shape : Pattern} (isShape : IsShape pattern shape) :
    classify pattern = shape := by
  cases isShape with
  | exact free =>
      simp [classify, List.count_eq_zero.mpr free]
  | @startsWith text nonempty free =>
      have longer : 0 < text.toList.length :=
        List.length_pos_iff.mpr fun empty => nonempty (String.toList_eq_nil_iff.mp empty)
      have count : text.toList.count '%' = 0 := List.count_eq_zero.mpr free
      simp [classify, count, longer]
  | @contains text nonempty free =>
      have longer : 0 < text.toList.length :=
        List.length_pos_iff.mpr fun empty => nonempty (String.toList_eq_nil_iff.mp empty)
      have count : text.toList.count '%' = 0 := List.count_eq_zero.mpr free
      simp [classify, count, longer, List.getLast?_cons]
  | other notBasic =>
      obtain ⟨other, isOther⟩ : ∃ other, classify pattern = .other other := by
        by_contra none
        exact notBasic (isBasic_iff.mpr (by simpa using none))
      rw [isOther, eq_of_classify_other isOther]

/-- Every pattern has a shape. -/
theorem exists_isShape (pattern : String) : ∃ shape, IsShape pattern shape := by
  by_cases basic : IsBasic pattern.toList
  · generalize characters : pattern.toList = letters at basic
    have spelled : pattern = String.ofList letters := by
      rw [← characters, String.ofList_toList]
    cases basic with
    | exact free =>
        exact ⟨.exact pattern, .exact (characters ▸ free)⟩
    | @startsWith text nonempty free =>
        refine ⟨.startsWith (String.ofList text), ?_⟩
        have shape : IsShape (String.ofList text ++ "%") (.startsWith (String.ofList text)) :=
          .startsWith (by simpa using nonempty) (by simpa using free)
        rwa [spelled, String.ofList_append]
    | @contains text nonempty free =>
        refine ⟨.contains (String.ofList text), ?_⟩
        have shape : IsShape ("%" ++ String.ofList text ++ "%")
            (.contains (String.ofList text)) :=
          .contains (by simpa using nonempty) (by simpa using free)
        have sameText : String.ofList ('%' :: (text ++ ['%'])) =
            "%" ++ String.ofList text ++ "%" := by
          apply String.toList_injective
          simp
        rwa [spelled, sameText]
  · exact ⟨.other pattern, .other basic⟩

/-- Classifying a pattern gives its shape. -/
theorem classify_eq_iff {pattern : String} {shape : Pattern} :
    classify pattern = shape ↔ IsShape pattern shape := by
  constructor
  · rintro rfl
    obtain ⟨shape, isShape⟩ := exists_isShape pattern
    rwa [isShape.classify_eq]
  · exact IsShape.classify_eq

section Likes

variable {pattern text subject : String}

theorem likes_exact_iff (free : '%' ∉ text.toList) :
    likes text subject = true ↔ subject = text := by
  rw [likes, Mark.map_ofPattern free, Mark.matchText_literals, String.toList_inj]

theorem likes_startsWith_iff (free : '%' ∉ text.toList) :
    likes (text ++ "%") subject = true ↔ text.toList <+: subject.toList := by
  have marks : (text ++ "%").toList.map Mark.ofPattern =
      text.toList.map Mark.literal ++ [.many] := by
    rw [String.toList_append, List.map_append, Mark.map_ofPattern free]
    rfl
  rw [likes, marks, Mark.matchText_literals_append]
  simp only [Mark.matchText_only_many, and_true]
  exact exists_congr fun rest => eq_comm

theorem likes_contains_iff (free : '%' ∉ text.toList) :
    likes ("%" ++ text ++ "%") subject = true ↔ text.toList <:+: subject.toList := by
  have marks : ("%" ++ text ++ "%").toList.map Mark.ofPattern =
      .many :: (text.toList.map Mark.literal ++ [.many]) := by
    rw [String.toList_append, String.toList_append, List.map_append, List.map_append,
      Mark.map_ofPattern free]
    rfl
  rw [likes, marks, Mark.matchText_many]
  simp only [Mark.matchText_literals_append, Mark.matchText_only_many, and_true]
  constructor
  · rintro ⟨before, _, split, after, rfl⟩
    exact ⟨before, after, by rw [split, List.append_assoc]⟩
  · rintro ⟨before, after, split⟩
    exact ⟨before, text.toList ++ after, by rw [← split, List.append_assoc], after, rfl⟩

end Likes

section Wildcards

/-- The mark of a character of a pattern that is written over as wildcards. -/
theorem map_wildcards (pattern : String) :
    (wildcards pattern).toList.map Mark.ofWildcard =
      pattern.toList.map fun c => if c = '%' then .many else Mark.ofWildcard c := by
  simp only [wildcards, String.toList_ofList, List.map_map]
  apply List.map_congr_left
  intro c _
  by_cases percent : c = '%'
  · simp [percent, Mark.ofWildcard]
  · simp [percent]

/-- A text that a pattern without wildcards of its own matches as it stands: every `?` is another
character, and nothing stands for any text. -/
def plainText (characters : List Char) : List Char :=
  (characters.filter fun c => c != '%' && c != '*').map fun c => if c = '?' then 'x' else c

theorem matchText_plainText (characters : List Char) :
    Mark.matchText
      (characters.map fun c => if c = '%' then .many else Mark.ofWildcard c)
      (plainText characters) = true := by
  induction characters with
  | nil =>
      rfl
  | cons c others inductionHypothesis =>
      have skips {marks : List Mark} {text : List Char}
          (matched : Mark.matchText marks text = true) :
          Mark.matchText (.many :: marks) text = true :=
        Mark.matchText_many.mpr ⟨[], text, rfl, matched⟩
      by_cases percent : c = '%'
      · simpa [plainText, percent] using skips inductionHypothesis
      · by_cases star : c = '*'
        · simpa [plainText, star, Mark.ofWildcard] using skips inductionHypothesis
        · by_cases question : c = '?'
          · simpa [plainText, question, Mark.ofWildcard, Mark.matchText] using inductionHypothesis
          · simpa [plainText, percent, star, question, Mark.ofWildcard, Mark.matchText]
              using inductionHypothesis

theorem not_mem_plainText {characters : List Char} {c : Char} (special : c = '*' ∨ c = '?') :
    c ∉ plainText characters := by
  simp only [plainText, List.mem_map, List.mem_filter, not_exists, not_and]
  rintro d ⟨_, kept⟩ rfl
  by_cases question : d = '?'
  · simp [question] at special
  · rcases special with star | other
    · simp [question] at star
      simp [star] at kept
    · simp [question] at other

/-- The wildcards match the same texts as the pattern exactly if no character of the pattern has
a meaning in them. -/
theorem globs_wildcards_iff (pattern : String) :
    (∀ subject, globs (wildcards pattern) subject = likes pattern subject) ↔
      '*' ∉ pattern.toList ∧ '?' ∉ pattern.toList := by
  constructor
  · intro alike
    have matched : likes pattern (String.ofList (plainText pattern.toList)) = true := by
      rw [← alike, globs, map_wildcards, String.toList_ofList]
      exact matchText_plainText pattern.toList
    have absent {c : Char} (special : c = '*' ∨ c = '?') : c ∉ pattern.toList := by
      intro member
      have percent : c ≠ '%' := by
        rintro rfl
        simp at special
      have marked : .literal c ∈ pattern.toList.map Mark.ofPattern :=
        List.mem_map.mpr ⟨c, member, if_neg percent⟩
      have inText := Mark.mem_of_matchText matched marked
      rw [String.toList_ofList] at inText
      exact not_mem_plainText special inText
    exact ⟨absent (.inl rfl), absent (.inr rfl)⟩
  · rintro ⟨noStar, noQuestion⟩ subject
    have marks : (wildcards pattern).toList.map Mark.ofWildcard =
        pattern.toList.map Mark.ofPattern := by
      rw [map_wildcards]
      apply List.map_congr_left
      intro c member
      have notStar : c ≠ '*' := fun same => noStar (same ▸ member)
      have notQuestion : c ≠ '?' := fun same => noQuestion (same ▸ member)
      simp [Mark.ofWildcard, Mark.ofPattern, notStar, notQuestion]
    rw [globs, likes, marks]

end Wildcards

end Pattern

end DocQuery
