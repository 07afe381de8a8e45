import DocQuery.Query.Positional
import DocQuery.Proofs.Fallible
import DocQuery.Proofs.Text

/-!
# What becomes of question marks

A clause is cut at the question marks outside of its strings. It is expanded exactly if there
is one argument for each of them. Then every mark has become a placeholder with a number of its
own, and the argument is bound to that number, so that no argument hides another one.
-/

namespace DocQuery.Positional

/-- What stands before the first question mark outside of strings, and what stands behind each. -/
def cut : QuoteState → List Char → List Char × List (List Char)
  | _, [] => ([], [])
  | state, c :: rest =>
      if state = .outside ∧ c = '?' then
        let (next, others) := cut .outside rest
        ([], next :: others)
      else
        let (next, others) := cut (state.next c) rest
        (c :: next, others)

/-- The pieces, each behind a placeholder, with numbers from `number` on. -/
def weave : Nat → List (List Char) → List Char
  | _, [] => []
  | number, piece :: rest =>
      (parameterText (name number)).toList ++ piece ++ weave (number + 1) rest

/-- How many arguments a clause takes. -/
def marks (clause : String) : Nat :=
  (cut .outside clause.toList).2.length

/-- The clause with a placeholder for each mark, with numbers from `first` on. -/
def rewritten (first : Nat) (clause : String) : String :=
  let (head, behind) := cut .outside clause.toList
  String.ofList (head ++ weave first behind)

/-- Nothing but the marks is cut away. -/
theorem join_cut (state : QuoteState) (characters : List Char) :
    (cut state characters).1 ++ (cut state characters).2.flatMap ('?' :: ·) = characters := by
  induction characters generalizing state with
  | nil =>
      rfl
  | cons c rest inductionHypothesis =>
      unfold cut
      split
      · next isMark =>
          rw [isMark.2]
          simpa using inductionHypothesis .outside
      · simpa using inductionHypothesis (state.next c)

theorem cut_of_not_mem {characters : List Char} (unmarked : '?' ∉ characters)
    (state : QuoteState) : cut state characters = (characters, []) := by
  have joined := join_cut state characters
  generalize cut state characters = pieces at joined ⊢
  obtain ⟨head, behind⟩ := pieces
  cases behind with
  | nil =>
      simpa using joined
  | cons piece others =>
      rw [← joined] at unmarked
      simp at unmarked

theorem marks_of_not_mem {clause : String} (unmarked : '?' ∉ clause.toList) :
    marks clause = 0 := by
  rw [marks, cut_of_not_mem unmarked, List.length_nil]

theorem rewritten_of_not_mem {clause : String} (unmarked : '?' ∉ clause.toList) (first : Nat) :
    rewritten first clause = clause := by
  simp [rewritten, cut_of_not_mem unmarked, weave]

theorem name_injective : Function.Injective name := by
  intro left right same
  have characters := congrArg String.toList same
  simp only [name, String.toList_append, List.append_cancel_left_eq] at characters
  exact Text.decimal_injective (String.toList_injective characters)

namespace Bindings

/-- Binds values in a row. -/
def bindAll (bindings : Bindings) (values : List Json) : Bindings :=
  values.foldl bind bindings

variable {bindings : Bindings} {values : List Json}

theorem bindAll_cons (value : Json) (others : List Json) :
    bindings.bindAll (value :: others) = (bindings.bind value).bindAll others :=
  rfl

theorem bindAll_append (first second : List Json) :
    bindings.bindAll (first ++ second) = (bindings.bindAll first).bindAll second :=
  List.foldl_append

theorem next_bindAll (bindings : Bindings) (values : List Json) :
    (bindings.bindAll values).next = bindings.next + values.length := by
  induction values generalizing bindings with
  | nil =>
      rfl
  | cons value others inductionHypothesis =>
      rw [bindAll_cons, inductionHypothesis, List.length_cons]
      simp only [bind]
      omega

/-- A name that is not generated for one of the values keeps what is bound to it. -/
theorem get?_bindAll_of_ne {key : String}
    (other : ∀ index < values.length, name (bindings.next + index) ≠ key) :
    (bindings.bindAll values).parameters.get? key = bindings.parameters.get? key := by
  induction values generalizing bindings with
  | nil =>
      rfl
  | cons value others inductionHypothesis =>
      have restOther : ∀ index < others.length,
          name ((bindings.bind value).next + index) ≠ key := by
        intro index inRange
        have numbered : (bindings.bind value).next + index = bindings.next + (index + 1) := by
          simp only [bind]
          omega
        rw [numbered]
        exact other (index + 1) (Nat.succ_lt_succ inRange)
      have firstOther : name bindings.next ≠ key := other 0 (Nat.succ_pos _)
      rw [bindAll_cons, inductionHypothesis restOther, bind, Dictionary.get?_insert,
        if_neg firstOther]

/-- Every value is found under its number, whatever is bound before and behind it. -/
theorem get?_bindAll_name {index : Nat} {value : Json} (found : values[index]? = some value) :
    (bindings.bindAll values).parameters.get? (name (bindings.next + index)) = some value := by
  obtain ⟨inRange, same⟩ := List.getElem?_eq_some_iff.mp found
  have split : values = values.take index ++ value :: values.drop (index + 1) := by
    rw [← same, List.getElem_cons_drop, List.take_append_drop]
  have earlier : (values.take index).length = index := by
    rw [List.length_take]
    omega
  have numbered : (bindings.bindAll (values.take index)).next = bindings.next + index := by
    rw [next_bindAll, earlier]
  rw [split, bindAll_append, bindAll_cons, get?_bindAll_of_ne, bind, Dictionary.get?_insert,
    numbered, if_pos rfl]
  -- the values behind have larger numbers, so none of them is bound to this name again
  intro later _ same
  have sameNumber := name_injective same
  simp only [bind, numbered] at sameNumber
  omega

end Bindings

/-- A clause is expanded exactly if there is an argument for each mark and none is left. -/
theorem expandFrom_eq_ok_iff
    {clause : String} {state : QuoteState} {arguments : List Json} {bindings after : Bindings}
    {characters text : List Char} :
    expandFrom clause state arguments bindings characters = .ok (text, after) ↔
      (cut state characters).2.length = arguments.length ∧
      text = (cut state characters).1 ++ weave bindings.next (cut state characters).2 ∧
      after = bindings.bindAll arguments := by
  induction characters generalizing state arguments bindings text after with
  | nil =>
      cases arguments with
      | nil =>
          simp [expandFrom, cut, weave, Bindings.bindAll, eq_comm]
      | cons value others =>
          simp [expandFrom, cut]
  | cons c rest inductionHypothesis =>
      unfold expandFrom cut
      by_cases isMark : state = .outside ∧ c = '?'
      · simp only [if_pos isMark]
        cases arguments with
        | nil =>
            simp
        | cons value others =>
            simp only [Fallible.bind_eq_ok_iff, Fallible.pure_eq_ok_iff, Prod.exists,
              inductionHypothesis, Prod.mk.injEq, List.length_cons, Nat.add_right_cancel_iff,
              weave, Bindings.bindAll_cons, List.nil_append]
            constructor
            · rintro ⟨_, _, ⟨counted, rfl, rfl⟩, rfl, rfl⟩
              exact ⟨counted, by simp [Bindings.bind], rfl⟩
            · rintro ⟨counted, rfl, rfl⟩
              exact ⟨_, _, ⟨counted, rfl, rfl⟩, by simp [Bindings.bind], rfl⟩
      · simp only [if_neg isMark, Fallible.bind_eq_ok_iff, Fallible.pure_eq_ok_iff, Prod.exists,
          inductionHypothesis, Prod.mk.injEq]
        constructor
        · rintro ⟨_, _, ⟨counted, rfl, rfl⟩, rfl, rfl⟩
          exact ⟨counted, rfl, rfl⟩
        · rintro ⟨counted, rfl, rfl⟩
          exact ⟨_, _, ⟨counted, rfl, rfl⟩, rfl, rfl⟩

theorem expand_eq_ok_iff {clause text : String} {arguments : List Json}
    {bindings after : Bindings} :
    expand clause arguments bindings = .ok (text, after) ↔
      marks clause = arguments.length ∧ text = rewritten bindings.next clause ∧
        after = bindings.bindAll arguments := by
  simp only [expand, Fallible.bind_eq_ok_iff, Fallible.pure_eq_ok_iff, Prod.exists,
    expandFrom_eq_ok_iff, Prod.mk.injEq]
  constructor
  · rintro ⟨_, _, ⟨counted, rfl, rfl⟩, rfl, rfl⟩
    exact ⟨counted, rfl, rfl⟩
  · rintro ⟨counted, rfl, rfl⟩
    exact ⟨_, _, ⟨counted, rfl, rfl⟩, rfl, rfl⟩

theorem expandFrom_tooFew {clause : String} {state : QuoteState} {arguments : List Json}
    {bindings : Bindings} {characters : List Char}
    (fewer : arguments.length < (cut state characters).2.length) :
    expandFrom clause state arguments bindings characters = .error (.tooFewArguments clause) := by
  induction characters generalizing state arguments bindings with
  | nil =>
      cases fewer
  | cons c rest inductionHypothesis =>
      unfold expandFrom
      unfold cut at fewer
      by_cases isMark : state = .outside ∧ c = '?'
      · simp only [if_pos isMark] at fewer ⊢
        cases arguments with
        | nil =>
            rfl
        | cons value others =>
            dsimp only
            rw [inductionHypothesis (Nat.lt_of_succ_lt_succ fewer)]
            rfl
      · simp only [if_neg isMark] at fewer ⊢
        rw [inductionHypothesis fewer]
        rfl

theorem expandFrom_tooMany {clause : String} {state : QuoteState} {arguments : List Json}
    {bindings : Bindings} {characters : List Char}
    (more : (cut state characters).2.length < arguments.length) :
    expandFrom clause state arguments bindings characters = .error (.tooManyArguments clause) := by
  induction characters generalizing state arguments bindings with
  | nil =>
      have someLeft : arguments ≠ [] := List.ne_nil_of_length_pos more
      simp [expandFrom, someLeft]
  | cons c rest inductionHypothesis =>
      unfold expandFrom
      unfold cut at more
      by_cases isMark : state = .outside ∧ c = '?'
      · simp only [if_pos isMark] at more ⊢
        cases arguments with
        | nil =>
            cases more
        | cons value others =>
            dsimp only
            rw [inductionHypothesis (Nat.lt_of_succ_lt_succ more)]
            rfl
      · simp only [if_neg isMark] at more ⊢
        rw [inductionHypothesis more]
        rfl

theorem expand_tooFew {clause : String} {arguments : List Json} {bindings : Bindings}
    (fewer : arguments.length < marks clause) :
    expand clause arguments bindings = .error (.tooFewArguments clause) := by
  rw [expand, expandFrom_tooFew fewer]
  rfl

theorem expand_tooMany {clause : String} {arguments : List Json} {bindings : Bindings}
    (more : marks clause < arguments.length) :
    expand clause arguments bindings = .error (.tooManyArguments clause) := by
  rw [expand, expandFrom_tooMany more]
  rfl

end DocQuery.Positional
