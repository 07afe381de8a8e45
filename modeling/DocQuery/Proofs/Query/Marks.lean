import DocQuery.Proofs.Condition.Scanning
import DocQuery.Proofs.Query.Positional
import Mathlib.Data.List.TakeWhile

/-!
# Question marks are tokens

A clause is cut into tokens before its question marks are replaced, if a bare question mark counts as
a token of its own. The main statement is that replacing the marks in the text comes to the same as
replacing these tokens: strings stay what they are, whatever characters they have, and no token runs
into the placeholders beside it.
-/

namespace DocQuery

open Lexer (front isGap isNameChar isPathChar isNumeralChar)

namespace Lexer

/-- A token of a clause: one of the condition language, or a question mark. -/
inductive ClauseToken where
  | mark
  | plain (token : Token)
deriving DecidableEq

/-- The token at the front of a clause that begins with no gap. -/
def clauseFront (first : Char) (rest : List Char) :
    Except SyntaxFault (ClauseToken × List Char) :=
  if first = '?' then .ok (.mark, rest)
  else (front first rest).map fun (token, after) => (.plain token, after)

theorem clauseFront_length {first : Char} {rest after : List Char} {token : ClauseToken}
    (taken : clauseFront first rest = .ok (token, after)) : after.length ≤ rest.length := by
  unfold clauseFront at taken
  split at taken
  · cases taken
    exact Nat.le_refl _
  · obtain ⟨_, read, same⟩ := Fallible.map_eq_ok_iff.mp taken
    cases same
    exact front_length read

/-- The tokens of a clause. -/
def scanClause (text : List Char) : Except SyntaxFault (List ClauseToken) :=
  match gapless : text.dropWhile isGap with
  | [] => .ok []
  | first :: rest =>
      match taken : clauseFront first rest with
      | .error fault => .error fault
      | .ok (token, after) =>
          have : after.length < text.length := by
            have dropped := length_dropWhile_le isGap text
            have shorter := clauseFront_length taken
            rw [gapless, List.length_cons] at dropped
            omega
          (scanClause after).map (token :: ·)
termination_by text.length

/-- How a clause is cut, token by token. -/
inductive ScansClause : List Char → List ClauseToken → Prop
  | nil :
      ScansClause [] []
  | gap {c : Char} {rest : List Char} {tokens : List ClauseToken} :
      isGap c = true →
      ScansClause rest tokens →
      ScansClause (c :: rest) tokens
  | mark {rest : List Char} {tokens : List ClauseToken} :
      ScansClause rest tokens →
      ScansClause ('?' :: rest) (.mark :: tokens)
  | plain {c : Char} {text rest : List Char} {token : Token} {tokens : List ClauseToken} :
      isGap c = false →
      front c text = .ok (token, rest) →
      ScansClause rest tokens →
      ScansClause (c :: text) (.plain token :: tokens)

theorem ScansClause.behind_gap {text : List Char} {tokens : List ClauseToken}
    (rest : ScansClause (text.dropWhile isGap) tokens) : ScansClause text tokens := by
  induction text with
  | nil =>
      exact rest
  | cons c others inductionHypothesis =>
      by_cases gap : isGap c = true
      · rw [List.dropWhile_cons_of_pos gap] at rest
        exact .gap gap (inductionHypothesis rest)
      · rwa [List.dropWhile_cons_of_neg gap] at rest

theorem scansClause_of_scanClause {text : List Char} {tokens : List ClauseToken}
    (scanned : scanClause text = .ok tokens) : ScansClause text tokens := by
  fun_induction scanClause text generalizing tokens with
  | case1 text gapless =>
      cases scanned
      exact .behind_gap (gapless ▸ .nil)
  | case2 =>
      cases scanned
  | case3 text first rest gapless token after taken shorter inductionHypothesis =>
      obtain ⟨others, cut, rfl⟩ := Fallible.map_eq_ok_iff.mp scanned
      have behind := inductionHypothesis cut
      have noGap : isGap first = false := by
        have kept := List.head?_dropWhile_not isGap text
        rw [gapless] at kept
        exact kept
      refine .behind_gap ?_
      rw [gapless]
      unfold clauseFront at taken
      split at taken
      · next isMark =>
          cases taken
          subst isMark
          exact .mark behind
      · obtain ⟨pair, read, same⟩ := Fallible.map_eq_ok_iff.mp taken
        cases same
        exact .plain noGap read behind

/-- The tokens of the rewritten clause, where each mark has become the placeholder of its
argument. -/
def fillMarks : Nat → List ClauseToken → List Token
  | _, [] => []
  | number, .mark :: rest => .placeholder (Positional.name number) :: fillMarks (number + 1) rest
  | number, .plain token :: rest => token :: fillMarks number rest

/-- The later text goes on like the rest of a clause, or with a placeholder. -/
def Resumes (rest later : List Char) : Prop :=
  ∀ c ∈ later.head?, c ∈ rest.head? ∨ c = ':'

end Lexer

namespace Positional

/-- The characters lead from one state to another, with no question mark outside of strings. -/
inductive Passes : QuoteState → List Char → QuoteState → Prop
  | nil {state : QuoteState} :
      Passes state [] state
  | cons {state final : QuoteState} {c : Char} {rest : List Char} :
      ¬ (state = .outside ∧ c = '?') →
      Passes (state.next c) rest final →
      Passes state (c :: rest) final

/-- Nothing is cut where no mark is passed. -/
theorem Passes.cut_append {state final : QuoteState} {used : List Char}
    (passes : Passes state used final) (rest : List Char) :
    cut state (used ++ rest) = (used ++ (cut final rest).1, (cut final rest).2) := by
  induction passes with
  | nil =>
      rfl
  | cons noMark _ inductionHypothesis =>
      rw [List.cons_append, cut, if_neg noMark, inductionHypothesis]
      rfl

/-- The character neither begins a string nor is a mark. -/
def IsPlain (c : Char) : Prop :=
  c ≠ '?' ∧ c ≠ '\'' ∧ c ≠ '"'

instance (c : Char) : Decidable (IsPlain c) :=
  inferInstanceAs (Decidable (_ ∧ _ ∧ _))

theorem passes_of_isPlain {used : List Char} (plain : ∀ c ∈ used, IsPlain c) :
    Passes .outside used .outside := by
  induction used with
  | nil =>
      exact .nil
  | cons c rest inductionHypothesis =>
      obtain ⟨noMark, noApostrophe, noQuote⟩ := plain c List.mem_cons_self
      refine .cons (fun isMark => noMark isMark.2) ?_
      rw [QuoteState.next, if_neg (by simp [noApostrophe, noQuote])]
      exact inductionHypothesis fun other member => plain other (List.mem_cons_of_mem c member)

/-- Characters of a kind that has neither marks nor quotes. -/
theorem isPlain_of_kept {keep : Char → Bool} {c : Char}
    (plain : keep '?' = false ∧ keep '\'' = false ∧ keep '"' = false) (kept : keep c = true) :
    IsPlain c := by
  obtain ⟨noMark, noApostrophe, noQuote⟩ := plain
  refine ⟨?_, ?_, ?_⟩
  all_goals rintro rfl; simp_all

end Positional

namespace Lexer

open Positional (Passes IsPlain passes_of_isPlain isPlain_of_kept)

/-- The token is taken from its own characters: these pass no mark, and are read alike in front of
every text that goes on like the rest of the clause. -/
structure Takes (first : Char) (used rest : List Char) (token : Token) : Prop where
  passes : Passes .outside (first :: used) .outside
  stable : ∀ later, Resumes rest later → front first (used ++ later) = .ok (token, later)

section Stretch

variable {keep : Char → Bool} {text later : List Char}

theorem stops_of_resumes (noColon : keep ':' = false)
    (resumes : Resumes (text.dropWhile keep) later) : ∀ c ∈ later.head?, keep c = false := by
  intro c isFirst
  rcases resumes c isFirst with goesOn | rfl
  · have stopped := List.head?_dropWhile_not keep text
    rw [goesOn] at stopped
    exact stopped
  · exact noColon

end Stretch

theorem exists_takes_placeholder {text rest : List Char} {token : Token}
    (taken : readPlaceholder text = .ok (token, rest)) :
    ∃ used, text = used ++ rest ∧ Takes ':' used rest token := by
  have cut := List.takeWhile_append_dropWhile (p := isNameChar) (l := text)
  unfold readPlaceholder at taken
  dsimp only at taken
  split at taken
  · cases taken
  · next filled =>
      split at taken
      · next closed =>
          cases taken
          have nonempty : text.takeWhile isNameChar ≠ [] := by
            simpa [String.isEmpty_iff] using filled
          have named : ∀ c ∈ text.takeWhile isNameChar, isNameChar c = true :=
            fun _ member => List.mem_takeWhile_imp member
          refine ⟨text.takeWhile isNameChar ++ [':'], ?_, ?_, ?_⟩
          · rw [closed] at cut
            simpa using cut.symm
          · apply passes_of_isPlain
            intro c member
            simp only [List.mem_cons, List.mem_append, List.not_mem_nil, or_false] at member
            rcases member with rfl | inName | rfl
            · decide
            · exact isPlain_of_kept (by decide) (named c inName)
            · decide
          · intro later _
            rw [List.append_assoc, List.singleton_append]
            exact front_placeholder nonempty named later
      · cases taken

theorem ne_backslash {c : Char} {rest : List Char} (noEnd : c = '\\' → rest = [] → False)
    (noEscape : ∀ d others, c = '\\' → rest = d :: others → False) : c ≠ '\\' := by
  intro same
  cases rest with
  | nil =>
      exact noEnd same rfl
  | cons d others =>
      exact noEscape d others same rfl

/-- The body of a string ends at the same quote for both ways of following quotes. -/
theorem exists_passes_string {quote : Char} {text body rest : List Char}
    (read : stringBody? quote text = some (body, rest)) :
    ∃ used, text = used ++ rest ∧ Passes (.inside quote) used .outside ∧
      ∀ later, stringBody? quote (used ++ later) = some (body, later) := by
  fun_induction stringBody? quote text generalizing body with
  | case1 =>
      cases read
  | case2 =>
      cases read
  | case3 c tail inductionHypothesis =>
      obtain ⟨⟨inner, after⟩, found, same⟩ := Option.map_eq_some_iff.mp read
      cases same
      obtain ⟨used, rfl, passes, stable⟩ := inductionHypothesis found
      refine ⟨'\\' :: c :: used, rfl, ?_, ?_⟩
      · exact .cons (by simp) (.cons (by simp [QuoteState.next]) (by simpa [QuoteState.next]))
      · intro later
        simp [stringBody?, stable later]
  | case4 tail noEnd noEscape =>
      cases read
      have noBackslash := ne_backslash noEnd noEscape
      refine ⟨[quote], rfl, ?_, ?_⟩
      · exact .cons (by simp) (by simpa [QuoteState.next, noBackslash] using .nil)
      · intro later
        rw [List.singleton_append, stringBody?_cons noBackslash, if_pos rfl]
  | case5 c tail noEnd noEscape noQuote inductionHypothesis =>
      have noBackslash := ne_backslash noEnd noEscape
      obtain ⟨⟨inner, after⟩, found, same⟩ := Option.map_eq_some_iff.mp read
      cases same
      obtain ⟨used, rfl, passes, stable⟩ := inductionHypothesis found
      refine ⟨c :: used, rfl, ?_, ?_⟩
      · exact .cons (by simp) (by simpa [QuoteState.next, noBackslash, noQuote])
      · intro later
        rw [List.cons_append, stringBody?_cons noBackslash, if_neg noQuote, stable later]
        rfl

theorem exists_takes_string {quote : Char} {text rest : List Char} {token : Token}
    (isQuote : quote = '\'' ∨ quote = '"')
    (taken : readString quote text = .ok (token, rest)) :
    ∃ used, text = used ++ rest ∧ Takes quote used rest token := by
  unfold readString at taken
  split at taken
  · next body after read =>
      cases taken
      obtain ⟨used, rfl, passes, stable⟩ := exists_passes_string read
      refine ⟨used, rfl, ?_, ?_⟩
      · refine .cons ?_ ?_
        · rcases isQuote with rfl | rfl
          · decide
          · decide
        · rwa [QuoteState.next, if_pos isQuote]
      · intro later _
        have opens : front quote (used ++ later) = readString quote (used ++ later) := by
          rcases isQuote with rfl | rfl
          · rfl
          · rfl
        rw [opens, readString, stable later]
  · cases taken

/-- A number after its sign, or a word: a stretch of characters of one kind. -/
theorem exists_takes_stretch {keep : Char → Bool} {first : Char} {text : List Char}
    {token : Token} (isPlain : IsPlain first)
    (plain : keep '?' = false ∧ keep '\'' = false ∧ keep '"' = false)
    (noColon : keep ':' = false)
    (read : ∀ later, (∀ c ∈ later.head?, keep c = false) →
      front first (text.takeWhile keep ++ later) = .ok (token, later)) :
    ∃ used, text = used ++ text.dropWhile keep ∧
      Takes first used (text.dropWhile keep) token := by
  refine ⟨text.takeWhile keep, List.takeWhile_append_dropWhile.symm, ?_, ?_⟩
  · apply passes_of_isPlain
    intro c member
    rcases List.mem_cons.mp member with rfl | inStretch
    · exact isPlain
    · exact isPlain_of_kept plain (List.mem_takeWhile_imp inStretch)
  · intro later resumes
    exact read later (stops_of_resumes noColon resumes)

theorem readNumber_stretch {sign text rest : List Char} {token : Token}
    (taken : readNumber sign text = .ok (token, rest)) (later : List Char)
    (stops : ∀ c ∈ later.head?, isNumeralChar c = false) :
    readNumber sign (text.takeWhile isNumeralChar ++ later) = .ok (token, later) := by
  have numerals : ∀ c ∈ text.takeWhile isNumeralChar, isNumeralChar c = true :=
    fun _ member => List.mem_takeWhile_imp member
  unfold readNumber at taken ⊢
  rw [Text.takeWhile_append_of_stops numerals stops, Text.dropWhile_append_of_stops numerals stops]
  dsimp only at taken ⊢
  split at taken
  · next value spelled =>
      cases taken
      rfl
  · cases taken

/-- A sign is one token in front of a text that does not go on with a longer one. -/
theorem exists_takes_sign (EndsSign : Char → Prop) {first : Char} {rest : List Char}
    {token : Token} (isPlain : IsPlain first) (colon : EndsSign ':')
    (ends : ∀ c ∈ rest.head?, EndsSign c)
    (read : ∀ later : List Char, (∀ c ∈ later.head?, EndsSign c) →
      front first later = .ok (token, later)) :
    ∃ used, rest = used ++ rest ∧ Takes first used rest token := by
  refine ⟨[], rfl, passes_of_isPlain (by simpa), fun later resumes => read later ?_⟩
  intro c isFirst
  rcases resumes c isFirst with goesOn | rfl
  · exact ends c goesOn
  · exact colon

theorem exists_takes {first : Char} {text rest : List Char} {token : Token}
    (taken : front first text = .ok (token, rest)) :
    ∃ used, text = used ++ rest ∧ Takes first used rest token := by
  unfold front at taken
  split at taken
  case h_1 => exact exists_takes_placeholder taken
  case h_2 => exact exists_takes_string (.inl rfl) taken
  case h_3 => exact exists_takes_string (.inr rfl) taken
  case h_6 => cases taken
  case h_9 noEqual noGreater =>
    cases taken
    refine exists_takes_sign (fun c => c ≠ '=' ∧ c ≠ '>') (by decide) (by decide) ?_ ?_
    · rintro c isFirst
      obtain ⟨others, rfl⟩ := List.head?_eq_some_iff.mp isFirst
      exact ⟨fun same => noEqual others (same ▸ rfl), fun same => noGreater others (same ▸ rfl)⟩
    · intro later ends
      cases later with
      | nil =>
          rfl
      | cons c others =>
          obtain ⟨notEqual, notGreater⟩ := ends c rfl
          simp [front, notEqual, notGreater]
  case h_11 noEqual =>
    cases taken
    refine exists_takes_sign (fun c => c ≠ '=') (by decide) (by decide) ?_ ?_
    · rintro c isFirst rfl
      obtain ⟨others, rfl⟩ := List.head?_eq_some_iff.mp isFirst
      exact noEqual others rfl
    · intro later ends
      cases later with
      | nil =>
          rfl
      | cons c others =>
          have notEqual := ends c rfl
          simp [front, notEqual]
  case h_15 =>
    have sameRest := readNumber_rest taken
    subst sameRest
    exact exists_takes_stretch (by decide) (by decide) (by decide) (readNumber_stretch taken)
  case h_16 =>
    split at taken
    · next digit =>
        have kept : isNumeralChar first = true := by
          simp [isNumeralChar, digit]
        have sameRest := readNumber_rest taken
        rw [List.dropWhile_cons_of_pos kept] at sameRest
        subst sameRest
        refine exists_takes_stretch (isPlain_of_kept (by decide) kept) (by decide) (by decide) ?_
        intro later stops
        have read := readNumber_stretch taken later stops
        rwa [List.takeWhile_cons_of_pos kept, List.cons_append, ← front_digit digit] at read
    · split at taken
      · next start =>
          have kept := isPathChar_of_isNameStart start
          simp only [readWord, List.takeWhile_cons_of_pos kept, List.dropWhile_cons_of_pos kept]
            at taken
          cases taken
          refine exists_takes_stretch (isPlain_of_kept (by decide) kept) (by decide) (by decide)
            ?_
          intro later stops
          have inWord : ∀ c ∈ first :: text.takeWhile isPathChar, isPathChar c = true := by
            rw [← List.takeWhile_cons_of_pos kept]
            exact fun _ member => List.mem_takeWhile_imp member
          rw [(front_word start _).2, readWord, ← List.cons_append,
            Text.takeWhile_append_of_stops inWord stops,
            Text.dropWhile_append_of_stops inWord stops]
      · cases taken
  case h_5 | h_7 | h_8 | h_10 =>
    cases taken
    exact ⟨[_], rfl, passes_of_isPlain (by simp [IsPlain]), fun _ _ => rfl⟩
  all_goals
    cases taken
    exact ⟨[], rfl, passes_of_isPlain (by simp [IsPlain]), fun _ _ => rfl⟩

/-- The generated names are names of placeholders. -/
theorem isNameChar_of_mem_name (number : Nat) :
    ∀ c ∈ (Positional.name number).toList, isNameChar c = true := by
  intro c member
  rw [Positional.name, String.toList_append, List.mem_append] at member
  rcases member with inPrefix | inNumber
  · have named : "arg_".toList.all isNameChar = true := by
      decide
    exact List.all_eq_true.mp named c inPrefix
  · rw [Nat.toString_eq_repr, Nat.toList_repr] at inNumber
    have isDigit := Nat.isDigit_of_mem_toDigits (by decide) (by decide) inNumber
    simp [isNameChar, Char.isAlphanum, isDigit]

theorem scan_parameter (number : Nat) (rest : List Char) :
    scan ((parameterText (Positional.name number)).toList ++ rest) =
      (scan rest).map (.placeholder (Positional.name number) :: ·) := by
  have nonempty : (Positional.name number).toList ≠ [] := by
    simp [Positional.name]
  have spelled : (parameterText (Positional.name number)).toList ++ rest =
      ':' :: ((Positional.name number).toList ++ ':' :: rest) := by
    simp [parameterText]
  rw [spelled, scan_token (by decide)
    (front_placeholder nonempty (isNameChar_of_mem_name number) rest), String.ofList_toList]

/-- The rewritten text goes on like the clause, or with a placeholder for a mark. -/
theorem resumes_rewritten (number : Nat) (rest : List Char) :
    Resumes rest ((Positional.cut .outside rest).1 ++
      Positional.weave number (Positional.cut .outside rest).2) := by
  intro c isFirst
  cases rest with
  | nil =>
      simp [Positional.cut, Positional.weave] at isFirst
  | cons first others =>
      unfold Positional.cut at isFirst
      split at isFirst
      · right
        simpa [Positional.weave, parameterText, eq_comm] using isFirst
      · left
        simpa using isFirst

/-- The marks that are replaced are the tokens that are marks, and the rewritten text is cut into
the other tokens with the placeholders between them. -/
theorem ScansClause.rewritten {text : List Char} {tokens : List ClauseToken}
    (scans : ScansClause text tokens) (number : Nat) :
    (Positional.cut .outside text).2.length = tokens.count .mark ∧
      scan ((Positional.cut .outside text).1 ++
        Positional.weave number (Positional.cut .outside text).2) =
          .ok (fillMarks number tokens) := by
  induction scans generalizing number with
  | nil =>
      exact ⟨rfl, scan_nil⟩
  | @gap c rest tokens gap _ inductionHypothesis =>
      obtain ⟨counted, scanned⟩ := inductionHypothesis number
      have passes : Passes .outside [c] .outside :=
        passes_of_isPlain (by simpa using isPlain_of_kept (by decide) gap)
      have behind := passes.cut_append rest
      rw [List.singleton_append] at behind
      rw [behind]
      refine ⟨counted, ?_⟩
      rw [List.append_assoc, List.singleton_append, scan_gap gap, scanned]
  | @mark rest tokens _ inductionHypothesis =>
      obtain ⟨counted, scanned⟩ := inductionHypothesis (number + 1)
      have behind : Positional.cut .outside ('?' :: rest) =
          ([], (Positional.cut .outside rest).1 :: (Positional.cut .outside rest).2) := rfl
      rw [behind]
      refine ⟨by simp [counted], ?_⟩
      rw [List.nil_append, Positional.weave, List.append_assoc, scan_parameter, scanned]
      rfl
  | @plain c text rest token tokens noGap taken _ inductionHypothesis =>
      obtain ⟨counted, scanned⟩ := inductionHypothesis number
      obtain ⟨used, rfl, takes⟩ := exists_takes taken
      have behind := takes.passes.cut_append rest
      rw [List.cons_append] at behind
      rw [behind]
      refine ⟨by simpa using counted, ?_⟩
      rw [List.append_assoc, List.cons_append,
        scan_token noGap (takes.stable _ (resumes_rewritten number rest)), scanned]
      rfl

end Lexer

namespace Positional

/-- The text has the tokens of the clause with a placeholder for each mark, and the arguments are
bound to these placeholders, and to no other name. -/
structure Expansion (tokens : List Lexer.ClauseToken) (arguments : List Json)
    (before : Bindings) (text : String) (after : Bindings) : Prop where
  scanned : Lexer.scan text.toList = .ok (Lexer.fillMarks before.next tokens)
  next : after.next = before.next + arguments.length
  bound : ∀ index value, arguments[index]? = some value →
    after.parameters.get? (name (before.next + index)) = some value
  kept : ∀ key, (∀ index < arguments.length, name (before.next + index) ≠ key) →
    after.parameters.get? key = before.parameters.get? key

/-- A clause that is cut into tokens is expanded exactly if it has as many marks as there are
arguments. Every other token stays what it is, and each mark becomes the placeholder that its
argument is bound to. -/
theorem expand_tokens {clause : String} {tokens : List Lexer.ClauseToken}
    (scanned : Lexer.scanClause clause.toList = .ok tokens) (arguments : List Json)
    (bindings : Bindings) :
    (tokens.count .mark = arguments.length →
      ∃ text after, expand clause arguments bindings = .ok (text, after) ∧
        Expansion tokens arguments bindings text after) ∧
    (arguments.length < tokens.count .mark →
      expand clause arguments bindings = .error (.tooFewArguments clause)) ∧
    (tokens.count .mark < arguments.length →
      expand clause arguments bindings = .error (.tooManyArguments clause)) := by
  obtain ⟨counted, rescanned⟩ :=
    (Lexer.scansClause_of_scanClause scanned).rewritten bindings.next
  rw [← counted]
  refine ⟨?_, expand_tooFew, expand_tooMany⟩
  intro matched
  refine ⟨rewritten bindings.next clause, bindings.bindAll arguments,
    expand_eq_ok_iff.mpr ⟨matched, rfl, rfl⟩, ?_⟩
  exact {
    scanned := by
      rw [rewritten, String.toList_ofList]
      exact rescanned
    next := Bindings.next_bindAll bindings arguments
    bound := fun _ _ found => Bindings.get?_bindAll_name found
    kept := fun _ other => Bindings.get?_bindAll_of_ne other }

/-- Marks next to words and numbers, and strings with marks and quotes in them. -/
def knottedClause : String :=
  "tag=?x IN('?\\'\"', \"it's?\",:old:?,5?)"

theorem expand_tokens_knotted :
    ∃ tokens text after,
      Lexer.scanClause knottedClause.toList = .ok tokens ∧
      expand knottedClause [.string "a", .null, .bool true] ⟨4, [("old", .bool false)]⟩ =
        .ok (text, after) ∧
      Lexer.scan text.toList =
        .ok [.identifier "tag", .comparator .eq, .placeholder "arg_4", .identifier "x", .isIn,
          .openParen, .string "?'\"", .comma, .string "it's?", .comma, .placeholder "old",
          .placeholder "arg_5", .comma, .number "5" (.integer 5), .placeholder "arg_6",
          .closeParen] ∧
      after.next = 7 ∧
      after.parameters.get? "arg_5" = some .null ∧
      after.parameters.get? "old" = some (.bool false) ∧
      expand knottedClause [.null] ⟨0, []⟩ = .error (.tooFewArguments knottedClause) ∧
      expand knottedClause [.null, .null, .null, .null] ⟨0, []⟩ =
        .error (.tooManyArguments knottedClause) := by
  have scanned : Lexer.scanClause knottedClause.toList =
      .ok [.plain (.identifier "tag"), .plain (.comparator .eq), .mark, .plain (.identifier "x"),
        .plain .isIn, .plain .openParen, .plain (.string "?'\""), .plain .comma,
        .plain (.string "it's?"), .plain .comma, .plain (.placeholder "old"), .mark,
        .plain .comma, .plain (.number "5" (.integer 5)), .mark, .plain .closeParen] := by
    decide +kernel
  obtain ⟨expands, _, _⟩ := expand_tokens scanned [.string "a", .null, .bool true]
    ⟨4, [("old", .bool false)]⟩
  obtain ⟨text, after, expanded, expansion⟩ := expands (by decide)
  refine ⟨_, text, after, scanned, expanded, expansion.scanned, expansion.next,
    expansion.bound 1 .null rfl, ?_, ?_, ?_⟩
  · rw [expansion.kept "old" (by decide)]
    rfl
  · exact (expand_tokens scanned [.null] ⟨0, []⟩).2.1 (by decide)
  · exact (expand_tokens scanned [.null, .null, .null, .null] ⟨0, []⟩).2.2 (by decide)

end Positional

end DocQuery
