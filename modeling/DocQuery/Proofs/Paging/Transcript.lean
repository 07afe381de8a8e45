import DocQuery.Paging.Cursor
import DocQuery.Store.Basic
import Mathlib.Data.List.Basic

/-!
# Transcripts of calls

A transcript lists calls for data with the answers that a store gave to them, from one moment to a
later one. The two histories determine it. What holds of every call of a transcript may depend on
the part before that call, so such properties are put together from the front.
-/

namespace DocQuery

/-- A call for data with the answer to it. -/
structure Exchange where
  call : StoreCall
  answer : Except StoreFailure Output

/-- The answer of a store to a call for data, which the description of a table is not. -/
def Store.answer? (store : Store) (history : History) :
    StoreCall → Option (Except StoreFailure Output)
  | .describe _ => none
  | .query request => some (store.query history request)
  | .scan request => some (store.scan history request)

/-- Calls with their answers, the first one first. -/
abbrev Transcript := List Exchange

namespace Transcript

/-- The transcript of what was asked after one history and until a later one. -/
inductive Between (store : Store) : History → History → Transcript → Prop
  | nil {history : History} :
      Between store history history []
  | cons {history final : History} {exchange : Exchange} {rest : Transcript} :
      store.answer? history exchange.call = some exchange.answer →
      Between store (history ++ [exchange.call]) final rest →
      Between store history final (exchange :: rest)

/-- The answers that were no failures. -/
def outputs (transcript : Transcript) : List Output :=
  transcript.filterMap fun exchange => exchange.answer.toOption

/-- The items of all answers. -/
def gathered (transcript : Transcript) : List Item :=
  transcript.outputs.flatMap Output.items

/-- The key of the last answer, before which reading was to go on after `start`. -/
def keyAfter (start : Item) (transcript : Transcript) : Item :=
  (transcript.outputs.getLast?.map Output.lastKey).getD start

/-- No call has failed. -/
def Succeeds (transcript : Transcript) : Prop :=
  ∀ exchange ∈ transcript, exchange.answer.isOk = true

/-- Every call has the property, given the part of the transcript before it. -/
def Each (property : Transcript → StoreCall → Prop) (transcript : Transcript) : Prop :=
  ∀ earlier exchange later, transcript = earlier ++ exchange :: later →
    property earlier exchange.call

section Outputs

@[simp]
theorem outputs_nil : outputs [] = [] :=
  rfl

@[simp]
theorem outputs_append (first second : Transcript) :
    outputs (first ++ second) = outputs first ++ outputs second :=
  List.filterMap_append

@[simp]
theorem outputs_ok (call : StoreCall) (output : Output) (rest : Transcript) :
    outputs (⟨call, .ok output⟩ :: rest) = output :: outputs rest :=
  rfl

@[simp]
theorem outputs_error (call : StoreCall) (failure : StoreFailure) (rest : Transcript) :
    outputs (⟨call, .error failure⟩ :: rest) = outputs rest :=
  rfl

@[simp]
theorem gathered_nil : gathered [] = [] :=
  rfl

@[simp]
theorem gathered_append (first second : Transcript) :
    gathered (first ++ second) = gathered first ++ gathered second := by
  simp [gathered]

@[simp]
theorem gathered_ok (call : StoreCall) (output : Output) (rest : Transcript) :
    gathered (⟨call, .ok output⟩ :: rest) = output.items ++ gathered rest := by
  simp [gathered]

@[simp]
theorem gathered_error (call : StoreCall) (failure : StoreFailure) (rest : Transcript) :
    gathered (⟨call, .error failure⟩ :: rest) = gathered rest := by
  simp [gathered]

@[simp]
theorem keyAfter_nil (start : Item) : keyAfter start [] = start :=
  rfl

@[simp]
theorem keyAfter_ok (start : Item) (call : StoreCall) (output : Output) (rest : Transcript) :
    keyAfter start (⟨call, .ok output⟩ :: rest) = keyAfter output.lastKey rest := by
  rw [keyAfter, keyAfter, outputs_ok, List.getLast?_cons]
  cases rest.outputs.getLast? <;> rfl

@[simp]
theorem keyAfter_error (start : Item) (call : StoreCall) (failure : StoreFailure)
    (rest : Transcript) :
    keyAfter start (⟨call, .error failure⟩ :: rest) = keyAfter start rest :=
  rfl

theorem keyAfter_append (start : Item) (first second : Transcript) :
    keyAfter start (first ++ second) = keyAfter (keyAfter start first) second := by
  rw [keyAfter, keyAfter, keyAfter, outputs_append, List.getLast?_append]
  cases second.outputs.getLast? <;> rfl

end Outputs

namespace Between

variable {store : Store} {history middle final : History} {transcript first second : Transcript}

theorem single {call : StoreCall} {answer : Except StoreFailure Output}
    (answered : store.answer? history call = some answer) :
    Between store history (history ++ [call]) [⟨call, answer⟩] :=
  .cons answered .nil

theorem append (before : Between store history middle first)
    (behind : Between store middle final second) :
    Between store history final (first ++ second) := by
  induction before with
  | nil =>
      exact behind
  | cons answered _ inductionHypothesis =>
      exact .cons answered (inductionHypothesis behind)

theorem history_eq (between : Between store history final transcript) :
    final = history ++ transcript.map Exchange.call := by
  induction between with
  | nil =>
      simp
  | cons _ _ inductionHypothesis =>
      simpa using inductionHypothesis

theorem unique (one : Between store history final first)
    (other : Between store history final second) : first = second := by
  have calls : first.map Exchange.call = second.map Exchange.call := by
    simpa using one.history_eq.symm.trans other.history_eq
  induction one generalizing second with
  | nil =>
      exact (List.map_eq_nil_iff.mp calls.symm).symm
  | @cons history final exchange rest answered _ inductionHypothesis =>
      cases other with
      | nil =>
          simp at calls
      | @cons _ _ otherExchange others otherAnswered otherRest =>
          obtain ⟨sameCall, restCalls⟩ := List.cons.inj calls
          rw [← sameCall] at otherAnswered otherRest
          have sameAnswer : exchange.answer = otherExchange.answer :=
            Option.some.inj (answered.symm.trans otherAnswered)
          rw [inductionHypothesis otherRest restCalls]
          cases exchange
          cases otherExchange
          simp_all

end Between

section Each

variable {property other : Transcript → StoreCall → Prop} {first second : Transcript}

theorem each_nil : Each property [] := by
  intro earlier exchange later split
  simp at split

/-- What holds of a call holds of the ones behind it, with this call among those before them. -/
theorem Each.cons {exchange : Exchange} {rest : Transcript}
    (holds : property [] exchange.call)
    (further : Each (fun earlier => property (exchange :: earlier)) rest) :
    Each property (exchange :: rest) := by
  intro earlier next later split
  cases earlier with
  | nil =>
      obtain ⟨rfl, rfl⟩ := List.cons.inj split
      exact holds
  | cons front earlier =>
      obtain ⟨rfl, restSplit⟩ := List.cons.inj split
      exact further earlier next later restSplit

theorem Each.append (before : Each property first)
    (behind : Each (fun earlier => property (first ++ earlier)) second) :
    Each property (first ++ second) := by
  induction first generalizing property with
  | nil =>
      exact behind
  | cons exchange rest inductionHypothesis =>
      have further : Each (fun earlier => property (exchange :: earlier)) rest := by
        intro earlier next later split
        exact before (exchange :: earlier) next later (by rw [split, List.cons_append])
      exact .cons (before [] exchange rest rfl) (inductionHypothesis further behind)

theorem Each.imp (each : Each property first)
    (implies : ∀ earlier call, property earlier call → other earlier call) :
    Each other first :=
  fun earlier exchange later split => implies _ _ (each earlier exchange later split)

theorem succeeds_nil : Succeeds [] := by
  simp [Succeeds]

theorem Succeeds.cons {call : StoreCall} {output : Output} {rest : Transcript}
    (succeeds : Succeeds rest) : Succeeds (⟨call, .ok output⟩ :: rest) := by
  intro exchange member
  rcases List.mem_cons.mp member with rfl | later
  · rfl
  · exact succeeds exchange later

theorem Succeeds.append (before : Succeeds first) (behind : Succeeds second) :
    Succeeds (first ++ second) := by
  intro exchange member
  rcases List.mem_append.mp member with earlier | later
  · exact before exchange earlier
  · exact behind exchange later

end Each

end Transcript

end DocQuery
