import DocQuery.Proofs.Paging.Course
import DocQuery.Proofs.Paging.Transcript

/-!
# The rounds of a sweep

Whatever a store answers, each call of a sweep reads what the plan says, after the key of the
answer before. While there is a target, a call asks for what is missing to it, which is something,
and a failed call is the last one. One round adds one exchange to the transcript, and from this the
transcript of a whole sweep is known, with what the sweep gathers from it.
-/

namespace DocQuery

/-- The limit that a call sends. -/
def StoreCall.limit : StoreCall → Option Int
  | .describe _ => none
  | .query request => request.limit
  | .scan request => request.limit

/-- The call reads what the plan says, after a key. Only its limit may differ from that of the
plan. -/
inductive StorePlan.Asks (plan : StorePlan) (startKey : Item) : StoreCall → Prop
  | query {request : QueryRequest} :
      plan.method = .indexedQuery →
      request.startKey = startKey →
      request.toStatement = { plan.statement with limit := request.limit } →
      Asks plan startKey (.query request)
  | scan {request : ScanRequest} :
      plan.method = .fullScan →
      request.startKey = startKey →
      request.toSelection = { plan.statement.toSelection with limit := request.limit } →
      Asks plan startKey (.scan request)

theorem Cursor.keyOrEmpty_eq_nil_iff {cursor : Option Cursor} :
    keyOrEmpty cursor = [] ↔ cursor = none := by
  cases cursor with
  | none =>
      simp [keyOrEmpty]
  | some key =>
      simp [keyOrEmpty, key.nonempty]

namespace Pager

/-- The limit of a call after some items were gathered. With a target it is what is missing to
it, else the size of a page, else the limit of the plan. -/
inductive Limited (settings : PagingSettings) (plan : StorePlan) (target gathered : Nat) :
    Option Int → Prop
  | missing {missing : Nat} :
      0 < missing →
      gathered + missing = target →
      Limited settings plan target gathered (some (min missing Word.greatestInt32 : Nat))
  | pageSize {size : Nat} :
      target = 0 →
      settings.pageSize = some size →
      Limited settings plan target gathered (some (min size Word.greatestInt32 : Nat))
  | ofPlan :
      target = 0 →
      settings.pageSize = none →
      Limited settings plan target gathered plan.statement.limit

/-- What a sweep calls for after the calls before: no call has failed, reading goes on after the
last key, and the limit is due to the items gathered. -/
structure CallsFor (settings : PagingSettings) (plan : StorePlan) (target : Nat) (start : Item)
    (gathered : Nat) (earlier : Transcript) (call : StoreCall) : Prop where
  succeeds : earlier.Succeeds
  asks : plan.Asks (earlier.keyAfter start) call
  limited : Limited settings plan target (gathered + earlier.gathered.length) call.limit

variable {pager : Pager} {plan : StorePlan}
variable {budget target left : Nat} {policy : FailurePolicy} {sofar : Sweep} {history : History}

theorem Reaches.not_start (target : Nat) (cursor : Option Cursor) :
    ¬ Reaches target (Sweep.start cursor) := by
  intro reaches
  exact absurd reaches.2 (Nat.not_le.mpr reaches.1)

theorem limited_callLimit (settings : PagingSettings) (plan : StorePlan)
    (short : ¬ Reaches target sofar) :
    Limited settings plan target sofar.items.length
      (callLimit settings target sofar.items.length <|> plan.statement.limit) := by
  by_cases everything : target = 0
  · cases sizeFound : settings.pageSize with
    | none =>
        simpa [callLimit, everything, sizeFound] using Limited.ofPlan everything sizeFound
    | some size =>
        simpa [callLimit, everything, sizeFound] using Limited.pageSize everything sizeFound
  · have missing : sofar.items.length < target := by
      by_contra enough
      exact short ⟨Nat.pos_of_ne_zero everything, Nat.le_of_not_lt enough⟩
    simpa [callLimit, everything] using
      Limited.missing (Nat.sub_pos_of_lt missing) (Nat.add_sub_cancel' (Nat.le_of_lt missing))

/-- What one round adds to a transcript. -/
theorem nextCall_recorded {logged : History} {answer : Except StoreFailure Output}
    (notSearch : plan.method ≠ .search) (short : ¬ Reaches target sofar)
    (called : pager.nextCall plan target sofar history = (answer, logged)) :
    ∃ call, Transcript.Between pager.store history logged [⟨call, answer⟩] ∧
      CallsFor pager.settings plan target (Cursor.keyOrEmpty sofar.cursor) sofar.items.length []
        call := by
  have limited := limited_callLimit pager.settings plan short
  unfold nextCall call at called
  split at called
  · next query =>
      cases called
      refine ⟨_, .single rfl, ?_⟩
      exact
        { succeeds := Transcript.succeeds_nil
          asks := .query query rfl rfl
          limited }
  · next scan =>
      cases called
      refine ⟨_, .single rfl, ?_⟩
      exact
        { succeeds := Transcript.succeeds_nil
          asks := .scan scan rfl rfl
          limited }
  · next search =>
      exact absurd search notSearch

/-- What is called for after an answer is called for after that answer and all before it. -/
theorem CallsFor.after_answer {settings : PagingSettings} {start : Item} {gathered : Nat}
    {earlier : Transcript} {call later : StoreCall} {output : Output}
    (callsFor : CallsFor settings plan target output.lastKey (gathered + output.items.length)
      earlier later) :
    CallsFor settings plan target start gathered (⟨call, .ok output⟩ :: earlier) later where
  succeeds := callsFor.succeeds.cons
  asks := by
    simpa using callsFor.asks
  limited := by
    simpa [Nat.add_assoc] using callsFor.limited

/-- The final state of a sweep holds what the answers of its transcript gave. -/
structure Extends (target : Nat) (sofar : Sweep) (transcript : Transcript) (final : Sweep) :
    Prop where
  items : final.items = sofar.items ++ transcript.gathered
  rounds : final.rounds = sofar.rounds + transcript.length
  cursor : (final.stop = .budget ∧ final.cursor = none) ∨
    Cursor.keyOrEmpty final.cursor = transcript.keyAfter (Cursor.keyOrEmpty sofar.cursor)
  succeeds : Reaches target final → transcript.Succeeds

/-- A sweep has this transcript: the calls it makes, and what it gathers from the answers. -/
structure Recorded (pager : Pager) (plan : StorePlan) (target left : Nat) (sofar : Sweep)
    (history : History) (result : Logged (Except StoreFailure Sweep))
    (transcript : Transcript) : Prop where
  between : Transcript.Between pager.store history result.2 transcript
  length_le : transcript.length ≤ left
  calls : transcript.Each
    (CallsFor pager.settings plan target (Cursor.keyOrEmpty sofar.cursor) sofar.items.length)
  ends : ∀ final, result.1 = .ok final → Extends target sofar transcript final

theorem Extends.refl (target : Nat) (sofar : Sweep) (stop : SweepEnd) :
    Extends target sofar [] { sofar with stop } where
  items := by
    simp
  rounds := rfl
  cursor := .inr rfl
  succeeds _ := Transcript.succeeds_nil

theorem Extends.answered (target : Nat) (sofar : Sweep) (call : StoreCall) (output : Output)
    (stop : SweepEnd) :
    Extends target sofar [⟨call, .ok output⟩] { sofar.add output with stop } where
  items := by
    simp [Sweep.add]
  rounds := rfl
  cursor := .inr (by simp [Sweep.add, Cursor.keyOrEmpty_ofKey?])
  succeeds _ := Transcript.succeeds_nil.cons

theorem Extends.failed {target : Nat} {sofar : Sweep} (short : ¬ Reaches target sofar)
    (call : StoreCall) (failure : StoreFailure) (stop : SweepEnd) :
    Extends target sofar [⟨call, .error failure⟩]
      { sofar with stop, rounds := sofar.rounds + 1 } where
  items := by
    simp
  rounds := rfl
  cursor := .inr (by simp)
  succeeds reaches := absurd reaches short

theorem Extends.after_answer {call : StoreCall} {output : Output} {transcript : Transcript}
    {final : Sweep} (extend : Extends target (sofar.add output) transcript final) :
    Extends target sofar (⟨call, .ok output⟩ :: transcript) final where
  items := by
    simp [extend.items, Sweep.add]
  rounds := by
    simp only [extend.rounds, Sweep.add, List.length_cons]
    omega
  cursor := by
    simpa [Sweep.add, Cursor.keyOrEmpty_ofKey?] using extend.cursor
  succeeds reaches := (extend.succeeds reaches).cons

/-- A sweep that ends with its first call has the transcript of this call. -/
theorem recorded_once {answer : Except StoreFailure Output} {ended : Except StoreFailure Sweep}
    {logged : History} (notSearch : plan.method ≠ .search) (short : ¬ Reaches target sofar)
    (called : pager.nextCall plan target sofar history = (answer, logged))
    (ends : ∀ call final, ended = .ok final → Extends target sofar [⟨call, answer⟩] final) :
    ∃ transcript,
      Recorded pager plan target (left + 1) sofar history (ended, logged) transcript := by
  obtain ⟨call, between, callsFor⟩ := nextCall_recorded notSearch short called
  exact ⟨_, between, by simp, .cons callsFor Transcript.each_nil, ends call⟩

theorem Sweeps.recorded {result : Logged (Except StoreFailure Sweep)}
    (notSearch : plan.method ≠ .search)
    (sweeps : Sweeps pager plan budget policy target left sofar history result)
    (short : ¬ Reaches target sofar) :
    ∃ transcript, Recorded pager plan target left sofar history result transcript := by
  induction sweeps with
  | spent _ =>
      refine ⟨[], .nil, Nat.zero_le _, Transcript.each_nil, ?_⟩
      rintro final ⟨⟩
      exact
        { items := by simp
          rounds := rfl
          cursor := .inl ⟨rfl, rfl⟩
          succeeds := fun _ => Transcript.succeeds_nil }
  | ceiling _ =>
      refine ⟨[], .nil, Nat.zero_le _, Transcript.each_nil, ?_⟩
      rintro final ⟨⟩
      exact .refl _ _ _
  | rejected _ called _ =>
      exact recorded_once notSearch short called (by rintro call final ⟨⟩)
  | failed _ called _ =>
      refine recorded_once notSearch short called ?_
      rintro call final ⟨⟩
      exact .failed short call _ _
  | exhausted _ called _ | filled _ called _ _ =>
      refine recorded_once notSearch short called ?_
      rintro call final ⟨⟩
      exact .answered target _ call _ _
  | @further left sofar _ _ output _ _ called _ shortAfter _ inductionHypothesis =>
      obtain ⟨call, between, callsFor⟩ := nextCall_recorded notSearch short called
      obtain ⟨transcript, later⟩ := inductionHypothesis shortAfter
      -- the sweep goes on after the answer, so that what it does later is shifted by this exchange
      refine ⟨⟨call, .ok output⟩ :: transcript, between.append later.between,
        Nat.succ_le_succ later.length_le, .cons callsFor ?_, ?_⟩
      · intro earlier exchange behind split
        have callsLater := later.calls earlier exchange behind split
        simp only [Sweep.add, Cursor.keyOrEmpty_ofKey?, List.length_append] at callsLater
        exact callsLater.after_answer
      · intro final ended
        exact (later.ends final ended).after_answer

/-- A sweep gives its cursor up only if the time is spent when it ends. -/
theorem Sweeps.spent_of_budget {result : Logged (Except StoreFailure Sweep)} {final : Sweep}
    (sweeps : Sweeps pager plan budget policy target left sofar history result)
    (ended : result.1 = .ok final) (stop : final.stop = .budget) :
    budget ≤ pager.clock result.2 := by
  induction sweeps with
  | spent spent =>
      exact spent.2
  | ceiling _ | failed _ _ _ | exhausted _ _ _ | filled _ _ _ _ =>
      cases ended
      cases stop
  | rejected _ _ _ =>
      cases ended
  | further _ _ _ _ _ inductionHypothesis =>
      exact inductionHypothesis ended

/-- While there is time, reading is to go on after the key of the last answer. -/
theorem Sweeps.keyOrEmpty_eq {logged : History} {final : Sweep} {transcript : Transcript}
    (sweeps : Sweeps pager plan budget policy target left sofar history (.ok final, logged))
    (recorded : Recorded pager plan target left sofar history (.ok final, logged) transcript)
    (inTime : pager.clock logged < budget) :
    Cursor.keyOrEmpty final.cursor = transcript.keyAfter (Cursor.keyOrEmpty sofar.cursor) := by
  rcases (recorded.ends final rfl).cursor with ⟨stop, _⟩ | continued
  · exact absurd (sweeps.spent_of_budget rfl stop) (Nat.not_le.mpr inTime)
  · exact continued

theorem Sweeps.eq_of_spent {result : Logged (Except StoreFailure Sweep)}
    (sweeps : Sweeps pager plan budget policy target left sofar history result)
    (spent : pager.Spent budget sofar history) : result.2 = history := by
  cases sweeps with
  | spent _ =>
      rfl
  | ceiling inTime | rejected inTime _ _ | failed inTime _ _ | exhausted inTime _ _
  | filled inTime _ _ _ | further inTime _ _ _ _ =>
      exact absurd spent inTime

/-- A sweep that begins when the time is spent makes one call at most. -/
theorem Sweeps.calls_le_one {start : Option Cursor}
    {result : Logged (Except StoreFailure Sweep)} (notSearch : plan.method ≠ .search)
    (sweeps : Sweeps pager plan budget policy target left (.start start) history result)
    (late : ∀ later, history <+: later → budget ≤ pager.clock later) :
    ∃ calls, result.2 = history ++ calls ∧ calls.length ≤ 1 := by
  cases sweeps with
  | spent _ | ceiling _ =>
      exact ⟨[], by simp, by simp⟩
  | rejected _ called _ | failed _ called _ | exhausted _ called _ | filled _ called _ _ =>
      obtain ⟨request, rfl, _⟩ := call_answered notSearch called
      exact ⟨[request], rfl, Nat.le_refl _⟩
  | further _ called _ _ rest =>
      obtain ⟨request, rfl, _⟩ := call_answered notSearch called
      have ended := rest.eq_of_spent ⟨Nat.succ_pos _, late _ (List.prefix_append _ _)⟩
      exact ⟨[request], ended, Nat.le_refl _⟩

theorem Sweeps.length_le_one {result : Logged (Except StoreFailure Sweep)}
    {start : Option Cursor} {transcript : Transcript} (notSearch : plan.method ≠ .search)
    (sweeps : Sweeps pager plan budget policy target left (.start start) history result)
    (between : Transcript.Between pager.store history result.2 transcript)
    (late : ∀ later, history <+: later → budget ≤ pager.clock later) :
    transcript.length ≤ 1 := by
  obtain ⟨calls, logged, few⟩ := sweeps.calls_le_one notSearch late
  have same : calls = transcript.map Exchange.call :=
    List.append_cancel_left (logged.symm.trans between.history_eq)
  simpa [same] using few

end Pager

end DocQuery
