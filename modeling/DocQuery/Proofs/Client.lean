import DocQuery.Client
import DocQuery.Proofs.Paging.Calls
import DocQuery.Proofs.Store.KeyCondition

/-!
# What a client asks of a key-value store

A fetch has the table described once and then reads it as planned. The ways in which a fetch goes are
listed with what they ask: nothing while there is no query for a table, only the description while
there is no plan, and then calls for data that all look up one partition or all scan the table.
-/

namespace DocQuery

/-- The key condition of the request spells an equality on the partition key, perhaps beside a test
of the sort key. The store can run it exactly if there is no point in the names of these keys, so
that each is named by one alias. -/
def QueryRequest.LooksUp (key : Key) (request : QueryRequest) : Prop :=
  ∃ text tests, request.keyCondition = some text ∧
    StorePlan.KeyLookup key ⟨request.names, request.values⟩ text tests

namespace StorePlan

/-- The calls are queries that carry the key condition of the plan, or scans without an index. -/
inductive AsksFor (key : Key) (plan : StorePlan) (calls : List StoreCall) : Prop
  | queries :
      plan.method = .indexedQuery →
      (∀ call ∈ calls, ∃ request, call = .query request ∧
        request.keyCondition = plan.statement.keyCondition ∧ request.LooksUp key) →
      AsksFor key plan calls
  | scans :
      plan.method = .fullScan →
      (∀ call ∈ calls, ∃ request, call = .scan request ∧ request.index = none) →
      AsksFor key plan calls

variable {key : Key} {plan : StorePlan} {startKey : Item} {call : StoreCall}

theorem Asks.query_of_method (asks : plan.Asks startKey call)
    (method : plan.method = .indexedQuery) :
    ∃ request, call = .query request ∧
      request.toStatement = { plan.statement with limit := request.limit } := by
  cases asks with
  | query _ _ same =>
      exact ⟨_, rfl, same⟩
  | scan other _ _ =>
      rw [method] at other
      cases other

theorem Asks.scan_of_method (asks : plan.Asks startKey call) (method : plan.method = .fullScan) :
    ∃ request, call = .scan request ∧
      request.toSelection = { plan.statement.toSelection with limit := request.limit } := by
  cases asks with
  | query other _ _ =>
      rw [method] at other
      cases other
  | scan _ _ same =>
      exact ⟨_, rfl, same⟩

/-- Whatever asks for what a plan says is a query by its key condition, or a scan of the table. -/
theorem Reads.asksFor (reads : Reads key plan) {calls : List StoreCall}
    (asks : ∀ call ∈ calls, ∃ startKey, plan.Asks startKey call) : AsksFor key plan calls := by
  cases reads with
  | @partition text tests method condition lookup =>
      refine .queries method fun call member => ?_
      obtain ⟨startKey, asked⟩ := asks call member
      obtain ⟨request, rfl, same⟩ := asked.query_of_method method
      have sameCondition : request.keyCondition = plan.statement.keyCondition := by
        rw [same]
      refine ⟨request, rfl, sameCondition, text, tests, sameCondition.trans condition, ?_⟩
      rw [same]
      exact lookup
  | table method _ noIndex _ =>
      refine .scans method fun call member => ?_
      obtain ⟨startKey, asked⟩ := asks call member
      obtain ⟨request, rfl, same⟩ := asked.scan_of_method method
      refine ⟨request, rfl, ?_⟩
      rw [same]
      exact noIndex

end StorePlan

/-- The calls of a fetch ask for what the plan says. -/
theorem Pager.exists_asks (pager : Pager) (plan : StorePlan) (window : PageWindow)
    (history : History) :
    ∃ calls, (pager.fetch plan window history).2 = history ++ calls ∧
      ∀ call ∈ calls, ∃ startKey, plan.Asks startKey call := by
  obtain ⟨skipping, filling, calls⟩ := (fetch_fetches pager plan window history).calls
  refine ⟨_, calls.between.history_eq, fun call member => ?_⟩
  obtain ⟨exchange, exchangeMember, rfl⟩ := List.mem_map.mp member
  obtain ⟨earlier, later, split⟩ := List.append_of_mem exchangeMember
  exact ⟨_, (calls.follows earlier exchange later split).2⟩

theorem Draft.build_keeps {draft : Draft} {query : Query} (built : draft.build = .ok query) :
    query.sources = draft.sources ∧ query.limit = draft.limit ∧ query.skip = draft.skip := by
  simp only [build, Fallible.bind_eq_ok_iff, Fallible.pure_eq_ok_iff] at built
  obtain ⟨_, _, _, _, rfl⟩ := built
  exact ⟨rfl, rfl, rfl⟩

namespace StoreClient

open Pager (Logged)

/-- The ways in which a fetch goes, with the result and all calls until then. -/
inductive Fetching (client : StoreClient) (draft : Draft) (start : Option Cursor)
    (policy : FailurePolicy) (history : History) : Logged (Except QueryFault Page) → Prop
  | unbuilt {fault : QueryFault} :
      draft.build = .error fault →
      Fetching client draft start policy history (.error fault, history)
  | nameless {query : Query} :
      draft.build = .ok query →
      draft.sources = [] →
      Fetching client draft start policy history (.error .missingSource, history)
  | undescribed {query : Query} {table : String} {others : List String}
      {failure : StoreFailure} :
      draft.build = .ok query →
      draft.sources = table :: others →
      client.store.describe history table = .error failure →
      Fetching client draft start policy history
        (.error (.store failure), history ++ [.describe table])
  /-- The description has no key for the table, or the query cannot be compiled with the keys. -/
  | unplanned {query : Query} {table : String} {others : List String} {info : TableInfo}
      {fault : QueryFault} :
      draft.build = .ok query →
      draft.sources = table :: others →
      client.store.describe history table = .ok info →
      client.planFor query info = .error fault →
      Fetching client draft start policy history (.error fault, history ++ [.describe table])
  | planned {query : Query} {table : String} {others : List String} {info : TableInfo}
      {schema : Schema} {plan : StorePlan} {key : Key} {calls : List StoreCall}
      {page : Except StoreFailure Page} :
      draft.build = .ok query →
      draft.sources = table :: others →
      client.store.describe history table = .ok info →
      Schema.ofInfo info = .ok schema →
      StorePlan.compile query schema client.settings.consistentRead = .ok plan →
      schema.keyOf plan.statement.index = .ok key →
      plan.AsksFor key calls →
      client.pager.fetch plan ⟨draft.limit, draft.skip, start, policy⟩
          (history ++ [.describe table]) =
        (page, history ++ [.describe table] ++ calls) →
      Fetching client draft start policy history
        (page.mapError .store, history ++ [.describe table] ++ calls)

variable {client : StoreClient} {draft : Draft} {history : History}

theorem fetching_of_plan {query : Query} {table : String} {others : List String}
    {info : TableInfo} {plan : StorePlan} (start : Option Cursor) (policy : FailurePolicy)
    (built : draft.build = .ok query) (named : draft.sources = table :: others)
    (described : client.store.describe history table = .ok info)
    (planned : client.planFor query info = .ok plan) :
    let fetched := client.pager.fetch plan ⟨draft.limit, draft.skip, start, policy⟩
      (history ++ [.describe table])
    Fetching client draft start policy history (fetched.1.mapError .store, fetched.2) := by
  intro fetched
  obtain ⟨schema, schemaRead, compiled⟩ := Fallible.bind_eq_ok_iff.mp planned
  obtain ⟨key, keyFound, _, reads⟩ := StorePlan.compile_reads compiled
  obtain ⟨calls, logged, asks⟩ := client.pager.exists_asks plan
    ⟨draft.limit, draft.skip, start, policy⟩ (history ++ [.describe table])
  have result : fetched = (fetched.1, history ++ [.describe table] ++ calls) :=
    Prod.ext rfl logged
  rw [result]
  exact .planned built named described schemaRead compiled keyFound (reads.asksFor asks) result

/-- Every fetch goes in one of these ways: nothing is asked if the draft makes no query or names no
source; the table is described, and nothing else is asked, if there is no description, no key or no
plan; and otherwise the description is followed by the calls of the pager for the plan, which are
queries with a test of the partition key or scans of the table. -/
theorem fetchUnder_fetching (client : StoreClient) (draft : Draft) (start : Option Cursor)
    (policy : FailurePolicy) (history : History) :
    Fetching client draft start policy history
      (client.fetchUnder draft start policy history) := by
  cases built : draft.build with
  | error fault =>
      simp only [fetchUnder, built]
      exact .unbuilt built
  | ok query =>
      obtain ⟨sources, limit, skip⟩ := Draft.build_keeps built
      cases named : draft.sources with
      | nil =>
          have noTable : query.table = .error .missingSource := by
            simp [Query.table, sources, named]
          simp only [fetchUnder, built, plan, noTable]
          exact .nameless built named
      | cons table others =>
          have tableFound : query.table = .ok table := by
            simp [Query.table, sources, named]
          cases described : client.store.describe history table with
          | error failure =>
              simp only [fetchUnder, built, plan, tableFound, described]
              exact .undescribed built named described
          | ok info =>
              cases planned : client.planFor query info with
              | error fault =>
                  simp only [fetchUnder, built, plan, tableFound, described, planned]
                  exact .unplanned built named described planned
              | ok plan =>
                  simp only [fetchUnder, built, StoreClient.plan, tableFound, described, planned,
                    limit, skip]
                  exact fetching_of_plan start policy built named described planned

end StoreClient

end DocQuery
