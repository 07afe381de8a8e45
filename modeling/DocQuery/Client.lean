import DocQuery.Rows
import DocQuery.Search.Plan
import DocQuery.Query.Draft

/-!
# Answering queries

A client compiles a query for its store and fetches the results. A key-value store has to
describe the table first, because the plan depends on its keys. A search engine gets a single
request.
-/

namespace DocQuery

structure StoreClient where
  store : Store
  clock : History → Nat
  settings : Settings

/-- A search engine with settings. What it answers may depend on the searches before. -/
structure SearchClient where
  search : List Search → Search → Except StoreFailure Hits
  settings : Settings

namespace StoreClient

open Pager (Logged)

def draft (client : StoreClient) : Draft :=
  Draft.withLimit client.settings.defaultLimit

def pager (client : StoreClient) : Pager :=
  ⟨client.store, client.clock, client.settings.paging⟩

/-- Compiles a query for a table that was described. -/
def planFor (client : StoreClient) (query : Query) (table : TableInfo) :
    Except QueryFault StorePlan := do
  StorePlan.compile query (← Schema.ofInfo table) client.settings.consistentRead

/-- Has the table described and compiles the query. -/
def plan (client : StoreClient) (query : Query) (history : History) :
    Logged (Except QueryFault StorePlan) :=
  match query.table with
  | .error fault => (.error fault, history)
  | .ok table =>
      let plan :=
        match client.store.describe history table with
        | .error failure => .error (.store failure)
        | .ok info => client.planFor query info
      (plan, history ++ [.describe table])

def compile (client : StoreClient) (draft : Draft) (history : History) :
    Logged (Except QueryFault StorePlan) :=
  match draft.build with
  | .error fault => (.error fault, history)
  | .ok query => client.plan query history

def fetchUnder (client : StoreClient) (draft : Draft) (start : Option Cursor)
    (policy : FailurePolicy) (history : History) : Logged (Except QueryFault Page) :=
  match draft.build with
  | .error fault => (.error fault, history)
  | .ok query =>
      match client.plan query history with
      | (.error fault, history) => (.error fault, history)
      | (.ok plan, history) =>
          let (page, history) :=
            client.pager.fetch plan ⟨query.limit, query.skip, start, policy⟩ history
          (page.mapError .store, history)

/-- Fetches a page under the policy of the settings. -/
def fetch (client : StoreClient) (draft : Draft) (start : Option Cursor)
    (history : History) : Logged (Except QueryFault Page) :=
  client.fetchUnder draft start (.ofStrict client.settings.strictErrors) history

/-- Fetches the first page as rows. -/
def rows (client : StoreClient) (draft : Draft) (history : History) :
    Logged (Except QueryFault Rows) :=
  let (page, history) := client.fetch draft none history
  (page.map Rows.ofPage, history)

end StoreClient

namespace SearchClient

def draft (client : SearchClient) : Draft :=
  Draft.withLimit client.settings.defaultLimit

def compile (draft : Draft) : Except QueryFault Search := do
  SearchPlan.compile (← draft.build)

/-- Searches, and returns the hits with all searches made until then. -/
def rows (client : SearchClient) (draft : Draft) (searches : List Search) :
    Except QueryFault Rows × List Search :=
  match compile draft with
  | .error fault => (.error fault, searches)
  | .ok search =>
      let rows :=
        match client.search searches search with
        | .error failure => .error (.store failure)
        | .ok hits => .ok ⟨hits.documents, hits.total⟩
      (rows, searches ++ [search])

end SearchClient

end DocQuery
