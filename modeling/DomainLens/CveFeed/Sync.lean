import DomainLens.CveFeed.Store
import DomainLens.Library.Run
import DomainLens.Library.Table

/-!
# Keeping up with the NVD

A followed product is fetched in full the first time and after a long gap, and otherwise only what
changed since the last sync, with an hour of overlap.  The file embeds one sync of a product
against the NVD with its pages and failures, and settles when what is stored for the product is
what the records of the NVD now give.
-/

namespace DomainLens
namespace CveFeed

open Python Run

/-! ## One sync -/

def second : Int := 1000000

/-- Past this an increment is not asked for: 119 days. -/
def maxIncrement : Int := 119 * 86400 * second

/-- An increment begins an hour before the last sync. -/
def overlap : Int := 3600 * second

def pageSize : Nat := 2000

/-- A time as the NVD is asked for it: whole seconds. -/
def nvdTime (moment : Int) : Int := moment / second * second

/-- A row of `cve_feed_state`. -/
structure State where
  syncedAt : Option Int
  cursor : Option Int
  attemptedAt : Option Int
  error : Option Text
  items : Option Nat
deriving DecidableEq

/-- A followed product: its key and the NVD's `vendor:product` for it. -/
structure Product where
  key : Text
  cpe : Text
deriving DecidableEq

/-- The stored CVEs and the state of one product. -/
structure Feed where
  store : Store
  state : State
deriving DecidableEq

structure Response where
  status : Nat
  totalResults : Nat
  vulnerabilities : List Cve

/-- The answers to the requests of a fetch in turn.  A request past them, or one whose answer is
missing, raises. -/
abbrev Answers := List (Option Response)

def connectionError : Text := "ConnectionError".toList

def keyRefused (status : Nat) : Text :=
  "The NVD refused the API key (HTTP ".toList ++ strOf status ++ [')', '.']

def answered (status : Nat) : Text := "The NVD answered HTTP ".toList ++ strOf status ++ ['.']

/-- Follow the pages from a start index. -/
def fetchPages (hasKey : Bool) : Answers → Nat → Except Text (List Cve)
  | [], _ | none :: _, _ => .error connectionError
  | some response :: answers, start =>
      if hasKey && (response.status == 401 || response.status == 403) then
        .error (keyRefused response.status)
      else if response.status ≠ 200 then .error (answered response.status)
      else if response.vulnerabilities = [] then .ok []
      else
        let next := start + response.vulnerabilities.length
        if next < response.totalResults then
          match fetchPages hasKey answers next with
          | .error text => .error text
          | .ok later => .ok (response.vulnerabilities ++ later)
        else .ok response.vulnerabilities

/-- Every CVE record the answers hold, with its ranges for the product. -/
def fetchProduct (hasKey : Bool) (product : Product) (answers : Answers) :
    Except Text (List (Cve × List Range)) :=
  match fetchPages hasKey answers 0 with
  | .error text => .error text
  | .ok records => .ok (records.map fun cve => (cve, rangesFor cve product.cpe))

/-- Since when to ask for changes, nothing for everything. -/
def sinceOf (state : State) (now : Int) : Option Int :=
  match state.cursor with
  | none => none
  | some cursor => if now - cursor < maxIncrement then some (cursor - overlap) else none

/-- A write that fails, with the text of its exception. -/
inductive Fault where
  | attempt
  | store (text : Text)
  | state (text : Text)
deriving DecidableEq

def Feed.fail (feed : Feed) (text : Text) : Feed :=
  { feed with state := { feed.state with error := some (text.take 200) } }

/-- Sync one product on the answers to its requests.  Success comes with the number of CVEs held. -/
def syncProduct (hasKey : Bool) (product : Product) (feed : Feed) (now : Int)
    (answers : Option Int → Answers) (fault : Option Fault) : Feed × Option Nat :=
  let since := sinceOf feed.state now
  if fault = some .attempt then (feed, none)
  else
    let feed := { feed with state := { feed.state with attemptedAt := some now } }
    match fetchProduct hasKey product (answers since) with
    | .error text => (feed.fail text, none)
    | .ok records =>
        match fault with
        | some (.store text) => (feed.fail text, none)
        | _ =>
            let (store, count) := feed.store.write product.key records since.isNone
            match fault with
            | some (.state text) => ({ feed with store }.fail text, none)
            | _ =>
                ({ store
                   state :=
                     { syncedAt := some now
                       cursor := some now
                       attemptedAt := some now
                       error := none
                       items := some count } }, some count)

/-! ## The NVD -/

/-- The records of the NVD, by id. -/
structure Server where
  records : Table Cve.id
  named : ∀ cve ∈ records.rows, cve.id ≠ []

namespace Server

/-- A record as it reads after a change. -/
def edit (server : Server) (cve : Cve) (isNamed : cve.id ≠ []) : Server where
  records := server.records.put cve
  named other member := by
    rcases Table.mem_put member with old | rfl
    · exact server.named other old
    · exact isNamed

/-- A query for a product asks for a record: any that is not rejected, or one changed in a window
of time. -/
def asksFor (product : Product) (since : Option Int) (now : Int) (cve : Cve) : Bool :=
  names product.cpe cve &&
    match since with
    | none => cve.vulnStatus ≠ rejected
    | some moment => nvdTime moment ≤ cve.lastModified && cve.lastModified ≤ nvdTime now

/-- The records a query for a product returns. -/
def query (server : Server) (product : Product) (since : Option Int) (now : Int) : List Cve :=
  (server.records.filter (asksFor product since now)).rows

/-- The answer to the request for a page. -/
def page (results : List Cve) (startIndex : Nat) : Response where
  status := 200
  totalResults := results.length
  vulnerabilities := (results.drop startIndex).take pageSize

/-- The answers to the requests for all pages. -/
def pages (results : List Cve) : Answers :=
  (List.range (results.length / pageSize + 1)).map fun index =>
    some (page results (index * pageSize))

/-- The ranges the current record of a CVE gives for a product. -/
def rangesOf (server : Server) (product : Product) (cveId : Text) : List Range :=
  match server.records.find cveId with
  | none => []
  | some cve => Store.latest cve (rangesFor cve product.cpe)

end Server

/-- A request that goes wrong: it raises, or is answered with a status other than 200. -/
structure Stop where
  index : Nat
  status : Option Nat
  notOk : status ≠ some 200
deriving DecidableEq

def Stop.answer (stop : Stop) : Option Response :=
  stop.status.map fun status => ⟨status, 0, []⟩

/-- The answers of the NVD up to a request that goes wrong. -/
def answersUpTo (stop : Option Stop) (results : List Cve) : Answers :=
  match stop with
  | none => Server.pages results
  | some stop => (Server.pages results).take stop.index ++ [stop.answer]

/-! ## Pages -/

private theorem fetchPages_ok {hasKey : Bool} {response : Response} (ok : response.status = 200)
    (answers : Answers) (start : Nat) :
    fetchPages hasKey (some response :: answers) start =
      if response.vulnerabilities = [] then .ok []
      else if start + response.vulnerabilities.length < response.totalResults then
        match fetchPages hasKey answers (start + response.vulnerabilities.length) with
        | .error text => .error text
        | .ok later => .ok (response.vulnerabilities ++ later)
      else .ok response.vulnerabilities := by
  rw [fetchPages, if_neg (by simp [ok]), if_neg (by simp [ok])]

private theorem fetchPages_page {hasKey : Bool} (results : List Cve) (answers : Answers)
    (start : Nat) :
    fetchPages hasKey (some (Server.page results start) :: answers) start =
      if start + pageSize < results.length then
        match fetchPages hasKey answers (start + pageSize) with
        | .error text => .error text
        | .ok later => .ok ((results.drop start).take pageSize ++ later)
      else .ok (results.drop start) := by
  have held : (Server.page results start).vulnerabilities =
      (results.drop start).take pageSize := rfl
  have total : (Server.page results start).totalResults = results.length := rfl
  rw [fetchPages_ok rfl]
  by_cases more : start + pageSize < results.length
  · have size : (Server.page results start).vulnerabilities.length = pageSize := by
      rw [held, List.length_take, List.length_drop]
      omega
    have nonempty : (Server.page results start).vulnerabilities ≠ [] := by
      rw [← List.length_pos_iff, size]
      decide
    rw [if_neg nonempty, size, total, if_pos more, if_pos more, held]
  · have whole : (Server.page results start).vulnerabilities = results.drop start := by
      rw [held]
      apply List.take_of_length_le
      rw [List.length_drop]
      omega
    rw [if_neg more]
    split
    · rename_i empty
      rw [← whole, empty]
    · rw [if_neg, whole]
      rw [whole, total, List.length_drop]
      omega

private theorem fetchPages_range {hasKey : Bool} (results : List Cve) (count index : Nat)
    (last : index + count = results.length / pageSize) :
    fetchPages hasKey
      ((List.range' index (count + 1)).map fun index =>
        some (Server.page results (index * pageSize)))
      (index * pageSize) = .ok (results.drop (index * pageSize)) := by
  induction count generalizing index with
  | zero =>
      rw [List.range'_succ, List.map_cons, fetchPages_page, if_neg]
      simp only [pageSize] at last ⊢
      omega
  | succ count induction =>
      have following : index * pageSize + pageSize = (index + 1) * pageSize :=
        (Nat.succ_mul index pageSize).symm
      rw [List.range'_succ, List.map_cons, fetchPages_page, following,
        induction (index + 1) (by omega)]
      split
      · have joined : (results.drop (index * pageSize)).take pageSize ++
            results.drop ((index + 1) * pageSize) = results.drop (index * pageSize) := by
          rw [← following, ← List.drop_drop, List.take_append_drop]
        exact congrArg Except.ok joined
      · rfl

theorem fetchPages_pages (hasKey : Bool) (results : List Cve) :
    fetchPages hasKey (Server.pages results) 0 = .ok results := by
  have followed := @fetchPages_range hasKey results (results.length / pageSize) 0
    (Nat.zero_add _)
  rw [Nat.zero_mul, List.drop_zero] at followed
  rw [Server.pages, List.range_eq_range']
  exact followed

private theorem fetchPages_append {hasKey : Bool} {front back : Answers} {stop : Stop}
    {start : Nat} {records : List Cve}
    (fetched : fetchPages hasKey (front ++ [stop.answer]) start = .ok records) :
    fetchPages hasKey (front ++ back) start = .ok records := by
  induction front generalizing start records with
  | nil =>
      have notOk := stop.notOk
      cases status : stop.status with
      | none => simp [Stop.answer, status, fetchPages] at fetched
      | some code =>
          have different : code ≠ 200 := fun same => notOk (by rw [status, same])
          simp only [Stop.answer, status, Option.map_some, List.nil_append, fetchPages] at fetched
          split at fetched
          · cases fetched
          · cases fetched
  | cons answer front induction =>
      cases answer with
      | none => simp [fetchPages] at fetched
      | some response =>
          rw [List.cons_append, fetchPages] at fetched ⊢
          split at fetched
          · cases fetched
          rename_i accepted
          split at fetched
          · cases fetched
          rename_i ok
          rw [if_neg accepted, if_neg ok]
          split at fetched
          · rename_i empty
            rw [if_pos empty]
            exact fetched
          rename_i nonempty
          rw [if_neg nonempty]
          dsimp only at fetched ⊢
          split at fetched
          · rename_i more
            rw [if_pos more]
            split at fetched
            · cases fetched
            · rename_i later found
              rw [induction found]
              exact fetched
          · rename_i last
            rw [if_neg last]
            exact fetched

theorem fetchProduct_eq {hasKey : Bool} {product : Product} {stop : Option Stop}
    {results : List Cve} {records : List (Cve × List Range)}
    (fetched : fetchProduct hasKey product (answersUpTo stop results) = .ok records) :
    records = results.map fun cve => (cve, rangesFor cve product.cpe) := by
  have pages := fetchPages_pages hasKey results
  unfold fetchProduct at fetched
  split at fetched
  · cases fetched
  · rename_i fetchedPages found
    have same : fetchedPages = results := by
      unfold answersUpTo at found
      split at found
      · exact Except.ok.inj (found.symm.trans pages)
      · rename_i stop
        have followed := @fetchPages_append _ _ ((Server.pages results).drop stop.index) _ _ _ found
        rw [List.take_append_drop] at followed
        exact Except.ok.inj (followed.symm.trans pages)
    exact (Except.ok.inj fetched).symm.trans (by rw [same])

/-! ## What is stored after a sync -/

/-- What one sync does: it leaves the stored CVEs and the cursor alone, or writes what it fetched
and, when it succeeds, moves the cursor. -/
theorem syncProduct_cases (hasKey : Bool) (product : Product) (feed : Feed) (now : Int)
    (answers : Option Int → Answers) (fault : Option Fault) :
    let result := syncProduct hasKey product feed now answers fault
    (result.2 = none ∧ result.1.store = feed.store ∧
        result.1.state.cursor = feed.state.cursor) ∨
      ∃ records,
        fetchProduct hasKey product (answers (sinceOf feed.state now)) = .ok records ∧
          result.1.store =
            (feed.store.write product.key records (sinceOf feed.state now).isNone).1 ∧
          (result.2 = none ∧ result.1.state.cursor = feed.state.cursor ∨
            result.2.isSome ∧ result.1.state.cursor = some now) := by
  intro result
  simp only [result, syncProduct]
  split
  · exact .inl ⟨rfl, rfl, rfl⟩
  split
  · exact .inl ⟨rfl, rfl, rfl⟩
  rename_i records fetched
  split
  · exact .inl ⟨rfl, rfl, rfl⟩
  · right
    refine ⟨records, fetched, ?_⟩
    split
    · exact ⟨rfl, .inl ⟨rfl, rfl⟩⟩
    · exact ⟨rfl, .inr ⟨rfl, rfl⟩⟩

namespace Server

def answers (server : Server) (product : Product) (now : Int) (stop : Option Stop)
    (since : Option Int) : Answers :=
  answersUpTo stop (server.query product since now)

private theorem query_distinct (server : Server) (product : Product) (since : Option Int)
    (now : Int) :
    (((server.query product since now).map fun cve => (cve, rangesFor cve product.cpe)).map
      fun record => record.1.id).Nodup := by
  rw [List.map_map]
  exact (server.records.filter (asksFor product since now)).distinct

private theorem query_find (server : Server) (product : Product) (since : Option Int) (now : Int)
    (cveId : Text) :
    (((server.query product since now).map fun cve => (cve, rangesFor cve product.cpe)).find?
      fun record => record.1.id = cveId) =
        ((server.records.find cveId).filter (asksFor product since now)).map fun cve =>
          (cve, rangesFor cve product.cpe) := by
  rw [List.find?_map, ← Table.find_filter]
  rfl

end Server

theorem rangesOf_write_query (server : Server) (product : Product) (store : Store)
    (since : Option Int) (now : Int) (cveId : Text) :
    (store.write product.key
        ((server.query product since now).map fun cve => (cve, rangesFor cve product.cpe))
        since.isNone).1.rangesOf product.key cveId =
      match (server.records.find cveId).filter (Server.asksFor product since now) with
      | some cve => Store.latest cve (rangesFor cve product.cpe)
      | none => if since.isNone then [] else store.rangesOf product.key cveId := by
  rw [Store.rangesOf_write _ _ _ (server.query_distinct product since now), server.query_find]
  · cases (server.records.find cveId).filter (Server.asksFor product since now) <;> rfl
  · intro record member
    obtain ⟨cve, isCve, rfl⟩ := List.mem_map.mp member
    exact server.named cve (List.mem_of_mem_filter isCve)

end CveFeed
end DomainLens
