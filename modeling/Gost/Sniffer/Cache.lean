import Gost.Sniffer.Message

/-!
# The response cache

`x/internal/util/httpcache` over the memory store of `x/cache`. An entry is kept under the method,
the host and the target of a request; which responses are stored depends on the method, the status
and one header field of the response.
-/

namespace Sniffer

open Bytes Http List Reader

/-! ## Policy -/

/-- `httpcache.Policy`. Durations are integers. -/
structure Policy where
  defaultTTL : ℤ
  -- per status
  statusTTL : List (ℕ × ℤ)
  serveStale : Bool
  methods : List Bytes
  maxBodyBytes : ℤ

/-- `DefaultMaxBodyBytes`. -/
def defaultMaxBodyBytes : ℤ := 2 ^ 20

/-- `httpcache.New`. -/
def Policy.new (policy : Policy) : Policy :=
  { policy with
    methods := if policy.methods = [] then [bytes "GET", bytes "HEAD"] else policy.methods
    maxBodyBytes := if policy.maxBodyBytes ≤ 0 then defaultMaxBodyBytes else policy.maxBodyBytes }

/-- The policy without any settings. -/
def defaultPolicy : Policy :=
  Policy.new
    { defaultTTL := 0, statusTTL := [], serveStale := false, methods := [], maxBodyBytes := 0 }

/-- `httpcache.Key`. -/
def cacheKey (method host uri : Bytes) : Bytes := method ++ 32 :: (host ++ 32 :: uri)

/-- The key of a request. -/
def Request.key (req : Request) : Bytes := cacheKey req.method req.host req.requestURI

namespace Policy

/-- `CacheableRequest`. -/
def cacheableRequest (policy : Policy) (req : Request) : Bool := policy.methods.contains req.method

/-- `Cacheable`. -/
def cacheable (policy : Policy) (req : Request) (resp : Response) : Bool :=
  policy.cacheableRequest req && (200 ≤ resp.statusCode && resp.statusCode < 400) &&
    resp.header.get (bytes "X-Turbo-Short-Circuit") != bytes "true"

/-- `TTLFor`. -/
def ttlFor (policy : Policy) (status : ℕ) : ℤ :=
  (policy.statusTTL.lookup status).getD policy.defaultTTL

/-- What a `TeeWriter` has captured of the text. -/
def captured (policy : Policy) (text : Bytes) : Option Bytes :=
  if (text.length : ℤ) ≤ policy.maxBodyBytes then some text else none

end Policy

/-! ## Store -/

/-- An entry of the store. -/
structure Entry where
  data : Bytes
  -- `none` if it never expires
  expiration : Option ℕ
deriving DecidableEq, Repr

def Entry.expired (e : Entry) (now : ℕ) : Bool := e.expiration.any (· < now)

/-- `memoryCache`. -/
structure Store where
  defaultTTL : ℤ := 0
  entries : List (Bytes × Entry) := []

namespace Store

/-- `Get`. -/
def get (store : Store) (key : Bytes) : Option Entry :=
  (store.entries.find? (·.1 = key)).map (·.2)

/-- `Set`, without the eviction that may follow it. -/
def set (store : Store) (now : ℕ) (key data : Bytes) (ttl : ℤ) : Store :=
  let ttl := if ttl ≤ 0 then store.defaultTTL else ttl
  let e : Entry := { data, expiration := if 0 < ttl then some (now + ttl.toNat) else none }
  { store with entries := (key, e) :: store.entries.filter (·.1 ≠ key) }

/-- `Delete`, `cleanupLoop` and `evictLocked` remove entries. -/
def evict (store : Store) (keys : List Bytes) : Store :=
  { store with entries := store.entries.filter fun p => !keys.contains p.1 }

variable {store : Store} {key : Bytes} {e : Entry}

theorem data_of_get_set {now : ℕ} {data : Bytes} {ttl : ℤ}
    (h : (store.set now key data ttl).get key = some e) : e.data = data := by
  simp only [get, set, find?_cons, decide_true, Option.map_some, Option.some.injEq] at h
  exact h ▸ rfl

theorem get_set_ne (store : Store) (now : ℕ) {key' : Bytes} (data : Bytes) (ttl : ℤ)
    (hne : key' ≠ key) : (store.set now key data ttl).get key' = store.get key' := by
  have hothers : (store.entries.filter (·.1 ≠ key)).find? (·.1 = key') =
      store.entries.find? (·.1 = key') := by
    rw [find?_filter]
    congr 1
    funext p
    by_cases hp : p.1 = key'
    · simp [hp, hne]
    · simp [hp]
  rw [get, set, find?_cons_of_neg (by simpa using hne.symm), hothers]
  rfl

/-- Eviction changes no entry. -/
theorem get_of_evict {keys : List Bytes} (h : (store.evict keys).get key = some e) :
    store.get key = some e := by
  obtain ⟨p, hp, rfl⟩ := Option.map_eq_some_iff.mp h
  rw [evict, find?_filter] at hp
  have hfound := find?_some hp
  rw [decide_eq_true_eq, decide_eq_true_eq] at hfound
  refine Option.map_eq_some_iff.mpr ⟨p, ?_, rfl⟩
  rw [← hp]
  congr 1
  funext q
  by_cases hq : q.1 = key
  · simpa [hq, ← hfound.2] using hfound.1
  · simp [hq]

end Store

/-! ## Lookup -/

/-- What the cache has for a request. -/
inductive Lookup
  | miss
  | fresh (resp : Response)
  | stale (resp : Response)
deriving DecidableEq, Repr

/-- The response that may be served in place of the upstream's. -/
def Lookup.staleResp : Lookup → Option Response
  | .stale resp => some resp
  | _ => none

/-- `http.ReadResponse` for stored bytes, with the body. -/
def readStored (net : Net) (method data : Bytes) : Option Response :=
  (readResponse net method [⟨data, some .eof⟩] []).map fun p =>
    { p.1.1 with body := ((readBody net p.2.2 p.2.1 p.1.2).map (·.1)).getD [] }

/-- `Lookup`. -/
def lookup (net : Net) (store : Store) (now : ℕ) (req : Request) : Lookup :=
  match store.get req.key with
  | none => .miss
  | some e =>
    match readStored net req.method e.data with
    | none => .miss
    | some resp => if e.expired now then .stale resp else .fresh resp

end Sniffer
