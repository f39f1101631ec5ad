import Gost.Lib.Text
import Gost.Routing.Rules
import Gost.Sniffer.Hop

/-!
# The matchers of the routing rules

`httpFuncs` of `x/routing/matcher.go`. A matcher is made once, from the arguments in the rule, and
then called for each request. Regular expressions, numbers, IP addresses and JSON belong to other
packages, admissions and bypasses to the registries; none of them panics.

The only indices that depend on a request or an argument are those of `parseHost`, which are always
in range, and `host[0]` in `host`. An argument passes `CheckRule` if it is not empty, but `host`
trims it afterwards, so `host[0]` is out of range for an argument of blanks.
-/

namespace Routing

open Bytes List Option Sniffer

/-- The names in `httpFuncs`. -/
inductive Name
  | clientIP | network | proto | host | hostRegexp | method | path | pathRegexp | pathPrefix
  | header | headerRegexp | query | queryRegexp | bodyJSON | bodyRegexp | bypass | admission
deriving DecidableEq, Repr

/-- The packages and the registries that the matchers call. -/
structure Packages (Re F IP IPNet : Type*) where
  /-- `strings.ToLower` -/
  toLower : Bytes → Bytes
  /-- `strings.ToUpper` -/
  toUpper : Bytes → Bytes
  /-- `regexp.Compile` and `Regexp.Match` -/
  compile : Bytes → Option Re
  matchString : Re → Bytes → Bool
  /-- `strconv.ParseFloat` and the comparisons of floats -/
  parseFloat : Bytes → Option F
  lt : F → F → Bool
  le : F → F → Bool
  eq : F → F → Bool
  /-- `gjson.GetBytes(body, path).String()` -/
  getBytes : Bytes → Bytes → Bytes
  /-- `net.ParseIP`, `net.ParseCIDR`, `IP.Equal`, `IPNet.Contains` and `IP.String` -/
  parseIP : Bytes → Option IP
  parseCIDR : Bytes → Option IPNet
  equal : IP → Bytes → Bool
  contains : IPNet → Bytes → Bool
  string : Bytes → Bytes
  /-- `AdmissionRegistry().Get(name)`, with the network and the address -/
  admission : Bytes → Option (Bytes → Bytes → Bool)
  /-- `BypassRegistry().Get(name)` -/
  bypass : Bytes → Option Bypass
  -- each character is mapped to a character
  toLower_eq_nil_iff : ∀ s, toLower s = [] ↔ s = []

inductive MatcherError
  | parameters (got : ℕ) (expected : List ℕ)
  | invalidValue (clientIP : Bytes)
  | nonASCII (matcher : Name) (value : Bytes)
  | compiling (matcher : Name) (pattern : Bytes)
  | path (value : Bytes)
  | unknownOperator (op : Bytes)
  | compareValue (value : Bytes)
deriving DecidableEq, Repr

/-- What a function of `httpFuncs` returns: an error, or it sets `tree.matcher`. -/
abbrev Compiled := Except MatcherError (MatcherFunc RoutingRequest)

/-- `expectNParameters`. A function gets its first argument and the others: no `n` admits none. -/
def expectNParameters (fn : Bytes → List Bytes → Compiled) (n : List ℕ) : List Bytes → Compiled
  | [] => .error (.parameters 0 n)
  | first :: rest =>
    if rest.length + 1 ∈ n then fn first rest else .error (.parameters (rest.length + 1) n)

/-- `IsASCII`. -/
def isASCII (s : Bytes) : Bool := s.all (· < 0x80)

/-- `parseHost`, `none` for an index out of range. -/
def parseHost (addr : Bytes) : Option Bytes :=
  if 58 ∉ addr then some addr
  else
    match HostPort.splitHostPort addr with
    | some (host, _) => some host
    | none =>
      match addr.head?, addr.getLast? with
      | some first, some last =>
        if first = 91 ∧ last = 93 then
          -- `addr[1 : len(addr)-1]`
          if 2 ≤ addr.length then some (addr.drop 1).dropLast else none
        else some addr
      | _, _ => none

section Matchers

variable {Re F IP IPNet : Type*} (p : Packages Re F IP IPNet)

/-- A matcher that indexes nothing. -/
def plain (f : RoutingRequest → Bool) : Compiled := .ok fun req => some (f req)

/-- `regexp.Compile`, with the error of the matcher. -/
def compilePattern (matcher : Name) (pattern : Bytes) : Except MatcherError Re :=
  match p.compile pattern with
  | some re => .ok re
  | none => .error (.compiling matcher pattern)

/-! ## Comparisons -/

inductive CompareOp
  | gt | ge | lt | le | eq | ne
deriving DecidableEq, Repr

def CompareOp.parse (op : Bytes) : Option CompareOp :=
  if op = bytes "gt" then some .gt
  else if op = bytes "ge" then some .ge
  else if op = bytes "lt" then some .lt
  else if op = bytes "le" then some .le
  else if op = bytes "eq" then some .eq
  else if op = bytes "ne" then some .ne
  else none

/-- `compareOp`. -/
def compareOp (f compVal : F) : CompareOp → Bool
  | .gt => p.lt compVal f
  | .ge => p.le compVal f
  | .lt => p.lt f compVal
  | .le => p.le f compVal
  | .eq => p.eq f compVal
  | .ne => !p.eq f compVal

/-- `parseCompareParams`, with the arguments after the first. -/
def parseCompareParams : List Bytes → Except MatcherError (Option (CompareOp × F))
  | op :: value :: _ =>
    match CompareOp.parse op, p.parseFloat value with
    | none, _ => .error (.unknownOperator op)
    | some _, none => .error (.compareValue value)
    | some op, some v => .ok (some (op, v))
  | _ => .ok none

/-- Whether a text is a number that compares. -/
def compareText (cmp : CompareOp × F) (text : Bytes) : Bool :=
  (p.parseFloat text).any fun f => compareOp p f cmp.2 cmp.1

/-! ## The matchers -/

/-- `clientIP`. -/
def clientIP (value : Bytes) (_ : List Bytes) : Compiled :=
  match p.parseIP value, p.parseCIDR value with
  | some ip, _ => plain fun req => req.clientIP ≠ [] && p.equal ip req.clientIP
  | none, some ipNet => plain fun req => req.clientIP ≠ [] && p.contains ipNet req.clientIP
  | none, none => .error (.invalidValue value)

/-- `proto`. -/
def proto (value : Bytes) (_ : List Bytes) : Compiled :=
  plain fun req => p.toLower value = req.protocol

/-- `network`. -/
def network (value : Bytes) (_ : List Bytes) : Compiled :=
  plain fun req => (p.toLower value).isPrefixOf req.network

/-- `method`. -/
def method (value : Bytes) (_ : List Bytes) : Compiled :=
  plain fun req => p.toUpper value = req.method

/-- The argument of `host` as the requests are compared with it. -/
def hostPattern (value : Bytes) : Bytes :=
  let host := p.toLower (Text.trimSpace value)
  if host.head? = some 0x2a then
    if (host.drop 1).head? = some 0x2e then host.drop 1 else 0x2e :: host.drop 1
  else host

/-- The closure of `host`. -/
def matchHost (host : Bytes) : MatcherFunc RoutingRequest := fun req =>
  (parseHost req.host).bind fun addr =>
    let reqHost := p.toLower (Text.trimSpace addr)
    if reqHost = [] then some false
    else if reqHost = host then some true
    else
      -- `host[0]`
      match host with
      | [] => none
      | c :: _ => some (c = 0x2e && host.isSuffixOf reqHost)

/-- `host`. -/
def host (value : Bytes) (_ : List Bytes) : Compiled :=
  if isASCII value then .ok (matchHost p (hostPattern p value)) else .error (.nonASCII .host value)

/-- `hostRegexp`. -/
def hostRegexp (value : Bytes) (_ : List Bytes) : Compiled :=
  if isASCII value then
    (compilePattern p .hostRegexp value).bind fun re => .ok fun req =>
      (parseHost req.host).map fun addr => p.matchString re (p.toLower (Text.trimSpace addr))
  else .error (.nonASCII .hostRegexp value)

/-- `path`. -/
def path (value : Bytes) (_ : List Bytes) : Compiled :=
  if value.head? = some 0x2f then plain fun req => req.path = value else .error (.path value)

/-- `pathRegexp`. -/
def pathRegexp (value : Bytes) (_ : List Bytes) : Compiled :=
  (compilePattern p .pathRegexp value).bind fun re => plain fun req => p.matchString re req.path

/-- `pathPrefix`. -/
def pathPrefix (value : Bytes) (_ : List Bytes) : Compiled :=
  if value.head? = some 0x2f then plain fun req => value.isPrefixOf req.path
  else .error (.path value)

/-- `header` and `query`, with the values of the key in the request. -/
def field (values : RoutingRequest → List Bytes) (rest : List Bytes) : Compiled :=
  (parseCompareParams p rest).bind fun
    | some cmp => plain fun req => (values req).any (compareText p cmp)
    | none =>
      match rest with
      | [] => plain fun req => values req ≠ []
      | value :: _ => plain fun req => (values req).contains value

/-- `headerRegexp` and `queryRegexp`. -/
def fieldRegexp (matcher : Name) (values : RoutingRequest → List Bytes) (rest : List Bytes) :
    Compiled :=
  match rest with
  | [] => field p values []
  | value :: _ =>
    (compilePattern p matcher value).bind fun re =>
      plain fun req => (values req).any (p.matchString re)

/-- `header`. -/
def header (key : Bytes) (rest : List Bytes) : Compiled :=
  field p (fun req => req.header.values key) rest

/-- `headerRegexp`. -/
def headerRegexp (key : Bytes) (rest : List Bytes) : Compiled :=
  fieldRegexp p .headerRegexp (fun req => req.header.values key) rest

/-- `req.Query[key]`. -/
def queryValues (key : Bytes) (req : RoutingRequest) : List Bytes :=
  (req.query.filter (·.1 = key)).map (·.2)

/-- `query`. -/
def query (key : Bytes) (rest : List Bytes) : Compiled :=
  field p (queryValues key) rest

/-- `queryRegexp`. -/
def queryRegexp (key : Bytes) (rest : List Bytes) : Compiled :=
  fieldRegexp p .queryRegexp (queryValues key) rest

/-- `bodyRegexp`. -/
def bodyRegexp (pattern : Bytes) (_ : List Bytes) : Compiled :=
  (compilePattern p .bodyRegexp pattern).bind fun re =>
    plain fun req => req.body ≠ [] && p.matchString re req.body

/-- `bodyJSON`, which gets two or three arguments. -/
def bodyJSON (path : Bytes) (rest : List Bytes) : Compiled :=
  (parseCompareParams p rest).bind fun
    | some cmp =>
      plain fun req => req.body ≠ [] && compareText p cmp (p.getBytes req.body path)
    | none =>
      (compilePattern p .bodyJSON (rest.headD [])).bind fun re =>
        plain fun req => req.body ≠ [] && p.matchString re (p.getBytes req.body path)

/-- `admission`. -/
def admission (name : Bytes) (_ : List Bytes) : Compiled :=
  plain fun req => req.clientIP ≠ [] &&
    (p.admission name).any fun allow => allow (bytes "ip") (p.string req.clientIP)

/-- `bypass`. -/
def bypass (name : Bytes) (_ : List Bytes) : Compiled :=
  plain fun req => (p.bypass name).any fun contains => !contains ⟨bytes "tcp", req.host, [], [], []⟩

/-- `httpFuncs`. -/
def httpFuncs : Name → List Bytes → Compiled
  | .clientIP => expectNParameters (clientIP p) [1]
  | .network => expectNParameters (network p) [1]
  | .proto => expectNParameters (proto p) [1]
  | .host => expectNParameters (host p) [1]
  | .hostRegexp => expectNParameters (hostRegexp p) [1]
  | .method => expectNParameters (method p) [1]
  | .path => expectNParameters path [1]
  | .pathRegexp => expectNParameters (pathRegexp p) [1]
  | .pathPrefix => expectNParameters pathPrefix [1]
  | .header => expectNParameters (header p) [1, 2, 3]
  | .headerRegexp => expectNParameters (headerRegexp p) [1, 2]
  | .query => expectNParameters (query p) [1, 2, 3]
  | .queryRegexp => expectNParameters (queryRegexp p) [1, 2]
  | .bodyJSON => expectNParameters (bodyJSON p) [2, 3]
  | .bodyRegexp => expectNParameters (bodyRegexp p) [1]
  | .bypass => expectNParameters (bypass p) [1]
  | .admission => expectNParameters (admission p) [1]

end Matchers

/-! ## Indices in range -/

theorem isSome_parseHost (addr : Bytes) : (parseHost addr).isSome = true := by
  unfold parseHost
  by_cases hcolon : 58 ∉ addr
  · rw [if_pos hcolon, isSome_some]
  rw [if_neg hcolon]
  cases HostPort.splitHostPort addr with
  | some parts => rfl
  | none =>
    -- the address holds a colon, so it has a first and a last byte
    match addr with
    | [] => exact absurd (not_mem_nil) hcolon
    | [c] =>
      have hc : c ≠ 91 := by
        rintro rfl
        exact hcolon (by decide)
      simp [hc]
    | a :: b :: rest =>
      show (if _ then (if _ then _ else _) else _ : Option Bytes).isSome = true
      rw [if_pos (by simp : 2 ≤ (a :: b :: rest).length)]
      split_ifs <;> rfl

/-- What a function of `httpFuncs` returns does not panic. -/
def Total (c : Compiled) : Prop := ∀ f, c = .ok f → ∀ req, (f req).isSome = true

theorem total_plain (f : RoutingRequest → Bool) : Total (plain f) := by
  intro g hg req
  rw [← Except.ok.inj hg, isSome_some]

theorem total_error (e : MatcherError) : Total (.error e) := nofun

theorem total_bind {α : Type*} {c : Except MatcherError α} {k : α → Compiled}
    (h : ∀ a, Total (k a)) : Total (c.bind k) := by
  cases c with
  | error e => exact total_error e
  | ok a => exact h a

theorem total_ite {P : Prop} [Decidable P] {c d : Compiled} (hc : Total c) (hd : Total d) :
    Total (if P then c else d) := by
  split_ifs
  · exact hc
  · exact hd

theorem total_expectNParameters {fn : Bytes → List Bytes → Compiled} (n : List ℕ)
    (h : ∀ first rest, Total (fn first rest)) (args : List Bytes) :
    Total (expectNParameters fn n args) := by
  cases args with
  | nil => exact total_error _
  | cons first rest => exact total_ite (h first rest) (total_error _)

variable {Re F IP IPNet : Type*} (p : Packages Re F IP IPNet)

theorem total_clientIP (value : Bytes) (rest : List Bytes) : Total (clientIP p value rest) := by
  unfold clientIP
  cases p.parseIP value with
  | some ip => exact total_plain _
  | none =>
    cases p.parseCIDR value with
    | some ipNet => exact total_plain _
    | none => exact total_error _

theorem total_hostRegexp (value : Bytes) (rest : List Bytes) :
    Total (hostRegexp p value rest) := by
  refine total_ite (total_bind fun re => ?_) (total_error _)
  intro f hf req
  rw [← Except.ok.inj hf, isSome_map]
  exact isSome_parseHost req.host

theorem total_field (values : RoutingRequest → List Bytes) (rest : List Bytes) :
    Total (field p values rest) := by
  refine total_bind fun cmp => ?_
  cases cmp with
  | some cmp => exact total_plain _
  | none => cases rest <;> exact total_plain _

theorem total_fieldRegexp (matcher : Name) (values : RoutingRequest → List Bytes)
    (rest : List Bytes) : Total (fieldRegexp p matcher values rest) := by
  cases rest with
  | nil => exact total_field p values []
  | cons value rest => exact total_bind fun re => total_plain _

theorem total_bodyJSON (value : Bytes) (rest : List Bytes) : Total (bodyJSON p value rest) := by
  refine total_bind fun cmp => ?_
  cases cmp with
  | some cmp => exact total_plain _
  | none => exact total_bind fun re => total_plain _

theorem total_httpFuncs {name : Name} (h : name ≠ .host) (args : List Bytes) :
    Total (httpFuncs p name args) := by
  cases name with
  | host => exact absurd rfl h
  | clientIP => exact total_expectNParameters _ (total_clientIP p) args
  | network | proto | method | bypass | admission =>
    exact total_expectNParameters _ (fun _ _ => total_plain _) args
  | hostRegexp => exact total_expectNParameters _ (total_hostRegexp p) args
  | path | pathPrefix =>
    exact total_expectNParameters _ (fun _ _ => total_ite (total_plain _) (total_error _)) args
  | pathRegexp | bodyRegexp =>
    exact total_expectNParameters _ (fun _ _ => total_bind fun _ => total_plain _) args
  | header | query => exact total_expectNParameters _ (fun _ rest => total_field p _ rest) args
  | headerRegexp | queryRegexp =>
    exact total_expectNParameters _ (fun _ rest => total_fieldRegexp p _ _ rest) args
  | bodyJSON => exact total_expectNParameters _ (total_bodyJSON p) args

/-! ## `host[0]` -/

theorem hostPattern_eq_nil_iff (value : Bytes) :
    hostPattern p value = [] ↔ Text.trimSpace value = [] := by
  rw [← p.toLower_eq_nil_iff (Text.trimSpace value), hostPattern]
  generalize p.toLower (Text.trimSpace value) = host
  -- a wildcard leaves at least the dot
  cases host with
  | nil => exact iff_of_true rfl rfl
  | cons c rest =>
    refine iff_of_false ?_ (cons_ne_nil c rest)
    show (if _ then (if _ then rest else 0x2e :: rest) else c :: rest) ≠ []
    split_ifs with hstar hdot
    · exact ne_nil_of_mem (mem_of_head? hdot)
    · exact cons_ne_nil _ rest
    · exact cons_ne_nil c rest

theorem matchHost_eq_none_iff (host : Bytes) (req : RoutingRequest) :
    matchHost p host req = none ↔
      host = [] ∧ ∃ addr, parseHost req.host = some addr ∧ Text.trimSpace addr ≠ [] := by
  obtain ⟨addr, haddr⟩ := isSome_iff_exists.mp (isSome_parseHost req.host)
  rw [matchHost, haddr, bind_some]
  simp only [some.injEq, exists_eq_left', ne_eq, ← p.toLower_eq_nil_iff (Text.trimSpace addr)]
  by_cases hnil : p.toLower (Text.trimSpace addr) = []
  · rw [if_pos hnil]
    exact iff_of_false nofun fun h => h.2 hnil
  rw [if_neg hnil]
  cases host with
  | nil => exact iff_of_true (if_neg hnil) ⟨rfl, hnil⟩
  | cons c rest =>
    refine iff_of_false ?_ fun h => cons_ne_nil _ _ h.1
    split_ifs <;> nofun

theorem compiles_host_iff {args : List Bytes} {f : MatcherFunc RoutingRequest} :
    httpFuncs p .host args = .ok f ↔
      ∃ value, args = [value] ∧ isASCII value = true ∧ f = matchHost p (hostPattern p value) := by
  constructor
  · intro h
    match args, h with
    | [value], h =>
      change (if isASCII value then _ else _ : Compiled) = .ok f at h
      split_ifs at h with hascii
      exact ⟨value, rfl, hascii, (Except.ok.inj h).symm⟩
  · rintro ⟨value, rfl, hascii, rfl⟩
    exact if_pos hascii

namespace Tree

/-- An accepted rule is evaluated without an index out of range exactly if no `Host` that is reached
has an argument of blanks only, or the host of the request is blank itself. -/
theorem indices_in_range_iff (p : Packages Re F IP IPNet) (t : Tree Name)
    (m : MatchersTree RoutingRequest) (h : addRule (httpFuncs p) t = .ok m)
    (req : RoutingRequest) :
    (m.matchRequest req).isSome = true ↔
      ∀ value addr, (Name.host, [value]) ∈ t.visits (httpFuncs p) req →
        parseHost req.host = some addr →
        Text.trimSpace value = [] → Text.trimSpace addr = [] := by
  rw [matchRequest_eq_outcome h, isSome_iff_ne_none, ne_eq, outcome_eq_none_iff h]
  constructor
  · intro hsafe value addr hmem haddr hvalue
    by_contra hne
    -- an accepted leaf has been compiled
    obtain ⟨f, hf⟩ := exists_compiles_of_mem_visits h hmem
    obtain ⟨value', hargs, -, rfl⟩ := (compiles_host_iff p).mp hf.funcs_eq
    obtain rfl : value = value' := by simpa using hargs
    refine hsafe ⟨_, hmem, _, hf, ?_⟩
    rw [matchHost_eq_none_iff, hostPattern_eq_nil_iff]
    exact ⟨hvalue, addr, haddr, hne⟩
  · rintro hsafe ⟨⟨name, args⟩, hmem, f, hf, hnone⟩
    by_cases hname : name = .host
    · subst hname
      obtain ⟨value, rfl, -, rfl⟩ := (compiles_host_iff p).mp hf.funcs_eq
      rw [matchHost_eq_none_iff, hostPattern_eq_nil_iff] at hnone
      obtain ⟨hvalue, addr, haddr, hne⟩ := hnone
      exact hne (hsafe value addr hmem haddr hvalue)
    · have hsome := total_httpFuncs p hname args f hf.funcs_eq req
      rw [hnone] at hsome
      exact absurd hsome Bool.false_ne_true

/-- Packages for rules without patterns, numbers and addresses. -/
def asciiPackages : Packages Empty Empty Empty Empty where
  toLower s := s.map Http.toLower
  toUpper s := s.map Http.toUpper
  compile _ := none
  matchString _ _ := false
  parseFloat _ := none
  lt _ _ := false
  le _ _ := false
  eq _ _ := false
  getBytes _ _ := []
  parseIP _ := none
  parseCIDR _ := none
  equal _ _ := false
  contains _ _ := false
  string s := s
  admission _ := none
  bypass _ := none
  toLower_eq_nil_iff _ := List.map_eq_nil_iff

/-- A request for a host. -/
def requestTo (host : Bytes) : RoutingRequest :=
  ⟨[], bytes "tcp", host, bytes "http", bytes "GET", bytes "/", [], [], []⟩

/-- A rule whose second `Host` has an argument of blanks. -/
def wildcardOrBlank : Tree Name :=
  orFunc (matcherFunc .host [bytes "*.example.com"]) (matcherFunc .host [bytes " "])

/-- The second `Host` is not reached. -/
theorem indices_in_range_wildcard :
    ∃ m, addRule (httpFuncs asciiPackages) wildcardOrBlank = .ok m ∧
      (m.matchRequest (requestTo (bytes "a.example.com:80"))).isSome = true := by
  refine ⟨_, rfl, (indices_in_range_iff asciiPackages wildcardOrBlank _ rfl _).mpr ?_⟩
  intro value addr hmem haddr hvalue
  have hvisits : value = bytes "*.example.com" := by
    have hmem' : (Name.host, [value]) ∈ [(Name.host, [bytes "*.example.com"])] := hmem
    simpa using hmem'
  rw [hvisits] at hvalue
  exact absurd hvalue (by decide)

theorem host_of_blanks_panics :
    ∃ m, addRule (httpFuncs asciiPackages) (matcherFunc .host [bytes " "]) = .ok m ∧
      m.matchRequest (requestTo (bytes "example.com")) = none := by
  refine ⟨_, rfl, ?_⟩
  decide

end Tree

end Routing
