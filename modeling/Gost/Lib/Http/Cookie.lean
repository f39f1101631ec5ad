import Mathlib.Data.List.DropRight
import Gost.Lib.Http.Header

/-!
# Cookies

The cookies of a request travel in the `Cookie` field, as a text that `AddCookie` extends and
`Cookie` parses. `sentCookies` are the cookies a server finds, `addedCookies` those that one
`AddCookie` contributes: the cookie itself for a token name and a clean value (`addedCookies_eq`),
and never one whose name is not a token.
-/

namespace Http

open Bytes List

/-- ASCII white space. -/
def isSpace (c : UInt8) : Bool := c == 32 || c == 9 || c == 10 || c == 13

/-- `TrimString`. -/
def trim (s : Bytes) : Bytes := (s.dropWhile isSpace).rdropWhile isSpace

/-- Bytes of a cookie value. -/
def isCookieByte (c : UInt8) : Bool := 32 ≤ c && c < 127 && c != 34 && c != 59 && c != 92

/-- `parseCookieValue`, with double quotes removed. -/
def parseCookieValue (s : Bytes) : Option Bytes :=
  let v := if 1 < s.length ∧ s.head? = some 34 ∧ s.getLast? = some 34 then s.tail.dropLast else s
  if v.all isCookieByte then some v else none

/-- One part of a cookie line; `none` if it is skipped. -/
def readPart (part : Bytes) : Option (Bytes × Bytes) :=
  if trim part = [] then none
  else
    let name := trim (cut 61 (trim part)).1
    if IsToken name then (parseCookieValue (cut 61 (trim part)).2).map (name, ·) else none

/-- The cookies of a line. -/
def readLine (line : Bytes) : List (Bytes × Bytes) := (line.splitOn 59).filterMap readPart

/-- `sanitizeCookieName`. -/
def sanitizeName (name : Bytes) : Bytes := name.map fun c => if c = 10 ∨ c = 13 then 45 else c

/-- `sanitizeCookieValue`. -/
def sanitizeValue (value : Bytes) : Bytes :=
  let v := value.filter isCookieByte
  if 32 ∈ v ∨ 44 ∈ v then 34 :: v ++ [34] else v

/-- A value that is sent as it is. -/
def CleanValue (v : Bytes) : Prop := ∀ c ∈ v, isCookieByte c = true ∧ c ≠ 32 ∧ c ≠ 44

namespace Header

/-- `Request.AddCookie`. -/
def addCookie (h : Header) (name value : Bytes) : Header :=
  let s := sanitizeName name ++ 61 :: sanitizeValue value
  let line := h.get (bytes "Cookie")
  h.set (bytes "Cookie") (if line = [] then s else line ++ 59 :: 32 :: s)

/-- The cookies of a received request. -/
def cookies (h : Header) : List (Bytes × Bytes) := (h.values (bytes "Cookie")).flatMap readLine

/-- `Request.Cookie`; `none` for `ErrNoCookie`. -/
def cookie (h : Header) (name : Bytes) : Option Bytes :=
  if name = [] then none else ((h.cookies.filter (·.1 = name)).map Prod.snd).head?

/-- The values of a cookie that are sent. -/
def sentCookies (h : Header) (name : Bytes) : List Bytes :=
  (((h.wire (bytes "Cookie")).flatMap readLine).filter (·.1 = name)).map Prod.snd

/-- The values of a cookie in the line that the next `AddCookie` extends. -/
def lineCookies (h : Header) (name : Bytes) : List Bytes :=
  ((readLine (h.get (bytes "Cookie"))).filter (·.1 = name)).map Prod.snd

/-- The values of the cookie `name'` in what `AddCookie` writes for `name` and `value`. -/
def addedCookies (name value name' : Bytes) : List Bytes :=
  ((readLine (sanitizeName name ++ 61 :: sanitizeValue value)).filter (·.1 = name')).map Prod.snd

end Header

/-! ## One cookie -/

variable {c : UInt8} {name : Bytes}

theorem isSpace_of_isTokenByte (h : isTokenByte c = true) : isSpace c = false :=
  forall_byte (P := fun c => isTokenByte c = true → isSpace c = false) (by decide +kernel) c h

theorem trim_eq_self {s : Bytes} (hhead : ∀ c ∈ s.head?, isSpace c = false)
    (hlast : ∀ c ∈ s.getLast?, isSpace c = false) : trim s = s := by
  have hdrop : s.dropWhile isSpace = s := by
    cases s with
    | nil => rfl
    | cons c s => exact dropWhile_cons_of_neg (by simp [hhead c rfl])
  rw [trim, hdrop, rdropWhile_eq_self_iff]
  intro hne
  simp [hlast _ (getLast?_eq_getLast_of_ne_nil hne)]

theorem IsToken.trim_eq (h : IsToken name) : trim name = name :=
  trim_eq_self (fun c hc => isSpace_of_isTokenByte (h.2 c (mem_of_mem_head? hc)))
    fun c hc => isSpace_of_isTokenByte (h.2 c (mem_of_mem_getLast? hc))

theorem IsToken.notMem (h : IsToken name) : 61 ∉ name ∧ 59 ∉ name := by
  constructor
  · intro hmem
    exact absurd (h.2 _ hmem) (by decide)
  · intro hmem
    exact absurd (h.2 _ hmem) (by decide)

theorem IsToken.sanitizeName_eq (h : IsToken name) : sanitizeName name = name := by
  refine (map_congr_left fun c hc => ?_).trans (map_id _)
  have hc := isSpace_of_isTokenByte (h.2 c hc)
  rw [if_neg]
  · rfl
  · rintro (rfl | rfl) <;> exact absurd hc (by decide)

namespace CleanValue

variable {v : Bytes}

theorem sanitizeValue_eq (h : CleanValue v) : sanitizeValue v = v := by
  have hfilter : v.filter isCookieByte = v := filter_eq_self.mpr fun c hc => (h c hc).1
  rw [sanitizeValue, hfilter]
  refine if_neg ?_
  rintro (hmem | hmem)
  · exact (h _ hmem).2.1 rfl
  · exact (h _ hmem).2.2 rfl

theorem notMem (h : CleanValue v) : 59 ∉ v := fun hmem => absurd (h _ hmem).1 (by decide)

theorem isSpace_eq_false (h : CleanValue v) (hc : c ∈ v) : isSpace c = false :=
  forall_byte (P := fun c => isCookieByte c = true ∧ c ≠ 32 ∧ c ≠ 44 → isSpace c = false)
    (by decide +kernel) c (h c hc)

theorem parseCookieValue_eq (h : CleanValue v) : parseCookieValue v = some v := by
  have hquote : v.head? ≠ some 34 := fun hq =>
    absurd (h 34 (mem_of_mem_head? hq)).1 (by decide)
  have hall : v.all isCookieByte = true := all_eq_true.mpr fun c hc => (h c hc).1
  have hself : (if 1 < v.length ∧ v.head? = some 34 ∧ v.getLast? = some 34 then v.tail.dropLast
      else v) = v := if_neg fun hq => hquote hq.2.1
  rw [parseCookieValue, hself]
  exact if_pos hall

end CleanValue

/-- A cookie is read as it was written. -/
theorem readPart_cookie {value : Bytes} (hname : IsToken name) (hvalue : CleanValue value) :
    readPart (name ++ 61 :: value) = some (name, value) := by
  have htrim : trim (name ++ 61 :: value) = name ++ 61 :: value := by
    refine trim_eq_self (fun c hc => ?_) fun c hc => ?_
    · obtain ⟨d, rest, rfl⟩ := exists_cons_of_ne_nil hname.1
      rw [← Option.some.inj hc]
      exact isSpace_of_isTokenByte (hname.2 d mem_cons_self)
    · rw [getLast?_append_cons] at hc
      rcases mem_cons.mp (mem_of_mem_getLast? hc) with rfl | hmem
      · decide
      · exact hvalue.isSpace_eq_false hmem
  rw [readPart, htrim, if_neg (by simp), cut_append _ hname.notMem.1]
  rw [hname.trim_eq, if_pos hname, hvalue.parseCookieValue_eq, Option.map_some]

/-- Names that are not tokens are skipped. -/
theorem isToken_of_readPart {part : Bytes} {p : Bytes × Bytes} (h : readPart part = some p) :
    IsToken p.1 := by
  unfold readPart at h
  dsimp only at h
  split_ifs at h with hnil hname
  obtain ⟨v, -, rfl⟩ := Option.map_eq_some_iff.mp h
  exact hname

/-- The space that `AddCookie` puts between cookies does not matter. -/
theorem readPart_space (part : Bytes) : readPart (32 :: part) = readPart part := by
  have htrim : trim (32 :: part) = trim part := by
    rw [trim, dropWhile_cons_of_pos (by decide), trim]
  rw [readPart, htrim, readPart]

theorem readLine_space (line : Bytes) : readLine (32 :: line) = readLine line := by
  obtain ⟨part, parts, hsplit⟩ := exists_cons_of_ne_nil (splitOn_ne_nil 59 line)
  rw [readLine, splitOn_cons_eq_if_modifyHead, if_neg (by decide), readLine, hsplit,
    modifyHead_cons, filterMap_cons, readPart_space, filterMap_cons]

theorem readLine_append (line line' : Bytes) :
    readLine (line ++ 59 :: line') = readLine line ++ readLine line' := by
  rw [readLine, splitOn_append_cons_self, filterMap_append, readLine, readLine]

/-! ## The cookies of a header -/

namespace Header

variable {h got : Header} {name name' value : Bytes}

theorem lineCookies_addCookie :
    (h.addCookie name value).lineCookies name' =
      h.lineCookies name' ++ addedCookies name value name' := by
  have hline : readLine ((h.addCookie name value).get (bytes "Cookie")) =
      readLine (h.get (bytes "Cookie")) ++
        readLine (sanitizeName name ++ 61 :: sanitizeValue value) := by
    rw [addCookie, get_set_self]
    split_ifs with hnil
    · rw [hnil]
      rfl
    · rw [readLine_append, readLine_space]
  rw [lineCookies, hline, filter_append, map_append, lineCookies, addedCookies]

theorem addedCookies_eq (hname : IsToken name) (hvalue : CleanValue value) :
    addedCookies name value name' = if name = name' then [value] else [] := by
  have hmem : 59 ∉ name ++ 61 :: value := by simp [hname.notMem.2, hvalue.notMem]
  rw [addedCookies, hname.sanitizeName_eq, hvalue.sanitizeValue_eq, readLine,
    splitOn_eq_singleton hmem, filterMap_cons, readPart_cookie hname hvalue]
  split_ifs with heq
  · simp [heq]
  · simp [heq]

theorem addedCookies_eq_nil (hname : ¬IsToken name') : addedCookies name value name' = [] := by
  rw [addedCookies, map_eq_nil_iff, filter_eq_nil_iff]
  intro p hp heq
  obtain ⟨part, -, hpart⟩ := mem_filterMap.mp hp
  rw [decide_eq_true_eq] at heq
  exact hname (heq ▸ isToken_of_readPart hpart)

/-- After a cookie was added there is one line, and all cookies sent are in it. -/
theorem sentCookies_addCookie
    (hstored : ∀ p ∈ h, canonical p.1 = bytes "Cookie" → p.1 = bytes "Cookie") :
    (h.addCookie name value).sentCookies name' = (h.addCookie name value).lineCookies name' := by
  have hwire : (h.addCookie name value).wire (bytes "Cookie") =
      [(h.addCookie name value).get (bytes "Cookie")] := by
    rw [addCookie, get_set_self]
    refine wire_set_self ?_
    exact hstored
  rw [sentCookies, hwire, lineCookies, flatMap_singleton]

/-- Fields other than `Cookie` do not matter. -/
theorem sentCookies_set (hne : canonical name ≠ bytes "Cookie") :
    (h.set name value).sentCookies name' = h.sentCookies name' := by
  rw [sentCookies, wire_set_ne hne, sentCookies]

theorem lineCookies_set (hne : canonical name ≠ bytes "Cookie") :
    (h.set name value).lineCookies name' = h.lineCookies name' := by
  rw [lineCookies, get_set_ne hne, lineCookies]

/-- Cookies do not matter for fields other than `Cookie`. -/
theorem wire_addCookie (hne : canonical name' ≠ bytes "Cookie") :
    (h.addCookie name value).wire name' = h.wire name' :=
  wire_set_ne (Ne.symm hne)

/-- A server finds the cookies that were sent. -/
theorem Received.cookies_perm (hgot : Received h got) (name : Bytes) :
    ((got.cookies.filter (·.1 = name)).map Prod.snd).Perm (h.sentCookies name) :=
  (((hgot.values_perm (bytes "Cookie")).flatMap_right readLine).filter _).map _

theorem Received.cookie_eq (hgot : Received h got) (hname : name ≠ [])
    (hsent : h.sentCookies name = [value]) : got.cookie name = some value := by
  have hperm := hgot.cookies_perm name
  rw [hsent] at hperm
  rw [cookie, if_neg hname, perm_singleton.mp hperm]
  rfl

theorem Received.cookie_eq_none (hgot : Received h got) (hsent : h.sentCookies name = []) :
    got.cookie name = none := by
  have hperm := hgot.cookies_perm name
  rw [hsent] at hperm
  rw [cookie, perm_nil.mp hperm]
  exact ite_self _

end Header

end Http
