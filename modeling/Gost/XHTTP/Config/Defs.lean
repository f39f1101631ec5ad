import Gost.Lib.Bytes
import Gost.XHTTP.Config.Range

/-!
# The configuration of the transport

`Config` of `xhttp/config/config.go`, shared by the dialer and the listener, and its normalised
settings. The strings that select a placement or a padding method are enumerations here; every
string that the code does not know is `other`.
-/

namespace XHTTP

open Bytes

/-- Where a piece of metadata, padding or payload is carried in a request. -/
inductive Placement
  -- the empty string
  | unset
  | queryInHeader
  | cookie
  | header
  | query
  | path
  | body
  | auto
  | other
deriving DecidableEq, Repr

/-- How a padding value is generated. -/
inductive PaddingMethod
  | repeatX
  | tokenish
  -- the empty string included
  | other
deriving DecidableEq, Repr

/-- `Config`, without the settings that no request depends on. -/
structure Config where
  path : Bytes := []
  -- in the order in which the map is iterated
  headers : List (Bytes × Bytes) := []
  xPaddingBytes : Option Range := none
  xPaddingObfsMode : Bool := false
  xPaddingKey : Bytes := []
  xPaddingHeader : Bytes := []
  xPaddingPlacement : Placement := .unset
  xPaddingMethod : PaddingMethod := .other
  noGRPCHeader : Bool := false
  scMaxEachPostBytes : Option Range := none
  sessionPlacement : Placement := .unset
  sessionKey : Bytes := []
  seqPlacement : Placement := .unset
  seqKey : Bytes := []
  uplinkDataPlacement : Placement := .unset
  uplinkDataKey : Bytes := []
  uplinkChunkSize : Option Range := none
deriving DecidableEq, Repr

namespace Config

variable (c : Config)

/-- `GetNormalizedPath`: starts and ends with a slash, without the query. -/
def getNormalizedPath : Bytes :=
  let path := (cut 63 c.path).1
  let path := if path.head? = some 47 then path else 47 :: path
  if path.getLast? = some 47 then path else path ++ [47]

/-- `GetNormalizedQuery`: the query in `Path`. -/
def getNormalizedQuery : Bytes := (cut 63 c.path).2

/-- `GetNormalizedScMaxEachPostBytes`: the maximum size of a single POST body. -/
def getNormalizedScMaxEachPostBytes : Range :=
  Range.orDefault c.scMaxEachPostBytes ⟨1000000, 1000000⟩

/-- `GetNormalizedXPaddingBytes`: the range of the padding length. -/
def getNormalizedXPaddingBytes : Range := Range.orDefault c.xPaddingBytes ⟨100, 1000⟩

/-- The default of `UplinkChunkSize`. -/
def defaultUplinkChunkSize : Range :=
  match c.uplinkDataPlacement with
  | .cookie => ⟨2 * 1024, 3 * 1024⟩
  | .header => ⟨3 * 1000, 4 * 1000⟩
  | _ => c.getNormalizedScMaxEachPostBytes

/-- `GetNormalizedUplinkChunkSize`: the size of the chunks of a payload in headers or cookies. -/
def getNormalizedUplinkChunkSize : Range :=
  match c.uplinkChunkSize with
  | none => c.defaultUplinkChunkSize
  | some r =>
    if r.hi = 0 then c.defaultUplinkChunkSize
    else if r.lo < 64 then ⟨64, max 64 r.hi⟩
    else r

/-- A placement, or the default if it is not set. -/
def orDefaultPlacement (p default : Placement) : Placement := if p = .unset then default else p

def getNormalizedSessionPlacement : Placement := orDefaultPlacement c.sessionPlacement .path

def getNormalizedSeqPlacement : Placement := orDefaultPlacement c.seqPlacement .path

def getNormalizedUplinkDataPlacement : Placement := orDefaultPlacement c.uplinkDataPlacement .body

/-- A key, or the default for the placement if it is empty. -/
def orDefaultKey (key : Bytes) (p : Placement) (header other : Bytes) : Bytes :=
  if key ≠ [] then key
  else
    match p with
    | .header => header
    | .cookie | .query => other
    | _ => []

def getNormalizedSessionKey : Bytes :=
  orDefaultKey c.sessionKey c.getNormalizedSessionPlacement (bytes "X-Session") (bytes "x_session")

def getNormalizedSeqKey : Bytes :=
  orDefaultKey c.seqKey c.getNormalizedSeqPlacement (bytes "X-Seq") (bytes "x_seq")

end Config

/-! ## Facts about the normalised settings -/

namespace Config

variable {c : Config}

theorem getLast?_getNormalizedPath (c : Config) : c.getNormalizedPath.getLast? = some 47 := by
  unfold getNormalizedPath
  dsimp only
  generalize (if (cut 63 c.path).1.head? = some 47 then _ else _) = path
  split_ifs with h
  · exact h
  · exact List.getLast?_concat

/-- Drawn chunk sizes are positive. -/
theorem chunkSize_pos (hrange : ∀ r ∈ c.uplinkChunkSize, 1 ≤ r.lo ∧ r.lo ≤ r.hi)
    (hplace : c.uplinkDataPlacement = .header ∨ c.uplinkDataPlacement = .cookie) {n : ℤ}
    (hn : c.getNormalizedUplinkChunkSize.Draws n) : 1 ≤ n := by
  have hdefault : 1 ≤ c.defaultUplinkChunkSize.lo ∧
      c.defaultUplinkChunkSize.lo ≤ c.defaultUplinkChunkSize.hi := by
    rcases hplace with h | h <;> simp [defaultUplinkChunkSize, h]
  have hsize : 1 ≤ c.getNormalizedUplinkChunkSize.lo ∧
      c.getNormalizedUplinkChunkSize.lo ≤ c.getNormalizedUplinkChunkSize.hi := by
    unfold getNormalizedUplinkChunkSize
    split
    next => exact hdefault
    next r hr =>
      have := hrange r hr
      split_ifs
      · exact hdefault
      · exact ⟨by norm_num, le_max_left _ _⟩
      · exact this
  exact hsize.1.trans (hn.mem hsize.2).1

/-- A key that is used is not empty. -/
theorem orDefaultKey_ne_nil {key header other : Bytes} {p : Placement} (hheader : header ≠ [])
    (hother : other ≠ []) (hp : p = .header ∨ p = .cookie ∨ p = .query) :
    orDefaultKey key p header other ≠ [] := by
  unfold orDefaultKey
  split_ifs with h
  · exact h
  · rcases hp with rfl | rfl | rfl
    · exact hheader
    · exact hother
    · exact hother

end Config

end XHTTP
