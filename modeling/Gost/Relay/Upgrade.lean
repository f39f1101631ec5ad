import Gost.Lib.Http.Head
import Gost.Lib.Http.Header
import Gost.Relay.Stream

/-!
# Protocol upgrades

What the HTTP relays do with the upstream's answer once a request is sent: `httpRoundTrip` and
`handleUpgradeResponse` of `x/internal/util/forwarder` and `x/internal/util/sniffing`, and
`httpRoundTrip` of `x/handler/unix`, from the response on and as far as it switches protocols. The
response is parsed through a reader with a buffer of its own, and the relay that follows reads from
the connection: what the buffer holds then is lost. `upgrade_lossless_iff` says when it holds
nothing, and what else has to be the case for the client to get every byte.
-/

namespace Relay

open Bytes Http List Reader

/-! ## Responses and requests -/

structure Response where
  -- `ProtoMajor` and `ProtoMinor`
  proto : ℕ × ℕ
  statusCode : ℕ
  header : Header
  close : Bool
deriving DecidableEq, Repr

/-- A request, as far as the answer depends on it. -/
structure Request where
  proto : ℕ × ℕ
  header : Header
deriving DecidableEq, Repr

/-- The parts of `net/http` and `strings` that are used. -/
structure NetHttp where
  -- `ReadResponse`, for a complete head
  parse : Bytes → Option Response
  -- `Response.Write`, for a response without a body
  write : Response → Bytes
  equalFold : Bytes → Bytes → Bool

/-- `httpguts.HeaderValuesContainsToken`. -/
def headerValuesContainsToken (values : List Bytes) (token : Bytes) : Bool :=
  let isSpace (c : UInt8) : Bool := c == 32 || c == 9
  let trimOWS (s : Bytes) : Bytes := ((s.dropWhile isSpace).reverse.dropWhile isSpace).reverse
  values.any fun v => (v.splitOn 44).any fun part =>
    (trimOWS part).all (· < 128) && (trimOWS part).map toLower == token.map toLower

/-- `upgradeType`. -/
def upgradeType (h : Header) : Bytes :=
  if headerValuesContainsToken (h.values (bytes "Connection")) (bytes "Upgrade") then
    h.get (bytes "Upgrade")
  else []

/-- `http.ReadResponse`: the response, what is left in the buffer, and the reads that were not
made. -/
def readResponse (net : NetHttp) (cc : List (ReadResult UInt8)) (br : Bytes) :
    Option (Response × Bytes × List (ReadResult UInt8)) := do
  let (head, br, cc) ← bufferUntil splitHead cc br
  let resp ← net.parse head
  some (resp, br, cc)

/-! ## Forwarder and sniffer -/

/-- The upstream switched to another protocol than the one that was requested. -/
inductive UpgradeError
  | switched (resUpType reqUpType : Bytes)
deriving DecidableEq, Repr

/-- Bytes behind the response are copied frame by frame. -/
def sniffsFrames (websocket : Bool) (req : Request) : Bool :=
  upgradeType req.header == bytes "websocket" && websocket

/-- `handleUpgradeResponse`: what is written to the client. -/
def handleUpgradeResponse (net : NetHttp) (websocket : Bool) (req : Request) (res : Response)
    (cc : List (ReadResult UInt8)) : Except UpgradeError Bytes :=
  let reqUpType := upgradeType req.header
  let resUpType := upgradeType res.header
  if net.equalFold reqUpType resUpType = false then .error (.switched resUpType reqUpType)
  else if sniffsFrames websocket req then
    .ok (net.write res ++ sniffingWebsocketFrame (received cc))
  else .ok (net.write res ++ (pipeHalf cc).1)

/-- The loop of `httpRoundTrip` that reads the response, with the turns that are left: what is
written to the client; `none` if the response cannot be read or does not switch protocols. -/
def relayResponse (net : NetHttp) (websocket : Bool) (req : Request) :
    ℕ → List (ReadResult UInt8) → Bytes → Option Bytes
  | 0, _, _ => none
  | turns + 1, cc, br => do
    let (resp, br, cc) ← readResponse net cc br
    if resp.statusCode = 100 then
      (relayResponse net websocket req turns cc br).map (net.write resp ++ ·)
    else if resp.statusCode = 101 then
      -- the relay reads from the connection, whatever is left in the buffer
      some ((handleUpgradeResponse net websocket req resp cc).toOption.getD [])
    else none

/-- `httpRoundTrip` of the forwarder. A response has one byte at least, so the turns do. -/
def Forwarder.httpRoundTrip (net : NetHttp) (websocket : Bool) (req : Request)
    (cc : List (ReadResult UInt8)) : Option Bytes :=
  relayResponse net websocket req ((received cc).length + 1) cc []

/-- `httpRoundTrip` of the sniffer. -/
def Sniffing.httpRoundTrip (net : NetHttp) (websocket : Bool) (req : Request)
    (cc : List (ReadResult UInt8)) : Option Bytes :=
  relayResponse net websocket req ((received cc).length + 1) cc []

/-! ## Unix handler -/

/-- The response as an HTTP/1.0 client gets it. -/
def Unix.adjust (req : Request) (resp : Response) : Response :=
  if req.proto = (1, 0) then
    { resp with
      proto := (1, 0)
      header := if resp.close then resp.header
        else resp.header.set (bytes "Connection") (bytes "keep-alive") }
  else resp

/-- `httpRoundTrip` of the unix handler. -/
def Unix.httpRoundTrip (net : NetHttp) (req : Request) (cc : List (ReadResult UInt8)) :
    Option Bytes := do
  let (resp, _, cc) ← readResponse net cc []
  if resp.statusCode = 101 then
    some (net.write (Unix.adjust req resp) ++
      if req.header.get (bytes "Upgrade") = bytes "websocket" then (pipeHalf cc).1 else [])
  else none

/-! ## Bytes behind the head -/

/-- The condition under which no byte behind the head is lost: a read ends where the head ends,
and frames are copied as they are, or the pipe gets no data together with the end of the file. -/
def Lossless (frames : Bool) (cc : List (ReadResult UInt8)) (head rest : Bytes) : Prop :=
  rest = [] ∨ (∃ k, received (cc.take k) = head) ∧
    if frames then WellFramed rest else ∀ r ∈ cc, r.err = some .eof → r.data = []

section Behind

variable {cc left : List (ReadResult UInt8)} {head rest extra : Bytes}

/-- The pipe writes everything but the data that comes together with the end of the file. -/
theorem pipeHalf_suffix (hcc : Delivers cc (head ++ rest)) (hleft : left <:+ cc) :
    ∃ lost, (pipeHalf left).1 ++ lost = received left ∧
      (lost = [] ↔ left = [] ∨ ∀ r ∈ cc, r.err = some .eof → r.data = []) := by
  obtain ⟨init, last, rfl, hlast, hinit⟩ := hcc.ends
  have heof : (∀ r ∈ init ++ [last], r.err = some .eof → r.data = []) ↔ last.data = [] := by
    refine ⟨fun h => h last (by simp) hlast, fun h r hr herr => ?_⟩
    rcases mem_append.mp hr with hr | hr
    · rw [(hinit r hr).1] at herr
      cases herr
    · exact mem_singleton.mp hr ▸ h
  obtain ⟨taken, htaken⟩ := hleft
  rcases eq_nil_or_concat left with rfl | ⟨reads, r, rfl⟩
  · exact ⟨[], rfl, by simp⟩
  · rw [concat_eq_append, ← append_assoc] at htaken
    obtain ⟨rfl, hr⟩ := append_inj' htaken rfl
    cases hr
    have hreads : ∀ x ∈ reads, x.err = none := fun x hx => (hinit x (mem_append_right _ hx)).1
    refine ⟨last.data, ?_, ?_⟩
    · rw [concat_eq_append, pipeHalf_append hreads hlast, received_append, received_cons,
        received_nil, append_nil]
    · rw [heof]
      simp

variable (hextra : extra ++ received left = rest)
  (hnil : extra = [] ↔ ∃ k, received (cc.take k) = head)
include hextra hnil

/-- What the pipe writes is all there is behind the head. -/
theorem pipeHalf_eq_iff (hcc : Delivers cc (head ++ rest)) (hleft : left <:+ cc) :
    (pipeHalf left).1 = rest ↔ Lossless false cc head rest := by
  obtain ⟨lost, hlost, hiff⟩ := pipeHalf_suffix hcc hleft
  rw [Lossless, ← hnil]
  constructor
  · intro h
    rw [← h, ← hlost] at hextra
    have hlen := congrArg List.length hextra
    simp only [length_append] at hlen
    have hlostNil : lost = [] := eq_nil_of_length_eq_zero (by omega)
    have hextraNil : extra = [] := eq_nil_of_length_eq_zero (by omega)
    rcases hiff.mp hlostNil with rfl | heof
    · exact .inl h.symm
    · exact .inr ⟨hextraNil, heof⟩
  · rintro (rfl | ⟨rfl, heof⟩)
    · rw [(append_eq_nil_iff.mp hextra).2] at hlost
      exact (append_eq_nil_iff.mp hlost).1
    · rw [hiff.mpr (.inr heof), append_nil] at hlost
      rw [hlost, ← hextra, nil_append]

/-- What is copied frame by frame is all there is behind the head. -/
theorem sniffingWebsocketFrame_eq_iff :
    sniffingWebsocketFrame (received left) = rest ↔ Lossless true cc head rest := by
  have hle := length_sniffingWebsocketFrame_le (received left)
  rw [Lossless, ← hnil]
  constructor
  · intro h
    have hlen := congrArg List.length hextra
    rw [length_append, ← h] at hlen
    have hextraNil : extra = [] := eq_nil_of_length_eq_zero (by omega)
    rw [hextraNil, nil_append] at hextra
    rw [hextra] at h
    exact .inr ⟨hextraNil, (sniffingWebsocketFrame_eq_self_iff rest).mp h⟩
  · rintro (rfl | ⟨rfl, hframed⟩)
    · rw [(append_eq_nil_iff.mp hextra).2]
      exact (sniffingWebsocketFrame_eq_self_iff []).mpr .nil
    · rw [nil_append] at hextra
      rw [hextra]
      exact (sniffingWebsocketFrame_eq_self_iff rest).mpr hframed

end Behind

/-! ## Upgrades -/

section Upgrades

variable {net : NetHttp} {req : Request} {head rest : Bytes} {res : Response}
  (hhead : splitHead head = some (head, [])) (hparse : net.parse head = some res)
  {cc : List (ReadResult UInt8)} (hcc : Delivers cc (head ++ rest))
include hhead hparse hcc

/-- The response is read, and the buffer may hold bytes behind it. -/
theorem readResponse_spec :
    ∃ left extra, readResponse net cc [] = some (res, extra, left) ∧ left <:+ cc ∧
      extra ++ received left = rest ∧ (extra = [] ↔ ∃ k, received (cc.take k) = head) := by
  have herr : ∀ r ∈ cc.dropLast, r.err = none := by
    obtain ⟨init, last, rfl, -, hinit⟩ := hcc.ends
    rw [dropLast_concat]
    exact fun r hr => (hinit r hr).1
  obtain ⟨left, extra, hrun, hleft, hextra, hnil⟩ :=
    bufferUntil_extra delimits_splitHead hhead herr hcc.received_eq
  refine ⟨left, extra, ?_, hleft, hextra, hnil⟩
  rw [readResponse, hrun]
  change (net.parse head).bind (fun resp => some (resp, extra, left)) = _
  rw [hparse, Option.bind_some]

/-- Upgrades in forwarder and sniffer. -/
theorem relayResponse_iff (hcode : res.statusCode = 101) (hwrite : net.write res ≠ [])
    (websocket : Bool) (turns : ℕ) :
    relayResponse net websocket req (turns + 1) cc [] = some (net.write res ++ rest) ↔
      net.equalFold (upgradeType req.header) (upgradeType res.header) = true ∧
        Lossless (sniffsFrames websocket req) cc head rest := by
  obtain ⟨left, extra, hrun, hleft, hextra, hnil⟩ := readResponse_spec hhead hparse hcc
  have hrelay : relayResponse net websocket req (turns + 1) cc [] =
      some ((handleUpgradeResponse net websocket req res left).toOption.getD []) := by
    rw [relayResponse, hrun]
    change (if res.statusCode = 100 then _ else if res.statusCode = 101 then _ else _) = _
    rw [hcode, if_neg (by decide), if_pos rfl]
  rw [hrelay, Option.some.injEq, handleUpgradeResponse]
  cases hfold : net.equalFold (upgradeType req.header) (upgradeType res.header) with
  | false =>
    -- nothing is written
    refine ⟨fun h => ?_, fun h => absurd h.1 Bool.false_ne_true⟩
    exact absurd (append_eq_nil_iff.mp h.symm).1 hwrite
  | true =>
    cases hframes : sniffsFrames websocket req with
    | true =>
      change net.write res ++ sniffingWebsocketFrame (received left) = _ ↔ _
      rw [append_cancel_left_eq, sniffingWebsocketFrame_eq_iff hextra hnil]
      exact ⟨fun h => ⟨rfl, h⟩, fun h => h.2⟩
    | false =>
      change net.write res ++ (pipeHalf left).1 = _ ↔ _
      rw [append_cancel_left_eq, pipeHalf_eq_iff hextra hnil hcc hleft]
      exact ⟨fun h => ⟨rfl, h⟩, fun h => h.2⟩

/-- Upgrades in the unix handler. -/
theorem unix_iff (hcode : res.statusCode = 101) :
    Unix.httpRoundTrip net req cc = some (net.write (Unix.adjust req res) ++ rest) ↔
      rest = [] ∨
        req.header.get (bytes "Upgrade") = bytes "websocket" ∧ Lossless false cc head rest := by
  obtain ⟨left, extra, hrun, hleft, hextra, hnil⟩ := readResponse_spec hhead hparse hcc
  have hrelay : Unix.httpRoundTrip net req cc = some (net.write (Unix.adjust req res) ++
      if req.header.get (bytes "Upgrade") = bytes "websocket" then (pipeHalf left).1 else []) := by
    rw [Unix.httpRoundTrip, hrun]
    exact if_pos hcode
  rw [hrelay, Option.some.injEq, append_cancel_left_eq]
  split_ifs with hws
  · rw [pipeHalf_eq_iff hextra hnil hcc hleft]
    refine ⟨fun h => .inr ⟨hws, h⟩, ?_⟩
    rintro (h | h)
    · exact .inl h
    · exact h.2
  · exact ⟨fun h => .inl h.symm, fun h => (h.resolve_right fun h => hws h.1).symm⟩

end Upgrades

/-- Protocol upgrades: the upstream sends the head of a response `101` and `rest` behind it. The
client of forwarder and sniffer gets the response and all of `rest` exactly if the upgrade is the
one that was requested and no byte is lost on the way; that of the unix handler, exactly if there is
nothing to relay or the request asks for a websocket and no byte is lost. -/
theorem upgrade_lossless_iff (net : NetHttp) (req : Request) (head rest : Bytes) (res : Response)
    (hhead : splitHead head = some (head, [])) (hparse : net.parse head = some res)
    (hcode : res.statusCode = 101) (hwrite : net.write res ≠ [])
    (cc : List (ReadResult UInt8)) (hcc : Delivers cc (head ++ rest)) (websocket : Bool) :
    (Forwarder.httpRoundTrip net websocket req cc = some (net.write res ++ rest) ↔
      net.equalFold (upgradeType req.header) (upgradeType res.header) = true ∧
        Lossless (sniffsFrames websocket req) cc head rest) ∧
    (Sniffing.httpRoundTrip net websocket req cc = some (net.write res ++ rest) ↔
      net.equalFold (upgradeType req.header) (upgradeType res.header) = true ∧
        Lossless (sniffsFrames websocket req) cc head rest) ∧
    (Unix.httpRoundTrip net req cc = some (net.write (Unix.adjust req res) ++ rest) ↔
      rest = [] ∨
        req.header.get (bytes "Upgrade") = bytes "websocket" ∧ Lossless false cc head rest) :=
  ⟨relayResponse_iff hhead hparse hcc hcode hwrite websocket _,
    relayResponse_iff hhead hparse hcc hcode hwrite websocket _, unix_iff hhead hparse hcc hcode⟩

/-! ## Two ways to cut one stream -/

/-- The head of an upgrade to websockets. -/
def switchHead : Bytes :=
  bytes "HTTP/1.1 101 Switching Protocols\r\nConnection: Upgrade\r\nUpgrade: websocket\r\n\r\n"

theorem switchHead_ne_nil : switchHead ≠ [] := by
  rw [show switchHead = _ from bytes_ofList _]
  exact cons_ne_nil _ _

theorem splitHead_switchHead : splitHead switchHead = some (switchHead, []) := by
  rw [show switchHead = _ from bytes_ofList _]
  decide +kernel

def upgradeHeader : Header :=
  [(bytes "Connection", bytes "Upgrade"), (bytes "Upgrade", bytes "websocket")]

def switchResponse : Response := ⟨(1, 1), 101, upgradeHeader, false⟩

def upgradeRequest : Request := ⟨(1, 1), upgradeHeader⟩

/-- `net/http` for this one response. -/
def switchNet : NetHttp where
  parse head := if head = switchHead then some switchResponse else none
  write _ := switchHead
  equalFold s t := s.map toLower == t.map toLower

/-- The bytes behind the head come in a read of their own. -/
def apart : List (ReadResult UInt8) := [⟨switchHead, none⟩, ⟨bytes "hi", none⟩, ⟨[], some .eof⟩]

theorem upgrade_lossless_apart :
    Forwarder.httpRoundTrip switchNet false upgradeRequest apart =
      some (switchHead ++ bytes "hi") := by
  have hhi : bytes "hi" ≠ [] := by decide
  have hcc : Delivers apart (switchHead ++ bytes "hi") :=
    ⟨by simp [received, apart], [⟨switchHead, none⟩, ⟨bytes "hi", none⟩], ⟨[], some .eof⟩, rfl, rfl,
      by simp [switchHead_ne_nil, hhi]⟩
  have hparse : switchNet.parse switchHead = some switchResponse := by simp [switchNet]
  refine (upgrade_lossless_iff switchNet upgradeRequest switchHead (bytes "hi") switchResponse
    splitHead_switchHead hparse rfl switchHead_ne_nil apart hcc false).1.mpr
      ⟨by decide, .inr ⟨⟨1, by simp [received, apart]⟩, ?_⟩⟩
  change ∀ r ∈ apart, r.err = some .eof → r.data = []
  simp [apart]

/-- The bytes behind the head come in the same read. -/
def together : List (ReadResult UInt8) := [⟨switchHead ++ bytes "hi", none⟩, ⟨[], some .eof⟩]

/-- None of the relays passes them on. -/
theorem upgrade_together_loses_bytes :
    Delivers together (switchHead ++ bytes "hi") ∧
      Forwarder.httpRoundTrip switchNet false upgradeRequest together = some switchHead ∧
      Sniffing.httpRoundTrip switchNet false upgradeRequest together = some switchHead ∧
      Unix.httpRoundTrip switchNet upgradeRequest together = some switchHead := by
  refine ⟨⟨by simp [received, together], [⟨switchHead ++ bytes "hi", none⟩], ⟨[], some .eof⟩, rfl,
    rfl, by simp [switchHead_ne_nil]⟩, ?_⟩
  simp only [together, switchNet, show switchHead = _ from bytes_ofList _]
  exact ⟨by decide +kernel, by decide +kernel, by decide +kernel⟩

end Relay
