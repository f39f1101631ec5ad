import Mathlib.Data.List.Chain
import Gost.Lib.Http.Header
import Gost.Lib.Text
import Gost.Lib.TransitionSystem

/-!
# Loop detection at the tunnel entrypoints

`httpRoundTrip` of `x/handler/tunnel/entrypoint/ephttp.go`, up to the call of the transport. The
header `Gost-Forwarded-Node` is meant to name the entrypoints that a request has gone through, and
an entrypoint that finds its own name there answers with 503. But the header is set, not appended
to, so it names the last entrypoint only. `loop_detection_iff` says for every cycle whether the loop
is detected; with names that are plain words it is only for a cycle of one, by
`detected_iff_of_plain`.
-/

namespace Entrypoint

open Bytes Http List TransitionSystem

def httpHeaderSID : Bytes := bytes "Gost-Sid"

def httpHeaderForwardedNode : Bytes := bytes "Gost-Forwarded-Node"

/-- The recorder object, as far as a request depends on it. -/
structure RecorderObject where
  node : Bytes
  sid : Bytes
deriving DecidableEq, Repr

inductive Outcome
  /-- the entrypoint answers by itself -/
  | response (status : ℕ)
  /-- the transport gets a request with this header -/
  | roundTrip (header : Header)
deriving DecidableEq, Repr

/-- The names in a value of `Gost-Forwarded-Node`. -/
def nodes (value : Bytes) : List Bytes := (value.splitOn 0x2c).map Text.trimSpace

/-- The headers for the recorder and the session. -/
def trackSession (sid : Bytes) (header : Header) : Header :=
  let header := header.del (bytes "Gost-Record")
  if header.get httpHeaderSID ≠ [] then header else header.set httpHeaderSID sid

/-- `httpRoundTrip`, up to the call of the transport. -/
def httpRoundTrip (node : Bytes) (ro : RecorderObject) (header : Header) : Outcome :=
  let header := trackSession ro.sid header
  if node ∈ nodes (header.get httpHeaderForwardedNode) then .response 503
  else .roundTrip (header.set httpHeaderForwardedNode ro.node)

/-- A request at an entrypoint, in the session that `Handle` has begun there. -/
structure Visit where
  node : Bytes
  sid : Bytes
deriving DecidableEq, Repr

/-- `Handle` and `handleHTTP` for one request: the recorder has the name of the entrypoint. -/
def handle (v : Visit) (header : Header) : Outcome := httpRoundTrip v.node ⟨v.node, v.sid⟩ header

/-- A request passes an entrypoint. The header reaches the next one as it is. -/
def step (header : Header) (v : Visit) : Option Header :=
  match handle v header with
  | .roundTrip header => some header
  | .response _ => none

/-! ## What an entrypoint does -/

variable {header header' : Header} {v : Visit}

theorem get_forwardedNode_trackSession (sid : Bytes) (header : Header) :
    (trackSession sid header).get httpHeaderForwardedNode =
      header.get httpHeaderForwardedNode := by
  have hdel : (header.del (bytes "Gost-Record")).get httpHeaderForwardedNode =
      header.get httpHeaderForwardedNode := Header.get_del_ne (by decide)
  show (if _ then _ else _ : Header).get _ = _
  split_ifs
  · exact hdel
  · rw [Header.get_set_ne (by decide), hdel]

theorem handle_eq (v : Visit) (header : Header) :
    handle v header =
      if v.node ∈ nodes (header.get httpHeaderForwardedNode) then .response 503
      else .roundTrip ((trackSession v.sid header).set httpHeaderForwardedNode v.node) := by
  rw [← get_forwardedNode_trackSession v.sid header]
  rfl

/-- An entrypoint rejects a request exactly if it is named in the header. -/
theorem handle_eq_response_iff (v : Visit) (header : Header) :
    handle v header = .response 503 ↔ v.node ∈ nodes (header.get httpHeaderForwardedNode) := by
  rw [handle_eq]
  split_ifs with hmem
  · exact iff_of_true rfl hmem
  · exact iff_of_false nofun hmem

theorem step_eq_some_iff :
    step header v = some header' ↔
      v.node ∉ nodes (header.get httpHeaderForwardedNode) ∧
        (trackSession v.sid header).set httpHeaderForwardedNode v.node = header' := by
  unfold step
  rw [handle_eq]
  by_cases hmem : v.node ∈ nodes (header.get httpHeaderForwardedNode)
  · rw [if_pos hmem]
    exact iff_of_false nofun fun h => h.1 hmem
  · rw [if_neg hmem]
    exact ⟨fun h => ⟨hmem, Option.some.inj h⟩, fun h => congrArg some h.2⟩

/-- The header names the last entrypoint only. -/
theorem get_forwardedNode_step (h : step header v = some header') :
    header'.get httpHeaderForwardedNode = v.node := by
  rw [← (step_eq_some_iff.mp h).2, Header.get_set_self]

/-! ## Paths -/

/-- The value of `Gost-Forwarded-Node` after a path. -/
theorem get_forwardedNode_run {path : List Visit} (h : run step header path = some header') :
    header'.get httpHeaderForwardedNode =
      (path.map Visit.node).getLastD (header.get httpHeaderForwardedNode) := by
  induction path generalizing header with
  | nil => rw [← Option.some.inj h, map_nil, getLastD_nil]
  | cons v path ih =>
    obtain ⟨next, hnext, hrest⟩ := run_cons_eq_some.mp h
    -- the rest of the path starts with what `v` has written, in the place of all before it
    rw [ih hrest, get_forwardedNode_step hnext, map_cons, getLastD_cons]

/-- A request gets through a path exactly if no entrypoint on it is named by the one before it. -/
theorem exists_run_iff (path : List Visit) (header : Header) :
    (∃ header', run step header path = some header') ↔
      List.IsChain (fun previous node => node ∉ nodes previous)
        (header.get httpHeaderForwardedNode :: path.map Visit.node) := by
  induction path generalizing header with
  | nil => exact iff_of_true ⟨header, rfl⟩ (isChain_singleton _)
  | cons v path ih =>
    rw [map_cons, isChain_cons_cons]
    constructor
    · rintro ⟨header', hrun⟩
      obtain ⟨next, hnext, hrest⟩ := run_cons_eq_some.mp hrun
      have hchain := (ih next).mp ⟨header', hrest⟩
      rw [get_forwardedNode_step hnext] at hchain
      exact ⟨(step_eq_some_iff.mp hnext).1, hchain⟩
    · rintro ⟨hnode, hchain⟩
      have hnext := step_eq_some_iff.mpr ⟨hnode, rfl⟩
      rw [← get_forwardedNode_step hnext] at hchain
      obtain ⟨header', hrest⟩ := (ih _).mpr hchain
      exact ⟨header', run_cons_eq_some.mpr ⟨_, hnext, hrest⟩⟩

/-- A request that goes round a cycle is rejected at its first entrypoint, and not before. -/
def Detected (header : Header) (first : Visit) (rest : List Visit) (sid : Bytes) : Prop :=
  ∃ header', run step header (first :: rest) = some header' ∧
    handle ⟨first.node, sid⟩ header' = .response 503

/-- The loop is detected exactly if no entrypoint is named in what the one before it has written,
but the first one is in what the last one has written. And an entrypoint off the path lets the
request pass exactly if the last entrypoint on the path (or, for an empty path, the client) has not
named it. -/
theorem loop_detection_iff (header : Header) (first : Visit) (rest : List Visit) (sid : Bytes) :
    (Detected header first rest sid ↔
      List.IsChain (fun previous node => node ∉ nodes previous)
          (header.get httpHeaderForwardedNode :: first.node :: rest.map Visit.node) ∧
        first.node ∈ nodes ((rest.map Visit.node).getLastD first.node)) ∧
    ∀ path header' v, run step header path = some header' → v.node ∉ path.map Visit.node →
      (handle v header' ≠ .response 503 ↔
        v.node ∉ nodes ((path.map Visit.node).getLastD (header.get httpHeaderForwardedNode))) := by
  constructor
  · rw [← map_cons, ← exists_run_iff, ← exists_and_right]
    refine exists_congr fun header' => and_congr_right fun hrun => ?_
    rw [handle_eq_response_iff, get_forwardedNode_run hrun, map_cons, getLastD_cons]
  · intro path header' v hrun _
    rw [ne_eq, handle_eq_response_iff, get_forwardedNode_run hrun]

/-! ## Plain names -/

/-- A name that is not changed on its way through the header. -/
structure Plain (node : Bytes) : Prop where
  ne_nil : node ≠ []
  comma : 0x2c ∉ node
  trimSpace : Text.trimSpace node = node

theorem nodes_of_plain {node : Bytes} (h : Plain node) : nodes node = [node] := by
  rw [nodes, splitOn_eq_singleton h.comma, map_singleton, h.trimSpace]

theorem isChain_of_plain {names : List Bytes} (hplain : ∀ node ∈ names, Plain node)
    (hnodup : names.Nodup) : names.IsChain fun previous node => node ∉ nodes previous := by
  refine (hnodup.imp_of_mem fun {a b} ha _ hne => ?_).isChain
  rw [nodes_of_plain (hplain a ha), mem_singleton]
  exact Ne.symm hne

/-- With plain names, a new request and a cycle of distinct entrypoints, the loop is detected only
if the cycle has one entrypoint. -/
theorem detected_iff_of_plain {first : Visit} {rest : List Visit} (sid : Bytes)
    (hnew : header.get httpHeaderForwardedNode = [])
    (hplain : ∀ node ∈ first.node :: rest.map Visit.node, Plain node)
    (hnodup : (first.node :: rest.map Visit.node).Nodup) :
    Detected header first rest sid ↔ rest = [] := by
  have hchain := isChain_of_plain hplain hnodup
  have hlast : (rest.map Visit.node).getLastD first.node ∈ first.node :: rest.map Visit.node :=
    getLastD_mem_cons
  constructor
  · rintro ⟨header', hrun, hresponse⟩
    rw [handle_eq_response_iff, get_forwardedNode_run hrun, map_cons, getLastD_cons,
      nodes_of_plain (hplain _ hlast), mem_singleton] at hresponse
    -- the last name is the first, so by distinctness there is no other
    rw [← map_eq_nil_iff (f := Visit.node)]
    by_contra hne
    refine (nodup_cons.mp hnodup).1 ?_
    rw [hresponse, getLastD_eq_getLast?, getLast?_eq_some_getLast hne]
    exact getLast_mem hne
  · -- a new request has an empty header, which names no entrypoint but the empty one
    rintro rfl
    have hfirst := hplain first.node mem_cons_self
    obtain ⟨header', hrun⟩ := (exists_run_iff [first] header).mpr (by
      rw [hnew]
      refine isChain_cons_cons.mpr ⟨?_, hchain⟩
      exact fun hmem => hfirst.ne_nil (mem_singleton.mp hmem))
    refine ⟨header', hrun, (handle_eq_response_iff _ _).mpr ?_⟩
    rw [get_forwardedNode_run hrun]
    show first.node ∈ nodes first.node
    rw [nodes_of_plain hfirst]
    exact mem_singleton_self _

/-- A visit at the entrypoint `name`. -/
def visit (name : String) : Visit := ⟨bytes name, bytes "sid"⟩

/-- An entrypoint that forwards to itself. -/
theorem self_loop_detected :
    Detected [] (visit "a") [] (bytes "sid") ∧
      ∀ header', run step [] [visit "a"] = some header' →
        handle (visit "b") header' ≠ .response 503 := by
  have hiff := loop_detection_iff [] (visit "a") [] (bytes "sid")
  exact ⟨hiff.1.mpr (by decide), fun header' hrun =>
    (hiff.2 [visit "a"] header' (visit "b") hrun (by decide)).mpr (by decide)⟩

/-- Two entrypoints that forward to each other: the request passes the first one again. -/
theorem loop_of_two_undetected :
    ∃ header', run step [] [visit "a", visit "b"] = some header' ∧
      (step header' (visit "a")).isSome = true := by
  decide

end Entrypoint
