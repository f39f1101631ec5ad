import Mathlib.Data.List.DropRight
import Gost.Lib.Bytes

/-!
# The keepalive message of the TUN handler

`keepalive` of `x/handler/tun/client.go` and the keepalive branch of `transportServer` in
`x/handler/tun/server.go`. A message is the magic, 16 bytes for the passphrase and 16 bytes for each
address of the client.

The client takes the buffer from a pool, with the bytes of earlier traffic in it. It overwrites all
of them but those of the key field behind the passphrase, and the server, which expects zeros there,
takes them for a part of the passphrase: `keepalive_iff`.
-/

namespace Tun

open Bytes List

/-- `net.IP`, an address of version 4 or 6. -/
abbrev IP := {ip : Bytes // ip.length = 4 ∨ ip.length = 16}

def v4InV6Prefix : Bytes := [0, 0, 0, 0, 0, 0, 0, 0, 0, 0, 0xff, 0xff]

/-- `To16`. -/
def IP.to16 (ip : IP) : Bytes := if ip.1.length = 4 then v4InV6Prefix ++ ip.1 else ip.1

def magicHeader : Bytes := bytes "GOST"

def keepAliveHeaderLength : ℕ := 20

/-- `net.IPv6len`. -/
def ipv6len : ℕ := 16

def maxMessageSize : ℕ := 65535

/-! ## The client -/

/-- The loop of `keepalive` over the addresses. -/
def putIPs (buf : Bytes) (pos : ℕ) : List IP → Bytes
  | [] => buf
  | ip :: ips => putIPs (copyAt buf pos ipv6len ip.to16) (pos + ipv6len) ips

/-- What `bufpool.Get` may return. -/
def Pooled (ips : List IP) (buf : Bytes) : Prop :=
  buf.length = keepAliveHeaderLength + ips.length * ipv6len

/-- `keepalive`, with the buffer from the pool: the message. -/
def keepalive (buf passphrase : Bytes) (ips : List IP) : Bytes :=
  let buf := copyAt buf 0 4 magicHeader
  let buf := copyAt buf 4 16 passphrase
  putIPs buf 20 ips

/-! ## The server -/

/-- The loop over the data of a message, `n` addresses long. -/
def splitIPs : ℕ → Bytes → List Bytes
  | 0, _ => []
  | n + 1, data => data.take ipv6len :: splitIPs n (data.drop ipv6len)

/-- The passphrase and the addresses in a datagram, if it is a keepalive message. -/
def decode (msg : Bytes) : Option (Bytes × List Bytes) :=
  let b := msg.take maxMessageSize
  if keepAliveHeaderLength < b.length ∧ b.take 4 = magicHeader then
    let data := b.drop keepAliveHeaderLength
    let peerIPs := if data.length % ipv6len = 0 then splitIPs (data.length / ipv6len) data else []
    if peerIPs = [] then none
    else some (((b.drop 4).take 16).rdropWhile (· = 0), peerIPs)
  else none

/-- The server, with what it gets from its configuration and from the network. -/
structure Server where
  /-- the addresses in `config.Net` -/
  net : List IP
  /-- `Authenticate(ip.String(), key)` -/
  auther : Option (Bytes → Bytes → Bool)
  /-- the address of the peer in 16 bytes, if `netip.ParseAddrPort` accepts it -/
  parseAddrPort : Bytes → Option Bytes
  p2p : Bool

namespace Server

variable (h : Server)

/-- The keys of `routes` that `updateRoute` sets. -/
def routeKey (ip : Bytes) : Bytes := if h.p2p then List.replicate ipv6len 0 else ip

/-- The addresses are not those of the server, and the authenticator accepts them all. -/
def admits (key : Bytes) (peerIPs : List Bytes) : Bool :=
  (h.net.all fun ip => peerIPs.all (· ≠ ip.to16)) &&
    h.auther.all fun authenticate => peerIPs.all fun ip => authenticate ip key

/-- The keepalive branch of `transportServer` for a datagram from `addr`: the routes, by 16-byte
addresses, and the reply. `written` says whether `WriteTo` succeeds. -/
def onKeepalive (routes : Bytes → Option Bytes) (addr : Bytes) (written : Bool) (msg : Bytes) :
    (Bytes → Option Bytes) × Option Bytes :=
  match decode msg, h.parseAddrPort addr with
  | some (key, peerIPs), some a16 =>
    if h.admits key peerIPs then
      if written then
        (peerIPs.foldl (fun routes ip => Function.update routes (h.routeKey ip) (some addr)) routes,
          some (magicHeader ++ a16))
      else (routes, none)
    else (routes, none)
  | _, _ => (routes, none)

end Server

/-! ## What the message is -/

theorem IP.length_to16 (ip : IP) : ip.to16.length = ipv6len := by
  unfold IP.to16
  rcases ip.2 with h | h
  · rw [if_pos h, length_append, h]
    rfl
  · rw [if_neg (by omega), h]
    rfl

theorem length_flatMap_to16 (ips : List IP) :
    (ips.flatMap IP.to16).length = ips.length * ipv6len := by
  induction ips with
  | nil => rw [flatMap_nil, length_nil, length_nil, Nat.zero_mul]
  | cons ip ips ih =>
    rw [flatMap_cons, length_append, ih, ip.length_to16, length_cons, Nat.succ_mul, Nat.add_comm]

theorem putIPs_append (a b : Bytes) (ips : List IP) (h : b.length = ips.length * ipv6len) :
    putIPs (a ++ b) a.length ips = a ++ ips.flatMap IP.to16 := by
  induction ips generalizing a b with
  | nil =>
    rw [length_nil, Nat.zero_mul, length_eq_zero_iff] at h
    rw [h]
    rfl
  | cons ip ips ih =>
    have htake : ip.to16.take ipv6len = ip.to16 := take_of_length_le ip.length_to16.le
    have hpos : a.length + ipv6len = (a ++ ip.to16).length := by
      rw [length_append, ip.length_to16]
    have hlength : (b.drop ip.to16.length).length = ips.length * ipv6len := by
      rw [length_drop, h, ip.length_to16, length_cons, Nat.succ_mul, Nat.add_sub_cancel]
    rw [putIPs, copyAt_append, htake, ← append_assoc, hpos, ih _ _ hlength, flatMap_cons,
      append_assoc]

/-- The key field: the passphrase, and what was there before. -/
def keyField (buf passphrase : Bytes) : Bytes :=
  passphrase ++ ((buf.drop 4).take 16).drop passphrase.length

variable {buf passphrase : Bytes} {ips : List IP}

theorem length_keyField (hbuf : Pooled ips buf) (hlen : passphrase.length ≤ 16) :
    (keyField buf passphrase).length = 16 := by
  have hlength : buf.length = 20 + ips.length * 16 := hbuf
  rw [keyField, length_append, length_drop, length_take, length_drop]
  omega

/-- What the passphrase leaves of the buffer begins with the rest of the key field. -/
theorem drop_passphrase (hbuf : Pooled ips buf) (hlen : passphrase.length ≤ 16) :
    (buf.drop 4).drop passphrase.length =
      ((buf.drop 4).take 16).drop passphrase.length ++ buf.drop 20 := by
  have hlength : buf.length = 20 + ips.length * 16 := hbuf
  have htake : ((buf.drop 4).take 16 ++ (buf.drop 4).drop 16).drop passphrase.length =
      ((buf.drop 4).take 16).drop passphrase.length ++ (buf.drop 4).drop 16 := by
    refine drop_append_of_le_length ?_
    rw [length_take, length_drop]
    omega
  have hrest : (buf.drop 4).drop 16 = buf.drop 20 := drop_drop
  rwa [take_append_drop, hrest] at htake

theorem keepalive_eq (hbuf : Pooled ips buf) (hlen : passphrase.length ≤ 16) :
    keepalive buf passphrase ips =
      magicHeader ++ keyField buf passphrase ++ ips.flatMap IP.to16 := by
  have hlength : buf.length = 20 + ips.length * 16 := hbuf
  have hmagic : copyAt buf 0 4 magicHeader = magicHeader ++ buf.drop 4 := rfl
  have hkey : copyAt (magicHeader ++ buf.drop 4) 4 16 passphrase =
      magicHeader ++ (passphrase ++ (buf.drop 4).drop passphrase.length) := by
    have hcopy := copyAt_append magicHeader (buf.drop 4) 16 passphrase
    rwa [take_of_length_le hlen] at hcopy
  have hheader : (magicHeader ++ keyField buf passphrase).length = 20 := by
    rw [length_append, length_keyField hbuf hlen]
    rfl
  have hrest : (buf.drop 20).length = ips.length * ipv6len := by
    rw [length_drop, hlength, Nat.add_sub_cancel_left]
    rfl
  have hput := putIPs_append (magicHeader ++ keyField buf passphrase) (buf.drop 20) ips hrest
  rw [hheader] at hput
  rw [← hput, keyField]
  show putIPs (copyAt (copyAt buf 0 4 magicHeader) 4 16 passphrase) 20 ips = _
  rw [hmagic, hkey, drop_passphrase hbuf hlen]
  simp only [append_assoc]

/-! ## What the server reads -/

theorem splitIPs_flatMap (ips : List IP) :
    splitIPs ips.length (ips.flatMap IP.to16) = ips.map IP.to16 := by
  induction ips with
  | nil => rfl
  | cons ip ips ih =>
    rw [flatMap_cons, length_cons, splitIPs, take_left' ip.length_to16,
      drop_left' ip.length_to16, ih, map_cons]

/-- A message of addresses that fits the buffer is read back. A longer one loses the end of its last
address, and is dropped. -/
theorem decode_append {field : Bytes} (hfield : field.length = 16) (hips : ips ≠ []) :
    decode (magicHeader ++ field ++ ips.flatMap IP.to16) =
      if keepAliveHeaderLength + ips.length * ipv6len ≤ maxMessageSize then
        some (field.rdropWhile (· = 0), ips.map IP.to16)
      else none := by
  have hpos : 0 < ips.length := length_pos_iff.mpr hips
  have hmagic : magicHeader.length = 4 := rfl
  have hheader : (magicHeader ++ field).length = 20 := by
    rw [length_append, hfield, hmagic]
  have hlength : (magicHeader ++ field ++ ips.flatMap IP.to16).length = 20 + ips.length * 16 := by
    rw [length_append, hheader, length_flatMap_to16]
    rfl
  unfold decode keepAliveHeaderLength ipv6len maxMessageSize
  by_cases hfits : 20 + ips.length * 16 ≤ 65535
  · have hdata : (magicHeader ++ field ++ ips.flatMap IP.to16).drop 20 = ips.flatMap IP.to16 :=
      drop_left' hheader
    have hkey : ((magicHeader ++ field ++ ips.flatMap IP.to16).drop 4).take 16 = field := by
      rw [append_assoc, drop_left' hmagic, take_left' hfield]
    have hsplit : splitIPs ((ips.flatMap IP.to16).length / 16) (ips.flatMap IP.to16) =
        ips.map IP.to16 := by
      rw [length_flatMap_to16, show ipv6len = 16 from rfl, Nat.mul_div_cancel _ (by decide),
        splitIPs_flatMap]
    have hmod : (ips.flatMap IP.to16).length % 16 = 0 := by
      rw [length_flatMap_to16]
      exact Nat.mul_mod_left _ _
    have hne : ips.map IP.to16 ≠ [] := fun hnil => hips (map_eq_nil_iff.mp hnil)
    simp only [take_of_length_le (hlength.trans_le hfits), hdata, hkey, hsplit, hmod, if_true,
      if_neg hne, if_pos hfits]
    exact if_pos ⟨by omega, by rw [append_assoc, take_left' hmagic]⟩
  · -- a full buffer: 65535 is not 20 more than a multiple of 16
    have htaken : ((magicHeader ++ field ++ ips.flatMap IP.to16).take 65535).length = 65535 := by
      rw [length_take, hlength]
      omega
    have hmod : ¬(((magicHeader ++ field ++ ips.flatMap IP.to16).take 65535).drop 20).length % 16
        = 0 := by
      rw [length_drop, htaken]
      decide
    simp only [hmod, if_false, if_true, if_neg hfits]
    exact ite_self _

theorem decode_keepalive (hbuf : Pooled ips buf) (hlen : passphrase.length ≤ 16)
    (hips : ips ≠ []) :
    decode (keepalive buf passphrase ips) =
      if keepAliveHeaderLength + ips.length * ipv6len ≤ maxMessageSize then
        some ((keyField buf passphrase).rdropWhile (· = 0), ips.map IP.to16)
      else none := by
  rw [keepalive_eq hbuf hlen, decode_append (length_keyField hbuf hlen) hips]

/-! ## The round trip -/

/-- The buffer with one byte all over. -/
def filled (ips : List IP) (b : UInt8) : Bytes :=
  List.replicate (keepAliveHeaderLength + ips.length * ipv6len) b

theorem pooled_filled (ips : List IP) (b : UInt8) : Pooled ips (filled ips b) :=
  length_replicate

theorem keyField_filled (ips : List IP) (b : UInt8) (passphrase : Bytes) :
    keyField (filled ips b) passphrase =
      passphrase ++ List.replicate (16 - passphrase.length) b := by
  rw [keyField, filled, drop_replicate, take_replicate, drop_replicate]
  congr 2
  unfold keepAliveHeaderLength
  omega

theorem keyField_of_length_eq (buf : Bytes) (hlen : passphrase.length = 16) :
    keyField buf passphrase = passphrase := by
  rw [keyField, drop_eq_nil_of_le, append_nil]
  rw [length_take]
  omega

theorem rdropWhile_of_getLast (hlast : passphrase.getLast? ≠ some 0) :
    passphrase.rdropWhile (· = 0) = passphrase := by
  rw [rdropWhile_eq_self_iff]
  intro hne hzero
  rw [getLast?_eq_some_getLast hne] at hlast
  exact hlast (congrArg some (of_decide_eq_true hzero))

/-- A buffer of bytes that are not zero gives the server a longer passphrase. -/
theorem rdropWhile_keyField_ne (ips : List IP) (hlen : passphrase.length < 16) :
    (keyField (filled ips 1) passphrase).rdropWhile (· = 0) ≠ passphrase := by
  obtain ⟨n, hn⟩ : ∃ n, 16 - passphrase.length = n + 1 := ⟨15 - passphrase.length, by omega⟩
  rw [keyField_filled, hn, replicate_succ', ← append_assoc, rdropWhile_concat_neg _ _ _ (by decide)]
  intro heq
  have hlength := congrArg List.length heq
  simp only [length_append, length_singleton, length_replicate] at hlength
  omega

/-- For a passphrase of at most 16 bytes that does not end in a zero byte, and at least one address:
the server reads back the passphrase and the addresses, whatever the buffer held, exactly if the
passphrase fills its field and the message fits the buffer of the server. The message does not
depend on the buffer exactly if the passphrase fills its field. -/
theorem keepalive_iff (passphrase : Bytes) (ips : List IP) (hlen : passphrase.length ≤ 16)
    (hlast : passphrase.getLast? ≠ some 0) (hips : ips ≠ []) :
    ((∀ buf, Pooled ips buf →
        decode (keepalive buf passphrase ips) = some (passphrase, ips.map IP.to16)) ↔
      passphrase.length = 16 ∧
        keepAliveHeaderLength + ips.length * ipv6len ≤ maxMessageSize) ∧
    ((∀ buf buf', Pooled ips buf → Pooled ips buf' →
        keepalive buf passphrase ips = keepalive buf' passphrase ips) ↔
      passphrase.length = 16) := by
  refine ⟨⟨fun hdecode => ?_, ?_⟩, fun hsame => ?_, fun hfull buf buf' hbuf hbuf' => ?_⟩
  · -- a buffer of ones: they are not trimmed, so they stand after a short passphrase
    have hone := hdecode _ (pooled_filled ips 1)
    rw [decode_keepalive (pooled_filled ips 1) hlen hips] at hone
    split_ifs at hone with hfits
    refine ⟨hlen.antisymm (not_lt.mp fun hlt => ?_), hfits⟩
    exact rdropWhile_keyField_ne ips hlt (Prod.mk.inj (Option.some.inj hone)).1
  · rintro ⟨hfull, hfits⟩ buf hbuf
    rw [decode_keepalive hbuf hlen hips, if_pos hfits, keyField_of_length_eq buf hfull,
      rdropWhile_of_getLast hlast]
  · -- the messages from a buffer of zeros and from one of ones differ in the padding
    have hmessages := hsame _ _ (pooled_filled ips 0) (pooled_filled ips 1)
    rw [keepalive_eq (pooled_filled ips 0) hlen, keepalive_eq (pooled_filled ips 1) hlen,
      keyField_filled, keyField_filled] at hmessages
    simp only [append_cancel_right_eq, append_cancel_left_eq] at hmessages
    by_contra hne
    have hpad : 16 - passphrase.length ≠ 0 := by omega
    exact absurd ((replicate_right_inj hpad).mp hmessages) (by decide)
  · rw [keepalive_eq hbuf hlen, keepalive_eq hbuf' hlen, keyField_of_length_eq buf hfull,
      keyField_of_length_eq buf' hfull]

/-- The client at 10.0.0.2. -/
def clientIP : IP := ⟨[10, 0, 0, 2], .inl rfl⟩

theorem keepalive_full_key :
    (∀ buf, Pooled [clientIP] buf → decode (keepalive buf (bytes "0123456789abcdef") [clientIP]) =
        some (bytes "0123456789abcdef", [clientIP.to16])) ∧
      ∀ buf buf', Pooled [clientIP] buf → Pooled [clientIP] buf' →
        keepalive buf (bytes "0123456789abcdef") [clientIP] =
          keepalive buf' (bytes "0123456789abcdef") [clientIP] := by
  have hiff := keepalive_iff (bytes "0123456789abcdef") [clientIP] (by decide) (by decide)
    (cons_ne_nil _ _)
  exact ⟨hiff.1.mpr (by decide), hiff.2.mpr (by decide)⟩

/-- The server reads bytes of the buffer as part of a passphrase of six bytes. -/
theorem keepalive_leaks :
    decode (keepalive (filled [clientIP] 0x2a) (bytes "secret") [clientIP]) =
      some (bytes "secret**********", [clientIP.to16]) := by
  decide

/-! ## The routes -/

namespace Server

theorem foldl_update_apply (f : Bytes → Bytes) (addr key : Bytes) (ips : List Bytes)
    (routes : Bytes → Option Bytes) :
    ips.foldl (fun routes ip => Function.update routes (f ip) (some addr)) routes key =
      if key ∈ ips.map f then some addr else routes key := by
  induction ips generalizing routes with
  | nil => rfl
  | cons ip ips ih =>
    rw [foldl_cons, ih, map_cons]
    by_cases hmem : key ∈ ips.map f
    · rw [if_pos hmem, if_pos (mem_cons_of_mem _ hmem)]
    · rw [if_neg hmem, Function.update_apply]
      simp only [mem_cons, hmem, or_false]

/-- A client with a passphrase of 16 bytes that the server admits gets the reply, and the server has
routes to all its addresses. -/
theorem onKeepalive_keepalive (h : Server) (routes : Bytes → Option Bytes) {addr a16 : Bytes}
    (hbuf : Pooled ips buf) (hfull : passphrase.length = 16)
    (hlast : passphrase.getLast? ≠ some 0) (hips : ips ≠ [])
    (hfits : keepAliveHeaderLength + ips.length * ipv6len ≤ maxMessageSize)
    (hadmits : h.admits passphrase (ips.map IP.to16) = true)
    (haddr : h.parseAddrPort addr = some a16) :
    (h.onKeepalive routes addr true (keepalive buf passphrase ips)).2 =
        some (magicHeader ++ a16) ∧
      ∀ ip ∈ ips, (h.onKeepalive routes addr true (keepalive buf passphrase ips)).1
        (h.routeKey ip.to16) = some addr := by
  have hdecode : decode (keepalive buf passphrase ips) = some (passphrase, ips.map IP.to16) := by
    rw [decode_keepalive hbuf hfull.le hips, if_pos hfits, keyField_of_length_eq buf hfull,
      rdropWhile_of_getLast hlast]
  have honKeepalive : h.onKeepalive routes addr true (keepalive buf passphrase ips) =
      ((ips.map IP.to16).foldl
        (fun routes ip => Function.update routes (h.routeKey ip) (some addr)) routes,
        some (magicHeader ++ a16)) := by
    rw [onKeepalive, hdecode, haddr]
    simp only [hadmits, if_true]
  rw [honKeepalive]
  refine ⟨rfl, fun ip hip => ?_⟩
  exact (foldl_update_apply ..).trans (if_pos (mem_map_of_mem (mem_map_of_mem hip)))

theorem onKeepalive_clientIP :
    (onKeepalive ⟨[], none, fun _ => some (replicate 16 0), false⟩ (fun _ => none) [1] true
      (keepalive (filled [clientIP] 0) (bytes "0123456789abcdef") [clientIP])).2 =
        some (magicHeader ++ replicate 16 0) :=
  (onKeepalive_keepalive _ _ (pooled_filled _ 0) (by decide) (by decide) (cons_ne_nil _ _)
    (by decide) rfl rfl).1

/-! ## Where packets are sent -/

variable (h : Server) (msgs : List (Bytes × Bool × Bytes))

/-- The routes after datagrams, each with its sender and whether a reply can be written. -/
def routes : Bytes → Option Bytes :=
  msgs.foldl (fun routes (addr, written, msg) => (h.onKeepalive routes addr written msg).1)
    fun _ => none

/-- `findRouteFor`, with the gateways that the router has for destinations. -/
def findRouteFor (routes router : Bytes → Option Bytes) (dst : Bytes) : Option Bytes :=
  (routes (h.routeKey dst)).or (if h.p2p then none else (router dst).bind routes)

/-- An admitted keepalive from `addr` has an address for `key`. -/
def Announced (key addr : Bytes) : Prop :=
  ∃ msg pass ips, (addr, true, msg) ∈ msgs ∧ decode msg = some (pass, ips) ∧
    h.admits pass ips = true ∧ key ∈ ips.map h.routeKey

variable {h msgs} {key addr : Bytes}

theorem announced_of_routes (hroute : h.routes msgs key = some addr) :
    h.Announced msgs key addr := by
  induction msgs using List.reverseRecOn with
  | nil => cases hroute
  | append_singleton msgs m ih =>
    have hold : h.routes msgs key = some addr → h.Announced (msgs ++ [m]) key addr := by
      intro hroute
      obtain ⟨msg, pass, ips, hmem, hrest⟩ := ih hroute
      exact ⟨msg, pass, ips, mem_append_left _ hmem, hrest⟩
    rw [routes, foldl_append] at hroute
    change (h.onKeepalive (h.routes msgs) m.1 m.2.1 m.2.2).1 key = some addr at hroute
    unfold onKeepalive at hroute
    split at hroute
    next pass ips _ hdecode _ =>
      split_ifs at hroute with hadmits hwritten
      · replace hroute := (foldl_update_apply ..).symm.trans hroute
        split_ifs at hroute with hkey
        · cases hroute
          exact ⟨m.2.2, pass, ips, by simp [← hwritten], hdecode, hadmits, hkey⟩
        · exact hold hroute
      exacts [hold hroute, hold hroute]
    next => exact hold hroute

end Server

end Tun
