import Gost.Obfs.Parser
import Gost.Obfs.Server
import Mathlib.Data.List.SplitLengths

/-!
# What the dialer reads of the listener's stream

`obfsTLSConn.Read` of `x/dialer/obfs/tls/conn.go` gives each chunk that comes from the connection to
the parser. `Stream.reads_tagged` says that the parser, one byte at a time, follows the stream of
the listener and tags the payload of its data records. With `Parser.parse_spec` this gives what is
delivered for every way to cut the stream, in `Stream.readAll_iff`.
-/

namespace Obfs

open Bytes List Server TlsRecord Transducer

/-! ## Reading -/

inductive ReadError
  -- of the connection below
  | conn
  | parse (e : ParseError)
deriving DecidableEq, Repr

/-- `Read`: the parser behind it, what is read and the error. The connection below gives `b`, with
an error or without. -/
def read (p : Parser) (b : Bytes) (err : Bool) : Option (Parser × Bytes × Option ReadError) :=
  if err then some (p, b, some .conn)
  else if b ≠ [] then
    match p.parse b with
    | none => none
    | some (p, b, .ok n) => some (p, b.take n, none)
    | some (p, _, .error e) => some (p, [], some (.parse e))
  else some (p, [], none)

/-- A `Read` for each chunk, up to the first error: all that is delivered. -/
def readAll (p : Parser) : List Bytes → Option (Parser × Bytes × Option ReadError)
  | [] => some (p, [], none)
  | chunk :: chunks =>
    match read p chunk false with
    | some (p, out, none) => (readAll p chunks).map fun (p, rest, err) => (p, out ++ rest, err)
    | stop => stop

/-! ## One chunk -/

/-- What `Read` makes of a chunk. -/
def delivered (ts : Tagged) : Bytes :=
  if payload ts = [] then []
  else if trailing ts = [] then payload ts
  else (payload ts ++ trailing ts).take (trailing ts).length

/-- Nothing stands behind the payload of the chunk, or just as much as there is payload. -/
def Whole (ts : Tagged) : Prop :=
  payload ts = [] ∨ trailing ts = [] ∨ (trailing ts).length = (payload ts).length

instance (ts : Tagged) : Decidable (Whole ts) := inferInstanceAs (Decidable (_ ∨ _ ∨ _))

theorem delivered_eq_payload_iff (ts : Tagged) : delivered ts = payload ts ↔ Whole ts := by
  unfold delivered
  split_ifs with hpayload htrailing
  · exact iff_of_true hpayload.symm (.inl hpayload)
  · exact iff_of_true rfl (.inr (.inl htrailing))
  · constructor
    · intro h
      have hlen := congrArg List.length h
      rw [length_take, length_append, Nat.min_eq_left (Nat.le_add_left ..)] at hlen
      exact .inr (.inr hlen)
    · rintro (h | h | h)
      · exact absurd h hpayload
      · exact absurd h htrailing
      · rw [h, take_left]

theorem take_returned (payload trailing junk : Bytes) :
    (payload ++ trailing ++ junk).take
        (Parser.returned payload.length (payload ++ trailing).length) =
      if payload = [] then []
      else if trailing = [] then payload
      else (payload ++ trailing).take trailing.length := by
  by_cases hpayload : payload = []
  · rw [if_pos hpayload, Parser.returned, if_pos (length_eq_zero_iff.mpr hpayload)]
    exact take_zero
  rw [if_neg hpayload, Parser.returned, if_neg (mt length_eq_zero_iff.mp hpayload), length_append]
  by_cases htrailing : trailing = []
  · subst htrailing
    rw [length_nil, Nat.add_zero, if_neg (Nat.lt_irrefl _), if_pos rfl, append_nil, take_left]
  · have hlt := Nat.lt_add_of_pos_right (n := payload.length) (length_pos_of_ne_nil htrailing)
    rw [if_pos hlt, if_neg htrailing, Nat.add_sub_cancel_left, take_append_of_le_length]
    rw [length_append]
    exact Nat.le_add_left ..

theorem read_spec {p p' : Parser} {ts : Tagged} (hvalid : p.Valid)
    (hreads : Reads Parser.feed p ts p') (hlen : ts.length < 2 ^ 16) :
    read p (Tagged.bytes ts) false = some (p', delivered ts, none) := by
  by_cases hnil : ts = []
  · subst hnil
    obtain rfl : p = p' := hreads
    rfl
  · obtain ⟨junk, hparse⟩ := Parser.parse_spec hvalid hreads hlen
    have hne : Tagged.bytes ts ≠ [] := mt map_eq_nil_iff.mp hnil
    rw [read, if_neg Bool.false_ne_true, if_pos hne, hparse]
    exact congrArg (fun out => some (p', out, none)) (take_returned ..)

/-! ## All chunks -/

theorem readAll_spec {p p' : Parser} {cut : List Tagged} (hvalid : p.Valid)
    (hreads : Reads Parser.feed p cut.flatten p') (hlen : ∀ ts ∈ cut, ts.length < 2 ^ 16) :
    readAll p (cut.map Tagged.bytes) = some (p', cut.flatMap delivered, none) := by
  induction cut generalizing p with
  | nil =>
    obtain rfl : p = p' := hreads
    rfl
  | cons ts cut ih =>
    obtain ⟨p₁, hts, hrest⟩ := reads_append.mp hreads
    obtain ⟨hlents, hlenrest⟩ := forall_mem_cons.mp hlen
    rw [map_cons, readAll, read_spec hvalid hts hlents]
    dsimp only
    rw [ih (Parser.valid_of_reads hvalid hts) hrest hlenrest]
    rfl

/-- What is delivered is right at every point if and only if it is for every chunk. -/
theorem forall_take_flatMap_iff (cut : List Tagged) :
    (∀ k, (cut.take k).flatMap delivered = payload (cut.take k).flatten) ↔
      ∀ ts ∈ cut, Whole ts := by
  induction cut with
  | nil => exact iff_of_true (fun k => by rw [take_nil]; rfl) nofun
  | cons ts cut ih =>
    rw [forall_mem_cons, ← delivered_eq_payload_iff, ← ih]
    constructor
    · intro h
      have hts : delivered ts = payload ts := by simpa using h 1
      refine ⟨hts, fun k => ?_⟩
      have hk := h (k + 1)
      rw [take_succ_cons, flatMap_cons, flatten_cons, payload_append, hts] at hk
      exact append_cancel_left hk
    · rintro ⟨hts, hcut⟩ k
      cases k with
      | zero => rfl
      | succ k =>
        rw [take_succ_cons, flatMap_cons, flatten_cons, payload_append, hts, hcut k]

/-! ## The listener's stream -/

/-- A record with the tags of its bytes. -/
def tagged (r : Record) (data : Bool) : Tagged :=
  r.header.map (·, false) ++ r.fragment.map (·, data)

theorem bytes_map (b : Bytes) (tag : Bool) : Tagged.bytes (b.map (·, tag)) = b := by
  rw [Tagged.bytes, map_map]
  exact map_id b

theorem bytes_append (xs ys : Tagged) :
    Tagged.bytes (xs ++ ys) = Tagged.bytes xs ++ Tagged.bytes ys := map_append

theorem bytes_tagged (r : Record) (data : Bool) : Tagged.bytes (tagged r data) = r.encode := by
  rw [tagged, bytes_append, bytes_map, bytes_map]
  rfl

theorem payload_map_false (b : Bytes) : payload (b.map (·, false)) = [] :=
  payload_of_forall_false fun t ht => by
    obtain ⟨ch, -, rfl⟩ := mem_map.mp ht
    rfl

theorem payload_tagged_false (r : Record) : payload (tagged r false) = [] := by
  rw [tagged, payload_append, payload_map_false, payload_map_false, append_nil]

theorem payload_tagged_true (r : Record) : payload (tagged r true) = r.fragment := by
  have htrue : ∀ t ∈ r.fragment.map (·, true), t.2 = true := fun t ht => by
    obtain ⟨ch, -, rfl⟩ := mem_map.mp ht
    rfl
  rw [tagged, payload_append, payload_map_false, payload_of_forall_true htrue, bytes_map,
    nil_append]

namespace Parser

/-- The bytes of a length give the length. -/
theorem length_or {n : ℕ} (h : n < 2 ^ 16) :
    (UInt8.ofNat (n / 256 % 256)).toNat <<< 8 ||| (UInt8.ofNat (n % 256)).toNat = n := by
  rw [UInt8.toNat_ofNat', UInt8.toNat_ofNat', ← Nat.shiftLeft_add_eq_or_of_lt (by omega),
    Nat.shiftLeft_eq]
  omega

/-- The length of a record that the parser accepts as its next one. -/
def Fits (step n : ℕ) : Prop :=
  0 < n ∧ (step = 0 → n = 91) ∧ (step = 1 → n = 1) ∧ n ≤ maxTLSDataLen

instance (step n : ℕ) : Decidable (Fits step n) := inferInstanceAs (Decidable (_ ∧ _ ∧ _ ∧ _))

variable {step : ℕ} {r : Record} {minor : UInt8}

theorem reads_header {length : ℕ} (htype : tlsRecordTypes[step]? = some r.type)
    (hminor : tlsVersionMinors[step]? = some minor)
    (hversion : putBigEndian 2 r.version = [0x03, minor]) (hfits : Fits step r.fragment.length) :
    Reads feed ⟨step, .type, length⟩ (r.header.map (·, false))
      ⟨step, .data, r.fragment.length⟩ := by
  obtain ⟨hpos, hzero, hone, hmax⟩ := hfits
  have hlength : putBigEndian 2 r.fragment.length =
      [.ofNat (r.fragment.length / 256 % 256), .ofNat (r.fragment.length % 256)] := rfl
  rw [Record.header, hversion, hlength]
  refine ⟨⟨step, .version0, length⟩, ?_, ⟨step, .version1, length⟩, ?_,
    ⟨step, .length0, length⟩, ?_, ⟨step, .length1, _⟩, rfl, ⟨step, .data, _⟩, ?_, rfl⟩
  · simp [feed, header, htype, Except.map]
  · rfl
  · simp [feed, header, hminor, Except.map]
  · -- the lengths that are not read are those of the records
    have hlen : (if step = 0 then 91 else if step = 1 then 1 else
        (UInt8.ofNat (r.fragment.length / 256 % 256)).toNat <<< 8 |||
          (UInt8.ofNat (r.fragment.length % 256)).toNat) = r.fragment.length := by
      split_ifs with h0 h1
      · exact (hzero h0).symm
      · exact (hone h1).symm
      · exact length_or (lt_of_le_of_lt hmax (by decide))
    rw [feed, if_neg (by simp), header]
    simp only [hlen, if_pos hpos, if_neg (fun h : 2 ≤ step ∧ _ => absurd hmax (not_le.mpr h.2))]
    rfl

theorem reads_fragment {fragment : Bytes} (hne : fragment ≠ []) :
    Reads feed ⟨step, .data, fragment.length⟩ (fragment.map (·, decide (2 ≤ step)))
      ⟨if step < 3 then step + 1 else step, .type, 0⟩ := by
  induction fragment with
  | nil => exact absurd rfl hne
  | cons ch fragment ih =>
    refine ⟨_, if_pos rfl, ?_⟩
    by_cases hnil : fragment = []
    · subst hnil
      rfl
    · have hskip : skip ⟨step, .data, fragment.length + 1⟩ 1 =
          ⟨step, .data, fragment.length⟩ :=
        if_neg (mt eq_nil_of_length_eq_zero hnil)
      rw [length_cons, hskip]
      exact ih hnil

/-- The parser follows a record that it accepts, and tags its fragment from the third one on. -/
theorem reads_tagged (htype : tlsRecordTypes[step]? = some r.type)
    (hminor : tlsVersionMinors[step]? = some minor)
    (hversion : putBigEndian 2 r.version = [0x03, minor]) (hfits : Fits step r.fragment.length) :
    Reads feed ⟨step, .type, 0⟩ (tagged r (decide (2 ≤ step)))
      ⟨if step < 3 then step + 1 else step, .type, 0⟩ :=
  reads_append.mpr ⟨_, reads_header htype hminor hversion hfits,
    reads_fragment (ne_nil_of_length_pos hfits.1)⟩

end Parser

end Obfs

namespace Obfs.Server.Stream

open Bytes List TlsRecord Transducer

variable (s : Stream)

/-- The bytes on the wire. -/
def wire : Bytes := s.records.flatMap Record.encode

/-- The stream with the payload of its data records tagged. -/
def tagged : Tagged :=
  (helloRecords s.random s.sessionID).flatMap (Obfs.tagged · false) ++
    (dataRecords s.payloads).flatMap (Obfs.tagged · true)

theorem bytes_flatMap_tagged (records : List Record) (data : Bool) :
    Tagged.bytes (records.flatMap (Obfs.tagged · data)) = records.flatMap Record.encode := by
  induction records with
  | nil => rfl
  | cons r records ih =>
    rw [flatMap_cons, flatMap_cons, bytes_append, bytes_tagged, ih]

theorem bytes_tagged : Tagged.bytes s.tagged = s.wire := by
  rw [tagged, bytes_append, bytes_flatMap_tagged, bytes_flatMap_tagged, ← flatMap_append]
  rfl

theorem payload_flatMap_true (records : List Record) :
    payload (records.flatMap (Obfs.tagged · true)) = records.flatMap (·.fragment) := by
  induction records with
  | nil => rfl
  | cons r records ih =>
    rw [flatMap_cons, flatMap_cons, payload_append, payload_tagged_true, ih]

theorem payload_tagged : payload s.tagged = s.payloads.flatten := by
  rw [tagged, payload_append, payload_flatMap_true, flatMap_dataRecords, helloRecords,
    flatMap_cons, flatMap_cons, payload_append, payload_append, payload_tagged_false,
    payload_tagged_false]
  exact nil_append _

theorem length_serverMsg : (serverMsg s.random s.sessionID).encode.length = 91 := by
  simp [serverMsg, ServerHello.encode, ServerHello.body, s.random.length_eq, s.length_sessionID,
    Extension.encode]

theorem tls10 : putBigEndian 2 versionTLS10 = [0x03, 0x01] := by decide

theorem tls12 : putBigEndian 2 versionTLS12 = [0x03, 0x03] := by decide

theorem reads_helloRecords :
    Reads Parser.feed {} ((helloRecords s.random s.sessionID).flatMap (Obfs.tagged · false))
      ⟨2, .type, 0⟩ := by
  have hfits : Parser.Fits 0 (serverMsg s.random s.sessionID).encode.length := by
    rw [length_serverMsg]
    decide
  exact reads_append.mpr ⟨_, Parser.reads_tagged rfl rfl tls10 hfits,
    Parser.reads_tagged rfl rfl tls12 (by decide)⟩

theorem fits_payloads : ∀ p ∈ s.payloads, ∀ step, 2 ≤ step → Parser.Fits step p.length := by
  intro p hp step hstep
  obtain ⟨hne, hlen⟩ := s.valid p hp
  exact ⟨length_pos_of_ne_nil hne, fun h => by omega, fun h => by omega, hlen⟩

theorem reads_applicationData {payloads : List Bytes}
    (h : ∀ p ∈ payloads, Parser.Fits 3 p.length) :
    Reads Parser.feed ⟨3, .type, 0⟩
      ((payloads.map (⟨applicationData, versionTLS12, ·⟩)).flatMap (Obfs.tagged · true))
      ⟨3, .type, 0⟩ := by
  induction payloads with
  | nil => rfl
  | cons p payloads ih =>
    obtain ⟨hp, hrest⟩ := forall_mem_cons.mp h
    exact reads_append.mpr ⟨_, Parser.reads_tagged rfl rfl tls12 hp, ih hrest⟩

/-- The parser follows the stream and tags its payload. -/
theorem reads_tagged : ∃ p, Reads Parser.feed {} s.tagged p := by
  have hvalid := s.fits_payloads
  suffices h : ∃ p, Reads Parser.feed ⟨2, .type, 0⟩
      ((dataRecords s.payloads).flatMap (Obfs.tagged · true)) p by
    obtain ⟨p, hp⟩ := h
    exact ⟨p, reads_append.mpr ⟨_, s.reads_helloRecords, hp⟩⟩
  cases hpayloads : s.payloads with
  | nil => exact ⟨_, rfl⟩
  | cons first rest =>
    rw [hpayloads] at hvalid
    obtain ⟨hfirst, hrest⟩ := forall_mem_cons.mp hvalid
    refine ⟨⟨3, .type, 0⟩, reads_append.mpr ⟨⟨3, .type, 0⟩, ?_, ?_⟩⟩
    · exact Parser.reads_tagged rfl rfl tls12 (hfirst 2 (le_refl 2))
    · exact reads_applicationData fun p hp => hrest p hp 3 (by decide)

/-! ## Every cut -/

/-- The chunks with their tags. -/
def segments (chunks : List Bytes) : List Tagged :=
  (chunks.map List.length).splitLengths s.tagged

variable {s} {chunks : List Bytes}

theorem map_bytes_splitLengths {ts : Tagged} (h : chunks.flatten = Tagged.bytes ts) :
    ((chunks.map List.length).splitLengths ts).map Tagged.bytes = chunks := by
  induction chunks generalizing ts with
  | nil => rfl
  | cons chunk chunks ih =>
    have htake : Tagged.bytes (ts.take chunk.length) = chunk := by
      rw [Tagged.bytes, map_take]
      exact (congrArg (List.take _) h).symm.trans take_left
    have hdrop : chunks.flatten = Tagged.bytes (ts.drop chunk.length) := by
      rw [Tagged.bytes, map_drop]
      exact ((congrArg (List.drop _) h).symm.trans drop_left).symm
    rw [map_cons, splitLengths_cons, map_cons, htake, ih hdrop]

theorem map_bytes_segments (hwire : chunks.flatten = s.wire) :
    (s.segments chunks).map Tagged.bytes = chunks :=
  map_bytes_splitLengths (hwire.trans s.bytes_tagged.symm)

theorem flatten_segments (hwire : chunks.flatten = s.wire) :
    (s.segments chunks).flatten = s.tagged := by
  refine flatten_splitLengths _ _ (le_of_eq ?_)
  rw [← length_flatten, hwire, ← s.bytes_tagged, length_bytes]

/-- What is read of the first chunks. -/
theorem readAll_take (hwire : chunks.flatten = s.wire) (hsize : ∀ c ∈ chunks, c.length ≤ 65535)
    (k : ℕ) : ∃ p, readAll {} (chunks.take k) =
      some (p, ((s.segments chunks).take k).flatMap delivered, none) := by
  obtain ⟨p, hreads⟩ := s.reads_tagged
  rw [← flatten_segments hwire, ← take_append_drop k (s.segments chunks), flatten_append] at hreads
  obtain ⟨p₁, hp₁, -⟩ := reads_append.mp hreads
  have hlen : ∀ ts ∈ (s.segments chunks).take k, ts.length < 2 ^ 16 := by
    intro ts hts
    have hmem : Tagged.bytes ts ∈ chunks := by
      rw [← map_bytes_segments hwire]
      exact mem_map_of_mem (mem_of_mem_take hts)
    rw [← length_bytes ts]
    exact Nat.lt_succ_of_le (hsize _ hmem)
  refine ⟨p₁, ?_⟩
  rw [← readAll_spec Parser.valid_init hp₁ hlen, map_take, map_bytes_segments hwire]

/-- However the stream is cut, no `Read` fails. What has been read is the payload that came, at
every point, if and only if no chunk with payload ends in the header of the next record, except
with just as many bytes of it as there are of payload. Then it is all the payload in the end. -/
theorem readAll_iff (s : Stream) (chunks : List Bytes) (hwire : chunks.flatten = s.wire)
    (hsize : ∀ c ∈ chunks, c.length ≤ 65535) :
    (∃ p out, readAll {} chunks = some (p, out, none)) ∧
    ((∀ k, ∃ p, readAll {} (chunks.take k) =
        some (p, payload ((s.segments chunks).take k).flatten, none)) ↔
      ∀ ts ∈ s.segments chunks, Whole ts) ∧
    ((∀ ts ∈ s.segments chunks, Whole ts) →
      ∃ p, readAll {} chunks = some (p, s.payloads.flatten, none)) := by
  have htake := readAll_take hwire hsize
  have hlength : (s.segments chunks).length = chunks.length := by
    rw [segments, length_splitLengths, length_map]
  obtain ⟨p, hall⟩ := htake chunks.length
  rw [take_length, ← hlength, take_length] at hall
  refine ⟨⟨p, _, hall⟩, ?_, fun hwhole => ⟨p, ?_⟩⟩
  · rw [← forall_take_flatMap_iff]
    refine forall_congr' fun k => ?_
    obtain ⟨pₖ, hk⟩ := htake k
    rw [hk]
    constructor
    · rintro ⟨p', h⟩
      rw [Option.some.injEq, Prod.mk.injEq, Prod.mk.injEq] at h
      exact h.2.1
    · intro h
      exact ⟨pₖ, by rw [h]⟩
  · have h := (forall_take_flatMap_iff _).mpr hwhole (s.segments chunks).length
    rw [take_length, flatten_segments hwire, payload_tagged] at h
    rw [hall, h]

/-- Two records of data, of 10 bytes and of one. -/
def twoRecords : Stream where
  random := ⟨List.replicate 32 0, rfl⟩
  sessionID := List.replicate 32 0
  length_sessionID := rfl
  payloads := [[1, 2, 3, 4, 5, 6, 7, 8, 9, 10], [11]]
  valid := by decide

/-- Cut between the two records, the stream is read. -/
theorem readAll_twoRecords :
    ∃ p, readAll {} [twoRecords.wire.take 117, twoRecords.wire.drop 117] =
      some (p, [1, 2, 3, 4, 5, 6, 7, 8, 9, 10, 11], none) :=
  (readAll_iff twoRecords [twoRecords.wire.take 117, twoRecords.wire.drop 117]
    (by decide +kernel) (by decide +kernel)).2.2 (by decide +kernel)

/-- Cut two bytes into the header of the second record, only two bytes of the first are read. -/
theorem readAll_cut_header :
    (readAll {} [twoRecords.wire.take 119, twoRecords.wire.drop 119]).map (·.2) =
      some ([1, 2, 11], none) := by
  decide +kernel

end Obfs.Server.Stream
