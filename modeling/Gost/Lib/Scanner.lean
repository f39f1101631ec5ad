import Gost.Lib.Reader

/-!
# Scanners

`bufio.Scanner` over a body that comes in reads. A body is a list of elements, each with a mark
that says whether a read ends behind it; a read ends as well when the buffer is full. The end of the
body comes in a read of its own if the last element is marked, and together with the last data if it
is not. Reads that bring nothing are left out.

The scanner calls its split function whenever a read has come, so a split function that looks at all
buffered data may give different tokens for different reads. `Settles` says that it does not, and
`scanAll_eq_of_settles` that the tokens are then the same for all reads.
-/

/-- What a split function says about the data in the buffer. -/
inductive Split (α : Type*)
  | more
  -- a token, and what is left behind it and its delimiter
  | token (tok rest : List α)
  -- the last token
  | final (tok : List α)
deriving DecidableEq, Repr

namespace Scanner

open List

variable {α : Type*}

/-- Why a scanner stops. -/
inductive Err
  | read (err : ReadError)
  | tooLong
deriving DecidableEq, Repr

/-- All that the calls of `Scan` return: the tokens until it stops, the error, and the tokens of the
calls after that. -/
structure Scanned (α : Type*) where
  tokens : List (List α)
  err : Err
  late : List (List α) := []
deriving DecidableEq, Repr

def Scanned.after (tokens : List (List α)) (scanned : Scanned α) : Scanned α :=
  { scanned with tokens := tokens ++ scanned.tokens }

theorem Scanned.after_append (tokens tokens' : List (List α)) (scanned : Scanned α) :
    scanned.after (tokens ++ tokens') = (scanned.after tokens').after tokens := by
  rw [after, after, after, append_assoc]

/-- The buffer: its size, and what it holds from `start` on. -/
structure Buffer (α : Type*) where
  start : ℕ := 0
  content : List α := []
  size : ℕ
deriving DecidableEq, Repr

def startBufSize : ℕ := 4096

namespace Buffer

def push (b : Buffer α) (c : α) : Buffer α := { b with content := b.content ++ [c] }

/-- Only `rest` is left of the content. -/
def advance (b : Buffer α) (rest : List α) : Buffer α :=
  { b with start := b.start + (b.content.length - rest.length), content := rest }

def Full (b : Buffer α) : Prop := b.start + b.content.length = b.size

instance (b : Buffer α) : Decidable b.Full := inferInstanceAs (Decidable (_ = _))

/-- The content is moved to the front of the buffer if there is much space or none. -/
def shift (b : Buffer α) : Buffer α :=
  if 0 < b.start ∧ (b.Full ∨ b.size / 2 < b.start) then { b with start := 0 } else b

/-- The next size of a buffer. -/
def newSize (max size : ℕ) : ℕ := min (if size = 0 then startBufSize else size * 2) max

/-- Before a read: a full buffer grows, up to `max`. `none` is `ErrTooLong`. -/
def makeRoom (max : ℕ) (b : Buffer α) : Option (Buffer α) :=
  let b := b.shift
  if b.Full then
    if max ≤ b.size then none else some { b with start := 0, size := newSize max b.size }
  else some b

end Buffer

/-- The tokens in the content, and what is left. -/
def takeTokens (split : List α → Bool → Split α) (eof : Bool) :
    ℕ → List α → List (List α) × List α
  | 0, content => ([], content)
  | n + 1, content =>
    match split content eof with
    | .more => ([], content)
    | .final tok => ([tok], [])
    | .token tok rest =>
      let (tokens, left) := takeTokens split eof n rest
      (tok :: tokens, left)

/-- Calls of `Scan` until the buffer has no token; no token is empty together with its
delimiter. -/
def drain (split : List α → Bool → Split α) (eof : Bool) (content : List α) :
    List (List α) × List α :=
  takeTokens split eof (content.length + 1) content

/-- Calls of `Scan` for a body that ends with `last`. -/
def scanFrom (split : List α → Bool → Split α) (max : ℕ) (last : ReadError) (b : Buffer α) :
    List (α × Bool) → Scanned α
  | [] => { tokens := (drain split true b.content).1, err := .read last }
  | (c, cut) :: body =>
    let b := b.push c
    if cut ∨ b.Full ∧ body ≠ [] then
      let (tokens, rest) := drain split false b.content
      match (b.advance rest).makeRoom max with
      -- a call of `Scan` after the error takes what the buffer holds for the end
      | none => { tokens, err := .tooLong, late := (drain split true rest).1 }
      | some b => (scanFrom split max last b body).after tokens
    else scanFrom split max last b body

/-- All calls of `Scan`, with a buffer of `size` at first. -/
def scanAll (split : List α → Bool → Split α) (size max : ℕ) (last : ReadError)
    (body : List (α × Bool)) : Scanned α :=
  scanFrom split max last { size } body

/-! ## Draining the buffer -/

/-- A token is not empty together with its delimiter. -/
def Advances (split : List α → Bool → Split α) : Prop :=
  ∀ s eof tok rest, split s eof = .token tok rest → rest.length < s.length

section Drain

variable {split : List α → Bool → Split α} {eof : Bool} {s tok rest : List α}

theorem takeTokens_congr (hsplit : Advances split) {n m : ℕ} (hn : s.length < n)
    (hm : s.length < m) : takeTokens split eof n s = takeTokens split eof m s := by
  induction n generalizing s m with
  | zero => exact absurd hn (Nat.not_lt_zero _)
  | succ n ih =>
    obtain ⟨m, rfl⟩ := Nat.exists_eq_succ_of_ne_zero (Nat.ne_zero_of_lt hm)
    rw [takeTokens, takeTokens]
    split
    · rfl
    · rfl
    · rename_i tok rest htok
      have hlt : rest.length < s.length := hsplit s eof tok rest htok
      rw [ih (Nat.lt_of_lt_of_le hlt (Nat.le_of_lt_succ hn))
        (Nat.lt_of_lt_of_le hlt (Nat.le_of_lt_succ hm))]

theorem drain_of_more (h : split s eof = .more) : drain split eof s = ([], s) := by
  rw [drain, takeTokens, h]

theorem drain_of_final (h : split s eof = .final tok) : drain split eof s = ([tok], []) := by
  rw [drain, takeTokens, h]

theorem drain_of_token (hsplit : Advances split) (h : split s eof = .token tok rest) :
    drain split eof s = (tok :: (drain split eof rest).1, (drain split eof rest).2) := by
  have hfuel : takeTokens split eof s.length rest = drain split eof rest :=
    takeTokens_congr hsplit (hsplit s eof tok rest h) (Nat.lt_succ_self _)
  rw [drain, takeTokens, h]
  dsimp only
  rw [hfuel]

theorem length_drain_le (hsplit : Advances split) : (drain split eof s).2.length ≤ s.length := by
  generalize hn : s.length = n
  induction n using Nat.strong_induction_on generalizing s with
  | _ n ih =>
    cases hs : split s eof with
    | more => rw [drain_of_more hs, hn]
    | final tok =>
      rw [drain_of_final hs]
      exact Nat.zero_le _
    | token tok rest =>
      have hlt := hsplit s eof tok rest hs
      rw [drain_of_token hsplit hs]
      exact Nat.le_trans (ih rest.length (hn ▸ hlt) rfl) (Nat.le_of_lt (hn ▸ hlt))

end Drain

/-! ## The buffer -/

variable {size : ℕ}

section Buffer

variable {b b' : Buffer α} {max : ℕ}

theorem Buffer.shift_content : b.shift.content = b.content := by
  unfold Buffer.shift
  split_ifs
  · rfl
  · rfl

theorem Buffer.shift_size : b.shift.size = b.size := by
  unfold Buffer.shift
  split_ifs
  · rfl
  · rfl

theorem Buffer.shift_start_le : b.shift.start ≤ b.start := by
  unfold Buffer.shift
  split_ifs
  · exact Nat.zero_le _
  · exact Nat.le_refl _

/-- A buffer that is full after the shift was full of content. -/
theorem Buffer.start_eq_zero_of_full (h : b.shift.Full) : b.shift.start = 0 := by
  by_contra hne
  have heq : b.shift = b := by
    unfold Buffer.shift at hne ⊢
    split_ifs at hne ⊢
    · exact absurd rfl hne
    · rfl
  rw [heq] at h hne
  have hshift : b.shift.start = 0 := by
    rw [Buffer.shift, if_pos ⟨Nat.pos_of_ne_zero hne, .inl h⟩]
  exact hne (heq ▸ hshift)

/-- The scanner gives up only if the buffer is full of content. -/
theorem Buffer.length_of_makeRoom_eq_none (h : b.makeRoom max = none) (hsize : b.size ≤ max) :
    b.content.length = max := by
  dsimp only [Buffer.makeRoom] at h
  split_ifs at h with hfull hmax
  have hzero := Buffer.start_eq_zero_of_full hfull
  rw [Buffer.Full, hzero, Nat.zero_add, Buffer.shift_content, Buffer.shift_size] at hfull
  rw [Buffer.shift_size] at hmax
  omega

theorem Buffer.lt_newSize (h : size < max) : size < Buffer.newSize max size := by
  refine Nat.lt_min.mpr ⟨?_, h⟩
  split_ifs with hzero
  · rw [hzero]
    decide
  · omega

/-- There is room for a read. -/
theorem Buffer.of_makeRoom_eq_some (h : b.makeRoom max = some b') (hsize : b.size ≤ max)
    (hle : b.start + b.content.length ≤ b.size) :
    b'.content = b.content ∧ b'.start + b'.content.length < b'.size ∧ b'.size ≤ max := by
  have hcontent := Buffer.shift_content (b := b)
  have hshift := Buffer.shift_size (b := b)
  have hstart := Buffer.shift_start_le (b := b)
  dsimp only [Buffer.makeRoom] at h
  by_cases hfull : b.shift.Full
  · rw [if_pos hfull, Option.ite_none_left_eq_some] at h
    obtain ⟨hmax, hb'⟩ := h
    have hzero := Buffer.start_eq_zero_of_full hfull
    rw [Buffer.Full, hzero, Nat.zero_add] at hfull
    cases hb'
    refine ⟨hcontent, ?_, Nat.min_le_right _ _⟩
    rw [Nat.zero_add, hfull]
    exact Buffer.lt_newSize (Nat.lt_of_not_le hmax)
  · rw [if_neg hfull, Option.some.injEq] at h
    subst h
    rw [Buffer.Full, hcontent, hshift] at hfull
    refine ⟨hcontent, ?_, hshift ▸ hsize⟩
    rw [hcontent, hshift]
    omega

/-- A buffer with room stays as it is, up to a shift. -/
theorem Buffer.makeRoom_of_lt (h : b.start + b.content.length < b.size) :
    ∃ start ≤ b.start, b.makeRoom max = some { b with start } := by
  have hnot : ¬b.shift.Full := by
    have hstart := Buffer.shift_start_le (b := b)
    rw [Buffer.Full, Buffer.shift_content, Buffer.shift_size]
    omega
  refine ⟨b.shift.start, Buffer.shift_start_le, ?_⟩
  dsimp only [Buffer.makeRoom]
  rw [if_neg hnot]
  unfold Buffer.shift
  split_ifs
  · rfl
  · rfl

end Buffer

/-! ## Short bodies -/

section Short

variable {split : List α → Bool → Split α} {max : ℕ} {last : ReadError} {b : Buffer α}

/-- A body that fits the buffer and comes in one read, together with its end. -/
theorem scanFrom_uncut {body : List α} (h : b.start + b.content.length + body.length ≤ b.size) :
    scanFrom split max last b (body.map (·, false)) =
      { tokens := (drain split true (b.content ++ body)).1, err := .read last } := by
  induction body generalizing b with
  | nil =>
    rw [map_nil, scanFrom, append_nil]
  | cons c body ih =>
    rw [length_cons] at h
    have hlen : (b.push c).start + (b.push c).content.length = b.start + b.content.length + 1 := by
      rw [Buffer.push, length_append, length_singleton, Nat.add_assoc]
    have hcut : ¬(false = true ∨ (b.push c).Full ∧ body.map (·, false) ≠ []) := by
      rintro (hfalse | ⟨hfull, hne⟩)
      · cases hfalse
      · rw [Buffer.Full, hlen] at hfull
        have hpos : 0 < body.length :=
          length_pos_of_ne_nil fun hnil => hne (by rw [hnil, map_nil])
        have hsize : (b.push c).size = b.size := rfl
        omega
    rw [map_cons, scanFrom]
    have hfits : (b.push c).start + (b.push c).content.length + body.length ≤ (b.push c).size := by
      show _ ≤ b.size
      omega
    rw [if_neg hcut, ih hfits, Buffer.push, append_assoc, singleton_append]

/-- A read of one element that does not fill the buffer. -/
theorem scanFrom_cut_cons (hsplit : Advances split) (max : ℕ) (last : ReadError) (c : α)
    (body : List (α × Bool)) (h : b.start + b.content.length + 1 < b.size) :
    ∃ start, start + (drain split false (b.content ++ [c])).2.length ≤
        b.start + b.content.length + 1 ∧
      scanFrom split max last b ((c, true) :: body) =
        (scanFrom split max last
          { start, content := (drain split false (b.content ++ [c])).2, size := b.size }
          body).after (drain split false (b.content ++ [c])).1 := by
  have hlen : (b.content ++ [c]).length = b.content.length + 1 := by
    rw [length_append, length_singleton]
  have hshort : (drain split false (b.content ++ [c])).2.length ≤ (b.content ++ [c]).length :=
    length_drain_le hsplit
  generalize hleft : (drain split false (b.content ++ [c])).2 = left at hshort ⊢
  have hadvance : ((b.push c).advance left).start + left.length =
      b.start + b.content.length + 1 := by
    show b.start + ((b.content ++ [c]).length - left.length) + left.length = _
    omega
  have hroom : ((b.push c).advance left).start + left.length < b.size := hadvance ▸ h
  obtain ⟨start, hstart, hmake⟩ := Buffer.makeRoom_of_lt (b := (b.push c).advance left) hroom
  refine ⟨start, by omega, ?_⟩
  rw [scanFrom]
  dsimp only
  rw [if_pos (.inl rfl), show (b.push c).content = b.content ++ [c] from rfl, hleft, hmake]
  rfl

end Short

/-! ## Tokens that do not depend on the reads -/

/-- Whatever the scanner sees of the rest of the body, its split function gives the same tokens: it
finds none before the delimiter of the first one is complete, and then always that one. -/
inductive Settles (split : List α → Bool → Split α) (max : ℕ) (last : ReadError) :
    List α → Scanned α → Prop
  | nil (hnil : split [] false = .more) (hend : split [] true = .more) :
    Settles split max last [] { tokens := [], err := .read last }
  | last {r tok : List α} (hlen : r.length < max)
    (hmore : ∀ p, p <+: r → split p false = .more) (hend : split r true = .final tok) :
    Settles split max last r { tokens := [tok], err := .read last }
  | tooLong {r : List α} (hlen : max < r.length)
    (hmore : ∀ p, p <+: r → p.length ≤ max → split p false = .more) :
    Settles split max last r
      { tokens := [], err := .tooLong, late := (drain split true (r.take max)).1 }
  | token {r tok : List α} {k : ℕ} {scanned : Scanned α} (hk : k ≤ max) (hr : k ≤ r.length)
    (hmore : ∀ p, p <+: r → p.length < k → split p false = .more)
    (htoken : ∀ p eof, p <+: r → k ≤ p.length → split p eof = .token tok (p.drop k))
    (hrest : Settles split max last (r.drop k) scanned) :
    Settles split max last r (scanned.after [tok])

section Settles

variable {split : List α → Bool → Split α} {max : ℕ} {last : ReadError} {r : List α}
  {scanned : Scanned α}

/-- What the buffer holds of the rest, `p`, gives the first tokens. -/
theorem Settles.drain_append (hsplit : Advances split) {p q : List α} (hp : p.length ≤ max)
    (h : Settles split max last (p ++ q) scanned) :
    ∃ tokens left scanned', drain split false p = (tokens, left) ∧ left <:+ p ∧
      split left false = .more ∧ Settles split max last (left ++ q) scanned' ∧
      scanned = scanned'.after tokens := by
  generalize hr : p ++ q = r at h
  induction h generalizing p with
  | nil hnil hend =>
    obtain ⟨rfl, rfl⟩ := append_eq_nil_iff.mp hr
    exact ⟨[], [], _, drain_of_more hnil, suffix_refl [], hnil, .nil hnil hend, rfl⟩
  | last hlen hmore hend =>
    subst hr
    have hnone := hmore p (prefix_append p q)
    exact ⟨[], p, _, drain_of_more hnone, suffix_refl p, hnone, .last hlen hmore hend, rfl⟩
  | tooLong hlen hmore =>
    subst hr
    have hnone := hmore p (prefix_append p q) hp
    exact ⟨[], p, _, drain_of_more hnone, suffix_refl p, hnone, .tooLong hlen hmore, rfl⟩
  | @token r tok k scanned hk hfit hmore htoken hrest ih =>
    subst hr
    have hprefix : p <+: p ++ q := prefix_append p q
    rcases Nat.lt_or_ge p.length k with hlt | hge
    · have hnone := hmore p hprefix hlt
      exact ⟨[], p, _, drain_of_more hnone, suffix_refl p, hnone,
        .token hk hfit hmore htoken hrest, rfl⟩
    · -- the token is taken, and the induction goes on behind its delimiter
      have hdrop : p.drop k ++ q = (p ++ q).drop k := (drop_append_of_le_length hge).symm
      have hlen : (p.drop k).length ≤ max := by
        rw [length_drop]
        omega
      obtain ⟨tokens, left, scanned', hdrain, hsuffix, hnone, hleft, hscanned⟩ := ih hlen hdrop
      refine ⟨tok :: tokens, left, scanned', ?_, hsuffix.trans (drop_suffix k p), hnone, hleft,
        ?_⟩
      · rw [drain_of_token hsplit (htoken p false hprefix hge), hdrain]
      · rw [hscanned, ← Scanned.after_append, singleton_append]

/-- At the end of the body the buffer gives the rest of the tokens. -/
theorem Settles.drain_end (hsplit : Advances split) (hr : r.length ≤ max)
    (h : Settles split max last r scanned) :
    scanned = { tokens := (drain split true r).1, err := .read last } := by
  induction h with
  | nil hnil hend => rw [drain_of_more hend]
  | last hlen hmore hend => rw [drain_of_final hend]
  | tooLong hlen hmore => exact absurd hlen (Nat.not_lt_of_le hr)
  | @token r tok k scanned hk hfit hmore htoken hrest ih =>
    have hdrop : (r.drop k).length ≤ max := Nat.le_trans (drop_suffix k r).length_le hr
    rw [drain_of_token hsplit (htoken r true (prefix_refl r) hfit), ih hdrop]
    rfl

/-- A full buffer without a token is the start of a token that is too long. -/
theorem Settles.eq_tooLong {p q : List α} (hmax : 0 < max) (hp : p.length = max)
    (hmore : split p false = .more)
    (h : Settles split max last (p ++ q) scanned) :
    scanned = { tokens := [], err := .tooLong, late := (drain split true p).1 } := by
  generalize hr : p ++ q = r at h
  have hle : p.length ≤ r.length := by
    rw [← hr, length_append]
    exact Nat.le_add_right _ _
  cases h with
  | nil => exact absurd hle (by rw [hp, length_nil]; omega)
  | last hlen => omega
  | tooLong hlen => rw [← hr, ← hp, take_left]
  | token hk _ _ htoken =>
    have htok := htoken p false (hr ▸ prefix_append p q) (hp ▸ hk)
    rw [hmore] at htok
    cases htok

variable {body : List (α × Bool)}

/-- Where the tokens do not depend on what the scanner sees, they are the same for all reads. -/
theorem scanFrom_eq_of_settles (hsplit : Advances split) (hmax : 0 < max) {b : Buffer α}
    (hsize : b.size ≤ max) (hle : b.start + b.content.length ≤ b.size)
    (hroom : body ≠ [] → b.start + b.content.length < b.size)
    (h : Settles split max last (b.content ++ body.map Prod.fst) scanned) :
    scanFrom split max last b body = scanned := by
  induction body generalizing b scanned with
  | nil =>
    rw [map_nil, append_nil] at h
    exact (h.drain_end hsplit (by omega)).symm
  | cons x body ih =>
    obtain ⟨c, cut⟩ := x
    have hlt := hroom (cons_ne_nil _ _)
    have hlen : (b.push c).content.length = b.content.length + 1 := by
      rw [Buffer.push, length_append, length_singleton]
    have hpush : Settles split max last ((b.push c).content ++ body.map Prod.fst) scanned := by
      rw [Buffer.push, append_assoc]
      exact h
    rw [scanFrom]
    dsimp only
    split_ifs with hcut
    · obtain ⟨tokens, left, scanned', hdrain, hsuffix, hmore, hleft, rfl⟩ :=
        hpush.drain_append hsplit (by rw [hlen]; omega)
      rw [hdrain]
      have hadvance : (Buffer.advance (b.push c) left).start + left.length =
          b.start + (b.content.length + 1) := by
        have hshort := hsuffix.length_le
        show b.start + ((b.push c).content.length - left.length) + left.length = _
        omega
      cases hmake : (Buffer.advance (b.push c) left).makeRoom max with
      | none =>
        have hfull : left.length = max := Buffer.length_of_makeRoom_eq_none hmake hsize
        rw [hleft.eq_tooLong hmax hfull hmore, Scanned.after, append_nil]
      | some b' =>
        obtain ⟨hcontent, hroom', hsize'⟩ := Buffer.of_makeRoom_eq_some hmake hsize
          (by show _ + left.length ≤ b.size; omega)
        dsimp only
        rw [ih hsize' (Nat.le_of_lt hroom') (fun _ => hroom') (by rw [hcontent]; exact hleft)]
    · refine ih hsize ?_ (fun hne => ?_) hpush
      · show b.start + (b.push c).content.length ≤ b.size
        omega
      · have hnot : ¬(b.push c).Full := fun hfull => hcut (.inr ⟨hfull, hne⟩)
        have hne' : b.start + (b.push c).content.length ≠ b.size := hnot
        show b.start + (b.push c).content.length < b.size
        omega

theorem scanAll_eq_of_settles (hsplit : Advances split) (hpos : 0 < size) (hsize : size ≤ max)
    (h : Settles split max last (body.map Prod.fst) scanned) :
    scanAll split size max last body = scanned :=
  scanFrom_eq_of_settles hsplit (Nat.lt_of_lt_of_le hpos hsize) hsize (Nat.zero_le _)
    (fun _ => hpos) h

end Settles

end Scanner
