import Gost.Lib.Bytes
import Gost.Lib.ListCount
import Gost.Lib.TransitionSystem

/-!
# The first writes on an obfs-tls connection of the dialer

`Write` of `x/dialer/obfs/tls/conn.go`, called by any number of goroutines at the same time. A call
that finds the handshake undone hands its payload to `Handshake`, which sends it inside the
`ClientHello`. Only one call does so: the others wait for the mutex, find the handshake done, and
return as if their payload had been sent.

`handshaked` is closed once. `wbuf` of this connection is never written to, so that branch of
`Write` is not here. A record is written in one piece, and the fragments that were sent are kept
together with the call they came from.

`first_writes_sent_iff`: every payload that `Write` reports as written is sent once, if and only if
no call with a payload finds the handshake done by another while it waited.
-/

namespace Obfs.FirstWrite

open List ListCount Option TransitionSystem

def maxTLSDataLen : ℕ := 16384

/-- What carries a payload: the session ticket of the `ClientHello`, or a data record. -/
inductive Fragment
  | hello (payload : Bytes)
  | data (b : Bytes)
deriving DecidableEq, Repr

/-- Where a `Write` call is. -/
inductive Pc
  | called
  -- `Handshaked` was false: waiting for `handshakeMutex`
  | locking
  -- with the mutex, before `Handshaked` is asked again
  | locked
  -- in `handshake`
  | shaking
  -- the hello is sent, `handshaked` is not closed yet
  | shaken
  -- in the loop over the records, with what is left of `b`
  | sending (b : Bytes)
  -- with `err == nil`
  | returned (ok : Bool)
deriving DecidableEq, Repr

structure Writer where
  payload : Bytes
  pc : Pc := .called
deriving DecidableEq, Repr

structure State where
  handshaked : Bool := false
  -- `handshakeMutex` is held
  locked : Bool := false
  writers : List Writer
  -- what was sent, by which call
  sent : List (ℕ × Fragment) := []
deriving DecidableEq, Repr

inductive Op
  -- `Handshaked` is asked by `Write`
  | check (i : ℕ)
  | lock (i : ℕ)
  -- `Handshaked` is asked by `Handshake`
  | recheck (i : ℕ)
  -- `handshake` sends the hello or fails
  | shake (i : ℕ) (ok : Bool)
  -- `handshaked` is closed
  | close (i : ℕ)
  -- a record is sent or fails
  | send (i : ℕ) (ok : Bool)
  -- the loop over the records ends
  | finish (i : ℕ)
deriving DecidableEq, Repr

/-- A fresh connection, and a call of `Write` for each payload. -/
def start (payloads : List Bytes) : State where
  writers := payloads.map fun payload => { payload }

namespace State

def setPc (s : State) (i : ℕ) (w : Writer) (pc : Pc) : State :=
  { s with writers := s.writers.set i { w with pc } }

/-- A call sends something. -/
def emit (s : State) (i : ℕ) (fragment : Fragment) : State :=
  { s with sent := s.sent ++ [(i, fragment)] }

/-- What a call has sent. -/
def fragments (s : State) (i : ℕ) : List Fragment :=
  s.sent.filterMap fun p => if p.1 = i then some p.2 else none

end State

/-- The next step of a call. -/
def move (s : State) (i : ℕ) (w : Writer) : Op → Option State
  | .check _ =>
    if w.pc = .called then
      some (s.setPc i w (if s.handshaked then .sending w.payload else .locking))
    else none
  | .lock _ =>
    if w.pc = .locking ∧ s.locked = false then some { s.setPc i w .locked with locked := true }
    else none
  | .recheck _ =>
    if w.pc = .locked then
      if s.handshaked then some { s.setPc i w (.returned true) with locked := false }
      else some (s.setPc i w .shaking)
    else none
  | .shake _ ok =>
    if w.pc = .shaking then
      if ok then some ((s.emit i (.hello w.payload)).setPc i w .shaken)
      else some { s.setPc i w (.returned false) with locked := false }
    else none
  | .close _ =>
    if w.pc = .shaken then
      some { s.setPc i w (.returned true) with handshaked := true, locked := false }
    else none
  | .send _ ok =>
    match w.pc with
    | .sending (c :: b) =>
      if ok then
        some ((s.emit i (.data ((c :: b).take maxTLSDataLen))).setPc i w
          (.sending ((c :: b).drop maxTLSDataLen)))
      else some (s.setPc i w (.returned false))
    | _ => none
  | .finish _ => if w.pc = .sending [] then some (s.setPc i w (.returned true)) else none

/-- The call that a step belongs to. -/
def Op.caller : Op → ℕ
  | .check i | .lock i | .recheck i | .shake i _ | .close i | .send i _ | .finish i => i

def step (s : State) (op : Op) : Option State :=
  s.writers[op.caller]?.bind fun w => move s op.caller w op

/-- No call that has something to send finds the handshake done by another. -/
def NotLate (s : State) : Op → Prop
  | .recheck i => s.handshaked = true → ∀ w ∈ s.writers[i]?, w.payload = []
  | _ => True

instance (s : State) (op : Op) : Decidable (NotLate s op) :=
  match op with
  | .recheck i => inferInstanceAs (Decidable (_ → ∀ w ∈ s.writers[i]?, _))
  | .check _ | .lock _ | .shake _ _ | .close _ | .send _ _ | .finish _ => .isTrue trivial

/-! ## What a call has sent -/

/-- The bytes in a list of fragments. -/
def content : List Fragment → Bytes
  | [] => []
  | .hello payload :: fragments => payload ++ content fragments
  | .data b :: fragments => b ++ content fragments

/-- A data record of a size that the protocol allows. -/
def Fragment.IsRecord : Fragment → Prop
  | .hello _ => False
  | .data b => b.length ≤ maxTLSDataLen

/-- The payload is sent once: inside the hello, or in data records. -/
def Sent (payload : Bytes) (fragments : List Fragment) : Prop :=
  fragments = [.hello payload] ∨ (∀ f ∈ fragments, f.IsRecord) ∧ content fragments = payload

/-- What a call has sent, by where it is. -/
def Progress (w : Writer) (fragments : List Fragment) : Prop :=
  match w.pc with
  | .called | .locking | .locked | .shaking => fragments = []
  | .shaken => fragments = [.hello w.payload]
  | .sending b => (∀ f ∈ fragments, f.IsRecord) ∧ content fragments ++ b = w.payload
  | .returned true => Sent w.payload fragments
  | .returned false => True

/-- All calls have sent what they should. -/
def Inv (s : State) : Prop := ∀ i w, s.writers[i]? = some w → Progress w (s.fragments i)

/-- A call has returned without having sent its payload. -/
def Lost (s : State) : Prop :=
  ∃ (i : ℕ) (w : Writer), s.writers[i]? = some w ∧ w.pc = .returned true ∧ w.payload ≠ [] ∧
    s.fragments i = []

section Fragments

variable {s : State} {i j : ℕ} {f : Fragment}

theorem content_append (fragments : List Fragment) (f : Fragment) :
    content (fragments ++ [f]) = content fragments ++ content [f] := by
  induction fragments with
  | nil => rfl
  | cons f' fragments ih =>
    cases f' with
    | hello payload | data b => rw [cons_append, content, content, ih, append_assoc]

theorem fragments_emit_self : (s.emit i f).fragments i = s.fragments i ++ [f] := by
  unfold State.fragments
  show filterMap _ (s.sent ++ [(i, f)]) = _
  simp

theorem fragments_emit_of_ne (h : j ≠ i) : (s.emit i f).fragments j = s.fragments j := by
  unfold State.fragments
  show filterMap _ (s.sent ++ [(i, f)]) = _
  simp [h.symm]

end Fragments

/-! ## Steps -/

variable {payload : Bytes} {s s' : State} {op : Op}

theorem sent_nil (h : payload = []) : Sent payload [] :=
  .inr ⟨nofun, h.symm⟩

/-- What a step does to its call and to the log: a call goes on in silence, is late, or sends. -/
inductive StepCase (s : State) (op : Op) (w : Writer) : State → Prop
  | quiet {s' : State} (pc : Pc) (hwriters : s'.writers = s.writers.set op.caller { w with pc })
    (hsent : s'.sent = s.sent) (hguard : NotLate s op)
    (hpc : ∀ fs, Progress w fs → Progress { w with pc } fs) : StepCase s op w s'
  | late {s' : State}
    (hwriters : s'.writers = s.writers.set op.caller { w with pc := .returned true })
    (hsent : s'.sent = s.sent) (hguard : ¬NotLate s op) (hpc : w.pc = .locked)
    (hne : w.payload ≠ []) : StepCase s op w s'
  | emit {s' : State} (pc : Pc) (f : Fragment)
    (hwriters : s'.writers = s.writers.set op.caller { w with pc })
    (hsent : s'.sent = s.sent ++ [(op.caller, f)]) (hguard : NotLate s op)
    (hpc : ∀ fs, Progress w fs → Progress { w with pc } (fs ++ [f])) : StepCase s op w s'

/-- A record takes its bytes from the front of what is left. -/
theorem progress_send {b : Bytes} {fs : List Fragment} (h : Progress ⟨payload, .sending b⟩ fs) :
    Progress ⟨payload, .sending (b.drop maxTLSDataLen)⟩
      (fs ++ [.data (b.take maxTLSDataLen)]) := by
  obtain ⟨hrecords, hcontent⟩ := h
  refine ⟨fun f hf => ?_, ?_⟩
  · rcases mem_append.mp hf with hf | hf
    · exact hrecords f hf
    · rw [mem_singleton.mp hf]
      exact length_take_le _ _
  · rw [content_append, content, content, append_nil, append_assoc, take_append_drop]
    exact hcontent

theorem step_cases (h : step s op = some s') :
    ∃ w, s.writers[op.caller]? = some w ∧ StepCase s op w s' := by
  obtain ⟨⟨payload, pc⟩, hw, hmove⟩ := bind_eq_some_iff.mp h
  refine ⟨_, hw, ?_⟩
  cases op with
  | check i =>
    obtain ⟨rfl, hs'⟩ := ite_none_right_eq_some.mp hmove
    cases hs'
    refine .quiet _ rfl rfl trivial fun fs hfs => ?_
    -- nothing was sent yet, so all of the payload is left
    obtain rfl : fs = [] := hfs
    split_ifs
    · exact ⟨nofun, rfl⟩
    · exact rfl
  | lock i =>
    obtain ⟨⟨rfl, -⟩, hs'⟩ := ite_none_right_eq_some.mp hmove
    cases hs'
    exact .quiet _ rfl rfl trivial fun fs hfs => hfs
  | recheck i =>
    obtain ⟨rfl, hs'⟩ := ite_none_right_eq_some.mp hmove
    split_ifs at hs' with hshaken
    · cases hs'
      by_cases hempty : payload = []
      · refine .quiet _ rfl rfl (fun _ w hw' => ?_) fun fs hfs => ?_
        · rw [some.inj (hw'.symm.trans hw)]
          exact hempty
        · obtain rfl : fs = [] := hfs
          exact sent_nil hempty
      · exact .late rfl rfl (fun hguard => hempty (hguard hshaken _ hw)) rfl hempty
    · cases hs'
      exact .quiet _ rfl rfl (fun hdone => absurd hdone hshaken) fun fs hfs => hfs
  | shake i ok =>
    obtain ⟨rfl, hs'⟩ := ite_none_right_eq_some.mp hmove
    split_ifs at hs'
    · cases hs'
      refine .emit _ (.hello payload) rfl rfl trivial fun fs hfs => ?_
      obtain rfl : fs = [] := hfs
      exact rfl
    · cases hs'
      exact .quiet _ rfl rfl trivial fun _ _ => trivial
  | close i =>
    obtain ⟨rfl, hs'⟩ := ite_none_right_eq_some.mp hmove
    cases hs'
    exact .quiet _ rfl rfl trivial fun fs hfs => .inl hfs
  | send i ok =>
    match pc with
    | .sending (c :: b) =>
      dsimp only [move] at hmove
      split_ifs at hmove
      · cases hmove
        exact .emit _ _ rfl rfl trivial fun fs hfs => progress_send hfs
      · cases hmove
        exact .quiet _ rfl rfl trivial fun _ _ => trivial
  | finish i =>
    obtain ⟨rfl, hs'⟩ := ite_none_right_eq_some.mp hmove
    cases hs'
    refine .quiet _ rfl rfl trivial fun fs hfs => .inr ⟨hfs.1, ?_⟩
    rw [← append_nil (content fs)]
    exact hfs.2

/-- A call that has returned takes no step. -/
theorem pc_ne_returned {w : Writer} (h : step s op = some s') (hw : s.writers[op.caller]? = some w)
    (ok : Bool) : w.pc ≠ .returned ok := by
  intro hpc
  rw [step, hw, bind_some] at h
  cases op <;> simp [move, hpc] at h

section Log

variable {s s' : State} {i j : ℕ} {f : Fragment}

theorem fragments_of_sent_eq (h : s'.sent = s.sent) : s'.fragments i = s.fragments i := by
  rw [State.fragments, h, State.fragments]

theorem fragments_of_sent_append (h : s'.sent = s.sent ++ [(i, f)]) :
    s'.fragments i = s.fragments i ++ [f] := by
  rw [fragments_of_sent_eq (s := s.emit i f) h, fragments_emit_self]

theorem fragments_of_sent_append_ne (h : s'.sent = s.sent ++ [(i, f)]) (hne : j ≠ i) :
    s'.fragments j = s.fragments j := by
  rw [fragments_of_sent_eq (s := s.emit i f) h, fragments_emit_of_ne hne]

end Log

/-- The other calls keep their place and what they have sent. -/
theorem frame (h : step s op = some s') {j : ℕ} (hj : j ≠ op.caller) :
    s'.writers[j]? = s.writers[j]? ∧ s'.fragments j = s.fragments j := by
  obtain ⟨w, -, hcase⟩ := step_cases h
  cases hcase with
  | quiet pc hwriters hsent | late hwriters hsent =>
    exact ⟨by rw [hwriters, getElem?_set_ne hj.symm], fragments_of_sent_eq hsent⟩
  | emit pc f hwriters hsent =>
    exact ⟨by rw [hwriters, getElem?_set_ne hj.symm], fragments_of_sent_append_ne hsent hj⟩

/-! ## Runs -/

theorem inv_start (payloads : List Bytes) : Inv (start payloads) := by
  intro i w hw
  obtain ⟨payload, -, rfl⟩ := map_eq_some_iff.mp (getElem?_map ▸ hw)
  exact rfl

theorem Inv.next (hs : Inv s) (hguard : NotLate s op) (h : step s op = some s') : Inv s' := by
  intro j wj hwj
  by_cases hj : j = op.caller
  · subst hj
    obtain ⟨w, hw, hcase⟩ := step_cases h
    have hlt : op.caller < s.writers.length := (List.getElem?_eq_some_iff.mp hw).1
    cases hcase with
    | quiet pc hwriters hsent _ hpc =>
      rw [hwriters, getElem?_set_self hlt, some.injEq] at hwj
      rw [← hwj, fragments_of_sent_eq hsent]
      exact hpc _ (hs _ w hw)
    | late _ _ hlate => exact absurd hguard hlate
    | emit pc f hwriters hsent _ hpc =>
      rw [hwriters, getElem?_set_self hlt, some.injEq] at hwj
      rw [← hwj, fragments_of_sent_append hsent]
      exact hpc _ (hs _ w hw)
  · obtain ⟨hwriter, hfragments⟩ := frame h hj
    rw [hfragments]
    exact hs j wj (hwriter ▸ hwj)

/-- A call that is late returns without having sent anything. -/
theorem Inv.lost_of_late (hs : Inv s) (hguard : ¬NotLate s op) (h : step s op = some s') :
    Lost s' := by
  obtain ⟨w, hw, hcase⟩ := step_cases h
  have hlt : op.caller < s.writers.length := (List.getElem?_eq_some_iff.mp hw).1
  cases hcase with
  | quiet _ _ _ hon | emit _ _ _ _ hon => exact absurd hon hguard
  | late hwriters hsent _ hpc hne =>
    refine ⟨op.caller, { w with pc := .returned true }, ?_, rfl, hne, ?_⟩
    · rw [hwriters, getElem?_set_self hlt]
    · have hnone : Progress w (s.fragments op.caller) := hs _ w hw
      rw [Progress, hpc] at hnone
      rw [fragments_of_sent_eq hsent]
      exact hnone

theorem Lost.next (hs : Lost s) (h : step s op = some s') : Lost s' := by
  obtain ⟨i, w, hw, hpc, hne, hnone⟩ := hs
  have hi : i ≠ op.caller := fun hi => pc_ne_returned h (hi ▸ hw) true hpc
  obtain ⟨hwriter, hfragments⟩ := frame h hi
  exact ⟨i, w, hwriter.trans hw, hpc, hne, hfragments.trans hnone⟩

theorem not_sent_of_nonempty (h : payload ≠ []) : ¬Sent payload [] := by
  rintro (hhello | ⟨-, hcontent⟩)
  · cases hhello
  · exact h hcontent.symm

/-- Whatever `Write` calls run on a fresh connection, and however their steps interleave: every
payload whose call returned without an error was sent exactly once, in the hello or in data
records, if and only if no call with a payload finds the handshake done when it gets the mutex. -/
theorem first_writes_sent_iff (payloads : List Bytes) (ops : List Op) (s : State)
    (hrun : run step (start payloads) ops = some s) :
    (∀ i w, s.writers[i]? = some w → w.pc = .returned true → Sent w.payload (s.fragments i)) ↔
      Along step NotLate (start payloads) ops := by
  constructor
  · intro hsent
    refine (along_or_trapped (I := Inv) (D := Lost) (fun _ _ _ hI hG h => hI.next hG h)
      (fun _ _ _ hI hG h => hI.lost_of_late hG h) (fun _ _ _ hD h => hD.next h)
      (inv_start payloads) hrun).resolve_right ?_
    rintro ⟨i, w, hw, hpc, hne, hnone⟩
    exact not_sent_of_nonempty hne (hnone ▸ hsent i w hw hpc)
  · intro halong i w hw hpc
    have hinv : Inv s :=
      run_induction_along (fun _ _ _ hI hG h => hI.next hG h) (inv_start payloads) halong hrun
    have hprogress : Progress w (s.fragments i) := hinv i w hw
    rw [Progress, hpc] at hprogress
    exact hprogress

/-- The second call comes after the first has returned. -/
def inTurn : List Op :=
  [.check 0, .lock 0, .recheck 0, .shake 0 true, .close 0, .check 1, .send 1 true, .finish 1]

theorem first_writes_sent_in_turn :
    (run step (start [[1], [2]]) inTurn).isSome ∧
      ∀ s, run step (start [[1], [2]]) inTurn = some s →
        ∀ i w, s.writers[i]? = some w → w.pc = .returned true →
          Sent w.payload (s.fragments i) :=
  ⟨by decide, fun s hrun => (first_writes_sent_iff _ _ s hrun).mpr (by decide)⟩

/-- The second call asks for the handshake before the first has done it: it is told that its byte
was written, and the connection carries only the hello with the first call's byte. -/
theorem first_write_lost :
    ∃ s, run step (start [[1], [2]])
        [.check 0, .check 1, .lock 0, .recheck 0, .shake 0 true, .close 0, .lock 1,
          .recheck 1] = some s ∧
      s.writers = [⟨[1], .returned true⟩, ⟨[2], .returned true⟩] ∧
      s.sent = [(0, .hello [1])] ∧ ¬Sent [2] (s.fragments 1) :=
  ⟨_, rfl, rfl, rfl, not_sent_of_nonempty (by decide)⟩

end Obfs.FirstWrite
