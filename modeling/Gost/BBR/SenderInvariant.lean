import Gost.BBR.SenderCore
import Gost.Lib.TransitionSystem

/-!
# The invariant of the BBR sender

`Core.Invariant` is kept by every congestion event, and by every new datagram size that fits: the
windows are 64-bit products of packets and bytes. All sizes up to 65535 bytes do:
`reachable_sound`.
-/

namespace BBR

namespace Sender

open MachineInt Option TransitionSystem

variable {σ : Type*} {sampler : Sampler σ} {floats : Floats} {b b' : Sender σ}

/-! ## Datagram sizes -/

/-- Whether the windows for a new datagram size are computed without a wrap. -/
def SizeFits (old new : ℤ) : Prop :=
  0 < old → old < new →
    maxCongestionWindowPackets * old * new < 2 ^ 64 ∧ maxCongestionWindowPackets * new < 2 ^ 63

/-- The scaled window is the wrapped quotient of a wrapped product. -/
theorem eq_of_scaleByteWindowForDatagramSize {window old new scaled : ℤ} (hlt : old < new)
    (h : scaleByteWindowForDatagramSize window old new = some scaled) :
    scaled = int64 ((window % 2 ^ 64 * (new % 2 ^ 64) % 2 ^ 64) / (old % 2 ^ 64)) ∧
      old % 2 ^ 64 ≠ 0 := by
  unfold scaleByteWindowForDatagramSize at h
  rw [if_neg hlt.ne] at h
  split_ifs at h with hzero
  exact ⟨(some.inj h).symm, hzero⟩

/-- A window of `k` packets is scaled to one of `k` packets, if the product fits. -/
theorem scaled_packets {k old new scaled : ℤ} (hk : 1 ≤ k) (hold : 0 ≤ old) (hlt : old < new)
    (hprod : k * old * new < 2 ^ 64) (hrange : k * new < 2 ^ 63)
    (h : scaleByteWindowForDatagramSize (k * old) old new = some scaled) :
    scaled = k * new := by
  obtain ⟨rfl, hne⟩ := eq_of_scaleByteWindowForDatagramSize hlt h
  have hnew : new ≤ k * new := le_mul_of_one_le_left (hold.trans hlt.le) hk
  have hwindow : k * old ≤ k * new := mul_le_mul_of_nonneg_left hlt.le (zero_le_one.trans hk)
  have hwindow₀ : 0 ≤ k * old := mul_nonneg (zero_le_one.trans hk) hold
  have hold' : old % 2 ^ 64 = old := Int.emod_eq_of_lt hold (by omega)
  rw [hold'] at hne ⊢
  rw [Int.emod_eq_of_lt hwindow₀ (by omega), Int.emod_eq_of_lt (hold.trans hlt.le) (by omega),
    Int.emod_eq_of_lt (mul_nonneg hwindow₀ (hold.trans hlt.le)) hprod, mul_right_comm,
    Int.mul_ediv_cancel _ hne]
  exact int64_of_nonneg (by omega) hrange

/-- What `SetMaxDatagramSize` does to the core. -/
theorem core_setMaxDatagramSize {s : ℤ} (h : b.setMaxDatagramSize s = some b') :
    b.maxDatagramSize ≤ s ∧ ∃ initialCongestionWindow maxCongestionWindow,
      scaleByteWindowForDatagramSize b.initialCongestionWindow b.maxDatagramSize s =
        some initialCongestionWindow ∧
      scaleByteWindowForDatagramSize b.maxCongestionWindow b.maxDatagramSize s =
        some maxCongestionWindow ∧
      b'.core = { b.core with
        maxDatagramSize := s
        initialCongestionWindow
        maxCongestionWindow
        minCongestionWindow := minCongestionWindowForMaxDatagramSize s
        congestionWindow :=
          if b.congestionWindow = b.minCongestionWindow then
            minCongestionWindowForMaxDatagramSize s
          else if b.congestionWindow = b.initialCongestionWindow then initialCongestionWindow
          else min maxCongestionWindow
            (max b.congestionWindow (minCongestionWindowForMaxDatagramSize s))
        recoveryWindow := min maxCongestionWindow
          (max b.recoveryWindow (minCongestionWindowForMaxDatagramSize s)) } := by
  have hlt : ¬ s < b.maxDatagramSize := by
    intro hlt
    rw [setMaxDatagramSize, if_pos hlt] at h
    exact some_ne_none b' h.symm
  rw [setMaxDatagramSize, if_neg hlt] at h
  obtain ⟨b₁, hb₁, rfl⟩ := map_eq_some_iff.mp h
  obtain ⟨initialCongestionWindow, hinitial, hb₁⟩ := bind_eq_some_iff.mp hb₁
  obtain ⟨maxCongestionWindow, hmax, hb₁⟩ := bind_eq_some_iff.mp hb₁
  obtain ⟨cwnd, -, rfl⟩ := map_eq_some_iff.mp hb₁
  exact ⟨not_lt.mp hlt, initialCongestionWindow, maxCongestionWindow, hinitial, hmax, rfl⟩

/-! ## The invariant -/

/-- The invariant of a sender. -/
structure Core.Invariant (c : Core) : Prop where
  size_nonneg : 0 ≤ c.maxDatagramSize
  size_lt : maxCongestionWindowPackets * c.maxDatagramSize < 2 ^ 63
  min_eq : c.minCongestionWindow = minCongestionWindowPackets * c.maxDatagramSize
  initial_eq : c.initialCongestionWindow = initialCongestionWindowPackets * c.maxDatagramSize
  max_eq : c.maxCongestionWindow = maxCongestionWindowPackets * c.maxDatagramSize
  min_le : c.minCongestionWindow ≤ c.congestionWindow
  le_max : c.congestionWindow ≤ c.maxCongestionWindow
  mode : ModeFits c.mode c.isAtFullBandwidth
  recovery : c.recoveryState ≠ .notInRecovery → c.isAtFullBandwidth = true
  recoveryWindow : c.recoveryState ≠ .notInRecovery → c.minCongestionWindow ≤ c.recoveryWindow

theorem Core.Invariant.min_le_max {c : Core} (hc : c.Invariant) :
    c.minCongestionWindow ≤ c.maxCongestionWindow := hc.min_le.trans hc.le_max

theorem Core.Invariant.change {c c' : Core} (hc : c.Invariant) (h : c.Change c') :
    c'.Invariant where
  size_nonneg := by rw [h.maxDatagramSize_eq]; exact hc.size_nonneg
  size_lt := by rw [h.maxDatagramSize_eq]; exact hc.size_lt
  min_eq := by rw [h.minCongestionWindow_eq, h.maxDatagramSize_eq]; exact hc.min_eq
  initial_eq := by rw [h.initialCongestionWindow_eq, h.maxDatagramSize_eq]; exact hc.initial_eq
  max_eq := by rw [h.maxCongestionWindow_eq, h.maxDatagramSize_eq]; exact hc.max_eq
  min_le := by
    rw [h.minCongestionWindow_eq]
    rcases h.congestionWindow with heq | ⟨hmin, -⟩
    · exact heq ▸ hc.min_le
    · rw [min_eq_left hc.min_le_max] at hmin
      exact hmin
  le_max := by
    rw [h.maxCongestionWindow_eq]
    rcases h.congestionWindow with heq | ⟨-, hmax⟩
    · exact heq ▸ hc.le_max
    · exact hmax
  mode := h.mode hc.mode
  recovery hr := h.isAtFullBandwidth ((h.recovery hr).elim hc.recovery id)
  recoveryWindow hr := by rw [h.minCongestionWindow_eq]; exact h.recoveryWindow hr

theorem minCongestionWindowForMaxDatagramSize_of_lt {size : ℤ} (hsize : 0 ≤ size)
    (hlt : maxCongestionWindowPackets * size < 2 ^ 63) :
    minCongestionWindowForMaxDatagramSize size = minCongestionWindowPackets * size := by
  unfold maxCongestionWindowPackets at hlt
  unfold minCongestionWindowForMaxDatagramSize minCongestionWindowPackets
  exact int64_of_nonneg (by omega) (by omega)

/-- The windows of a new sender, as long as they fit. -/
theorem invariant_new (s : σ) {size : ℤ} (profile : Profile) (hsize : 0 ≤ size)
    (hlt : maxCongestionWindowPackets * size < 2 ^ 63) :
    (new s size profile).core.Invariant := by
  have hmin := minCongestionWindowForMaxDatagramSize_of_lt hsize hlt
  have hmax : int64 (maxCongestionWindowPackets * size) = maxCongestionWindowPackets * size := by
    unfold maxCongestionWindowPackets at hlt ⊢
    exact int64_of_nonneg (by omega) hlt
  have hinitial : int64 (initialCongestionWindowPackets * size) =
      initialCongestionWindowPackets * size := by
    unfold maxCongestionWindowPackets at hlt
    unfold initialCongestionWindowPackets
    exact int64_of_nonneg (by omega) (by omega)
  refine ⟨hsize, hlt, hmin, hinitial, hmax, ?_, ?_, rfl, fun h => absurd rfl h,
    fun h => absurd rfl h⟩
  · show minCongestionWindowForMaxDatagramSize size ≤ int64 (initialCongestionWindowPackets * size)
    rw [hmin, hinitial]
    exact mul_le_mul_of_nonneg_right (by decide) hsize
  · show int64 (initialCongestionWindowPackets * size) ≤ int64 (maxCongestionWindowPackets * size)
    rw [hinitial, hmax]
    exact mul_le_mul_of_nonneg_right (by decide) hsize

/-- With the same size the windows stay, and with a larger one they are scaled. -/
theorem scaled_of_sizeFits {k s scaled : ℤ} (hb : b.core.Invariant) (hk : 1 ≤ k)
    (hkmax : k ≤ maxCongestionWindowPackets) (hle : b.maxDatagramSize ≤ s)
    (hfits : SizeFits b.maxDatagramSize s)
    (h : scaleByteWindowForDatagramSize (k * b.maxDatagramSize) b.maxDatagramSize s =
      some scaled) :
    scaled = k * s ∧ maxCongestionWindowPackets * s < 2 ^ 63 := by
  have hsize : 0 ≤ b.maxDatagramSize := hb.size_nonneg
  rcases hle.eq_or_lt with heq | hlt
  · -- The code compares the sizes before it multiplies.
    rw [scaleByteWindowForDatagramSize, if_pos heq, some.injEq] at h
    rw [← h, ← heq]
    exact ⟨rfl, hb.size_lt⟩
  · -- A larger size after 0 would have been a division by zero.
    obtain ⟨-, hne⟩ := eq_of_scaleByteWindowForDatagramSize hlt h
    have hpos : 0 < b.maxDatagramSize := hsize.lt_of_ne fun hzero => hne (by rw [← hzero]; rfl)
    obtain ⟨hprod, hrange⟩ := hfits hpos hlt
    have hs : 0 ≤ s := hsize.trans hlt.le
    refine ⟨scaled_packets hk hsize hlt ?_ ?_ h, hrange⟩
    · refine lt_of_le_of_lt ?_ hprod
      exact mul_le_mul_of_nonneg_right (mul_le_mul_of_nonneg_right hkmax hsize) hs
    · exact lt_of_le_of_lt (mul_le_mul_of_nonneg_right hkmax hs) hrange

theorem invariant_setMaxDatagramSize {s : ℤ} (hb : b.core.Invariant)
    (hfits : SizeFits b.maxDatagramSize s) (h : b.setMaxDatagramSize s = some b') :
    b'.core.Invariant := by
  obtain ⟨hle, initial, maximum, hinitial, hmaximum, hcore⟩ := core_setMaxDatagramSize h
  have hinitial_eq : b.initialCongestionWindow =
    initialCongestionWindowPackets * b.maxDatagramSize := hb.initial_eq
  have hmax_eq : b.maxCongestionWindow = maxCongestionWindowPackets * b.maxDatagramSize :=
    hb.max_eq
  rw [hinitial_eq] at hinitial
  rw [hmax_eq] at hmaximum
  obtain ⟨rfl, hlt⟩ := scaled_of_sizeFits hb (by decide) (by decide) hle hfits hinitial
  obtain ⟨rfl, -⟩ := scaled_of_sizeFits hb (by decide) (by decide) hle hfits hmaximum
  have hs : 0 ≤ s := le_trans hb.size_nonneg hle
  have hmin_le : minCongestionWindowPackets * s ≤ maxCongestionWindowPackets * s :=
    mul_le_mul_of_nonneg_right (by decide) hs
  have hmin_le_initial : minCongestionWindowPackets * s ≤ initialCongestionWindowPackets * s :=
    mul_le_mul_of_nonneg_right (by decide) hs
  have hinitial_le : initialCongestionWindowPackets * s ≤ maxCongestionWindowPackets * s :=
    mul_le_mul_of_nonneg_right (by decide) hs
  rw [minCongestionWindowForMaxDatagramSize_of_lt hs hlt] at hcore
  rw [hcore]
  -- What is left are the bounds of the two windows, in each of the cases of the source.
  refine ⟨hs, hlt, rfl, rfl, rfl, ?_, ?_, hb.mode, hb.recovery, fun _ => ?_⟩
  · split_ifs
    · exact le_rfl
    · exact hmin_le_initial
    · exact le_min hmin_le (le_max_right _ _)
  · split_ifs
    · exact hmin_le
    · exact hinitial_le
    · exact min_le_left _ _
  · exact le_min hmin_le (le_max_right _ _)

/-! ## Runs -/

/-- What holds of every sender. -/
structure Sound (b : Sender σ) : Prop where
  min_eq : b.minCongestionWindow = minCongestionWindowPackets * b.maxDatagramSize
  max_eq : b.maxCongestionWindow = maxCongestionWindowPackets * b.maxDatagramSize
  min_le : b.minCongestionWindow ≤ b.congestionWindow
  le_max : b.congestionWindow ≤ b.maxCongestionWindow
  min_le_getCongestionWindow : b.minCongestionWindow ≤ b.getCongestionWindow
  startup : b.mode = .startup → b.isAtFullBandwidth = false
  drain : b.mode = .drain → b.isAtFullBandwidth = true
  probeBw : b.mode = .probeBw → b.isAtFullBandwidth = true
  recovery : b.recoveryState ≠ .notInRecovery → b.isAtFullBandwidth = true

theorem Core.Invariant.min_le_getCongestionWindow (hb : b.core.Invariant) :
    b.minCongestionWindow ≤ b.getCongestionWindow := by
  unfold getCongestionWindow
  split_ifs with hmode hrecovery
  · exact le_rfl
  · exact le_min hb.min_le (hb.recoveryWindow (of_decide_eq_true hrecovery))
  · exact hb.min_le

theorem Core.Invariant.modeFits {mode : Mode} (hb : b.core.Invariant) (h : b.mode = mode) :
    ModeFits mode b.isAtFullBandwidth := by
  rw [← h]
  exact hb.mode

theorem Core.Invariant.sound (hb : b.core.Invariant) : b.Sound where
  min_eq := hb.min_eq
  max_eq := hb.max_eq
  min_le := hb.min_le
  le_max := hb.le_max
  min_le_getCongestionWindow := hb.min_le_getCongestionWindow
  startup h := hb.modeFits h
  drain h := hb.modeFits h
  probeBw h := hb.modeFits h
  recovery := hb.recovery

/-- Whether a call keeps the windows in range. -/
def Fits (b : Sender σ) : Op → Prop
  | .maxDatagramSize s => SizeFits b.maxDatagramSize s
  | _ => True

theorem invariant_step {op : Op} (hb : b.core.Invariant) (hfits : b.Fits op)
    (h : b.step sampler floats op = some b') : b'.core.Invariant := by
  cases op with
  | packetSent sentTime bytesInFlight packetNumber bytes isRetransmittable =>
    cases h
    exact hb
  | congestionEvent e => exact hb.change (change_onCongestionEventEx h)
  | maxDatagramSize s => exact invariant_setMaxDatagramSize hb hfits h

/-- Full bandwidth is reached for good. -/
theorem isAtFullBandwidth_step {op : Op} (h : b.step sampler floats op = some b')
    (hb : b.isAtFullBandwidth = true) : b'.isAtFullBandwidth = true := by
  cases op with
  | packetSent sentTime bytesInFlight packetNumber bytes isRetransmittable =>
    cases h
    exact hb
  | congestionEvent e => exact (change_onCongestionEventEx h).isAtFullBandwidth hb
  | maxDatagramSize s =>
    obtain ⟨-, initial, maximum, -, -, hcore⟩ := core_setMaxDatagramSize h
    have hfull : b'.isAtFullBandwidth = b.isAtFullBandwidth :=
      congrArg Core.isAtFullBandwidth hcore
    exact hfull.trans hb

theorem sizeFits_of_le {old new : ℤ} (hnew : new ≤ 65535) : SizeFits old new := by
  intro hpos hlt
  unfold maxCongestionWindowPackets
  have hprod : old * new ≤ 65535 * 65535 :=
    mul_le_mul (hlt.le.trans hnew) hnew (hpos.le.trans hlt.le) (by norm_num)
  constructor
  · rw [mul_assoc]
    omega
  · omega

/-- With datagram sizes of at most 65535 bytes, every state that is reached is sound, whatever the
sampler measures and however floats are rounded, and a sender at full bandwidth stays there. -/
theorem reachable_sound (s : σ) (profile : Profile) {size : ℤ} (hsize : 0 ≤ size)
    (hle : size ≤ 65535) {ops : List Op} (hops : ∀ n, Op.maxDatagramSize n ∈ ops → n ≤ 65535)
    {b : Sender σ} (hrun : run (step sampler floats) (new s size profile) ops = some b) :
    b.Sound ∧ ∀ later b', run (step sampler floats) b later = some b' →
      b.isAtFullBandwidth = true → b'.isAtFullBandwidth = true := by
  constructor
  · have hnew : (new s size profile).core.Invariant := by
      refine invariant_new s profile hsize ?_
      unfold maxCongestionWindowPackets
      omega
    have hfits : Along (step sampler floats) Fits (new s size profile) ops := by
      have hsizes (op : Op) (hop : op ∈ ops) (n : ℤ) (hn : op = .maxDatagramSize n) :
          n ≤ 65535 := hops n (hn ▸ hop)
      refine (along_of_forall hsizes _).mono fun b op hop => ?_
      cases op with
      | packetSent sentTime bytesInFlight packetNumber bytes isRetransmittable => trivial
      | congestionEvent e => trivial
      | maxDatagramSize n => exact sizeFits_of_le (hop n rfl)
    have hb : b.core.Invariant :=
      run_induction_along (fun b op b' hb hop h => invariant_step hb hop h) hnew hfits hrun
    exact hb.sound
  · intro later b' hrun' hb
    exact run_induction (I := fun b => b.isAtFullBandwidth = true)
      (fun b op b' hb h => isAtFullBandwidth_step h hb) hb hrun'

/-- A sampler that counts packets of 1200 bytes and always sees 1 Mbps and 50 ms. -/
def steady : Sampler ℤ where
  totalBytesAcked acked := acked
  totalBytesLost _ := 0
  maxAckHeight _ := 0
  onPacketSent acked _ _ _ _ _ := acked
  onAppLimited := id
  onCongestionEvent acked _ ackedPackets _ _ _ :=
    (⟨1000000, false, 50 * millisecond, ⟨true, false, 2400⟩, 0⟩,
      acked + 1200 * ackedPackets.length)
  resetMaxAckHeightTracker acked _ _ := acked
  removeObsoletePackets acked _ := acked

/-- Products rounded towards zero. -/
def floor : Floats where
  bytes gain x := (gain.num * x).tdiv gain.den
  bandwidth gain x := UInt64.ofInt ((gain.num * x.toNat).tdiv gain.den)

/-- A packet of 1200 bytes that is sent and acked in a round of its own. -/
def roundTrip (n : ℤ) : List Op :=
  [.packetSent (n * second) 1200 n 1200 true,
    .congestionEvent ⟨2400, n * second, [⟨n, 1200, n * second⟩], [], 50 * millisecond, 3⟩]

/-- Four rounds lead out of startup, and a loss after them into recovery. -/
theorem reachable_sound_recovery :
    ∃ b, run (step steady floor) (new 0 1200 .standard)
        ((List.range 5).flatMap (fun n => roundTrip n) ++
          [.maxDatagramSize 1452, .packetSent (6 * second) 2400 6 1452 true,
            .congestionEvent ⟨2400, 6 * second, [⟨6, 1452, 6 * second⟩], [⟨5, 1200⟩],
              50 * millisecond, 0⟩]) = some b ∧
      b.mode = .probeBw ∧ b.recoveryState = .conservation ∧ b.Sound := by
  have h : (run (step steady floor) (new 0 1200 .standard)
      ((List.range 5).flatMap (fun n => roundTrip n) ++
        [.maxDatagramSize 1452, .packetSent (6 * second) 2400 6 1452 true,
          .congestionEvent ⟨2400, 6 * second, [⟨6, 1452, 6 * second⟩], [⟨5, 1200⟩],
            50 * millisecond, 0⟩])).map (fun b => (b.mode, b.recoveryState)) =
      some (.probeBw, .conservation) := by
    decide +kernel
  obtain ⟨b, hrun, hb⟩ := map_eq_some_iff.mp h
  rw [Prod.mk.injEq] at hb
  refine ⟨b, hrun, hb.1, hb.2, (reachable_sound 0 .standard (by decide) (by decide) ?_ hrun).1⟩
  intro n hn
  simp [roundTrip] at hn
  omega

end Sender

end BBR
