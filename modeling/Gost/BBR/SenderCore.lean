import Gost.BBR.Sender

/-!
# What a congestion event does to a sender

Of the fields of a sender, nine decide about its windows: its `core`. Most of a congestion event
leaves the core alone, and the rest changes one part each: `updateRecoveryState` the recovery,
`updateModes` the mode, `updateWindows` the windows. `Core.Change` says what a whole event does:
`change_onCongestionEventEx`.
-/

namespace BBR

namespace Sender

open MachineInt Option

/-! ## The core -/

/-- What the windows of a sender depend on. -/
structure Core where
  mode : Mode
  isAtFullBandwidth : Bool
  recoveryState : RecoveryState
  recoveryWindow : ℤ
  congestionWindow : ℤ
  initialCongestionWindow : ℤ
  maxCongestionWindow : ℤ
  minCongestionWindow : ℤ
  maxDatagramSize : ℤ

variable {σ : Type*} {sampler : Sampler σ} {floats : Floats} {b b' : Sender σ} {e : Event}

def core (b : Sender σ) : Core where
  mode := b.mode
  isAtFullBandwidth := b.isAtFullBandwidth
  recoveryState := b.recoveryState
  recoveryWindow := b.recoveryWindow
  congestionWindow := b.congestionWindow
  initialCongestionWindow := b.initialCongestionWindow
  maxCongestionWindow := b.maxCongestionWindow
  minCongestionWindow := b.minCongestionWindow
  maxDatagramSize := b.maxDatagramSize

/-! ## What leaves the core alone -/

theorem core_maybeAppLimited (minRTT bytesInFlight : ℤ) :
    (b.maybeAppLimited sampler floats minRTT bytesInFlight).core = b.core := by
  unfold maybeAppLimited
  split_ifs <;> rfl

theorem core_updateRoundTripCounter (lastAckedPacket : ℤ) :
    (b.updateRoundTripCounter lastAckedPacket).2.core = b.core := by
  unfold updateRoundTripCounter
  split_ifs <;> rfl

theorem core_updateMaxBandwidth (totalBytesAckedBefore : ℤ) (sample : CongestionEventSample) :
    (b.updateMaxBandwidth sampler totalBytesAckedBefore sample).core = b.core := by
  unfold updateMaxBandwidth
  split_ifs <;> rfl

theorem core_updateAppLimited (lastPacketSendState : SendTimeState) :
    (b.updateAppLimited lastPacketSendState).core = b.core := by
  unfold updateAppLimited
  split_ifs <;> rfl

theorem core_countLosses (bytesLost : ℤ) : (b.countLosses e bytesLost).core = b.core := by
  unfold countLosses
  split_ifs <;> rfl

theorem core_maybeUpdateMinRtt (now sampleMinRtt : ℤ) :
    (b.maybeUpdateMinRtt now sampleMinRtt).2.core = b.core := by
  dsimp only [maybeUpdateMinRtt]
  split_ifs <;> rfl

theorem core_updateEstimates (sampler : Sampler σ) (totalBytesAckedBefore bytesLost : ℤ)
    (sample : CongestionEventSample) :
    (b.updateEstimates sampler e totalBytesAckedBefore bytesLost sample).2.core = b.core := by
  dsimp only [updateEstimates]
  rw [core_countLosses]
  split_ifs
  · rw [core_maybeUpdateMinRtt, core_updateMaxBandwidth, core_updateAppLimited]
  · rw [core_updateMaxBandwidth, core_updateAppLimited]

theorem core_updateGainCyclePhase (minRTT now priorInFlight : ℤ) (hasLosses : Bool) :
    (b.updateGainCyclePhase floats minRTT now priorInFlight hasLosses).core = b.core := by
  dsimp only [updateGainCyclePhase]
  split_ifs <;> rfl

variable {minRTT bytesLost : ℤ}

theorem core_detectOvershoot {targetRate : UInt64}
    (h : b.detectOvershoot minRTT bytesLost targetRate = some b') : b'.core = b.core := by
  dsimp only [detectOvershoot] at h
  split_ifs at h
  · obtain ⟨rate, -, rfl⟩ := map_eq_some_iff.mp h
    rfl
  · cases h
    rfl

theorem core_calculatePacingRate (h : b.calculatePacingRate floats minRTT bytesLost = some b') :
    b'.core = b.core := by
  dsimp only [calculatePacingRate] at h
  split_ifs at h
  · rw [← some.inj h]
  · cases h
    rfl
  · obtain ⟨rate, -, rfl⟩ := map_eq_some_iff.mp h
    rfl
  · obtain ⟨b₁, hb₁, rfl⟩ := map_eq_some_iff.mp h
    have hcore : b₁.core = b.core := core_detectOvershoot hb₁
    exact hcore
  · obtain ⟨b₁, hb₁, rfl⟩ := map_eq_some_iff.mp h
    cases hb₁
    rfl

theorem core_cleanup {isRoundStart : Bool} (h : b.cleanup sampler e isRoundStart = some b') :
    b'.core = b.core := by
  obtain ⟨leastUnacked, -, rfl⟩ := map_eq_some_iff.mp h
  split_ifs <;> rfl

/-! ## Recovery -/

theorem core_maybeExitRecovery (lastAckedPacket : ℤ) (hasLosses : Bool) :
    ∃ r, (b.maybeExitRecovery lastAckedPacket hasLosses).core =
        { b.core with recoveryState := r } := by
  unfold maybeExitRecovery
  split_ifs
  · exact ⟨.notInRecovery, rfl⟩
  · exact ⟨b.recoveryState, rfl⟩

/-- Recovery begins at full bandwidth only. -/
theorem core_updateRecoveryState (lastAckedPacket : ℤ) (hasLosses isRoundStart : Bool) :
    ∃ r w, (b.updateRecoveryState lastAckedPacket hasLosses isRoundStart).core =
        { b.core with recoveryState := r, recoveryWindow := w } ∧
      (r ≠ .notInRecovery → b.core.recoveryState ≠ .notInRecovery ∨
        b.core.isAtFullBandwidth = true) := by
  by_cases hfull : b.isAtFullBandwidth = true
  · suffices h : ∃ r w, (b.updateRecoveryState lastAckedPacket hasLosses isRoundStart).core =
        { b.core with recoveryState := r, recoveryWindow := w } by
      obtain ⟨r, w, h⟩ := h
      exact ⟨r, w, h, fun _ => .inr hfull⟩
    dsimp only [updateRecoveryState]
    rw [if_neg (by simp [hfull])]
    -- `endRecoveryAt` is not in the core, so the cases are split behind it.
    generalize hb₁ : (if hasLosses then { b with endRecoveryAt := b.lastSentPacket } else b) = b₁
    have hcore : b₁.core = b.core := by
      rw [← hb₁]
      split_ifs <;> rfl
    rw [← hcore]
    cases b₁.recoveryState with
    | notInRecovery =>
      dsimp only
      split_ifs
      · exact ⟨.conservation, 0, rfl⟩
      · exact ⟨b₁.recoveryState, b₁.recoveryWindow, rfl⟩
    | conservation =>
      dsimp only
      split_ifs
      · obtain ⟨r, hr⟩ := core_maybeExitRecovery
          (b := { b₁ with recoveryState := .growth }) lastAckedPacket hasLosses
        exact ⟨r, b₁.recoveryWindow, hr⟩
      · obtain ⟨r, hr⟩ := core_maybeExitRecovery (b := b₁) lastAckedPacket hasLosses
        exact ⟨r, b₁.recoveryWindow, hr⟩
    | growth =>
      obtain ⟨r, hr⟩ := core_maybeExitRecovery (b := b₁) lastAckedPacket hasLosses
      exact ⟨r, b₁.recoveryWindow, hr⟩
  · -- Below full bandwidth the state is left as it is.
    refine ⟨b.recoveryState, b.recoveryWindow, ?_, .inl⟩
    rw [updateRecoveryState, if_pos (by simpa using hfull)]
    rfl

theorem core_onAcked :
    ∃ r w, (b.onAcked e).2.core = { b.core with recoveryState := r, recoveryWindow := w } ∧
      (r ≠ .notInRecovery → b.core.recoveryState ≠ .notInRecovery ∨
        b.core.isAtFullBandwidth = true) := by
  unfold onAcked
  cases e.ackedPackets.getLast? with
  | none => exact ⟨b.recoveryState, b.recoveryWindow, rfl, .inl⟩
  | some p =>
    have hcore := core_updateRoundTripCounter (b := b) p.packetNumber
    obtain ⟨r, w, hrw, hr⟩ := core_updateRecoveryState
      (b := (b.updateRoundTripCounter p.packetNumber).2) p.packetNumber (!e.lostPackets.isEmpty)
      (b.updateRoundTripCounter p.packetNumber).1
    rw [hcore] at hrw hr
    exact ⟨r, w, hrw, hr⟩

/-! ## Modes -/

/-- What a mode says about full bandwidth. -/
def ModeFits : Mode → Bool → Prop
  | .startup, full => full = false
  | .drain, full => full = true
  | .probeBw, full => full = true
  | .probeRtt, _ => True

/-- The flag is only ever set. -/
theorem core_checkIfFullBandwidthReached (lastPacketSendState : SendTimeState) :
    ∃ full, (b.checkIfFullBandwidthReached sampler floats lastPacketSendState).core =
        { b.core with isAtFullBandwidth := full } ∧
      (b.core.isAtFullBandwidth = true → full = true) := by
  dsimp only [checkIfFullBandwidthReached]
  split_ifs
  · exact ⟨b.isAtFullBandwidth, rfl, id⟩
  · exact ⟨b.isAtFullBandwidth, rfl, id⟩
  · exact ⟨b.isAtFullBandwidth, rfl, id⟩
  · exact ⟨true, rfl, fun _ => rfl⟩
  · exact ⟨b.isAtFullBandwidth, rfl, id⟩

theorem core_maybeExitStartup :
    ∃ mode, b.maybeExitStartup.core = { b.core with mode } ∧
      (ModeFits b.core.mode b.core.isAtFullBandwidth ∨ b.core.isAtFullBandwidth = true →
        ModeFits mode b.core.isAtFullBandwidth) := by
  unfold maybeExitStartup
  split_ifs with h
  · exact ⟨.drain, rfl, fun _ => h.2⟩
  · refine ⟨b.mode, rfl, fun hfits => hfits.elim id fun hfull => ?_⟩
    -- At full bandwidth the only mode that does not fit is the one that has just been left.
    cases hmode : b.mode with
    | startup => exact absurd ⟨hmode, hfull⟩ h
    | drain => exact hfull
    | probeBw => exact hfull
    | probeRtt => trivial

/-- A startup that has reached full bandwidth is over. -/
theorem core_maybeExitStartupOrDrain (floats : Floats) (minRTT now : ℤ) (rand : ℕ) :
    ∃ mode, (b.maybeExitStartupOrDrain floats minRTT now rand).core = { b.core with mode } ∧
      (ModeFits b.core.mode b.core.isAtFullBandwidth ∨ b.core.isAtFullBandwidth = true →
        ModeFits mode b.core.isAtFullBandwidth) := by
  obtain ⟨mode, hcore, hfits⟩ := core_maybeExitStartup (b := b)
  dsimp only [maybeExitStartupOrDrain]
  split_ifs with h
  · refine ⟨.probeBw, ?_, fun hb => ?_⟩
    · show { b.maybeExitStartup.core with mode := Mode.probeBw } = _
      rw [hcore]
    · have hmode : mode = .drain := (congrArg Core.mode hcore).symm.trans h.1
      have hdrain := hfits hb
      rw [hmode] at hdrain
      exact hdrain
  · exact ⟨mode, hcore, hfits⟩

theorem core_probeRtt (sampler : Sampler σ) (now : ℤ) (rand : ℕ) (isRoundStart : Bool)
    (hmode : b.mode = .probeRtt) :
    ∃ mode, (b.probeRtt sampler now rand isRoundStart).core = { b.core with mode } ∧
      ModeFits mode b.core.isAtFullBandwidth := by
  have hprobe : ModeFits b.mode b.isAtFullBandwidth := by
    rw [hmode]
    trivial
  dsimp only [probeRtt]
  split_ifs with h₁ h₂ h₃ h₄
  · exact ⟨b.mode, rfl, hprobe⟩
  · exact ⟨b.mode, rfl, hprobe⟩
  · exact ⟨.probeBw, rfl, h₄⟩
  · exact ⟨.startup, rfl, eq_false_of_ne_true h₄⟩
  · exact ⟨b.mode, rfl, hprobe⟩

theorem core_maybeEnterProbeRtt (minRttExpired : Bool) :
    ∃ mode, (b.maybeEnterProbeRtt minRttExpired).core = { b.core with mode } ∧
      (ModeFits b.core.mode b.core.isAtFullBandwidth →
        ModeFits mode b.core.isAtFullBandwidth) := by
  unfold maybeEnterProbeRtt
  split_ifs
  · exact ⟨.probeRtt, rfl, fun _ => trivial⟩
  · exact ⟨b.mode, rfl, id⟩

theorem core_maybeEnterOrExitProbeRtt (sampler : Sampler σ) (now : ℤ) (rand : ℕ)
    (isRoundStart minRttExpired : Bool) :
    ∃ mode, (b.maybeEnterOrExitProbeRtt sampler now rand isRoundStart minRttExpired).core =
        { b.core with mode } ∧
      (ModeFits b.core.mode b.core.isAtFullBandwidth →
        ModeFits mode b.core.isAtFullBandwidth) := by
  obtain ⟨mode, hcore, hfits⟩ := core_maybeEnterProbeRtt (b := b) minRttExpired
  dsimp only [maybeEnterOrExitProbeRtt]
  split_ifs with h
  · obtain ⟨mode', hcore', hfits'⟩ :=
      core_probeRtt sampler now rand isRoundStart h
    rw [hcore] at hcore' hfits'
    exact ⟨mode', hcore', fun _ => hfits'⟩
  · exact ⟨mode, hcore, hfits⟩

theorem core_updateModes (sampler : Sampler σ) (floats : Floats)
    (isRoundStart minRttExpired : Bool) (lastPacketSendState : SendTimeState) :
    ∃ mode isAtFullBandwidth,
      (b.updateModes sampler floats e isRoundStart minRttExpired lastPacketSendState).core =
        { b.core with mode, isAtFullBandwidth } ∧
      (b.core.isAtFullBandwidth = true → isAtFullBandwidth = true) ∧
      (ModeFits b.core.mode b.core.isAtFullBandwidth → ModeFits mode isAtFullBandwidth) := by
  dsimp only [updateModes]
  generalize hb₁ : (if b.mode = .probeBw then
    b.updateGainCyclePhase floats e.minRTT e.eventTime e.priorInFlight (!e.lostPackets.isEmpty)
    else b) = b₁
  have hcore₁ : b₁.core = b.core := by
    rw [← hb₁]
    split_ifs
    · exact core_updateGainCyclePhase _ _ _ _
    · rfl
  generalize hb₂ : (if isRoundStart ∧ !b₁.isAtFullBandwidth then
    b₁.checkIfFullBandwidthReached sampler floats lastPacketSendState else b₁) = b₂
  obtain ⟨full, hcore₂, hfull⟩ : ∃ full, b₂.core = { b₁.core with isAtFullBandwidth := full } ∧
      (b₁.core.isAtFullBandwidth = true → full = true) := by
    rw [← hb₂]
    split_ifs
    · exact core_checkIfFullBandwidthReached _
    · exact ⟨b₁.isAtFullBandwidth, rfl, id⟩
  obtain ⟨mode₃, hcore₃, hfits₃⟩ :=
    core_maybeExitStartupOrDrain (b := b₂) floats e.minRTT e.eventTime e.rand
  obtain ⟨mode₄, hcore₄, hfits₄⟩ := core_maybeEnterOrExitProbeRtt
    (b := b₂.maybeExitStartupOrDrain floats e.minRTT e.eventTime e.rand) sampler e.eventTime
    e.rand isRoundStart minRttExpired
  rw [hcore₁] at hcore₂ hfull
  rw [hcore₂] at hcore₃ hfits₃
  rw [hcore₃] at hcore₄ hfits₄
  refine ⟨mode₄, full, hcore₄, hfull, fun hfits => hfits₄ (hfits₃ ?_)⟩
  -- The flag that `checkIfFullBandwidthReached` sets may not fit the mode yet.
  cases full with
  | true => exact .inr rfl
  | false =>
    have hnot : b.core.isAtFullBandwidth = false :=
      eq_false_of_ne_true fun h => Bool.false_ne_true (hfull h)
    rw [hnot] at hfits
    exact .inl hfits

/-! ## Windows -/

theorem core_calculateCongestionWindow (sampler : Sampler σ) (floats : Floats)
    (minRTT bytesAcked excessAcked : ℤ) :
    ∃ window,
      (b.calculateCongestionWindow sampler floats minRTT bytesAcked excessAcked).core =
        { b.core with congestionWindow := window } ∧
      (window = b.core.congestionWindow ∨
        min b.core.minCongestionWindow b.core.maxCongestionWindow ≤ window ∧
        window ≤ b.core.maxCongestionWindow) := by
  dsimp only [calculateCongestionWindow]
  split_ifs
  · exact ⟨b.congestionWindow, rfl, .inl rfl⟩
  · exact ⟨_, rfl, .inr ⟨min_le_min_right _ (le_max_right _ _), min_le_right _ _⟩⟩

theorem core_calculateRecoveryWindow (bytesAcked bytesLost : ℤ) :
    ∃ window, (b.calculateRecoveryWindow bytesAcked bytesLost).core =
        { b.core with recoveryWindow := window } ∧
      (b.core.recoveryState ≠ .notInRecovery → b.core.minCongestionWindow ≤ window) := by
  dsimp only [calculateRecoveryWindow]
  split_ifs with h
  · exact ⟨b.recoveryWindow, rfl, fun hne => absurd h hne⟩
  all_goals exact ⟨_, rfl, fun _ => le_max_left _ _⟩

theorem core_updateWindows {bytesAcked excessAcked : ℤ}
    (h : b.updateWindows sampler floats e bytesAcked bytesLost excessAcked = some b') :
    ∃ congestionWindow recoveryWindow,
      b'.core = { b.core with congestionWindow, recoveryWindow } ∧
      (congestionWindow = b.core.congestionWindow ∨
        min b.core.minCongestionWindow b.core.maxCongestionWindow ≤ congestionWindow ∧
        congestionWindow ≤ b.core.maxCongestionWindow) ∧
      (b.core.recoveryState ≠ .notInRecovery →
        b.core.minCongestionWindow ≤ recoveryWindow) := by
  obtain ⟨b₁, hb₁, rfl⟩ := map_eq_some_iff.mp h
  have hcore₁ := core_calculatePacingRate hb₁
  obtain ⟨congestionWindow, hcore₂, hwindow⟩ :=
    core_calculateCongestionWindow (b := b₁) sampler floats e.minRTT bytesAcked excessAcked
  obtain ⟨recoveryWindow, hcore₃, hrecovery⟩ := core_calculateRecoveryWindow
    bytesAcked bytesLost
  rw [hcore₁] at hcore₂ hwindow
  rw [hcore₂] at hcore₃ hrecovery
  exact ⟨congestionWindow, recoveryWindow, hcore₃, hwindow, hrecovery⟩

/-! ## Congestion events -/

/-- What a congestion event does to the core. -/
structure Core.Change (c c' : Core) : Prop where
  maxDatagramSize_eq : c'.maxDatagramSize = c.maxDatagramSize
  initialCongestionWindow_eq : c'.initialCongestionWindow = c.initialCongestionWindow
  maxCongestionWindow_eq : c'.maxCongestionWindow = c.maxCongestionWindow
  minCongestionWindow_eq : c'.minCongestionWindow = c.minCongestionWindow
  congestionWindow : c'.congestionWindow = c.congestionWindow ∨
    min c.minCongestionWindow c.maxCongestionWindow ≤ c'.congestionWindow ∧
    c'.congestionWindow ≤ c.maxCongestionWindow
  isAtFullBandwidth : c.isAtFullBandwidth = true → c'.isAtFullBandwidth = true
  mode : ModeFits c.mode c.isAtFullBandwidth → ModeFits c'.mode c'.isAtFullBandwidth
  recovery : c'.recoveryState ≠ .notInRecovery →
    c.recoveryState ≠ .notInRecovery ∨ c.isAtFullBandwidth = true
  recoveryWindow : c'.recoveryState ≠ .notInRecovery → c.minCongestionWindow ≤ c'.recoveryWindow

theorem change_onCongestionEventEx (h : b.onCongestionEventEx sampler floats e = some b') :
    b.core.Change b'.core := by
  dsimp only [onCongestionEventEx] at h
  -- One stage after the other is replaced by its effect on the core, in the order of the source.
  generalize hb₁ :
    (b.maybeAppLimited sampler floats e.minRTT e.priorInFlight).updateBytesInFlight e = b₁ at h
  have hcore₁ : b₁.core = b.core := by
    rw [← hb₁]
    exact core_maybeAppLimited e.minRTT e.priorInFlight
  obtain ⟨r, w, hcore₂, hr⟩ := core_onAcked (b := b₁) (e := e)
  generalize b₁.onAcked e = acked at h hcore₂
  obtain ⟨isRoundStart, b₂⟩ := acked
  have hcore₃ : (b₂.takeSample sampler e).2.core = b₂.core := rfl
  generalize b₂.takeSample sampler e = sampled at h hcore₃
  obtain ⟨sample, b₃⟩ := sampled
  have hcore₄ := core_updateEstimates (b := b₃) (e := e) sampler
    (sampler.totalBytesAcked b.sampler)
    (int64 (sampler.totalBytesLost b₃.sampler - sampler.totalBytesLost b.sampler)) sample
  generalize b₃.updateEstimates sampler e _ _ sample = estimated at h hcore₄
  obtain ⟨minRttExpired, b₄⟩ := estimated
  obtain ⟨b₆, hb₆, hcleanup⟩ := bind_eq_some_iff.mp h
  obtain ⟨mode, full, hcore₅, hfull, hmode⟩ := core_updateModes (b := b₄) (e := e) sampler floats
    isRoundStart minRttExpired sample.lastPacketSendState
  -- Read backwards, the stages are updates of the core of `b`.
  rw [hcore₁] at hcore₂ hr
  rw [hcore₄, hcore₃, hcore₂] at hcore₅ hfull hmode
  obtain ⟨window, recoveryWindow, hcore₆, hwindow, hrecovery⟩ :=
    core_updateWindows hb₆
  rw [hcore₅] at hcore₆ hwindow hrecovery
  rw [core_cleanup hcleanup, hcore₆]
  exact ⟨rfl, rfl, rfl, rfl, hwindow, hfull, hmode, hr, hrecovery⟩

end Sender

end BBR
