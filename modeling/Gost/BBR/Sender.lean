import Gost.BBR.WindowedFilter
import Gost.Lib.MachineInt

/-!
# The BBR sender

`x/internal/util/congestion/bbr/bbr_sender.go`: the modes, the recovery states and the windows, with
all that decides about them. Byte counts and times are signed integers of 64 bits, bandwidths
unsigned ones.

The bandwidth sampler is a parameter, so what it measures may be anything, and so are the products
of floats; the gains are written as the rational numbers of the source. The pacer and debug output
are left out. A panic is a call that returns nothing.
-/

namespace BBR

open MachineInt

/-! ## Constants and parameters -/

def initialCongestionWindowPackets : ℤ := 32

def minCongestionWindowPackets : ℤ := 4

def maxCongestionWindowPackets : ℤ := 20000

def maxPacketBufferSize : ℤ := 1452

def millisecond : ℤ := 1000000

def second : ℤ := 1000 * millisecond

def minRttExpiry : ℤ := 10 * second

def probeRttTime : ℤ := 200 * millisecond

def infRTT : ℤ := 2 ^ 63 - 1

def startupGrowthTarget : ℚ := 1.25

def defaultStartupFullLossCount : UInt64 := 8

def quicBbr2DefaultLossThreshold : ℚ := 0.02

/-- `pacingGain`, the cycle of gains. -/
def pacingGains (offset : Fin 8) : ℚ :=
  match offset with
  | 0 => 1.25
  | 1 => 0.75
  | _ => 1

inductive Mode
  | startup
  | drain
  | probeBw
  | probeRtt
deriving DecidableEq, Repr

inductive RecoveryState
  | notInRecovery
  | conservation
  | growth
deriving DecidableEq, Repr

inductive Profile
  | conservative
  | standard
  | aggressive
deriving DecidableEq, Repr

structure ProfileConfig where
  highGain : ℚ
  highCwndGain : ℚ
  congestionWindowGainConstant : ℚ
  numStartupRtts : ℤ
  drainToTarget : Bool := false
  detectOvershooting : Bool := false
  bytesLostMultiplier : ℤ
  enableAckAggregationStartup : Bool := false
  expireAckAggregationStartup : Bool := false

/-- `configForProfile`. -/
def configForProfile : Profile → ProfileConfig
  | .conservative => ⟨2.25, 1.75, 1.75, 2, true, true, 1, false, false⟩
  | .standard => ⟨2.885, 2, 2, 3, false, false, 2, false, false⟩
  | .aggressive => ⟨3, 2.25, 2.5, 4, false, false, 2, true, true⟩

/-- Products of floats, converted back. -/
structure Floats where
  /-- `ByteCount(gain * float64(x))` -/
  bytes : ℚ → ℤ → ℤ
  /-- `Bandwidth(gain * float64(x))` -/
  bandwidth : ℚ → UInt64 → UInt64

/-- `sendTimeState`, as far as the sender reads it. -/
structure SendTimeState where
  isValid : Bool
  isAppLimited : Bool
  bytesInFlight : ℤ
deriving DecidableEq, Repr

/-- `congestionEventSample`. -/
structure CongestionEventSample where
  sampleMaxBandwidth : UInt64
  sampleIsAppLimited : Bool
  sampleRtt : ℤ
  lastPacketSendState : SendTimeState
  extraAcked : ℤ
deriving DecidableEq, Repr

structure AckedPacketInfo where
  packetNumber : ℤ
  bytesAcked : ℤ
  receivedTime : ℤ
deriving DecidableEq, Repr

structure LostPacketInfo where
  packetNumber : ℤ
  bytesLost : ℤ
deriving DecidableEq, Repr

/-- What the sender calls of a bandwidth sampler with states in `σ`. -/
structure Sampler (σ : Type*) where
  totalBytesAcked : σ → ℤ
  totalBytesLost : σ → ℤ
  maxAckHeight : σ → ℤ
  onPacketSent : σ → (sentTime packetNumber bytes bytesInFlight : ℤ) → Bool → σ
  onAppLimited : σ → σ
  onCongestionEvent : σ → (eventTime : ℤ) → List AckedPacketInfo → List LostPacketInfo →
    (maxBandwidth roundTripCount : UInt64) → CongestionEventSample × σ
  resetMaxAckHeightTracker : σ → (newHeight : ℤ) → (newTime : UInt64) → σ
  removeObsoletePackets : σ → (leastUnacked : ℤ) → σ

/-- `MaxFilter`. -/
def maxFilter (a b : UInt64) : ℤ := if a > b then 1 else if a < b then -1 else 0

/-- `bbrSender`. -/
structure Sender (σ : Type*) where
  mode : Mode
  sampler : σ
  roundTripCount : UInt64
  lastSentPacket : ℤ
  currentRoundTripEnd : ℤ
  numLossEventsInRound : UInt64
  bytesLostInRound : ℤ
  maxBandwidth : WindowedFilter UInt64 UInt64
  minRtt : ℤ
  minRttTimestamp : ℤ
  congestionWindow : ℤ
  initialCongestionWindow : ℤ
  maxCongestionWindow : ℤ
  minCongestionWindow : ℤ
  highGain : ℚ
  highCwndGain : ℚ
  drainGain : ℚ
  pacingRate : UInt64
  pacingGain : ℚ
  congestionWindowGain : ℚ
  congestionWindowGainConstant : ℚ
  numStartupRtts : ℤ
  cycleCurrentOffset : Fin 8
  lastCycleStart : ℤ
  isAtFullBandwidth : Bool
  roundsWithoutBandwidthGain : ℤ
  bandwidthAtLastRound : UInt64
  exitingQuiescence : Bool
  exitProbeRttAt : ℤ
  probeRttRoundPassed : Bool
  lastSampleIsAppLimited : Bool
  hasNoAppLimitedSample : Bool
  recoveryState : RecoveryState
  endRecoveryAt : ℤ
  recoveryWindow : ℤ
  enableAckAggregationDuringStartup : Bool
  expireAckAggregationInStartup : Bool
  drainToTarget : Bool
  detectOvershooting : Bool
  bytesLostWhileDetectingOvershooting : ℤ
  bytesLostMultiplierWhileDetectingOvershooting : ℤ
  cwndToCalculateMinPacingRate : ℤ
  maxDatagramSize : ℤ
  bytesInFlight : ℤ

namespace Sender

variable {σ : Type*} (sampler : Sampler σ) (floats : Floats)

/-! ## Creation -/

/-- `minCongestionWindowForMaxDatagramSize`. -/
def minCongestionWindowForMaxDatagramSize (maxDatagramSize : ℤ) : ℤ :=
  int64 (minCongestionWindowPackets * maxDatagramSize)

/-- `NewBbrSender` with `newBbrSender` and `applyProfile`; the sampler is in the state `s`. -/
def new (s : σ) (initialMaxDatagramSize : ℤ) (profile : Profile) : Sender σ :=
  let initialCongestionWindow := int64 (initialCongestionWindowPackets * initialMaxDatagramSize)
  let initialMaxCongestionWindow := int64 (maxCongestionWindowPackets * initialMaxDatagramSize)
  let cfg := configForProfile profile
  { mode := .startup
    sampler := s
    roundTripCount := 0
    lastSentPacket := -1
    currentRoundTripEnd := -1
    numLossEventsInRound := 0
    bytesLostInRound := 0
    maxBandwidth := .new 10 maxFilter
    minRtt := 0
    minRttTimestamp := 0
    congestionWindow := initialCongestionWindow
    initialCongestionWindow
    maxCongestionWindow := initialMaxCongestionWindow
    minCongestionWindow := minCongestionWindowForMaxDatagramSize initialMaxDatagramSize
    highGain := cfg.highGain
    highCwndGain := cfg.highCwndGain
    drainGain := 1 / cfg.highGain
    pacingRate := 0
    pacingGain := cfg.highGain
    congestionWindowGain := cfg.highCwndGain
    congestionWindowGainConstant := cfg.congestionWindowGainConstant
    numStartupRtts := cfg.numStartupRtts
    cycleCurrentOffset := 0
    lastCycleStart := 0
    isAtFullBandwidth := false
    roundsWithoutBandwidthGain := 0
    bandwidthAtLastRound := 0
    exitingQuiescence := false
    exitProbeRttAt := 0
    probeRttRoundPassed := false
    lastSampleIsAppLimited := false
    hasNoAppLimitedSample := false
    recoveryState := .notInRecovery
    endRecoveryAt := -1
    recoveryWindow := initialMaxCongestionWindow
    enableAckAggregationDuringStartup := cfg.enableAckAggregationStartup
    expireAckAggregationInStartup := cfg.expireAckAggregationStartup
    drainToTarget := cfg.drainToTarget
    detectOvershooting := cfg.detectOvershooting
    bytesLostWhileDetectingOvershooting := 0
    bytesLostMultiplierWhileDetectingOvershooting := cfg.bytesLostMultiplier
    cwndToCalculateMinPacingRate := initialCongestionWindow
    maxDatagramSize := initialMaxDatagramSize
    bytesInFlight := 0 }

/-! ## Datagram sizes -/

/-- `scaleByteWindowForDatagramSize`, or `none` for a division by zero. -/
def scaleByteWindowForDatagramSize (window oldMaxDatagramSize newMaxDatagramSize : ℤ) : Option ℤ :=
  if oldMaxDatagramSize = newMaxDatagramSize then some window
  else if oldMaxDatagramSize % 2 ^ 64 = 0 then none
  else
    some (int64 (((window % 2 ^ 64) * (newMaxDatagramSize % 2 ^ 64) % 2 ^ 64) /
      (oldMaxDatagramSize % 2 ^ 64)))

/-- `rescalePacketSizedWindows`. -/
def rescalePacketSizedWindows (b : Sender σ) (maxDatagramSize : ℤ) : Option (Sender σ) :=
  (scaleByteWindowForDatagramSize b.initialCongestionWindow b.maxDatagramSize
      maxDatagramSize).bind fun initialCongestionWindow =>
    (scaleByteWindowForDatagramSize b.maxCongestionWindow b.maxDatagramSize
        maxDatagramSize).bind fun maxCongestionWindow =>
      (scaleByteWindowForDatagramSize b.cwndToCalculateMinPacingRate b.maxDatagramSize
          maxDatagramSize).map fun cwndToCalculateMinPacingRate =>
        { b with
          maxDatagramSize
          initialCongestionWindow
          maxCongestionWindow
          minCongestionWindow := minCongestionWindowForMaxDatagramSize maxDatagramSize
          cwndToCalculateMinPacingRate }

/-- `SetMaxDatagramSize`. A decreased size is a panic. -/
def setMaxDatagramSize (b : Sender σ) (s : ℤ) : Option (Sender σ) :=
  if s < b.maxDatagramSize then none
  else
    (b.rescalePacketSizedWindows s).map fun b' =>
      -- a window at its smallest or its initial value stays there
      let congestionWindow :=
        if b.congestionWindow = b.minCongestionWindow then b'.minCongestionWindow
        else if b.congestionWindow = b.initialCongestionWindow then b'.initialCongestionWindow
        else min b'.maxCongestionWindow (max b.congestionWindow b'.minCongestionWindow)
      let recoveryWindow :=
        min b'.maxCongestionWindow (max b.recoveryWindow b'.minCongestionWindow)
      { b' with congestionWindow, recoveryWindow }

/-! ## Sending -/

/-- `OnPacketSent`. -/
def onPacketSent (b : Sender σ) (sentTime bytesInFlight packetNumber bytes : ℤ)
    (isRetransmittable : Bool) : Sender σ :=
  { b with
    lastSentPacket := packetNumber
    bytesInFlight
    exitingQuiescence := if bytesInFlight = 0 then true else b.exitingQuiescence
    sampler := sampler.onPacketSent b.sampler sentTime packetNumber bytes bytesInFlight
      isRetransmittable }

/-- `probeRttCongestionWindow`. -/
def probeRttCongestionWindow (b : Sender σ) : ℤ := b.minCongestionWindow

/-- `InRecovery`. -/
def inRecovery (b : Sender σ) : Bool := b.recoveryState ≠ .notInRecovery

/-- `GetCongestionWindow`. -/
def getCongestionWindow (b : Sender σ) : ℤ :=
  if b.mode = .probeRtt then b.probeRttCongestionWindow
  else if b.inRecovery then min b.congestionWindow b.recoveryWindow
  else b.congestionWindow

/-! ## Estimates -/

/-- `bandwidthEstimate`. -/
def bandwidthEstimate (b : Sender σ) : UInt64 := b.maxBandwidth.best.sample

/-- `getMinRtt`, with `rttStats.MinRTT()`. -/
def getMinRtt (b : Sender σ) (minRTT : ℤ) : ℤ :=
  if b.minRtt ≠ 0 then b.minRtt else if minRTT = 0 then 100 * millisecond else minRTT

/-- `bdpFromRttAndBandwidth`. -/
def bdpFromRttAndBandwidth (rtt : ℤ) (bandwidth : UInt64) : ℤ :=
  ((int64 (rtt * int64 bandwidth.toNat)).tdiv 8).tdiv second

/-- `BandwidthFromDelta`, or `none` for a division by zero. -/
def bandwidthFromDelta (bytes delta : ℤ) : Option UInt64 :=
  if UInt64.ofInt delta = 0 then none
  else some (UInt64.ofInt bytes * UInt64.ofInt second / UInt64.ofInt delta * 8)

/-- `getTargetCongestionWindow`. -/
def getTargetCongestionWindow (b : Sender σ) (minRTT : ℤ) (gain : ℚ) : ℤ :=
  let bdp := bdpFromRttAndBandwidth (b.getMinRtt minRTT) b.bandwidthEstimate
  let congestionWindow := floats.bytes gain bdp
  -- without a bandwidth sample the product is zero
  let congestionWindow :=
    if congestionWindow = 0 then floats.bytes gain b.initialCongestionWindow else congestionWindow
  max congestionWindow b.minCongestionWindow

/-- `maybeAppLimited`. -/
def maybeAppLimited (b : Sender σ) (minRTT bytesInFlight : ℤ) : Sender σ :=
  if bytesInFlight < b.getTargetCongestionWindow floats minRTT 1 then
    { b with sampler := sampler.onAppLimited b.sampler }
  else b

/-- `maybeUpdateMinRtt`: whether the old value had expired. -/
def maybeUpdateMinRtt (b : Sender σ) (now sampleMinRtt : ℤ) : Bool × Sender σ :=
  let minRttExpired := b.minRtt ≠ 0 && int64 (b.minRttTimestamp + minRttExpiry) < now
  (minRttExpired,
    if minRttExpired ∨ sampleMinRtt < b.minRtt ∨ b.minRtt = 0 then
      { b with minRtt := sampleMinRtt, minRttTimestamp := now }
    else b)

/-! ## Modes -/

/-- `enterStartupMode`. -/
def enterStartupMode (b : Sender σ) : Sender σ :=
  { b with mode := .startup, pacingGain := b.highGain, congestionWindowGain := b.highCwndGain }

/-- The offset that `enterProbeBandwidthMode` picks, out of 0 and 2 to 7. -/
def cycleOffset (rand : ℕ) : Fin 8 :=
  if rand % 7 = 0 then 0 else Fin.ofNat 8 (rand % 7 + 1)

/-- `enterProbeBandwidthMode`, with a random number. -/
def enterProbeBandwidthMode (b : Sender σ) (now : ℤ) (rand : ℕ) : Sender σ :=
  { b with
    mode := .probeBw
    congestionWindowGain := b.congestionWindowGainConstant
    cycleCurrentOffset := cycleOffset rand
    lastCycleStart := now
    pacingGain := pacingGains (cycleOffset rand) }

/-- `updateRoundTripCounter`: whether a round has begun. -/
def updateRoundTripCounter (b : Sender σ) (lastAckedPacket : ℤ) : Bool × Sender σ :=
  if b.currentRoundTripEnd = -1 ∨ b.currentRoundTripEnd < lastAckedPacket then
    (true,
      { b with
        roundTripCount := b.roundTripCount + 1
        currentRoundTripEnd := b.lastSentPacket })
  else (false, b)

/-- Whether `updateGainCyclePhase` goes on in the cycle. -/
def shouldAdvanceGainCycling (b : Sender σ) (minRTT now priorInFlight : ℤ) (hasLosses : Bool) :
    Bool :=
  -- the last test of the source decides first: the queue is drained
  if b.pacingGain < 1 ∧ b.bytesInFlight ≤ b.getTargetCongestionWindow floats minRTT 1 then true
  -- the probe has not reached its target yet
  else if 1 < b.pacingGain ∧ !hasLosses ∧
      priorInFlight < b.getTargetCongestionWindow floats minRTT b.pacingGain then false
  else int64 (b.lastCycleStart + b.getMinRtt minRTT) < now

/-- `updateGainCyclePhase`. -/
def updateGainCyclePhase (b : Sender σ) (minRTT now priorInFlight : ℤ) (hasLosses : Bool) :
    Sender σ :=
  if b.shouldAdvanceGainCycling floats minRTT now priorInFlight hasLosses then
    let offset := b.cycleCurrentOffset + 1
    { b with
      cycleCurrentOffset := offset
      lastCycleStart := now
      -- the low gain stays until the target is reached
      pacingGain :=
        if b.drainToTarget ∧ b.pacingGain < 1 ∧ pacingGains offset = 1 ∧
            b.getTargetCongestionWindow floats minRTT 1 < b.bytesInFlight then
          b.pacingGain
        else pacingGains offset }
  else b

/-- `shouldExitStartupDueToLoss`. -/
def shouldExitStartupDueToLoss (b : Sender σ) (lastPacketSendState : SendTimeState) : Bool :=
  defaultStartupFullLossCount ≤ b.numLossEventsInRound && lastPacketSendState.isValid &&
    0 < lastPacketSendState.bytesInFlight && 0 < b.bytesLostInRound &&
    floats.bytes quicBbr2DefaultLossThreshold lastPacketSendState.bytesInFlight < b.bytesLostInRound

/-- `checkIfFullBandwidthReached`. -/
def checkIfFullBandwidthReached (b : Sender σ) (lastPacketSendState : SendTimeState) : Sender σ :=
  if b.lastSampleIsAppLimited then b
  else if floats.bandwidth startupGrowthTarget b.bandwidthAtLastRound ≤ b.bandwidthEstimate then
    { b with
      bandwidthAtLastRound := b.bandwidthEstimate
      roundsWithoutBandwidthGain := 0
      sampler :=
        if b.expireAckAggregationInStartup then
          sampler.resetMaxAckHeightTracker b.sampler 0 b.roundTripCount
        else b.sampler }
  else
    let roundsWithoutBandwidthGain := int64 (b.roundsWithoutBandwidthGain + 1)
    { b with
      roundsWithoutBandwidthGain
      isAtFullBandwidth :=
        if b.numStartupRtts ≤ roundsWithoutBandwidthGain ∨
            b.shouldExitStartupDueToLoss floats lastPacketSendState then
          true
        else b.isAtFullBandwidth }

/-- The first half of `maybeExitStartupOrDrain`. -/
def maybeExitStartup (b : Sender σ) : Sender σ :=
  if b.mode = .startup ∧ b.isAtFullBandwidth then
    { b with mode := .drain, pacingGain := b.drainGain, congestionWindowGain := b.highCwndGain }
  else b

/-- `maybeExitStartupOrDrain`. -/
def maybeExitStartupOrDrain (b : Sender σ) (minRTT now : ℤ) (rand : ℕ) : Sender σ :=
  let b := b.maybeExitStartup
  if b.mode = .drain ∧ b.bytesInFlight ≤ b.getTargetCongestionWindow floats minRTT 1 then
    b.enterProbeBandwidthMode now rand
  else b

/-- The entry into `probeRtt` in `maybeEnterOrExitProbeRtt`. -/
def maybeEnterProbeRtt (b : Sender σ) (minRttExpired : Bool) : Sender σ :=
  if minRttExpired ∧ !b.exitingQuiescence ∧ b.mode ≠ .probeRtt then
    { b with mode := .probeRtt, pacingGain := 1, exitProbeRttAt := 0 }
  else b

/-- What `maybeEnterOrExitProbeRtt` does in `probeRtt`. -/
def probeRtt (b : Sender σ) (now : ℤ) (rand : ℕ) (isRoundStart : Bool) : Sender σ :=
  let b := { b with sampler := sampler.onAppLimited b.sampler }
  -- the exit is planned once few enough bytes are in flight
  if b.exitProbeRttAt = 0 then
    if b.bytesInFlight < int64 (b.probeRttCongestionWindow + maxPacketBufferSize) then
      { b with exitProbeRttAt := int64 (now + probeRttTime), probeRttRoundPassed := false }
    else b
  else
    let b := { b with probeRttRoundPassed := isRoundStart || b.probeRttRoundPassed }
    if 0 ≤ int64 (now - b.exitProbeRttAt) ∧ b.probeRttRoundPassed then
      let b := { b with minRttTimestamp := now }
      if b.isAtFullBandwidth then b.enterProbeBandwidthMode now rand else b.enterStartupMode
    else b

/-- `maybeEnterOrExitProbeRtt`. -/
def maybeEnterOrExitProbeRtt (b : Sender σ) (now : ℤ) (rand : ℕ)
    (isRoundStart minRttExpired : Bool) : Sender σ :=
  let b := b.maybeEnterProbeRtt minRttExpired
  let b := if b.mode = .probeRtt then b.probeRtt sampler now rand isRoundStart else b
  { b with exitingQuiescence := false }

/-! ## Recovery -/

/-- The exit in `updateRecoveryState`. -/
def maybeExitRecovery (b : Sender σ) (lastAckedPacket : ℤ) (hasLosses : Bool) : Sender σ :=
  if !hasLosses ∧ b.endRecoveryAt < lastAckedPacket then
    { b with recoveryState := .notInRecovery }
  else b

/-- `updateRecoveryState`. -/
def updateRecoveryState (b : Sender σ) (lastAckedPacket : ℤ) (hasLosses isRoundStart : Bool) :
    Sender σ :=
  if !b.isAtFullBandwidth then b
  else
    let b := if hasLosses then { b with endRecoveryAt := b.lastSentPacket } else b
    match b.recoveryState with
    | .notInRecovery =>
      if hasLosses then
        -- `calculateRecoveryWindow` takes 0 for a window that is not yet set
        { b with
          recoveryState := .conservation
          recoveryWindow := 0
          currentRoundTripEnd := b.lastSentPacket }
      else b
    -- falls through to `growth`
    | .conservation =>
      let b := if isRoundStart then { b with recoveryState := .growth } else b
      b.maybeExitRecovery lastAckedPacket hasLosses
    | .growth => b.maybeExitRecovery lastAckedPacket hasLosses

/-! ## Rates and windows -/

/-- The overshooting branch of `calculatePacingRate`. -/
def detectOvershoot (b : Sender σ) (minRTT bytesLost : ℤ) (targetRate : UInt64) :
    Option (Sender σ) :=
  let lost := int64 (b.bytesLostWhileDetectingOvershooting + bytesLost)
  let b := { b with bytesLostWhileDetectingOvershooting := lost }
  if targetRate < b.pacingRate ∧ 0 < lost ∧ (b.hasNoAppLimitedSample ∨
      b.initialCongestionWindow <
        int64 (lost * b.bytesLostMultiplierWhileDetectingOvershooting)) then
    (bandwidthFromDelta b.cwndToCalculateMinPacingRate minRTT).map fun rate =>
      { b with
        pacingRate := max targetRate rate
        bytesLostWhileDetectingOvershooting := 0
        detectOvershooting := false }
  else some b

/-- `calculatePacingRate`. -/
def calculatePacingRate (b : Sender σ) (minRTT bytesLost : ℤ) : Option (Sender σ) :=
  if b.bandwidthEstimate = 0 then some b
  else
    let targetRate := floats.bandwidth b.pacingGain b.bandwidthEstimate
    if b.isAtFullBandwidth then some { b with pacingRate := targetRate }
    -- the initial window in one round trip, as soon as there is a measurement
    else if b.pacingRate = 0 ∧ minRTT ≠ 0 then
      (bandwidthFromDelta b.initialCongestionWindow minRTT).map fun pacingRate =>
        { b with pacingRate }
    else
      (if b.detectOvershooting then b.detectOvershoot minRTT bytesLost targetRate
        -- the rate never decreases during startup
        else some b).map fun b => { b with pacingRate := max b.pacingRate targetRate }

/-- The window that `calculateCongestionWindow` grows towards. -/
def targetWindow (b : Sender σ) (minRTT excessAcked : ℤ) : ℤ :=
  let targetWindow := b.getTargetCongestionWindow floats minRTT b.congestionWindowGain
  if b.isAtFullBandwidth then int64 (targetWindow + sampler.maxAckHeight b.sampler)
  else if b.enableAckAggregationDuringStartup then int64 (targetWindow + excessAcked)
  else targetWindow

/-- The window before the limits are enforced. -/
def grownWindow (b : Sender σ) (minRTT bytesAcked excessAcked : ℤ) : ℤ :=
  let targetWindow := b.targetWindow sampler floats minRTT excessAcked
  if b.isAtFullBandwidth then min targetWindow (int64 (b.congestionWindow + bytesAcked))
  else if b.congestionWindow < targetWindow ∨
      sampler.totalBytesAcked b.sampler < b.initialCongestionWindow then
    int64 (b.congestionWindow + bytesAcked)
  else b.congestionWindow

/-- `calculateCongestionWindow`. -/
def calculateCongestionWindow (b : Sender σ) (minRTT bytesAcked excessAcked : ℤ) : Sender σ :=
  if b.mode = .probeRtt then b
  else
    let congestionWindow := b.grownWindow sampler floats minRTT bytesAcked excessAcked
    { b with
      congestionWindow :=
        min (max congestionWindow b.minCongestionWindow) b.maxCongestionWindow }

/-- `calculateRecoveryWindow`. -/
def calculateRecoveryWindow (b : Sender σ) (bytesAcked bytesLost : ℤ) : Sender σ :=
  if b.recoveryState = .notInRecovery then b
  else if b.recoveryWindow = 0 then
    { b with
      recoveryWindow := max b.minCongestionWindow (int64 (b.bytesInFlight + bytesAcked)) }
  else
    let recoveryWindow :=
      if bytesLost ≤ b.recoveryWindow then int64 (b.recoveryWindow - bytesLost)
      else b.maxDatagramSize
    let recoveryWindow :=
      if b.recoveryState = .growth then int64 (recoveryWindow + bytesAcked) else recoveryWindow
    -- what was acked may be sent in any case
    let recoveryWindow := max recoveryWindow (int64 (b.bytesInFlight + bytesAcked))
    { b with recoveryWindow := max b.minCongestionWindow recoveryWindow }

/-! ## Congestion events -/

/-- The arguments of `OnCongestionEventEx`, with `rttStats.MinRTT()` and a random number. -/
structure Event where
  priorInFlight : ℤ
  eventTime : ℤ
  ackedPackets : List AckedPacketInfo
  lostPackets : List LostPacketInfo
  minRTT : ℤ
  rand : ℕ
deriving DecidableEq, Repr

/-- The bytes in flight after the packets that are acked or lost. -/
def updateBytesInFlight (b : Sender σ) (e : Event) : Sender σ :=
  let bytes := e.ackedPackets.foldl (fun n p => int64 (n - p.bytesAcked)) e.priorInFlight
  { b with bytesInFlight := e.lostPackets.foldl (fun n p => int64 (n - p.bytesLost)) bytes }

/-- The round and the recovery state, if packets were acked: whether a round has begun. -/
def onAcked (b : Sender σ) (e : Event) : Bool × Sender σ :=
  match e.ackedPackets.getLast? with
  | none => (false, b)
  | some p =>
    let (isRoundStart, b) := b.updateRoundTripCounter p.packetNumber
    (isRoundStart, b.updateRecoveryState p.packetNumber (!e.lostPackets.isEmpty) isRoundStart)

/-- The sample of an event. -/
def takeSample (b : Sender σ) (e : Event) : CongestionEventSample × Sender σ :=
  let result := sampler.onCongestionEvent b.sampler e.eventTime e.ackedPackets e.lostPackets
    b.bandwidthEstimate b.roundTripCount
  (result.1, { b with sampler := result.2 })

/-- The bandwidth of a sample, unless nothing was acked or the application limits it. -/
def updateMaxBandwidth (b : Sender σ) (totalBytesAckedBefore : ℤ)
    (sample : CongestionEventSample) : Sender σ :=
  if totalBytesAckedBefore ≠ sampler.totalBytesAcked b.sampler ∧
      (!sample.sampleIsAppLimited ∨ b.bandwidthEstimate < sample.sampleMaxBandwidth) then
    { b with maxBandwidth := b.maxBandwidth.update sample.sampleMaxBandwidth b.roundTripCount }
  else b

/-- What is remembered of the send state of the last packet. -/
def updateAppLimited (b : Sender σ) (lastPacketSendState : SendTimeState) : Sender σ :=
  if lastPacketSendState.isValid then
    { b with
      lastSampleIsAppLimited := lastPacketSendState.isAppLimited
      hasNoAppLimitedSample := b.hasNoAppLimitedSample || !lastPacketSendState.isAppLimited }
  else b

/-- The losses of the round. -/
def countLosses (b : Sender σ) (e : Event) (bytesLost : ℤ) : Sender σ :=
  if e.lostPackets.isEmpty then b
  else
    { b with
      numLossEventsInRound := b.numLossEventsInRound + 1
      bytesLostInRound := int64 (b.bytesLostInRound + bytesLost) }

/-- The estimates of an event: whether the smallest round trip time had expired, and the sender
with the sample taken into account. -/
def updateEstimates (b : Sender σ) (e : Event) (totalBytesAckedBefore bytesLost : ℤ)
    (sample : CongestionEventSample) : Bool × Sender σ :=
  let b := b.updateAppLimited sample.lastPacketSendState
  let b := b.updateMaxBandwidth sampler totalBytesAckedBefore sample
  let (minRttExpired, b) :=
    if sample.sampleRtt ≠ infRTT then b.maybeUpdateMinRtt e.eventTime sample.sampleRtt
    else (false, b)
  (minRttExpired, b.countLosses e bytesLost)

/-- The modes of an event. -/
def updateModes (b : Sender σ) (e : Event) (isRoundStart minRttExpired : Bool)
    (lastPacketSendState : SendTimeState) : Sender σ :=
  let b :=
    if b.mode = .probeBw then
      b.updateGainCyclePhase floats e.minRTT e.eventTime e.priorInFlight (!e.lostPackets.isEmpty)
    else b
  let b :=
    if isRoundStart ∧ !b.isAtFullBandwidth then
      b.checkIfFullBandwidthReached sampler floats lastPacketSendState
    else b
  let b := b.maybeExitStartupOrDrain floats e.minRTT e.eventTime e.rand
  b.maybeEnterOrExitProbeRtt sampler e.eventTime e.rand isRoundStart minRttExpired

/-- The windows of an event. -/
def updateWindows (b : Sender σ) (e : Event) (bytesAcked bytesLost excessAcked : ℤ) :
    Option (Sender σ) :=
  (b.calculatePacingRate floats e.minRTT bytesLost).map fun b =>
    (b.calculateCongestionWindow sampler floats e.minRTT bytesAcked
      excessAcked).calculateRecoveryWindow bytesAcked bytesLost

/-- The last packet that the sampler need not remember, or `none` for an index out of range. -/
def leastUnacked (e : Event) : Option ℤ :=
  match e.ackedPackets.getLast?, e.lostPackets.getLast? with
  | some p, _ => some (int64 (p.packetNumber - 2))
  | none, some p => some (int64 (p.packetNumber + 1))
  | none, none => none

/-- The end of an event. -/
def cleanup (b : Sender σ) (e : Event) (isRoundStart : Bool) : Option (Sender σ) :=
  (leastUnacked e).map fun leastUnacked =>
    let b := { b with sampler := sampler.removeObsoletePackets b.sampler leastUnacked }
    if isRoundStart then { b with numLossEventsInRound := 0, bytesLostInRound := 0 } else b

/-- `OnCongestionEventEx`. -/
def onCongestionEventEx (b : Sender σ) (e : Event) : Option (Sender σ) :=
  let totalBytesAckedBefore := sampler.totalBytesAcked b.sampler
  let totalBytesLostBefore := sampler.totalBytesLost b.sampler
  let b := (b.maybeAppLimited sampler floats e.minRTT e.priorInFlight).updateBytesInFlight e
  let (isRoundStart, b) := b.onAcked e
  let (sample, b) := b.takeSample sampler e
  let bytesLost := int64 (sampler.totalBytesLost b.sampler - totalBytesLostBefore)
  let (minRttExpired, b) :=
    b.updateEstimates sampler e totalBytesAckedBefore bytesLost sample
  let b := b.updateModes sampler floats e isRoundStart minRttExpired sample.lastPacketSendState
  -- the modes are up to date before the windows are computed
  let bytesAcked := int64 (sampler.totalBytesAcked b.sampler - totalBytesAckedBefore)
  (b.updateWindows sampler floats e bytesAcked bytesLost sample.extraAcked).bind fun b =>
    b.cleanup sampler e isRoundStart

/-! ## Calls -/

/-- The calls that change the sender. -/
inductive Op
  | packetSent (sentTime bytesInFlight packetNumber bytes : ℤ) (isRetransmittable : Bool)
  | congestionEvent (e : Event)
  | maxDatagramSize (s : ℤ)
deriving DecidableEq, Repr

/-- The sender after a call, or `none` if the call panics. -/
def step (b : Sender σ) : Op → Option (Sender σ)
  | .packetSent sentTime bytesInFlight packetNumber bytes isRetransmittable =>
    some (b.onPacketSent sampler sentTime bytesInFlight packetNumber bytes isRetransmittable)
  | .congestionEvent e => b.onCongestionEventEx sampler floats e
  | .maxDatagramSize s => b.setMaxDatagramSize s

end Sender

end BBR
