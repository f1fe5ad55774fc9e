import DatumGateway.FloatValues
import DatumGateway.Utf8Text
import Mathlib.Data.Nat.Log

namespace DatumGateway.ConfigValidation

open DatumGateway.ByteString
open DatumGateway.FloatValues
open DatumGateway.Utf8Text

structure BitcoindConfig where
  rpccookiefile : String := ""
  rpcuser : String := ""
  rpcpassword : String := ""
  rpcurl : String := ""
  workUpdateSeconds : ℤ := 40

structure StratumConfig where
  maxClients : ℤ := 1024
  maxThreads : ℤ := 8
  maxClientsPerThread : ℤ := 128
  vardiffMin : UInt64 := 16384
  vardiffTargetSharesMin : ℤ := 8
  vardiffQuickdiffCount : ℤ := 8
  vardiffQuickdiffDelta : ℤ := 8
  shareStaleSeconds : ℤ := 120
  /-- The modifiers in the order of their names, each with its proportions. -/
  usernameModifiers : List (String × List FloatValue) := []

structure StratumV2Config where
  enabled : Bool := false
  authorityPubkeyPath : String := ""
  authoritySecretPath : String := ""
  certValiditySec : UInt32 := 3600
  minHashrateThreshold : FloatValue := .finite 1000000000000
  expectedSharePerMinute : FloatValue := .finite 6

structure MiningConfig where
  poolAddress : String := ""
  coinbaseTagPrimary : String := "DATUM Gateway"
  coinbaseTagSecondary : String := "DATUM User"
  coinbaseUniqueId : UInt32 := 4242

structure ExtraBlockSubmissionsConfig where
  urls : List String := []

structure LoggerConfig where
  logToFile : Bool := false
  logFile : String := ""
  logLevelConsole : ℤ := 2
  logLevelFile : ℤ := 1

structure DatumConfig where
  poolHost : String := "datum-beta1.mine.ocean.xyz"
  poolPubkey : String :=
    "f21f2f0ef0aa1970468f22bad9bb7f4535146f8e4a8f646bebc93da3d89b1406" ++
      "f40d032f09a417d94dc068055df654937922d2c89522e3e8f6f0e649de473003"
  pooledMiningOnly : Bool := true
  protocolGlobalTimeout : ℤ := 60

structure Config where
  bitcoind : BitcoindConfig := {}
  stratum : StratumConfig := {}
  stratumV2 : StratumV2Config := {}
  mining : MiningConfig := {}
  extraBlockSubmissions : ExtraBlockSubmissionsConfig := {}
  logger : LoggerConfig := {}
  datum : DatumConfig := {}

inductive ValidationError where
  | bitcoindMissingCredentials
  | bitcoindRpcUserMissingPassword
  | bitcoindRpcUrlEmpty
  | bitcoindWorkUpdateSecondsOutOfRange (got : ℤ)
  | stratumMaxThreadsTooHigh (got : ℤ)
  | stratumMaxClientsPerThreadTooHigh (got : ℤ)
  | stratumMaxClientsExceedsCap (maxClients threads perThread cap : ℤ)
  | stratumVardiffMinTooLow (got : UInt64)
  | stratumVardiffMinNotPowerOfTwo (got rounded : UInt64)
  | stratumVardiffTargetSharesMinTooLow (got : ℤ)
  | stratumVardiffQuickdiffCountTooLow (got : ℤ)
  | stratumVardiffQuickdiffDeltaTooLow (got : ℤ)
  | stratumShareStaleSecondsOutOfRange (got : ℤ)
  | stratumUsernameModifierProportions (modifier : String) (sum : FloatValue)
  | miningCoinbaseTagPrimaryTooLong (got : ℕ)
  | miningCoinbaseTagSecondaryTooLong (got : ℕ)
  | miningCoinbaseTagsCombinedTooLong (got : ℕ)
  | miningPoolAddressEmpty
  | extraBlockSubmitTooManyUrls (got : ℕ)
  | extraBlockSubmitUrlTooLong (idx got : ℕ)
  | datumProtocolTimeoutTooLow (got floor : ℤ)
  | datumPooledMiningWithoutHost
  | datumPoolPubkeyBadLength (got : ℕ)
  | datumPoolPubkeyNotHex
  | loggerFileWithoutPath
  | loggerLevelConsoleOutOfRange (got : ℤ)
  | loggerLevelFileOutOfRange (got : ℤ)
  | stratumV2CertValiditySecTooLarge (got : UInt32)
  | stratumV2EnabledWithoutAuthorityPubkey
  | stratumV2EnabledWithoutAuthoritySecret
  | stratumV2MinHashrateThresholdInvalid (got : FloatValue)
  | stratumV2ExpectedSharePerMinuteInvalid (got : FloatValue)
  deriving DecidableEq

def coinbaseTagsCombinedMax : ℕ := 88
def coinbaseTagIndividualMax : ℕ := 60
def maxExtraBlockSubmitUrls : ℕ := 32
def maxExtraBlockSubmitUrlLen : ℕ := 512
def stratumV2CertValiditySecHardCap : UInt32 := 31536000
def stratumV2ExpectedSharePerMinuteMax : ℚ := 10000

def byteLen (s : String) : ℕ := (utf8Bytes s).length

def errorIf (failed : Bool) (error : ValidationError) : List ValidationError :=
  if failed then [error] else []

def prevPowerOfTwo (n : UInt64) : UInt64 :=
  if n.toNat = 0 then 0 else UInt64.ofNat (2 ^ Nat.log2 n.toNat)

def isPowerOfTwo (n : UInt64) : Bool :=
  n.toNat ≠ 0 && 2 ^ Nat.log2 n.toNat == n.toNat

def validateBitcoind (c : Config) : List ValidationError :=
  let b := c.bitcoind
  let hasCookie := b.rpccookiefile ≠ ""
  let hasUser := b.rpcuser ≠ ""
  let hasPass := b.rpcpassword ≠ ""
  (if !hasCookie && !hasUser && !hasPass then [.bitcoindMissingCredentials]
    else errorIf (hasUser && !hasPass) .bitcoindRpcUserMissingPassword) ++
  errorIf (b.rpcurl = "") .bitcoindRpcUrlEmpty ++
  errorIf (b.workUpdateSeconds < 5 || 120 < b.workUpdateSeconds)
    (.bitcoindWorkUpdateSecondsOutOfRange b.workUpdateSeconds)

section Floats

/-! The sum of a list in floating point, and whether it is more than `1e-6` away from one. -/

variable (sumFloat : List FloatValue → FloatValue) (farFromOne : FloatValue → Bool)

def validateStratum (c : Config) : List ValidationError :=
  let s := c.stratum
  let cap := s.maxThreads * s.maxClientsPerThread
  errorIf (256 < s.maxThreads) (.stratumMaxThreadsTooHigh s.maxThreads) ++
  errorIf (1024 < s.maxClientsPerThread)
    (.stratumMaxClientsPerThreadTooHigh s.maxClientsPerThread) ++
  errorIf (cap < s.maxClients)
    (.stratumMaxClientsExceedsCap s.maxClients s.maxThreads s.maxClientsPerThread cap) ++
  (if s.vardiffMin < 1 then [.stratumVardiffMinTooLow s.vardiffMin]
    else errorIf (!isPowerOfTwo s.vardiffMin)
      (.stratumVardiffMinNotPowerOfTwo s.vardiffMin (prevPowerOfTwo s.vardiffMin))) ++
  errorIf (s.vardiffTargetSharesMin < 1)
    (.stratumVardiffTargetSharesMinTooLow s.vardiffTargetSharesMin) ++
  errorIf (s.vardiffQuickdiffCount < 4)
    (.stratumVardiffQuickdiffCountTooLow s.vardiffQuickdiffCount) ++
  errorIf (s.vardiffQuickdiffDelta < 3)
    (.stratumVardiffQuickdiffDeltaTooLow s.vardiffQuickdiffDelta) ++
  errorIf (s.shareStaleSeconds < 60 || 150 < s.shareStaleSeconds)
    (.stratumShareStaleSecondsOutOfRange s.shareStaleSeconds) ++
  s.usernameModifiers.flatMap fun (name, proportions) =>
    errorIf (farFromOne (sumFloat proportions))
      (.stratumUsernameModifierProportions name (sumFloat proportions))

def validateStratumV2 (c : Config) : List ValidationError :=
  let s := c.stratumV2
  errorIf (stratumV2CertValiditySecHardCap < s.certValiditySec)
    (.stratumV2CertValiditySecTooLarge s.certValiditySec) ++
  errorIf (s.enabled && s.authorityPubkeyPath = "") .stratumV2EnabledWithoutAuthorityPubkey ++
  errorIf (s.enabled && s.authoritySecretPath = "") .stratumV2EnabledWithoutAuthoritySecret ++
  errorIf (!s.minHashrateThreshold.isFinite || s.minHashrateThreshold.atMost 0)
    (.stratumV2MinHashrateThresholdInvalid s.minHashrateThreshold) ++
  errorIf (!s.expectedSharePerMinute.isFinite || s.expectedSharePerMinute.atMost 0 ||
      s.expectedSharePerMinute.atLeast stratumV2ExpectedSharePerMinuteMax)
    (.stratumV2ExpectedSharePerMinuteInvalid s.expectedSharePerMinute)

def validateMining (c : Config) : List ValidationError :=
  let m := c.mining
  let combined := byteLen m.coinbaseTagPrimary + byteLen m.coinbaseTagSecondary
  errorIf (m.poolAddress = "") .miningPoolAddressEmpty ++
  errorIf (coinbaseTagIndividualMax < byteLen m.coinbaseTagPrimary)
    (.miningCoinbaseTagPrimaryTooLong (byteLen m.coinbaseTagPrimary)) ++
  errorIf (coinbaseTagIndividualMax < byteLen m.coinbaseTagSecondary)
    (.miningCoinbaseTagSecondaryTooLong (byteLen m.coinbaseTagSecondary)) ++
  errorIf (coinbaseTagsCombinedMax < combined) (.miningCoinbaseTagsCombinedTooLong combined)

def validateExtraBlockSubmissions (c : Config) : List ValidationError :=
  let urls := c.extraBlockSubmissions.urls
  errorIf (maxExtraBlockSubmitUrls < urls.length) (.extraBlockSubmitTooManyUrls urls.length) ++
  urls.zipIdx.flatMap fun (url, idx) =>
    errorIf (maxExtraBlockSubmitUrlLen < byteLen url)
      (.extraBlockSubmitUrlTooLong idx (byteLen url))

def saturatingAddI32 (a b : ℤ) : ℤ := min (a + b) (2 ^ 31 - 1)

def validateDatum (c : Config) : List ValidationError :=
  let d := c.datum
  let floor := saturatingAddI32 c.bitcoind.workUpdateSeconds 5
  errorIf (d.protocolGlobalTimeout < floor)
    (.datumProtocolTimeoutTooLow d.protocolGlobalTimeout floor) ++
  errorIf (d.pooledMiningOnly && d.poolHost = "") .datumPooledMiningWithoutHost ++
  if d.poolPubkey = "" then []
  else if byteLen d.poolPubkey ≠ 128 then
    [.datumPoolPubkeyBadLength (byteLen d.poolPubkey)]
  else errorIf (!d.poolPubkey.toList.all fun ch => ch.isDigit ||
      ('a' ≤ ch && ch ≤ 'f') || ('A' ≤ ch && ch ≤ 'F')) .datumPoolPubkeyNotHex

def validateLogger (c : Config) : List ValidationError :=
  let l := c.logger
  errorIf (l.logToFile && l.logFile = "") .loggerFileWithoutPath ++
  errorIf (l.logLevelConsole < 0 || 5 < l.logLevelConsole)
    (.loggerLevelConsoleOutOfRange l.logLevelConsole) ++
  errorIf (l.logLevelFile < 0 || 5 < l.logLevelFile)
    (.loggerLevelFileOutOfRange l.logLevelFile)

/-- All errors of a configuration; it is accepted when there are none. -/
def validate (c : Config) : List ValidationError :=
  validateBitcoind c ++ validateStratum sumFloat farFromOne c ++ validateStratumV2 c ++
    validateMining c ++ validateExtraBlockSubmissions c ++ validateDatum c ++ validateLogger c

end Floats

theorem errorIf_eq_nil {failed : Bool} {error : ValidationError} :
    errorIf failed error = [] ↔ failed = false := by
  cases failed <;> simp [errorIf]

theorem tags_le_of_validate {sumFloat : List FloatValue → FloatValue}
    {farFromOne : FloatValue → Bool} {c : Config}
    (haccepted : validate sumFloat farFromOne c = []) :
    byteLen c.mining.coinbaseTagPrimary ≤ 60 ∧ byteLen c.mining.coinbaseTagSecondary ≤ 60 ∧
      byteLen c.mining.coinbaseTagPrimary + byteLen c.mining.coinbaseTagSecondary ≤ 88 := by
  simp only [validate, List.append_eq_nil_iff] at haccepted
  obtain ⟨⟨⟨⟨_, hmining⟩, _⟩, _⟩, _⟩ := haccepted
  simp only [validateMining, List.append_eq_nil_iff, errorIf_eq_nil, decide_eq_false_iff_not,
    not_lt] at hmining
  exact ⟨hmining.1.1.2, hmining.1.2, hmining.2⟩

def configOf (mining : MiningConfig) : Config where
  bitcoind := { rpccookiefile := "/var/run/bitcoin/cookie", rpcurl := "http://127.0.0.1:8332" }
  mining := mining

theorem validate_configOf (sumFloat : List FloatValue → FloatValue)
    (farFromOne : FloatValue → Bool) (mining : MiningConfig) :
    validate sumFloat farFromOne (configOf mining) = validateMining (configOf mining) := by
  have hbitcoind : validateBitcoind (configOf mining) = [] := rfl
  have hpower : isPowerOfTwo 16384 = true := by decide +kernel
  have hstratum : validateStratum sumFloat farFromOne (configOf mining) = [] := by
    simp [validateStratum, configOf, errorIf_eq_nil, hpower]
  have hstratumV2 : validateStratumV2 (configOf mining) = [] := rfl
  have hextra : validateExtraBlockSubmissions (configOf mining) = [] := rfl
  have hdatum : validateDatum (configOf mining) = [] := by
    change validateDatum {} = []
    decide +kernel
  have hlogger : validateLogger (configOf mining) = [] := rfl
  rw [validate, hbitcoind, hstratum, hstratumV2, hextra, hdatum, hlogger]
  simp

end DatumGateway.ConfigValidation
