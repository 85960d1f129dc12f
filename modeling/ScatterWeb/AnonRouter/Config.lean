import ScatterWeb.AnonRouter.Tft
import ScatterWeb.Lib.Bytes
import ScatterWeb.Lib.Numeral
import ScatterWeb.Lib.Validate
import Mathlib.Data.List.DropRight

/-! # The configuration and the loop of rounds

`Config::load` takes `key = value` lines, section headers and comments aside, and a later line overrides an earlier one. Numbers are checked
by the conversions of the standard library only, and `tft_round_seconds` is cut off to 32 bits after that. `tft_loop` divides by it, and by the
quotient in every round. The sleep between rounds and the flag that ends the loop are left out: a run has any number of rounds, and what the
other threads do to the ledger in the meantime is any change. The counter of rounds does not leave 64 bits. -/
namespace ScatterWeb.AnonRouter
open Crypto Lib Lib.Numeral
set_option autoImplicit false

structure Config where
  listenAddr : Bytes := ascii "0.0.0.0:9000"
  ipcPath : Bytes := ascii "/run/anonrouter/daemon.sock"
  runDir : Bytes := ascii "/var/lib/anonrouter"
  nodeRole : Bytes := ascii "full"
  logLevel : Bytes := ascii "info"
  bootstrapNodes : List Bytes := []
  maxGuardSlots : UInt64 := 20
  roundSeconds : UInt32 := 30
  maxDebtBytes : ℤ := 52428800
  creditDecayIntervalS : ℤ := 3600
  defaultLevel : ℤ := 1
  deriving DecidableEq

inductive ConfigError
  | runtime (what : String)
  | conversion (e : ConversionError)
  deriving DecidableEq

/-- `std::getline` until the end: a line feed at the end of the file does not begin another line. -/
def getLines : Bytes → List Bytes
  | [] => []
  | c :: cs =>
    if c = 10 then [] :: getLines cs
    else
      match getLines cs with
      | [] => [[c]]
      | line :: lines => (c :: line) :: lines

def isBlank (c : UInt8) : Bool := c = 32 ∨ c = 9 ∨ c = 13

def trim (s : Bytes) : Bytes := (s.dropWhile isBlank).rdropWhile isBlank

/-- The key and the value of a line, unless it is empty, a comment, a header or without `=`. -/
def setting (line : Bytes) : Option (Bytes × Bytes) :=
  match line with
  | [] => none
  | c :: _ =>
    if c = 35 ∨ c = 91 then none
    else
      match line.dropWhile (fun c => decide (c ≠ 61)) with
      | [] => none
      | _ :: rest =>
        let key := trim (line.takeWhile (fun c => decide (c ≠ 61)))
        let val := trim rest
        if val.contains 35 then some (key, trim (val.takeWhile (fun c => decide (c ≠ 35)))) else some (key, val)

namespace Config
section Load
variable (stod : Bytes → Except ConversionError Unit) (c : Config)

/-- Nothing reads `max_fwd_bw_frac`, so of `std::stod` only matters whether it throws. -/
def assign (key val : Bytes) : Except ConversionError Config :=
  if key = ascii "listen_addr" then .ok { c with listenAddr := val }
  else if key = ascii "ipc_path" then .ok { c with ipcPath := val }
  else if key = ascii "run_dir" then .ok { c with runDir := val }
  else if key = ascii "node_role" then .ok { c with nodeRole := val }
  else if key = ascii "log_level" then .ok { c with logLevel := val }
  else if key = ascii "bootstrap" then .ok { c with bootstrapNodes := c.bootstrapNodes ++ [val] }
  else if key = ascii "max_guard_slots" then (stoul 10 val).map (fun n => { c with maxGuardSlots := n })
  else if key = ascii "max_fwd_bw_frac" then (stod val).map (fun _ => c)
  else if key = ascii "tft_round_seconds" then (stoul 10 val).map (fun n => { c with roundSeconds := n.toUInt32 })
  else if key = ascii "max_debt_bytes" then (stoll 10 val).map (fun i => { c with maxDebtBytes := i })
  else if key = ascii "default_anon_level" then (Numeral.stoi 10 val).map (fun i => { c with defaultLevel := i })
  else .ok c

def readLine (line : Bytes) : Except ConversionError Config :=
  match setting line with
  | none => .ok c
  | some (key, val) => c.assign stod key val

/-- The file is absent when it cannot be opened. -/
def load (path : String) : Option Bytes → Except ConfigError Config
  | none => .error (.runtime ("Cannot open config: " ++ path))
  | some text => ((getLines text).foldlM (readLine stod) {}).mapError .conversion

end Load

/-- What the constructor of the router hands to the engine. -/
def tft (c : Config) (decayed : ℤ → ℤ) : TftConfig := { maxDebtBytes := c.maxDebtBytes, decayed }

end Config

/-! ## The loop -/

inductive ArithmeticFault
  | divisionByZero
  deriving DecidableEq

def divide (a b : ℤ) : Except ArithmeticFault ℤ := if b = 0 then .error .divisionByZero else .ok (a.tdiv b)

def remainder (a b : ℤ) : Except ArithmeticFault ℤ := if b = 0 then .error .divisionByZero else .ok (a.tmod b)

inductive LoopCall
  | runRound
  | decayCredits
  deriving DecidableEq

/-- The thread: the engine, the counter, and the calls it has made. -/
structure TftThread where
  engine : TftEngine
  roundCount : ℤ
  calls : List LoopCall

/-- What happens while the loop sleeps, and the order of the hash map in the round that follows. -/
structure Turn where
  meantime : TftEngine → TftEngine
  order : HashOrder

def roundsPerDecay (c : Config) : Except ArithmeticFault ℤ := divide c.creditDecayIntervalS c.roundSeconds.toNat

def tftTurn (cfg : TftConfig) (p : ℤ) (t : TftThread) (turn : Turn) : Except ArithmeticFault TftThread := do
  let engine := (turn.meantime t.engine).runRound cfg turn.order
  let roundCount := t.roundCount + 1
  let rest ← remainder roundCount p
  if rest = 0 then .ok ⟨engine.decayCredits cfg, roundCount, t.calls ++ [.runRound, .decayCredits]⟩
  else .ok ⟨engine, roundCount, t.calls ++ [.runRound]⟩

def tftLoop (c : Config) (cfg : TftConfig) (engine : TftEngine) (turns : List Turn) : Except ArithmeticFault TftThread := do
  let p ← roundsPerDecay c
  turns.foldlM (tftTurn cfg p) ⟨engine, 0, []⟩

/-- However many rounds there are, the loop gets through them, and has let the credits decay once for each `rounds_per_decay` of them. -/
structure LoopsSafely (c : Config) : Prop where
  safe : ∀ (decayed : ℤ → ℤ) (engine : TftEngine) (turns : List Turn), ∃ t, tftLoop c (c.tft decayed) engine turns = .ok t
  decays : ∀ (decayed : ℤ → ℤ) (engine : TftEngine) (turns : List Turn) (p : ℤ) (t : TftThread), roundsPerDecay c = .ok p →
    tftLoop c (c.tft decayed) engine turns = .ok t → (t.calls.count .decayCredits : ℤ) = turns.length / p

/-- The values that the lines give for `tft_round_seconds`. -/
def roundSettings (lines : List Bytes) : List Bytes :=
  ((lines.filterMap setting).filter (fun e => decide (e.1 = ascii "tft_round_seconds"))).map Prod.snd

/-- The last of them, cut off to 32 bits, is at least a second and at most the interval of the decay. -/
def RoundSecondsFit (text : Bytes) : Prop :=
  ∀ val n, (roundSettings (getLines text)).getLast? = some val → stoul 10 val = .ok n → 1 ≤ n.toNat % 2 ^ 32 ∧ n.toNat % 2 ^ 32 ≤ 3600

/-! ## What is loaded -/

section Load
variable {stod : Bytes → Except ConversionError Unit} {c c' : Config} {line : Bytes} {lines : List Bytes}

theorem roundSettings_cons (line : Bytes) (lines : List Bytes) : roundSettings (line :: lines) = roundSettings [line] ++ roundSettings lines := by
  unfold roundSettings
  rw [← List.map_append, ← List.filter_append, ← List.filterMap_append, List.singleton_append]

theorem roundSettings_of_none (h : setting line = none) : roundSettings [line] = [] := by
  simp [roundSettings, h]

theorem roundSettings_of_some {key val : Bytes} (h : setting line = some (key, val)) :
    roundSettings [line] = if key = ascii "tft_round_seconds" then [val] else [] := by
  by_cases hkey : key = ascii "tft_round_seconds"
  · simp [roundSettings, h, hkey]
  · simp [roundSettings, h, hkey]

/-- Wherever this returns, the two numbers that the loop reads are those of `c`. -/
def KeepsRounds (c : Config) (x : Except ConversionError Config) : Prop :=
  ∀ c', x = .ok c' → c'.roundSeconds = c.roundSeconds ∧ c'.creditDecayIntervalS = c.creditDecayIntervalS

theorem keepsRounds_ok (hround : c'.roundSeconds = c.roundSeconds) (hinterval : c'.creditDecayIntervalS = c.creditDecayIntervalS) :
    KeepsRounds c (.ok c') := by
  rintro _ ⟨⟩
  exact ⟨hround, hinterval⟩

theorem keepsRounds_map {α : Type} {x : Except ConversionError α} {f : α → Config} (hround : ∀ a, (f a).roundSeconds = c.roundSeconds)
    (hinterval : ∀ a, (f a).creditDecayIntervalS = c.creditDecayIntervalS) : KeepsRounds c (x.map f) := by
  intro c' h
  obtain ⟨a, _, rfl⟩ := map_ok h
  exact ⟨hround a, hinterval a⟩

theorem keepsRounds_ite {P : Prop} [Decidable P] {x y : Except ConversionError Config} (hx : KeepsRounds c x) (hy : KeepsRounds c y) :
    KeepsRounds c (if P then x else y) := by
  split
  · exact hx
  · exact hy

theorem keepsRounds_assign {key : Bytes} (hkey : key ≠ ascii "tft_round_seconds") (val : Bytes) : KeepsRounds c (c.assign stod key val) := by
  unfold Config.assign
  rw [if_neg hkey]
  iterate 6 refine keepsRounds_ite (keepsRounds_ok rfl rfl) ?_
  iterate 4 refine keepsRounds_ite (keepsRounds_map (fun _ => rfl) (fun _ => rfl)) ?_
  exact keepsRounds_ok rfl rfl

theorem assign_round_seconds (stod : Bytes → Except ConversionError Unit) (c : Config) (val : Bytes) :
    c.assign stod (ascii "tft_round_seconds") val = (stoul 10 val).map (fun n => { c with roundSeconds := n.toUInt32 }) := by
  unfold Config.assign
  iterate 8 rw [if_neg (by decide)]
  exact if_pos rfl

/-- A line either gives the seconds of a round or leaves them as they are. -/
theorem readLine_ok (h : c.readLine stod line = .ok c') : c'.creditDecayIntervalS = c.creditDecayIntervalS ∧
    ((roundSettings [line] = [] ∧ c'.roundSeconds = c.roundSeconds) ∨
      ∃ val n, roundSettings [line] = [val] ∧ stoul 10 val = .ok n ∧ c'.roundSeconds = n.toUInt32) := by
  unfold Config.readLine at h
  cases hsetting : setting line with
  | none =>
    rw [hsetting] at h
    cases h
    exact ⟨rfl, Or.inl ⟨roundSettings_of_none hsetting, rfl⟩⟩
  | some e =>
    obtain ⟨key, val⟩ := e
    rw [hsetting] at h
    rw [roundSettings_of_some hsetting]
    by_cases hkey : key = ascii "tft_round_seconds"
    · rw [hkey] at h
      obtain ⟨n, hn, rfl⟩ := map_ok ((assign_round_seconds stod c val).symm.trans h)
      exact ⟨rfl, Or.inr ⟨val, n, if_pos hkey, hn, rfl⟩⟩
    · obtain ⟨hround, hinterval⟩ := keepsRounds_assign hkey val c' h
      exact ⟨hinterval, Or.inl ⟨if_neg hkey, hround⟩⟩

/-- The last line that gives the seconds of a round decides. -/
theorem readLines_ok (h : lines.foldlM (Config.readLine stod) c = .ok c') : c'.creditDecayIntervalS = c.creditDecayIntervalS ∧
    (((roundSettings lines).getLast? = none ∧ c'.roundSeconds = c.roundSeconds) ∨
      ∃ val n, (roundSettings lines).getLast? = some val ∧ stoul 10 val = .ok n ∧ c'.roundSeconds = n.toUInt32) := by
  induction lines generalizing c with
  | nil =>
    cases h
    exact ⟨rfl, Or.inl ⟨rfl, rfl⟩⟩
  | cons line lines ih =>
    rw [List.foldlM_cons] at h
    obtain ⟨c₁, hline, hlines⟩ := bind_eq_ok.mp h
    obtain ⟨hinterval, hfirst⟩ := readLine_ok hline
    obtain ⟨hinterval', hrest⟩ := ih hlines
    refine ⟨hinterval'.trans hinterval, ?_⟩
    rw [roundSettings_cons, List.getLast?_append]
    obtain ⟨hnone, hround'⟩ | ⟨val, n, hlast, hn, hround'⟩ := hrest
    · rw [hnone, hround', Option.none_or]
      obtain ⟨hsettings, hround⟩ | ⟨val, n, hsettings, hn, hround⟩ := hfirst
      · exact Or.inl ⟨by rw [hsettings, List.getLast?_nil], hround⟩
      · exact Or.inr ⟨val, n, by rw [hsettings, List.getLast?_singleton], hn, hround⟩
    · exact Or.inr ⟨val, n, by rw [hlast, Option.some_or], hn, hround'⟩

/-- What a file that is accepted does to the loop. -/
theorem load_ok {path : String} {text : Bytes} (h : Config.load stod path (some text) = .ok c) : c.creditDecayIntervalS = 3600 ∧
    (((roundSettings (getLines text)).getLast? = none ∧ c.roundSeconds = 30) ∨
      ∃ val n, (roundSettings (getLines text)).getLast? = some val ∧ stoul 10 val = .ok n ∧ c.roundSeconds = n.toUInt32) := by
  unfold Config.load at h
  dsimp only at h
  cases hlines : (getLines text).foldlM (Config.readLine stod) {} with
  | error e =>
    rw [hlines] at h
    cases h
  | ok c' =>
    rw [hlines] at h
    cases h
    exact readLines_ok hlines

end Load

/-! ## Rounds -/

section Rounds
variable {cfg : TftConfig} {p k : ℕ} {t : TftThread}

theorem remainder_ok (hp : 0 < p) (k : ℕ) : remainder k p = .ok ((k % p : ℕ) : ℤ) := by
  unfold remainder
  rw [if_neg (by omega), Int.ofNat_tmod]

theorem tftTurn_ok (cfg : TftConfig) (hp : 0 < p) (hk : t.roundCount = k) (turn : Turn) : ∃ t', tftTurn cfg p t turn = .ok t' ∧
    t'.roundCount = (k + 1 : ℕ) ∧ t'.calls.count .decayCredits = t.calls.count .decayCredits + if p ∣ k + 1 then 1 else 0 := by
  have hnext : t.roundCount + 1 = ((k + 1 : ℕ) : ℤ) := by
    rw [hk]
    push_cast
    rfl
  unfold tftTurn
  dsimp only
  rw [hnext, remainder_ok hp, ok_bind]
  by_cases hdvd : p ∣ k + 1
  · rw [if_pos (by exact_mod_cast Nat.mod_eq_zero_of_dvd hdvd), if_pos hdvd]
    refine ⟨_, rfl, rfl, ?_⟩
    rw [List.count_append]
    rfl
  · rw [if_neg (fun hmod => hdvd (Nat.dvd_of_mod_eq_zero (by exact_mod_cast hmod))), if_neg hdvd]
    refine ⟨_, rfl, rfl, ?_⟩
    rw [List.count_append]
    rfl

/-- After a number of rounds the credits have decayed once for each multiple of the period that the counter has passed. -/
theorem tftTurns_ok (cfg : TftConfig) (hp : 0 < p) (hk : t.roundCount = k) (turns : List Turn) : ∃ t', turns.foldlM (tftTurn cfg p) t = .ok t' ∧
    t'.calls.count .decayCredits + k / p = t.calls.count .decayCredits + (k + turns.length) / p := by
  induction turns generalizing t k with
  | nil => exact ⟨t, rfl, rfl⟩
  | cons turn turns ih =>
    obtain ⟨t₁, hturn, hcount, hcalls⟩ := tftTurn_ok cfg hp hk turn
    obtain ⟨t', hturns, hrest⟩ := ih hcount
    refine ⟨t', ?_, ?_⟩
    · rw [List.foldlM_cons, hturn, ok_bind, hturns]
    · have hsucc : (k + 1) / p = k / p + if p ∣ k + 1 then 1 else 0 := Nat.succ_div
      have hlength : k + (turn :: turns).length = k + 1 + turns.length := by
        rw [List.length_cons]
        omega
      rw [hlength]
      omega

theorem tftLoop_ok {c : Config} (hp : 0 < p) (hperiod : roundsPerDecay c = .ok (p : ℤ)) (cfg : TftConfig) (engine : TftEngine) (turns : List Turn) :
    ∃ t, tftLoop c cfg engine turns = .ok t ∧ t.calls.count .decayCredits = turns.length / p := by
  obtain ⟨t, hturns, hcalls⟩ := tftTurns_ok (t := ⟨engine, 0, []⟩) (k := 0) cfg hp rfl turns
  refine ⟨t, ?_, ?_⟩
  · unfold tftLoop
    rw [hperiod, ok_bind, hturns]
  · simpa using hcalls

end Rounds

/-! ## Configurations -/

section Configurations
variable {c : Config}

/-- The quotient of the defaults of the source. -/
theorem roundsPerDecay_eq (hinterval : c.creditDecayIntervalS = 3600) (hround : c.roundSeconds.toNat ≠ 0) :
    roundsPerDecay c = .ok ((3600 / c.roundSeconds.toNat : ℕ) : ℤ) := by
  unfold roundsPerDecay divide
  rw [if_neg (by exact_mod_cast hround), hinterval]
  exact congrArg Except.ok (Int.ofNat_tdiv 3600 c.roundSeconds.toNat)

/-- The quotient is zero just when a round is longer than the interval. -/
theorem loopsSafely_of_fit (hinterval : c.creditDecayIntervalS = 3600) (hpos : 1 ≤ c.roundSeconds.toNat) (hle : c.roundSeconds.toNat ≤ 3600) :
    LoopsSafely c := by
  have hperiod := roundsPerDecay_eq hinterval (Nat.one_le_iff_ne_zero.mp hpos)
  have hp : 0 < 3600 / c.roundSeconds.toNat := Nat.div_pos hle hpos
  constructor
  · intro decayed engine turns
    obtain ⟨t, ht, _⟩ := tftLoop_ok hp hperiod (c.tft decayed) engine turns
    exact ⟨t, ht⟩
  · intro decayed engine turns p t hp' ht
    obtain ⟨t', ht', hcalls⟩ := tftLoop_ok hp hperiod (c.tft decayed) engine turns
    obtain rfl : t' = t := Except.ok.inj (ht'.symm.trans ht)
    obtain rfl : _ = p := Except.ok.inj (hperiod.symm.trans hp')
    rw [hcalls]
    push_cast
    rfl

/-- The order in which the rows of the table stand. -/
def oneTurn : Turn := ⟨id, insertionOrder⟩

theorem fit_of_loopsSafely (hinterval : c.creditDecayIntervalS = 3600) (hsafe : LoopsSafely c) :
    1 ≤ c.roundSeconds.toNat ∧ c.roundSeconds.toNat ≤ 3600 := by
  obtain ⟨t, ht⟩ := hsafe.safe id {} [oneTurn]
  obtain ⟨p, hp, hturns⟩ := bind_eq_ok.mp ht
  have hpos : c.roundSeconds.toNat ≠ 0 := by
    intro hzero
    have hfault : roundsPerDecay c = .error .divisionByZero := if_pos (by rw [hzero]; rfl)
    rw [hfault] at hp
    cases hp
  refine ⟨Nat.one_le_iff_ne_zero.mpr hpos, ?_⟩
  by_contra hlong
  obtain rfl : _ = p := Except.ok.inj ((roundsPerDecay_eq hinterval hpos).symm.trans hp)
  rw [Nat.div_eq_of_lt (not_le.mp hlong)] at hturns
  obtain ⟨t', hturn, _⟩ := bind_eq_ok.mp hturns
  obtain ⟨rest, hrest, _⟩ := bind_eq_ok.mp hturn
  cases hrest

end Configurations

/-- The loop is safe for a file that is accepted just when its last `tft_round_seconds` is neither cut off to zero nor above the interval. -/
theorem tft_loop_safe_iff {stod : Bytes → Except ConversionError Unit} {path : String} {text : Bytes} {c : Config}
    (h : Config.load stod path (some text) = .ok c) : LoopsSafely c ↔ RoundSecondsFit text := by
  obtain ⟨hinterval, hrounds⟩ := load_ok h
  have hrange : LoopsSafely c ↔ 1 ≤ c.roundSeconds.toNat ∧ c.roundSeconds.toNat ≤ 3600 :=
    ⟨fit_of_loopsSafely hinterval, fun hfit => loopsSafely_of_fit hinterval hfit.1 hfit.2⟩
  rw [hrange]
  unfold RoundSecondsFit
  obtain ⟨hnone, hround⟩ | ⟨val, n, hlast, hn, hround⟩ := hrounds
  · rw [hround, hnone]
    simp
  · have hcut : c.roundSeconds.toNat = n.toNat % 2 ^ 32 := by rw [hround, UInt64.toNat_toUInt32]
    rw [hcut]
    constructor
    · rintro hfit val' n' hlast' hn'
      cases hlast.symm.trans hlast'
      cases hn.symm.trans hn'
      exact hfit
    · intro hfit
      exact hfit val n hlast hn

/-- Where a number without a fraction is all that occurs. -/
def wholeNumbers (s : Bytes) : Except ConversionError Unit := (stoll 10 s).map (fun _ => ())

theorem tft_loop_safe_iff_minutes :
    Config.load wholeNumbers "anonrouter.conf" (some (ascii "[tft]\ntft_round_seconds = 60 # a minute\n")) = .ok { roundSeconds := 60 } ∧
      LoopsSafely { roundSeconds := 60 } := by
  have hload : Config.load wholeNumbers "anonrouter.conf" (some (ascii "[tft]\ntft_round_seconds = 60 # a minute\n")) = .ok { roundSeconds := 60 } := by
    decide
  refine ⟨hload, (tft_loop_safe_iff hload).mpr ?_⟩
  intro val n hlast hn
  have hval : (roundSettings (getLines (ascii "[tft]\ntft_round_seconds = 60 # a minute\n"))).getLast? = some (ascii "60") := by decide
  have hsixty : stoul 10 (ascii "60") = .ok 60 := by decide
  cases hval.symm.trans hlast
  cases hsixty.symm.trans hn
  decide

/-- With rounds of two hours there are none to a decay, and the first round divides by that. -/
theorem not_loopsSafely_two_hours :
    Config.load wholeNumbers "anonrouter.conf" (some (ascii "tft_round_seconds = 7200\n")) = .ok { roundSeconds := 7200 } ∧
      roundsPerDecay { roundSeconds := 7200 } = .ok 0 ∧ ¬LoopsSafely { roundSeconds := 7200 } := by
  refine ⟨by decide, rfl, ?_⟩
  intro hsafe
  have hlong := (fit_of_loopsSafely rfl hsafe).2
  exact absurd hlong (by decide)

end ScatterWeb.AnonRouter
