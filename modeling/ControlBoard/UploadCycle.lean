import ControlBoard.AtClient
import ControlBoard.Kernel
import Mathlib.Algebra.Order.Floor.Div

/-!
# The upload period

`doing_cyc` turns its argument into `upload_cycle`, and `main` sleeps that many milliseconds
between two uploads. On the way the number is an `int`, an `uint32_t`, an `rt_int32_t` and a
count of ticks.
-/

namespace ControlBoard

/-! ## From the text to the ticks -/

/-- The loop of `atoi_` (`applications/main.c:33-42`) with the sum `n` so far. -/
def atoiFrom : BitVec 32 → List UInt8 → BitVec 32
  | n, [] => n
  | n, c :: s =>
    if isDigit c then atoiFrom (10 * n + (BitVec.ofNat 32 c.toNat - 48)) s else n

def atoi (s : List UInt8) : BitVec 32 := atoiFrom 0 s

/-- No sum of the loop leaves the range of an `int`. -/
def AtoiFits : Nat → List UInt8 → Prop
  | _, [] => True
  | n, c :: s =>
    isDigit c → 10 * n + (c.toNat - 48) < 2 ^ 31 ∧ AtoiFits (10 * n + (c.toNat - 48)) s

/-- `doing_cyc` (`applications/main.c:44-52`): whether the error is printed, and `upload_cycle`
afterwards, which is assigned in either case. Without a word behind the command `argv[1]` is
`RT_NULL`, and `atNull` is what lies at address 0. -/
def doingCyc (atNull : List UInt8) (argv : List CString) (_uploadCycle : BitVec 32) :
    Bool × BitVec 32 :=
  (argv.length ≠ 2, atoi ((argv[1]?.map Subtype.val).getD atNull))

/-- The call `rt_thread_mdelay(ms)` (`Kernel/thread.c:541-548`) at tick `now` ends after exactly
`k` ticks: the timer of the thread is started, and the check of the tick `k` is the first to
find it expired. The tick in which the call is made is past its check. -/
def SleepsFor (now ms : BitVec 32) (k : Nat) : Prop :=
  ∃ timeout ∈ rtTimerStart now (rtTickFromMillisecond ms),
    1 ≤ k ∧ rtTimerExpired (now + BitVec.ofNat 32 k) timeout ∧
      ∀ j, 1 ≤ j → j < k → ¬ rtTimerExpired (now + BitVec.ofNat 32 j) timeout

/-- The period that a command asks for: one number of at least a millisecond that an `int` can
hold. -/
def typedPeriod : List CString → Option Nat
  | [_, s] =>
    if s.val ≠ [] ∧ s.val.all isDigit ∧ 1 ≤ decimal s.val ∧ decimal s.val ≤ 2147483647 then
      some (decimal s.val)
    else none
  | _ => none

/-- The ticks of a period of `v` milliseconds. -/
def periodTicks (v : Nat) : Nat := v * rtTickPerSecond.toNat ⌈/⌉ 1000

/-- Whatever the period was, a command that asks for one sets it and `main` sleeps for it, and
any other command leaves it. -/
def KeepsPeriod (atNull : List UInt8) (argv : List CString) : Prop :=
  ∀ uploadCycle : BitVec 32,
    let uploadCycle' := (doingCyc atNull argv uploadCycle).2
    match typedPeriod argv with
    | some v =>
      uploadCycle' = BitVec.ofNat 32 v ∧ (∀ s ∈ argv[1]?, AtoiFits 0 s.val) ∧
        1 ≤ periodTicks v ∧ periodTicks v < (rtTickMax / 2).toNat ∧
        ∀ now, SleepsFor now uploadCycle' (periodTicks v)
    | none => uploadCycle' = uploadCycle

/-! ## The number -/

theorem atoiFrom_eq (n : Nat) (s : List UInt8) :
    atoiFrom (BitVec.ofNat 32 n) s =
      BitVec.ofNat 32 ((s.takeWhile isDigit).foldl (fun n d => 10 * n + (d.toNat - 48)) n) := by
  induction s generalizing n with
  | nil => rfl
  | cons c s ih =>
    rw [atoiFrom]
    by_cases hc : isDigit c
    · have hge : 48 ≤ c.toNat := by
        simp only [isDigit, Bool.and_eq_true, decide_eq_true_eq] at hc
        exact UInt8.le_iff_toNat_le.mp hc.1
      have hsum : 10 * BitVec.ofNat 32 n + (BitVec.ofNat 32 c.toNat - 48) =
          BitVec.ofNat 32 (10 * n + (c.toNat - 48)) := by
        have := c.toNat_lt
        bv_omega
      rw [if_pos hc, hsum, ih, List.takeWhile_cons_of_pos hc, List.foldl_cons]
    · rw [if_neg hc, List.takeWhile_cons_of_neg hc, List.foldl_nil]

/-- `atoi_` computes the number of the digits in front, modulo the size of an `int`. -/
theorem atoi_eq (s : List UInt8) : atoi s = BitVec.ofNat 32 (decimal (s.takeWhile isDigit)) :=
  atoiFrom_eq 0 s

theorem le_foldl_digits (n : Nat) (s : List UInt8) :
    n ≤ s.foldl (fun n d => 10 * n + (d.toNat - 48)) n := by
  induction s generalizing n with
  | nil => exact Nat.le_refl n
  | cons c s ih =>
    have hle := ih (10 * n + (c.toNat - 48))
    rw [List.foldl_cons]
    omega

/-- A number that an `int` can hold is computed without overflow. -/
theorem atoiFits_of_lt {n : Nat} {s : List UInt8}
    (h : s.foldl (fun n d => 10 * n + (d.toNat - 48)) n < 2 ^ 31) : AtoiFits n s := by
  induction s generalizing n with
  | nil => trivial
  | cons c s ih =>
    rw [List.foldl_cons] at h
    intro _
    exact ⟨Nat.lt_of_le_of_lt (le_foldl_digits _ s) h, ih h⟩

/-! ## The sleep -/

theorem half_rtTickMax : rtTickMax / 2 = BitVec.ofNat 32 (2 ^ 31 - 1) := by
  decide

/-- Up to its length, a timer is found expired only at its end. -/
theorem rtTimerExpired_iff {now tick : BitVec 32} (htick : tick < rtTickMax / 2) {j : Nat}
    (hj : j ≤ tick.toNat) :
    rtTimerExpired (now + BitVec.ofNat 32 j) (now + tick) ↔ j = tick.toNat := by
  have hdiff : now + BitVec.ofNat 32 j - (now + tick) = BitVec.ofNat 32 j - tick := by
    bv_omega
  rw [half_rtTickMax] at htick
  rw [rtTimerExpired, hdiff, half_rtTickMax]
  bv_omega

/-- A timer of no ticks is found expired by the next check. -/
theorem rtTimerExpired_next (now : BitVec 32) :
    rtTimerExpired (now + BitVec.ofNat 32 1) (now + BitVec.ofNat 32 0) := by
  have hdiff : now + BitVec.ofNat 32 1 - (now + BitVec.ofNat 32 0) = BitVec.ofNat 32 1 := by
    bv_omega
  rw [rtTimerExpired, hdiff, half_rtTickMax]
  decide

/-- The sleep has the ticks of the timer, and one if it has none. -/
theorem sleepsFor_iff {now ms : BitVec 32} {k : Nat} :
    SleepsFor now ms k ↔
      rtTickFromMillisecond ms < rtTickMax / 2 ∧ k = max (rtTickFromMillisecond ms).toNat 1 := by
  constructor
  · intro h
    obtain ⟨timeout, hstart, hpos, hend, hbefore⟩ := h
    unfold rtTimerStart at hstart
    split at hstart
    · rename_i htick
      cases hstart
      refine ⟨htick, ?_⟩
      rcases Nat.eq_zero_or_pos (rtTickFromMillisecond ms).toNat with hzero | hsome
      · have hnone : rtTickFromMillisecond ms = BitVec.ofNat 32 0 := BitVec.eq_of_toNat_eq hzero
        rcases Nat.lt_or_ge 1 k with hlong | hshort
        · exact absurd (hnone ▸ rtTimerExpired_next now) (hbefore 1 (Nat.le_refl 1) hlong)
        · omega
      · rcases Nat.lt_or_ge (rtTickFromMillisecond ms).toNat k with hlt | hge
        · exact absurd ((rtTimerExpired_iff htick (Nat.le_refl _)).mpr rfl) (hbefore _ hsome hlt)
        · have := (rtTimerExpired_iff htick hge).mp hend
          omega
    · cases hstart
  · intro h
    obtain ⟨htick, rfl⟩ := h
    refine ⟨_, if_pos htick, Nat.le_max_right _ _, ?_, ?_⟩
    · rcases Nat.eq_zero_or_pos (rtTickFromMillisecond ms).toNat with hzero | hsome
      · have hnone : rtTickFromMillisecond ms = BitVec.ofNat 32 0 := BitVec.eq_of_toNat_eq hzero
        rw [hnone]
        exact rtTimerExpired_next now
      · rw [Nat.max_eq_left hsome]
        exact (rtTimerExpired_iff htick (Nat.le_refl _)).mpr rfl
    · intro j hj hlt hexpired
      have hle : j ≤ (rtTickFromMillisecond ms).toNat := by omega
      have := (rtTimerExpired_iff htick hle).mp hexpired
      omega

theorem tdiv_cases (p q : Int) :
    (0 ≤ p ∧ p.tdiv q = p / q) ∨ (p < 0 ∧ p.tdiv q = -(-p / q)) := by
  rcases Int.lt_or_le p 0 with hneg | hpos
  · have hdiv : (-p).tdiv q = -p / q := Int.tdiv_eq_ediv_of_nonneg (by omega)
    rw [Int.neg_tdiv] at hdiv
    exact .inr ⟨hneg, by omega⟩
  · exact .inl ⟨hpos, Int.tdiv_eq_ediv_of_nonneg hpos⟩

/-- The product of the conversion is an `int`, too. -/
theorem toInt_rtTickFromMillisecond {v : Nat} (h : v < 2 ^ 31) :
    (rtTickFromMillisecond (BitVec.ofNat 32 v)).toInt =
      (Int.bmod (100 * v + 999) (2 ^ 32)).tdiv 1000 := by
  have hint : (BitVec.ofNat 32 v).toInt = v := by
    rw [BitVec.toInt_eq_toNat_of_lt (by rw [BitVec.toNat_ofNat]; omega), BitVec.toNat_ofNat]
    omega
  have hpos : (BitVec.ofNat 32 v).slt 0 = false := by
    rw [BitVec.slt_eq_decide, hint, decide_eq_false_iff_not]
    exact Int.not_lt.mpr (Int.natCast_nonneg v)
  have hproduct : (rtTickPerSecond * BitVec.ofNat 32 v + 999).toInt =
      Int.bmod (100 * v + 999) (2 ^ 32) := by
    rw [BitVec.toInt_add, BitVec.toInt_mul, hint, rtTickPerSecond]
    simp
  have hthousand : (1000 : BitVec 32).toInt = 1000 := by decide
  rw [rtTickFromMillisecond, hpos, if_neg (by simp), BitVec.toInt_sdiv, hproduct, hthousand]
  have hge : -2 ^ 31 ≤ Int.bmod (100 * v + 999) (2 ^ 32) := Int.le_bmod (by decide)
  have hlt : Int.bmod (100 * v + 999) (2 ^ 32) < 2 ^ 31 := Int.bmod_lt (by decide)
  have hquotient := tdiv_cases (Int.bmod (100 * v + 999) (2 ^ 32)) 1000
  exact Int.bmod_eq_of_le (by omega) (by omega)

theorem periodTicks_eq (v : Nat) : periodTicks v = (100 * v + 999) / 1000 := by
  rw [periodTicks, Nat.ceilDiv_eq_add_pred_div, Nat.mul_comm]
  rfl

/-- `main` sleeps for a period of `v` milliseconds exactly as long as the product fits. -/
theorem sleepsFor_periodTicks_iff {now : BitVec 32} {v : Nat} (hpos : 1 ≤ v) (h : v < 2 ^ 31) :
    SleepsFor now (BitVec.ofNat 32 v) (periodTicks v) ↔ v ≤ 21474826 := by
  have htick := toInt_rtTickFromMillisecond h
  have hlt := (rtTickFromMillisecond (BitVec.ofNat 32 v)).isLt
  have hquotient := tdiv_cases (Int.bmod (100 * v + 999) (2 ^ 32)) 1000
  have hge : -2 ^ 31 ≤ Int.bmod (100 * v + 999) (2 ^ 32) := Int.le_bmod (by decide)
  have hlt : Int.bmod (100 * v + 999) (2 ^ 32) < 2 ^ 31 := Int.bmod_lt (by decide)
  have hbdiv := Int.bdiv_add_bmod (100 * v + 999) (2 ^ 32)
  rw [BitVec.toInt_eq_toNat_cond] at htick
  rw [sleepsFor_iff, periodTicks_eq, half_rtTickMax, BitVec.lt_def, BitVec.toNat_ofNat]
  by_cases hfits : Int.bdiv (100 * v + 999) (2 ^ 32) = 0
  · split at htick
    · omega
    · omega
  · -- a product that wrapped is too small for its period
    have hlarge : 1 ≤ Int.bdiv (100 * v + 999) (2 ^ 32) := by omega
    split at htick
    · omega
    · omega

/-! ## The command -/

variable {atNull : List UInt8} {argv : List CString} {v : Nat}

theorem typedPeriod_eq_some (h : typedPeriod argv = some v) :
    ∃ name s, argv = [name, s] ∧ (∀ c ∈ s.val, isDigit c) ∧ decimal s.val = v ∧ 1 ≤ v ∧
      v < 2 ^ 31 := by
  unfold typedPeriod at h
  split at h
  · rename_i name s
    split at h
    · rename_i hs
      cases h
      obtain ⟨-, hdigits, hpos, hle⟩ := hs
      exact ⟨name, s, rfl, List.all_eq_true.mp hdigits, rfl, hpos, by omega⟩
    · cases h
  · cases h

/-- A typed period is taken as it is. -/
theorem doingCyc_of_typed (atNull : List UInt8) (h : typedPeriod argv = some v)
    (uploadCycle : BitVec 32) :
    (doingCyc atNull argv uploadCycle).2 = BitVec.ofNat 32 v ∧
      ∀ s ∈ argv[1]?, AtoiFits 0 s.val := by
  obtain ⟨name, s, rfl, hdigits, rfl, -, hlt⟩ := typedPeriod_eq_some h
  have htake : s.val.takeWhile isDigit = s.val := List.takeWhile_eq_self_iff.mpr hdigits
  constructor
  · simp [doingCyc, atoi_eq, htake]
  · intro s' hs'
    cases hs'
    exact atoiFits_of_lt hlt

/-- The sleep of a typed period. -/
theorem KeepsPeriod.sleeps (h : KeepsPeriod atNull argv) (htyped : typedPeriod argv = some v) :
    SleepsFor 0 (BitVec.ofNat 32 v) (periodTicks v) := by
  have hkeeps := h 0
  rw [htyped] at hkeeps
  obtain ⟨hset, -, -, -, hsleeps⟩ := hkeeps
  rw [hset] at hsleeps
  exact hsleeps 0

/-- A command that asks for no period changes it. -/
theorem not_keepsPeriod_of_untyped (htyped : typedPeriod argv = none) :
    ¬ KeepsPeriod atNull argv := by
  intro h
  have hkeeps := h ((doingCyc atNull argv 0).2 + 1)
  rw [htyped] at hkeeps
  have hsame : (doingCyc atNull argv 0).2 = (doingCyc atNull argv 0).2 + 1 := hkeeps
  bv_omega

/-- A command keeps to its period exactly if it asks for one of up to 21474826 milliseconds,
which is almost six hours. -/
theorem keepsPeriod_iff (atNull : List UInt8) (argv : List CString) :
    KeepsPeriod atNull argv ↔ ∃ v ∈ typedPeriod argv, v ≤ 21474826 := by
  cases htyped : typedPeriod argv with
  | none => exact iff_of_false (not_keepsPeriod_of_untyped htyped) (by simp)
  | some v =>
    obtain ⟨-, -, -, -, -, hpos, hlt⟩ := typedPeriod_eq_some htyped
    have hiff : (∃ v' ∈ some v, v' ≤ 21474826) ↔ v ≤ 21474826 := by simp
    rw [hiff]
    constructor
    · intro h
      exact (sleepsFor_periodTicks_iff hpos hlt).mp (h.sleeps htyped)
    · intro h uploadCycle
      obtain ⟨hset, hfits⟩ := doingCyc_of_typed atNull htyped uploadCycle
      rw [htyped]
      refine ⟨hset, hfits, ?_, ?_, fun now => ?_⟩
      · rw [periodTicks_eq]
        omega
      · rw [periodTicks_eq, half_rtTickMax, BitVec.toNat_ofNat]
        omega
      · rw [hset]
        exact (sleepsFor_periodTicks_iff hpos hlt).mpr h

/-- `doing_cyc abc` sets a period of 0, and that of `doing_cyc 21474827` trips the assertion. -/
theorem period_lost :
    ¬ KeepsPeriod [] [⟨ascii "doing_cyc", by decide⟩, ⟨ascii "abc", by decide⟩] ∧
      ¬ KeepsPeriod [] [⟨ascii "doing_cyc", by decide⟩, ⟨ascii "21474827", by decide⟩] := by
  constructor
  · exact not_keepsPeriod_of_untyped (by decide)
  · intro h
    have hsleeps := h.sleeps (v := 21474827) (by decide +kernel)
    have hle := (sleepsFor_periodTicks_iff (by omega) (by omega)).mp hsleeps
    omega

end ControlBoard
