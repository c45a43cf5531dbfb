import DocumentPipeline.RetryPolicy
import Mathlib.Tactic.Linarith

/-! When the backoff is total and bounded. The random source is a protocol:
`uniform` answers with any draw between its arguments. The power of two is
converted to a float before the cap is applied, and the clamp at zero stands
on the jittered branch only. -/

namespace DocumentPipeline.RetryPolicy
open EffectProgram

def drawn : (o : Op) → Except Exn o.Val → Prop
  | .runtime (.uniform low high), .ok value => min low high ≤ value ∧ value ≤ max low high
  | _, _ => False

def draws : Protocol Op Op.Val Exn Unit :=
  .tracking (fun _ o => ∃ low high, o = .runtime (.uniform low high)) drawn (fun _ _ _ => ())

def capped (settings : Settings) (attempt : Int) : ℚ :=
  min (settings.retryBaseDelaySeconds * 2 ^ (max 0 attempt).toNat) settings.retryMaxDelaySeconds

/-- A delay that is not negative and off the capped one by the jitter at most. -/
def Near (settings : Settings) (attempt : Int) (delay : ℚ) : Prop :=
  0 ≤ delay ∧
    |delay - capped settings attempt| ≤ settings.retryJitterRatio * capped settings attempt

def Grows (settings : Settings) (attempt : Int) : Prop :=
  settings.retryJitterRatio = 0 → ∀ earlier ≤ attempt, ∀ before after,
    computeDelay earlier settings = pure before → computeDelay attempt settings = pure after →
    before ≤ after

def Backoff (settings : Settings) (attempt : Int) : Prop :=
  wp draws (computeDelay attempt settings)
    (fun r _ => ∃ delay, r = .ok delay ∧ Near settings attempt delay) () ∧
  Grows settings attempt

variable {settings : Settings} {attempt : Int}

theorem capped_nonneg : 0 ≤ capped settings attempt ↔
    0 ≤ settings.retryBaseDelaySeconds ∧ 0 ≤ settings.retryMaxDelaySeconds := by
  unfold capped
  rw [le_min_iff]
  have positive : (0 : ℚ) < 2 ^ (max 0 attempt).toNat := by positivity
  rw [mul_nonneg_iff_of_pos_right positive]

theorem capped_mono (base : 0 ≤ settings.retryBaseDelaySeconds) {earlier : Int}
    (before : earlier ≤ attempt) : capped settings earlier ≤ capped settings attempt := by
  unfold capped
  have fewer : (max 0 earlier).toNat ≤ (max 0 attempt).toNat := by omega
  have lower : (2 : ℚ) ^ (max 0 earlier).toNat ≤ 2 ^ (max 0 attempt).toNat :=
    pow_le_pow_right₀ (by norm_num) fewer
  gcongr

theorem computeDelay_overflows (large : 1024 ≤ attempt) :
    computeDelay attempt settings =
      throw (.overflow "int too large to convert to float") := by
  have beyond : ¬(max 0 attempt).toNat < 1024 := by omega
  simp only [computeDelay, floatOfPowTwo, if_neg beyond]
  rfl

theorem computeDelay_unjittered (small : attempt < 1024) (none : settings.retryJitterRatio = 0) :
    computeDelay attempt settings = pure (capped settings attempt) := by
  have below : (max 0 attempt).toNat < 1024 := by omega
  simp only [computeDelay, floatOfPowTwo, if_pos below, none, le_refl, if_true]
  rfl

theorem computeDelay_jittered (small : attempt < 1024) (some : 0 < settings.retryJitterRatio) :
    computeDelay attempt settings = (do
      let spread := capped settings attempt * settings.retryJitterRatio
      let value ← runtime (.uniform (-spread) spread)
      return max 0 (capped settings attempt + value)) := by
  have below : (max 0 attempt).toNat < 1024 := by omega
  have jitter : ¬settings.retryJitterRatio ≤ 0 := not_le.mpr some
  simp only [computeDelay, floatOfPowTwo, if_pos below, if_neg jitter]
  rfl

/-- The jitter never takes a delay below zero, so the clamp changes nothing. -/
theorem near_of_drawn (nonneg : 0 ≤ capped settings attempt) {value : ℚ}
    (low : -(capped settings attempt * settings.retryJitterRatio) ≤ value)
    (high : value ≤ capped settings attempt * settings.retryJitterRatio) :
    Near settings attempt (max 0 (capped settings attempt + value)) := by
  have within : capped settings attempt * settings.retryJitterRatio ≤ capped settings attempt :=
    mul_le_of_le_one_right nonneg settings.jitter_checked.2
  have positive : 0 ≤ capped settings attempt + value := by linarith
  rw [max_eq_right positive]
  refine ⟨positive, ?_⟩
  rw [add_sub_cancel_left, abs_le, mul_comm]
  exact ⟨low, high⟩

theorem Near.capped_nonneg {delay : ℚ} (near : Near settings attempt delay) :
    0 ≤ capped settings attempt := by
  obtain ⟨positive, off⟩ := near
  have ratio := settings.jitter_checked.1
  by_contra negative
  have below : capped settings attempt < 0 := not_le.mp negative
  have bound : settings.retryJitterRatio * capped settings attempt ≤ 0 :=
    mul_nonpos_of_nonneg_of_nonpos ratio below.le
  have apart : delay - capped settings attempt ≤ 0 := (le_abs_self _).trans (off.trans bound)
  linarith

theorem grows (small : attempt < 1024) (base : 0 ≤ settings.retryBaseDelaySeconds) :
    Grows settings attempt := by
  intro none earlier before first second firstIs secondIs
  rw [computeDelay_unjittered (lt_of_le_of_lt before small) none] at firstIs
  rw [computeDelay_unjittered small none] at secondIs
  cases firstIs
  cases secondIs
  exact capped_mono base before

theorem computeDelay_near (small : attempt < 1024) (nonneg : 0 ≤ capped settings attempt) :
    wp draws (computeDelay attempt settings)
      (fun r _ => ∃ delay, r = .ok delay ∧ Near settings attempt delay) () := by
  obtain none | some := settings.jitter_checked.1.eq_or_lt
  · rw [computeDelay_unjittered small none.symm, wp_pure]
    refine ⟨_, rfl, nonneg, ?_⟩
    rw [← none, sub_self, abs_zero, zero_mul]
  · rw [computeDelay_jittered small some]
    have spread : 0 ≤ capped settings attempt * settings.retryJitterRatio :=
      mul_nonneg nonneg some.le
    refine wp_tracking_then ⟨_, _, rfl⟩ ?_ ?_
    · rintro value ⟨low, high⟩
      rw [min_eq_left (by linarith)] at low
      rw [max_eq_right (by linarith)] at high
      exact ⟨_, rfl, near_of_drawn nonneg low high⟩
    · exact fun error impossible => impossible.elim

theorem exists_near (h : wp draws (computeDelay attempt settings)
    (fun r _ => ∃ delay, r = .ok delay ∧ Near settings attempt delay) ()) :
    attempt < 1024 ∧ ∃ delay, Near settings attempt delay := by
  by_cases small : attempt < 1024
  · refine ⟨small, ?_⟩
    obtain none | some := settings.jitter_checked.1.eq_or_lt
    · rw [computeDelay_unjittered small none.symm, wp_pure] at h
      obtain ⟨delay, -, near⟩ := h
      exact ⟨delay, near⟩
    · rw [computeDelay_jittered small some] at h
      obtain ⟨delay, -, near⟩ := h.2 (.ok _) () ⟨⟨min_le_max, le_rfl⟩, rfl⟩
      exact ⟨delay, near⟩
  · rw [computeDelay_overflows (not_lt.mp small), wp_throw] at h
    obtain ⟨delay, returned, -⟩ := h
    cases returned

/-- Exactly when every delay is returned, bounded and growing. -/
theorem backoff_iff (settings : Settings) (attempt : Int) :
    Backoff settings attempt ↔ attempt < 1024 ∧
      0 ≤ settings.retryBaseDelaySeconds ∧ 0 ≤ settings.retryMaxDelaySeconds := by
  constructor
  · rintro ⟨returns, -⟩
    obtain ⟨small, delay, near⟩ := exists_near returns
    exact ⟨small, capped_nonneg.mp near.capped_nonneg⟩
  · rintro ⟨small, signs⟩
    exact ⟨computeDelay_near small (capped_nonneg.mpr signs), grows small signs.1⟩

/-- The default settings: the power of two does not fit a float. -/
theorem backoff_overflows : ¬Backoff {} 1024 := by
  rintro ⟨returns, -⟩
  rw [computeDelay_overflows (le_refl 1024), wp_throw] at returns
  obtain ⟨delay, returned, -⟩ := returns
  cases returned

end DocumentPipeline.RetryPolicy
