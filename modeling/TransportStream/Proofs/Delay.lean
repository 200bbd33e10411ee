import Mathlib.Data.Nat.ModEq
import TransportStream.Delay

/-!
# The lag of video

Timestamps are numbers of 64 bits, but their clock has 33.  What is compared
with the greatest plausible delay is the difference of two integers modulo
`2 ^ 33`, whatever wraps on the way to it.
-/

namespace TransportStream

namespace AvTimestamps

/-- How far video lags audio on a clock of 33 bits. -/
def lag (t : AvTimestamps) : Nat :=
  (((t.video.toNat : Int) - t.audio.toNat) % 2 ^ 33).toNat

theorem lag_eq (t : AvTimestamps) :
    (t.lag : Int) = ((t.video.toNat : Int) - t.audio.toNat) % 2 ^ 33 :=
  Int.toNat_of_nonneg (Int.emod_nonneg _ (by decide))

theorem modEq_iff_eq_lag {t : AvTimestamps} {n : Nat} (hn : n < 2 ^ 33) :
    t.audio.toNat + n ≡ t.video.toNat [MOD 2 ^ 33] ↔ n = t.lag := by
  have hlag := t.lag_eq
  unfold Nat.ModEq
  constructor
  · intro h
    lia
  · intro h
    lia

theorem lag_of_video_ahead {t : AvTimestamps} {n : Nat} (hpos : 1 ≤ n)
    (hn : n ≤ 2 ^ 33) (h : t.video.toNat + n ≡ t.audio.toNat [MOD 2 ^ 33]) :
    t.lag = 2 ^ 33 - n := by
  have hlag := t.lag_eq
  unfold Nat.ModEq at h
  lia

def clockTime (ticks : Int) : Timestamp :=
  UInt64.ofNat (ticks % 2 ^ 33).toNat

theorem toNat_clockTime (ticks : Int) :
    ((clockTime ticks).toNat : Int) = ticks % 2 ^ 33 := by
  rw [clockTime, UInt64.toNat_ofNat']
  lia

def shift (t : AvTimestamps) (ticks : Int) : AvTimestamps :=
  ⟨clockTime (t.audio.toNat + ticks), clockTime (t.video.toNat + ticks)⟩

theorem lag_shift (t : AvTimestamps) (ticks : Int) :
    (t.shift ticks).lag = t.lag := by
  have hlag := t.lag_eq
  have hshifted := (t.shift ticks).lag_eq
  have haudio := toNat_clockTime (t.audio.toNat + ticks)
  have hvideo := toNat_clockTime (t.video.toNat + ticks)
  simp only [shift] at hshifted ⊢
  lia

end AvTimestamps

namespace Delay

open AvTimestamps

variable (t : AvTimestamps)

theorem toNat_masked_difference :
    ((t.video - t.audio) &&& (timestampRange - 1)).toNat = t.lag := by
  have hlag := t.lag_eq
  have haudio := t.audio.toNat_lt
  have hmask : (timestampRange - 1).toNat = 2 ^ 33 - 1 := rfl
  rw [UInt64.toNat_and, UInt64.toNat_sub, hmask, Nat.and_two_pow_sub_one_eq_mod]
  lia

theorem toNat_ofNat_lag : (UInt64.ofNat t.lag).toNat = t.lag := by
  rw [← toNat_masked_difference, UInt64.ofNat_toNat]

theorem ofTimestamps_eq :
    ofTimestamps t =
      if t.lag ≤ 900000 then .ok ⟨t.audio, t.video, UInt64.ofNat t.lag⟩
      else .error (.implausibleDelay (UInt64.ofNat t.lag)) := by
  have hticks : (t.video - t.audio) &&& (timestampRange - 1) =
      UInt64.ofNat t.lag := by
    rw [← toNat_masked_difference, UInt64.ofNat_toNat]
  have hgreater : maxDelayTicks < UInt64.ofNat t.lag ↔ ¬ t.lag ≤ 900000 := by
    rw [UInt64.lt_iff_toNat_lt, toNat_ofNat_lag, Nat.not_le]
    rfl
  unfold ofTimestamps
  simp only [hticks, hgreater, ite_not]

theorem lag_of_ofTimestamps {d : Delay} (h : ofTimestamps t = .ok d) :
    d.ticks.toNat = t.lag ∧ t.lag ≤ 900000 := by
  rw [ofTimestamps_eq] at h
  split at h
  · rename_i hle
    cases h
    exact ⟨toNat_ofNat_lag t, hle⟩
  · cases h

theorem map_ticks_ofTimestamps :
    (ofTimestamps t).map ticks =
      if t.lag ≤ 900000 then .ok (UInt64.ofNat t.lag)
      else .error (.implausibleDelay (UInt64.ofNat t.lag)) := by
  rw [ofTimestamps_eq]
  split
  · rfl
  · rfl

/-- The ticks of a delay are those of video less those of audio, modulo
`2 ^ 33`, and up to ten seconds of them are accepted.  There is no other lag of
ten seconds at most, video ahead of audio is rejected unless it is ahead by
almost the whole range, and only the distance of the two timestamps matters. -/
theorem ofTimestamps_measures_lag :
    (exists ticks : UInt64,
      (ticks.toNat : Int) = ((t.video.toNat : Int) - t.audio.toNat) % 2 ^ 33 ∧
        ofTimestamps t =
          if ticks.toNat ≤ 900000 then .ok ⟨t.audio, t.video, ticks⟩
          else .error (.implausibleDelay ticks)) ∧
      (forall d, ofTimestamps t = .ok d -> forall n : Nat,
        n ≤ 10 * ticksPerSecond ∧
        t.audio.toNat + n ≡ t.video.toNat [MOD 2 ^ 33] ↔
          n = d.ticks.toNat) ∧
      (forall n, 1 ≤ n -> n < 2 ^ 33 - 900000 ->
        t.video.toNat + n ≡ t.audio.toNat [MOD 2 ^ 33] ->
        exists ticks, ofTimestamps t = .error (.implausibleDelay ticks)) ∧
      forall k : Int,
        (ofTimestamps (t.shift k)).map ticks = (ofTimestamps t).map ticks := by
  have hseconds : 10 * ticksPerSecond = 900000 := rfl
  refine ⟨⟨UInt64.ofNat t.lag, ?_, ?_⟩, ?_, ?_, ?_⟩
  · rw [toNat_ofNat_lag, lag_eq]
  · rw [toNat_ofNat_lag, ofTimestamps_eq]
  · intro d hd n
    rcases lag_of_ofTimestamps t hd with ⟨hticks, hle⟩
    rw [hseconds, hticks]
    constructor
    · rintro ⟨hn, hmod⟩
      exact (modEq_iff_eq_lag (by lia)).mp hmod
    · rintro rfl
      exact ⟨hle, (modEq_iff_eq_lag (by lia)).mpr rfl⟩
  · intro n hpos hn hmod
    have hlag := lag_of_video_ahead hpos (by lia) hmod
    rw [ofTimestamps_eq, if_neg (by lia)]
    exact ⟨_, rfl⟩
  · intro k
    rw [map_ticks_ofTimestamps, map_ticks_ofTimestamps, lag_shift]

def aroundWrap : AvTimestamps :=
  ⟨0x1FFFF5038, 0xAFC8⟩

def videoAhead : AvTimestamps :=
  ⟨1000, 0⟩

theorem ofTimestamps_measures_lag_around_wrap :
    ofTimestamps aroundWrap = .ok ⟨0x1FFFF5038, 0xAFC8, 90000⟩ ∧
      (90000 ≤ 10 * ticksPerSecond ∧
        aroundWrap.audio.toNat + 90000 ≡ aroundWrap.video.toNat [MOD 2 ^ 33]) ∧
      exists ticks, ofTimestamps videoAhead =
        .error (.implausibleDelay ticks) := by
  have hdelay : ofTimestamps aroundWrap = .ok ⟨0x1FFFF5038, 0xAFC8, 90000⟩ := by
    decide
  rcases ofTimestamps_measures_lag aroundWrap with ⟨_, hlag, _⟩
  rcases ofTimestamps_measures_lag videoAhead with ⟨_, _, hahead, _⟩
  exact ⟨hdelay, (hlag _ hdelay 90000).mpr rfl,
    hahead 1000 (by decide) (by decide) rfl⟩

end Delay
end TransportStream
