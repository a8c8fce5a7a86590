import Kangaroos.Timer

/-!
# Duration conversions

The conversions form a 64-bit product before they divide. They are exact for the values
whose product by 1000 fits, and for no others, although at one tick a millisecond the
answer always fits: beyond that bound `dev` panics, and `release` divides a wrapped product.
-/

namespace Kangaroos

namespace Duration

variable (profile : Profile)

/-- `from_millis(x)` is the exact value if that fits. -/
def FromMillisExact (x : U64) : Prop :=
  x.val * ticksPerSec.val / 1000 < 2 ^ 64 →
    ∃ duration, fromMillis profile x = .ok duration ∧
      duration.asTicks.val = x.val * ticksPerSec.val / 1000

/-- `from_ticks(x).as_millis()` is the exact value if that fits. -/
def AsMillisExact (x : U64) : Prop :=
  x.val * 1000 / ticksPerSec.val < 2 ^ 64 →
    ∃ millis, (fromTicks x).asMillis profile = .ok millis ∧
      millis.val = x.val * 1000 / ticksPerSec.val

/-- `from_secs(x).as_secs()` is `x` if the ticks of `x` seconds fit. -/
def SecsExact (x : U64) : Prop :=
  x.val * ticksPerSec.val < 2 ^ 64 →
    ∃ duration, fromSecs profile x = .ok duration ∧ duration.asSecs = x

/-- `from_millis(d.as_millis())` is `d`, for the duration of `x` ticks. -/
def MillisRoundTrip (x : U64) : Prop :=
  ∃ millis, (fromTicks x).asMillis profile = .ok millis ∧ fromMillis profile millis = .ok (fromTicks x)

/-- `as_millis` is monotone on the durations of at most `bound` ticks. -/
def MillisMonotone (bound : U64) : Prop :=
  ∀ x y : U64, x ≤ y → y ≤ bound → ∃ millis millis',
    (fromTicks x).asMillis profile = .ok millis ∧ (fromTicks y).asMillis profile = .ok millis' ∧
      millis ≤ millis'

variable {profile} {x : U64}

/-- At this tick rate both conversions multiply and divide by 1000. -/
theorem fromMillis_eq_ok {duration : Duration} : fromMillis profile x = .ok duration ↔
    duration.ticks.val = x.val * 1000 % 2 ^ 64 / 1000 ∧
      (x.val * 1000 < 2 ^ 64 ∨ profile = .release) := by
  refine Profile.of_mul_eq_ok.trans (and_congr_left' ?_)
  rw [Duration.ext_iff, Fin.ext_iff, eq_comm]
  rfl

theorem asMillis_eq_ok {millis : U64} : (fromTicks x).asMillis profile = .ok millis ↔
    millis.val = x.val * 1000 % 2 ^ 64 / 1000 ∧
      (x.val * 1000 < 2 ^ 64 ∨ profile = .release) := by
  refine Profile.of_mul_eq_ok.trans (and_congr_left' ?_)
  rw [Fin.ext_iff, eq_comm]
  rfl

/-- A wrapped product is never the product, not even after the division. -/
theorem wrapped_div_eq_iff {x : Nat} : x * 1000 % 2 ^ 64 / 1000 = x ↔ x * 1000 < 2 ^ 64 := by
  omega

theorem fromMillisExact_iff : FromMillisExact profile x ↔ x.val * 1000 < 2 ^ 64 := by
  have divides : x.val * ticksPerSec.val / 1000 = x.val := Nat.mul_div_cancel _ (by decide)
  unfold FromMillisExact
  simp only [divides, x.isLt, forall_const, fromMillis_eq_ok]
  constructor
  · rintro ⟨duration, ⟨ticks, _⟩, isExact⟩
    exact wrapped_div_eq_iff.mp (ticks.symm.trans isExact)
  · intro fits
    exact ⟨fromTicks x, ⟨(wrapped_div_eq_iff.mpr fits).symm, .inl fits⟩, rfl⟩

theorem asMillisExact_iff : AsMillisExact profile x ↔ x.val * 1000 < 2 ^ 64 := by
  have divides : x.val * 1000 / ticksPerSec.val = x.val := Nat.mul_div_cancel _ (by decide)
  unfold AsMillisExact
  simp only [divides, x.isLt, forall_const, asMillis_eq_ok]
  constructor
  · rintro ⟨millis, ⟨divided, _⟩, isExact⟩
    exact wrapped_div_eq_iff.mp (divided.symm.trans isExact)
  · intro fits
    exact ⟨x, ⟨(wrapped_div_eq_iff.mpr fits).symm, .inl fits⟩, rfl⟩

/-- Seconds are multiplied only, so the answer fits when the product does. -/
theorem secsExact : SecsExact profile x := by
  intro fits
  refine ⟨⟨x * ticksPerSec⟩, Profile.of_mul_eq_ok.mpr ⟨rfl, .inl fits⟩, Fin.ext ?_⟩
  have product : (x * ticksPerSec).val = x.val * ticksPerSec.val :=
    (Fin.val_mul x ticksPerSec).trans (Nat.mod_eq_of_lt fits)
  calc (x * ticksPerSec).val / ticksPerSec.val = x.val * ticksPerSec.val / ticksPerSec.val := by
        rw [product]
    _ = x.val := Nat.mul_div_cancel _ (by decide)

theorem millisRoundTrip_iff : MillisRoundTrip profile x ↔ x.val * 1000 < 2 ^ 64 := by
  simp only [MillisRoundTrip, asMillis_eq_ok, fromMillis_eq_ok]
  constructor
  · rintro ⟨millis, ⟨divided, _⟩, back, _⟩
    -- the way back starts below the wrapped product, so it cannot make up for a wrap
    have ticks : x.val = millis.val * 1000 % 2 ^ 64 / 1000 := back
    omega
  · intro fits
    have divided : x.val = x.val * 1000 % 2 ^ 64 / 1000 := (wrapped_div_eq_iff.mpr fits).symm
    exact ⟨x, ⟨divided, .inl fits⟩, divided, .inl fits⟩

theorem millisMonotone_iff : MillisMonotone profile x ↔ x.val * 1000 < 2 ^ 64 := by
  simp only [MillisMonotone, asMillis_eq_ok]
  constructor
  · intro monotone
    by_contra wraps
    -- the longest duration whose product fits, and the next one, which wraps to zero
    have longest : (18446744073709551 : U64).val = 18446744073709551 := rfl
    have next : (18446744073709552 : U64).val = 18446744073709552 := rfl
    obtain ⟨millis, millis', ⟨first, _⟩, ⟨second, _⟩, ordered⟩ :=
      monotone 18446744073709551 18446744073709552 (by decide) (by rw [Fin.le_def]; omega)
    rw [Fin.le_def] at ordered
    omega
  · intro fits y z ordered bounded
    have fitsZ : z.val * 1000 < 2 ^ 64 := (Nat.mul_le_mul_right 1000 bounded).trans_lt fits
    have fitsY : y.val * 1000 < 2 ^ 64 := (Nat.mul_le_mul_right 1000 ordered).trans_lt fitsZ
    exact ⟨y, z, ⟨(wrapped_div_eq_iff.mpr fitsY).symm, .inl fitsY⟩,
      ⟨(wrapped_div_eq_iff.mpr fitsZ).symm, .inl fitsZ⟩, ordered⟩

/-- In both builds, and for every number of ticks or milliseconds, the conversions are exact,
invert each other and keep the order exactly as long as the product by 1000 fits. -/
theorem conversions_exact_iff (profile : Profile) (x : U64) :
    (FromMillisExact profile x ↔ x.val * 1000 < 2 ^ 64) ∧
    (AsMillisExact profile x ↔ x.val * 1000 < 2 ^ 64) ∧ SecsExact profile x ∧
    (MillisRoundTrip profile x ↔ x.val * 1000 < 2 ^ 64) ∧
    (MillisMonotone profile x ↔ x.val * 1000 < 2 ^ 64) :=
  ⟨fromMillisExact_iff, asMillisExact_iff, secsExact, millisRoundTrip_iff, millisMonotone_iff⟩

/-- The largest argument: the answer fits, `dev` panics, and `release` yields a smaller one. -/
theorem not_conversions_exact_max :
    ¬(FromMillisExact .dev 18446744073709551615 ∨ FromMillisExact .release 18446744073709551615 ∨
      AsMillisExact .dev 18446744073709551615 ∨ AsMillisExact .release 18446744073709551615) ∧
    fromMillis .dev 18446744073709551615 = .error .mul ∧
    fromMillis .release 18446744073709551615 = .ok ⟨18446744073709550⟩ := by
  have wraps : ¬(18446744073709551615 : U64).val * 1000 < 2 ^ 64 := by decide
  refine ⟨?_, rfl, rfl⟩
  rintro (converts | converts | converts | converts)
  · exact wraps (fromMillisExact_iff.mp converts)
  · exact wraps (fromMillisExact_iff.mp converts)
  · exact wraps (asMillisExact_iff.mp converts)
  · exact wraps (asMillisExact_iff.mp converts)

end Duration

end Kangaroos
