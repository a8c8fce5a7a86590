import Kangaroos.Logic.Triple
import Kangaroos.Machine

/-!
# Time

`Duration`, `Instant` and `Timer`, all counted in ticks. `Timer::wait` is the critical
section of `sleep_until` followed by `advance` on the timer of the task that returns.
-/

namespace Kangaroos

/-- What `+` and `*` do on overflow: `dev` panics and `release` wraps. -/
inductive Profile where
  | dev
  | release
  deriving DecidableEq

/-- The panics "attempt to add with overflow" and "attempt to multiply with overflow". -/
inductive Overflow where
  | add
  | mul
  deriving DecidableEq

namespace Profile

/-- The result of an operator of `u64` whose exact result is known. -/
def arith (profile : Profile) (overflow : Overflow) (exact : Nat) : Except Overflow U64 :=
  match profile with
  | dev => if exact < 2 ^ 64 then .ok (Fin.ofNat (2 ^ 64) exact) else .error overflow
  | release => .ok (Fin.ofNat (2 ^ 64) exact)

/-- `x + y`. -/
def add (profile : Profile) (x y : U64) : Except Overflow U64 :=
  profile.arith .add (x.val + y.val)

/-- `x * y`. -/
def mul (profile : Profile) (x y : U64) : Except Overflow U64 :=
  profile.arith .mul (x.val * y.val)

/-- An operator that returns returns the wrapped result, and one that fits returns. -/
theorem arith_eq_ok {profile : Profile} {overflow : Overflow} {exact : Nat} {result : U64} :
    profile.arith overflow exact = .ok result ↔
      result.val = exact % 2 ^ 64 ∧ (exact < 2 ^ 64 ∨ profile = release) := by
  have wrapped : (Fin.ofNat (2 ^ 64) exact = result) ↔ result.val = exact % 2 ^ 64 := by
    rw [Fin.ext_iff, eq_comm, Fin.val_ofNat]
  cases profile with
  | dev =>
      unfold arith
      simp only
      split <;> simp_all
  | release => simp only [arith, Except.ok.injEq, wrapped, or_true, and_true]

/-- A conversion that begins with a product. -/
theorem of_mul_eq_ok {profile : Profile} {α : Type} {x y : U64} {convert : U64 → α} {result : α} :
    (profile.mul x y >>= fun product => .ok (convert product)) = .ok result ↔
      convert (x * y) = result ∧ (x.val * y.val < 2 ^ 64 ∨ profile = release) := by
  constructor
  · intro returned
    obtain ⟨product, formed, converted⟩ := Except.ok_of_bind returned
    obtain ⟨wrapped, returns⟩ := arith_eq_ok.mp formed
    obtain rfl : product = x * y := Fin.ext (wrapped.trans (Fin.val_mul x y).symm)
    exact ⟨Except.ok.inj converted, returns⟩
  · rintro ⟨rfl, returns⟩
    have formed : profile.mul x y = .ok (x * y) := arith_eq_ok.mpr ⟨Fin.val_mul x y, returns⟩
    rw [formed, Except.ok_bind]

end Profile

/-- `TICKS_PER_SEC`. -/
def ticksPerSec : U64 := 1000

/-- `Duration`: a span of time measured in SysTick ticks. -/
@[ext] structure Duration where
  ticks : U64
  deriving DecidableEq

namespace Duration

/-- `Duration::ZERO`. -/
def zero : Duration := ⟨0⟩

/-- `Duration::from_ticks`. -/
def fromTicks (ticks : U64) : Duration := ⟨ticks⟩

/-- `Duration::from_millis`: the product is formed before the division. -/
def fromMillis (profile : Profile) (ms : U64) : Except Overflow Duration := do
  let product ← profile.mul ms ticksPerSec
  .ok ⟨product / 1000⟩

/-- `Duration::from_secs`. -/
def fromSecs (profile : Profile) (secs : U64) : Except Overflow Duration := do
  let ticks ← profile.mul secs ticksPerSec
  .ok ⟨ticks⟩

/-- `Duration::as_ticks`. -/
def asTicks (duration : Duration) : U64 := duration.ticks

/-- `Duration::as_millis`. -/
def asMillis (profile : Profile) (duration : Duration) : Except Overflow U64 := do
  let product ← profile.mul duration.ticks 1000
  .ok (product / ticksPerSec)

/-- `Duration::as_secs`. -/
def asSecs (duration : Duration) : U64 := duration.ticks / ticksPerSec

/-- `Add for Duration`, and what `AddAssign` stores. -/
def add (profile : Profile) (duration rhs : Duration) : Except Overflow Duration := do
  let ticks ← profile.add duration.ticks rhs.ticks
  .ok ⟨ticks⟩

/-- `Sub for Duration`: saturates at zero. -/
def sub (duration rhs : Duration) : Duration :=
  ⟨if rhs.ticks ≤ duration.ticks then duration.ticks - rhs.ticks else 0⟩

theorem sub_val (duration rhs : Duration) :
    (duration.sub rhs).ticks.val = duration.ticks.val - rhs.ticks.val := by
  unfold sub
  split
  · rename_i fits
    exact Fin.sub_val_of_le fits
  · rename_i more
    rw [not_le, Fin.lt_def] at more
    exact (Nat.sub_eq_zero_of_le more.le).symm

end Duration

/-- `Instant`: a SysTick tick count since boot. -/
structure Instant where
  ticks : U64
  deriving DecidableEq

namespace Instant

variable {n : Nat} {V Link Head : Type}

/-- `Instant::now`. -/
def now (kernel : Kernel n V Link Head) : Instant := ⟨kernel.tickCount⟩

/-- `Instant::checked_duration_since`. -/
def checkedDurationSince (self earlier : Instant) : Option Duration :=
  if earlier.ticks ≤ self.ticks then some ⟨self.ticks - earlier.ticks⟩ else none

/-- `Instant::saturating_duration_since`. -/
def saturatingDurationSince (self earlier : Instant) : Duration :=
  ⟨if earlier.ticks ≤ self.ticks then self.ticks - earlier.ticks else 0⟩

/-- `Instant::elapsed`. -/
def elapsed (kernel : Kernel n V Link Head) (self : Instant) : Duration :=
  (now kernel).saturatingDurationSince self

/-- The saturating difference is the checked one, and zero where there is none. -/
theorem saturating_eq_checked (self earlier : Instant) :
    self.saturatingDurationSince earlier =
      (self.checkedDurationSince earlier).getD Duration.zero := by
  unfold saturatingDurationSince checkedDurationSince
  split <;> rfl

end Instant

/-- `Timer`: the absolute tick of the next deadline, and the period of a periodic timer. -/
structure Timer where
  next : U64
  period : Option U64
  deriving DecidableEq

namespace Timer

variable {n : Nat} {V Link Head : Type}

/-- `Timer::after`. -/
def after (kernel : Kernel n V Link Head) (delay : Duration) : Timer where
  next := kernel.tickCount + delay.asTicks
  period := none

/-- `Timer::every`. -/
def every (kernel : Kernel n V Link Head) (period : Duration) : Timer where
  next := kernel.tickCount + period.asTicks
  period := some period.asTicks

/-- The critical section of `Timer::wait`: `sleep_until(self.next)`. -/
def wait (timer : Timer) : Call V := .sleepUntil timer.next

/-- The rest of `Timer::wait`: the deadline of a periodic timer advances by one period. -/
def advance (timer : Timer) : Timer :=
  match timer.period with
  | some period => { timer with next := timer.next + period }
  | none => timer

end Timer

end Kangaroos
