import Kangaroos.Proofs.TimerWaits

/-!
# Elapsed time

`Instant::now` reads `TICK`, and only SysTick writes it: the span between two readings is the
number of SysTick interrupts between them as long as the counter has not wrapped, and then spans
add up. Behind a wrap `checked_duration_since` finds the later reading earlier.
-/

namespace Kangaroos

/-- Count the SysTick interrupts of a run. -/
def Action.countTicks {V : Type} (action : Action V) (count : Nat) : Nat :=
  match action with
  | .tick => count + 1
  | _ => count

/-- A sum of durations that fits is the same in both profiles. -/
theorem Duration.add_eq_ok {profile : Profile} {duration rhs sum : Duration}
    (exact : duration.ticks.val + rhs.ticks.val = sum.ticks.val) :
    duration.add profile rhs = .ok sum := by
  have fits : duration.ticks.val + rhs.ticks.val < 2 ^ 64 := exact ▸ sum.ticks.isLt
  have formed : profile.add duration.ticks rhs.ticks = .ok sum.ticks :=
    Profile.arith_eq_ok.mpr ⟨by rw [Nat.mod_eq_of_lt fits, exact], .inl fits⟩
  rw [Duration.add, formed, Except.ok_bind]

namespace Instant

variable {self earlier : Instant}

/-- The saturating difference is a natural one. -/
theorem saturatingDurationSince_val (self earlier : Instant) :
    (self.saturatingDurationSince earlier).ticks.val = self.ticks.val - earlier.ticks.val :=
  Duration.sub_val ⟨self.ticks⟩ ⟨earlier.ticks⟩

/-- There is no checked difference from a later instant. -/
theorem checkedDurationSince_eq_none :
    self.checkedDurationSince earlier = none ↔ self.ticks.val < earlier.ticks.val := by
  unfold checkedDurationSince
  split
  · rename_i after
    simpa using after
  · rename_i before
    simpa using before

/-- A checked difference is the saturating one. -/
theorem checkedDurationSince_of_le (after : earlier.ticks.val ≤ self.ticks.val) :
    self.checkedDurationSince earlier = some (self.saturatingDurationSince earlier) := by
  obtain ⟨span, isSpan⟩ := Option.ne_none_iff_exists'.mp
    (mt checkedDurationSince_eq_none.mp (Nat.not_lt.mpr after))
  rw [saturating_eq_checked, isSpan, Option.getD_some]

end Instant

namespace RepMachine

variable {n : Nat} {V : Type} {config : Config n} {first machine : RtosMachine n V} {count : Nat}

/-- The runs from a state on, with the SysTick interrupts counted. -/
def timed (config : Config n) (first : RtosMachine n V) :
    TransitionSystem (RtosMachine n V × Nat) (Action V) :=
  ((system config V).startingAt first).observed 0 fun _ action _ => action.countTicks

/-- The counter advances with SysTick. -/
theorem clock_of_timed (reachable : (system config V).Reachable first)
    (onward : (timed config first).Reachable (machine, count)) :
    machine.kernel.tickCount.val = (first.kernel.tickCount.val + count) % 2 ^ 64 := by
  refine onward.observed_invariant (fun machine count =>
    machine.kernel.tickCount.val = (first.kernel.tickCount.val + count) % 2 ^ 64) ?_ ?_
  · rintro state rfl
    exact (Nat.mod_eq_of_lt state.kernel.tickCount.isLt).symm
  · intro state action next count reached clock performed
    obtain ⟨ticks, stays⟩ := tickCount_step (.of_startingAt reachable reached) performed
    by_cases isTick : action = .tick
    · subst isTick
      rw [ticks rfl, Fin.val_add, clock, Nat.mod_add_mod]
      rfl
    · rw [stays isTick, clock]
      cases action <;> first | rfl | exact absurd rfl isTick

/-- `Instant` measures time in SysTick interrupts: over any stretch of any run, `elapsed` and
`checked_duration_since` give their number exactly if `TICK` has not wrapped since the first
reading. After the first wrap `checked_duration_since` gives `None` and `elapsed` zero until the
counter passes its first reading again. Without a wrap two consecutive spans add up to the whole
one, in both profiles, and the whole one less the first is the second. -/
theorem elapsed_counts_ticks (reachable : (system config V).Reachable first)
    (onward : (timed config first).Reachable (machine, count)) :
    let start := Instant.now first.kernel
    let now := Instant.now machine.kernel
    ((start.elapsed machine.kernel).ticks.val = count ↔ start.ticks.val + count < 2 ^ 64) ∧
    ((now.checkedDurationSince start).map (fun span => span.ticks.val) = some count ↔
      start.ticks.val + count < 2 ^ 64) ∧
    (2 ^ 64 ≤ start.ticks.val + count → count < 2 ^ 64 →
      now.checkedDurationSince start = none ∧ start.elapsed machine.kernel = Duration.zero) ∧
    ∀ last more, (timed config machine).Reachable (last, more) →
      start.ticks.val + count + more < 2 ^ 64 → ∀ profile,
        (start.elapsed machine.kernel).add profile (now.elapsed last.kernel) =
          .ok (start.elapsed last.kernel) ∧
        (start.elapsed last.kernel).sub (start.elapsed machine.kernel) = now.elapsed last.kernel := by
  intro start now
  have clock : now.ticks.val = (start.ticks.val + count) % 2 ^ 64 := clock_of_timed reachable onward
  have small := start.ticks.isLt
  have span : (start.elapsed machine.kernel).ticks.val = now.ticks.val - start.ticks.val :=
    Instant.saturatingDurationSince_val now start
  refine ⟨?_, ?_, fun wrapped once => ?_, fun last more later noWrap profile => ?_⟩
  · omega
  · by_cases after : start.ticks.val ≤ now.ticks.val
    · rw [Instant.checkedDurationSince_of_le after, Option.map_some, Option.some_inj,
        Instant.saturatingDurationSince_val]
      omega
    · rw [Instant.checkedDurationSince_eq_none.mpr (Nat.lt_of_not_le after), Option.map_none]
      simp only [reduceCtorEq, false_iff]
      omega
  · have before : now.ticks.val < start.ticks.val := by omega
    refine ⟨Instant.checkedDurationSince_eq_none.mpr before, Duration.ext (Fin.ext ?_)⟩
    rw [span]
    exact Nat.sub_eq_zero_of_le before.le
  · have reached : (system config V).Reachable machine :=
      .of_startingAt reachable onward.of_observed
    have clock' : last.kernel.tickCount.val = (now.ticks.val + more) % 2 ^ 64 :=
      clock_of_timed reached later
    have second : (now.elapsed last.kernel).ticks.val = last.kernel.tickCount.val - now.ticks.val :=
      Instant.saturatingDurationSince_val (Instant.now last.kernel) now
    have whole : (start.elapsed last.kernel).ticks.val =
        last.kernel.tickCount.val - start.ticks.val :=
      Instant.saturatingDurationSince_val (Instant.now last.kernel) start
    refine ⟨Duration.add_eq_ok (by omega), Duration.ext (Fin.ext ?_)⟩
    rw [Duration.sub_val]
    omega

/-- Three SysTick interrupts, of which the last two are measured. -/
theorem elapsed_counts_ticks_two : ∃ first machine : RtosMachine 4 Unit,
    (timed (Config.small 10 20 30) first).Reachable (machine, 2) ∧
    ((Instant.now first.kernel).elapsed machine.kernel).ticks.val = 2 := by
  let check (first : RtosMachine 4 Unit) : Bool := first.kernel.tickCount = 1 ∧
    (TransitionSystem.executeNoting
      (fun machine action => TransitionSystem.succeeded (machine.perform 0 action))
      (fun _ action _ => Action.countTicks action) (first, 0) [.launch, .tick, .tick]).any
        (fun pair => pair.2 = 2) = true
  obtain ⟨first, reachable, checked⟩ := Machine.exists_of_check [.tick] check
    (by decide +kernel : (Config.small 10 20 30).passes Unit _ _ [.tick] check = true)
  obtain ⟨isOne, executes⟩ := of_decide_eq_true checked
  obtain ⟨⟨machine, count⟩, executed, counted⟩ := (Option.any_eq_true _ _).mp executes
  obtain rfl : count = 2 := of_decide_eq_true counted
  have start : (timed (Config.small 10 20 30) first).Reachable (first, 0) := .initial ⟨rfl, rfl⟩
  have onward : (timed (Config.small 10 20 30) first).Reachable (machine, 2) :=
    .of_executeNoting (fun _ _ _ happens => TransitionSystem.succeeded_eq_some.mp happens)
      start executed
  refine ⟨first, machine, onward, (elapsed_counts_ticks reachable onward).1.mpr ?_⟩
  show first.kernel.tickCount.val + 2 < 2 ^ 64
  rw [isOne]
  decide

end RepMachine

end Kangaroos
